import WiseOrder.Queues.Dedup
import WiseOrder.Approvals.Gateway

/-! The pipeline of a commit: claim it, summarize, draft a post, save, and ask for
approval. Each of the four steps is a task; what a step raises fails its task and
the workflow. -/
namespace WiseOrder
open Coroutine

/-- The dictionaries that the handlers return, and the end of a pass of a loop. -/
inductive Returned where
  | skipped (workflowId : Option Nat) (reason : String)
  | commit (workflowId approvalId : Nat) (summary : EngineeringSummary) (socialPost : String)
  | demo (workflowId approvalId : Nat) (scenario : String) (artifactCount : Nat)
  | nothing
  | again

def EngineeringSummary.toDict (eng : EngineeringSummary) : Json := .obj [
  ("summary", .str eng.summary), ("changed_files", .arr (eng.changedFiles.map .str)),
  ("changelog", .str eng.changelog), ("risk_level", .str eng.riskLevel)]

def SocialDraft.toDict (soc : SocialDraft) : Json := .obj [("post", .str soc.post)]

def logEntry (event : String) (data : Json) : Async LogEntry := do
  let now ← utcnow
  return ⟨now, event, data⟩

def appendLog (workflowId : Nat) (entry : LogEntry) : Async Unit :=
  session (.appendLog workflowId entry)

def createTask (type : String) (workflowId : Nat) (payload : Json) : Async Nat :=
  session (.createTask type workflowId payload)

def completeTask (taskId : Nat) (result : Json) : Async Unit :=
  session (.completeTask taskId result)

def failTask (taskId : Nat) (error : String) : Async Unit := session (.failTask taskId error)

namespace CommitPipeline

def failWorkflow (workflowId : Nat) (error : String) : Async Unit :=
  session (.failWorkflow workflowId "workflow_failed" error)

/-- `payload.keys()` must hold the required keys. -/
def requireKeys (payload : Json) (required : List String) :
    Except PyException (List (String × Json)) :=
  match payload with
  | .obj fields =>
      let missing := required.filter fun k => (Json.lookup k fields).isNone
      if missing.isEmpty then .ok fields
      else .error (.valueError ("commit_pipeline payload missing required keys: " ++
        Python.repr (.arr (missing.map .str))))
  | other =>
      .error (.attributeError ("'" ++ Python.typeName other ++ "' object has no attribute 'keys'"))

/-- The text of `sha[:8]`. -/
def short (sha : Json) : Except PyException String :=
  match sha with
  | .str s => .ok (Python.take 8 s)
  | .arr items => .ok (Python.repr (.arr (items.take 8)))
  | .obj _ => .error (.typeError "unhashable type: 'slice'")
  | other => .error (.typeError ("'" ++ Python.typeName other ++ "' object is not subscriptable"))

/-- `repo.split('/')[-1]` -/
def repoName (repo : Json) : Except PyException String :=
  match repo with
  | .str s => .ok ((Python.split '/' s).getLastD "")
  | other =>
      .error (.attributeError ("'" ++ Python.typeName other ++ "' object has no attribute 'split'"))

/-- The body of a step's `try` with its `except Exception` clause. -/
def orFail (taskId workflowId : Nat) (label : String) (body : Async α) : Async α :=
  tryExcept body fun e => do
    failTask taskId e.text
    failWorkflow workflowId (label ++ " failed: " ++ e.text)
    raise e

def summarizeStep (workflowId : Nat) (repo sha subject author diff : Json) :
    Async EngineeringSummary := do
  let taskId ← createTask "summarize" workflowId (.obj [("sha", sha), ("repo", repo)])
  orFail taskId workflowId "summarize" do
    let eng : EngineeringSummary ← await (.summarize subject author sha diff)
    completeTask taskId eng.toDict
    let entry ← logEntry "summary_done" (.obj [("risk", .str eng.riskLevel)])
    appendLog workflowId entry
    return eng

def draftStep (workflowId : Nat) (sha : Json) (eng : EngineeringSummary) : Async SocialDraft := do
  let taskId ← createTask "draft_social" workflowId (.obj [("sha", sha)])
  orFail taskId workflowId "draft" do
    let soc : SocialDraft ← await (.draft eng.summary eng.changelog eng.riskLevel)
    completeTask taskId soc.toDict
    let entry ← logEntry "social_done" (.obj [("len", .int soc.post.length)])
    appendLog workflowId entry
    return soc

def memoryContent (shortSha : String) (subject : Json) (eng : EngineeringSummary) : String :=
  "[" ++ shortSha ++ "] " ++ Python.str subject ++ "\n\n" ++ eng.summary ++ "\n\n" ++
    "Changelog: " ++ eng.changelog ++ "\nRisk: " ++ eng.riskLevel ++ "\n" ++
    "Files: " ++ ", ".intercalate eng.changedFiles

def memoryMetadata (repo sha subject author : Json) (eng : EngineeringSummary) : Json := .obj [
  ("repo", repo), ("sha", sha), ("author", author), ("risk", .str eng.riskLevel),
  ("changelog", .str eng.changelog), ("files", .arr (eng.changedFiles.map .str)),
    ("subject", subject)]

def embeddingId (sha : Json) : String := "commit:" ++ Python.str sha

/-- The vector index is attempted; a failure there is only logged. -/
def index (memoryId : Nat) (content : String) (repo sha : Json) (eng : EngineeringSummary) :
    Async Unit :=
  tryExcept (do
      await (.upsert [embeddingId sha] [content]
        [.obj [("repo", repo), ("sha", sha), ("risk", .str eng.riskLevel)]])
      session (.setEmbedding memoryId (embeddingId sha)))
    fun _ => return ()

def saveStep (workflowId : Nat) (repo sha subject author : Json) (eng : EngineeringSummary) :
    Async Unit := do
  let taskId ← createTask "save" workflowId (.obj [("sha", sha)])
  orFail taskId workflowId "save" do
    let shortSha ← Program.ofExcept (short sha)
    let content := memoryContent shortSha subject eng
    let memoryId ← session (.addMemory "commit_summary" content
      (memoryMetadata repo sha subject author eng))
    index memoryId content repo sha eng
    completeTask taskId (.obj [("memory_id", .int (Int.ofNat memoryId))])

def approvalRequest (workflowId taskId : Nat) (repo sha subject : Json) (eng : EngineeringSummary)
    (soc : SocialDraft) : Except PyException ApprovalRequest := do
  let shortSha ← short sha
  let name ← repoName repo
  return {
    summary := "Commit " ++ shortSha ++ " in " ++ name ++ ": " ++
      (if Python.truthy subject then Python.str subject else "(no subject)")
    outputs := .obj [("engineering_summary", .str eng.summary), ("changelog", .str eng.changelog),
      ("social_post", .str soc.post)]
    affected := eng.changedFiles
    riskLevel := eng.riskLevel
    workflowId := some workflowId
    taskId := some taskId }

def approvalStep (s : Settings) (workflowId : Nat) (repo sha subject : Json)
    (eng : EngineeringSummary) (soc : SocialDraft) : Async Nat := do
  let taskId ← createTask "request_approval" workflowId (.obj [("sha", sha)])
  orFail taskId workflowId "approval" do
    let req ← Program.ofExcept (approvalRequest workflowId taskId repo sha subject eng soc)
    let approvalId ← ApprovalGateway.send s req
    completeTask taskId (.obj [("approval_id", .int approvalId)])
    let entry ← logEntry "approval_sent" (.obj [("id", .int approvalId)])
    appendLog workflowId entry
    return approvalId

def runPipelineSteps (s : Settings) (workflowId : Nat) (repo sha subject author diff : Json) :
    Async Returned := do
  let eng ← summarizeStep workflowId repo sha subject author diff
  let soc ← draftStep workflowId sha eng
  saveStep workflowId repo sha subject author eng
  let approvalId ← approvalStep s workflowId repo sha subject eng soc
  session (.completeWorkflow workflowId "workflow_completed" (.obj []))
  return .commit workflowId approvalId eng soc.post

def taskChain : List String := ["summarize", "draft_social", "save", "request_approval"]

/-- What a call is told whose commit is already claimed. -/
def skip (claim : Dedup.ClaimResult) : Returned :=
  let existing := match claim.existingValue with
    | some value => if value = "" then "unknown" else value
    | none => "unknown"
  .skipped (if Python.isdigit existing then some (Python.int existing) else none)
    (if existing = Dedup.pending then "in_flight" else "duplicate_sha")

def runClaimed (s : Settings) (repo sha subject author diff : Json) : Async Returned := do
  let entry ← logEntry "workflow_started" (.obj [("repo", repo), ("sha", sha)])
  let workflowId ← session (.addWorkflow "commit_pipeline" taskChain [entry])
  Dedup.attachWorkflowId s repo sha workflowId
  runPipelineSteps s workflowId repo sha subject author diff

def runCommitPipeline (s : Settings) (payload : Json) : Async Returned := do
  let fields ← Program.ofExcept (requireKeys payload ["repo", "sha"])
  let repo := (Json.lookup "repo" fields).getD .null
  let sha := (Json.lookup "sha" fields).getD .null
  let subject := (Json.lookup "subject" fields).getD (.str "")
  let author := (Json.lookup "author" fields).getD (.str "")
  let diff := (Json.lookup "diff" fields).getD (.str "")
  let claim ← Dedup.acquire s repo sha
  if claim.acquired then runClaimed s repo sha subject author diff
  else return skip claim

end CommitPipeline

end WiseOrder
