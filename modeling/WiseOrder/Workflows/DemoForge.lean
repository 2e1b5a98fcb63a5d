import WiseOrder.Workflows.CommitPipeline
import Mathlib.Algebra.GroupWithZero.Nat

/-! The pipeline of a demo request: run the targets of the demo repository, take a
manifest of what they left, store it and ask for approval. -/
namespace WiseOrder.DemoForge
open Coroutine

def validScenarios : List String := ["001", "002", "003"]

def scenarioTitle (scenario : String) : Option String :=
  if scenario = "001" then some "unsafe deployment refusal"
  else if scenario = "002" then some "SIGKILL recovery proof"
  else if scenario = "003" then some "offline T7 verification"
  else none

def failWorkflow (workflowId : Nat) (error : String) : Async Unit :=
  session (.failWorkflow workflowId "demo_request_failed" error)

structure Artifact where
  name : String
  bytes : Nat
  sha256 : String

structure Manifest where
  scenario : String
  generatedAt : Time
  outDir : String
  artifacts : List Artifact

namespace Manifest

def totalBytes (m : Manifest) : Nat := (m.artifacts.map Artifact.bytes).sum

def json (m : Manifest) : Json := .obj [
  ("scenario", .str m.scenario), ("title", .str ((scenarioTitle m.scenario).getD "")),
  ("generated_at", .str (Python.clockText m.generatedAt ++ "Z")), ("out_dir", .str m.outDir),
  ("artifact_count", .int m.artifacts.length),
  ("artifacts", .arr (m.artifacts.map fun a => .obj [
    ("name", .str a.name), ("bytes", .int a.bytes), ("sha256", .str a.sha256)]))]

def sha256 (m : Manifest) : String :=
  Sha256.hexdigest (Python.sortKeys m.json).dumps.toUTF8.toList

end Manifest

def readArtifacts (outDir : String) : List String → Async (List Artifact)
  | [] => return []
  | name :: names => do
      let path := outDir ++ "/" ++ name
      let file : Bool ← await (.isFile path)
      if file then
        let body : List UInt8 ← await (.readBytes path)
        let rest ← readArtifacts outDir names
        return ⟨name, body.length, Sha256.hexdigest body⟩ :: rest
      else
        readArtifacts outDir names

def buildManifest (outDir scenario : String) : Async Manifest := do
  let names : List String ← await (.iterdir outDir)
  let artifacts ← readArtifacts outDir (names.mergeSort fun a b => decide (a ≤ b))
  let now ← utcnow
  return ⟨scenario, now, outDir, artifacts⟩

def excerpt (thread : String) : String :=
  if thread = "" then "(no X thread file)"
  else if thread.length > 1000 then Python.take 1000 thread ++ "..."
  else thread

def formatOutputsForApproval (m : Manifest) (outDir : String) : Async Json := do
  let path := outDir ++ "/DEMO_" ++ m.scenario ++ "_x_thread.md"
  let file : Bool ← await (.isFile path)
  let thread : String ← if file then await (.readText path) else pure ""
  return .obj [
    ("scenario", .str ("DEMO_" ++ m.scenario ++ " — " ++ (scenarioTitle m.scenario).getD "")),
    ("artifacts", .arr (m.artifacts.map fun a => .str a.name)),
    ("total_bytes", .int m.totalBytes),
    ("manifest_sha256", .str m.sha256),
    ("x_thread_excerpt", .str (excerpt thread))]

def memoryContent (scenario : String) (m : Manifest) : String :=
  "DEMO_" ++ scenario ++ " (" ++ (scenarioTitle scenario).getD "" ++ ") — " ++
    toString m.artifacts.length ++ " artifacts, " ++ Python.withCommas m.totalBytes ++ " bytes"

def run (cmd : List String) (cwd : String) (timeout : Nat) : Async (Int × String × String) :=
  await (.subprocess cmd cwd timeout)

def checkTools (dir : String) (workflowId : Nat) (scenario : String) : Async Unit := do
  let taskId ← createTask "check_tools" workflowId (.obj [("scenario", .str scenario)])
  let (rc, out, err) ← run ["make", "check-tools"] dir 90
  if rc ≠ 0 then
    failTask taskId ("DEMO_FORGE_MISSING_TOOLS: make check-tools rc=" ++ toString rc)
    failWorkflow workflowId "missing tools in demo-forge env"
    let text := if Python.strip err ≠ "" then Python.strip err else Python.strip out
    raise (.runtimeError ("DEMO_FORGE_MISSING_TOOLS: " ++ text))
  else
    completeTask taskId (.obj [("out", .str (Python.take 500 (Python.strip out)))])

def lastLines (n : Nat) (out : String) : List Json :=
  let lines := Python.split '\n' (Python.strip out)
  (lines.drop (lines.length - n)).map .str

def capture (dir : String) (workflowId : Nat) (scenario : String) : Async Unit := do
  let taskId ← createTask "capture" workflowId (.obj [("scenario", .str scenario)])
  let (rc, out, err) ← run ["make", "demo-" ++ scenario] dir 180
  if rc ≠ 0 then
    failTask taskId ("DEMO_FORGE_SUBPROCESS_FAIL: make demo-" ++ scenario ++ " rc=" ++ toString rc)
    failWorkflow workflowId "demo capture failed"
    raise (.runtimeError ("DEMO_FORGE_SUBPROCESS_FAIL: stdout(last 200 lines)=\n" ++
      Python.repr (.arr (lastLines 200 out)) ++ "\nstderr=\n" ++
        Python.take 1000 (Python.strip err)))
  else
    completeTask taskId (.obj [("out_tail", .arr (lastLines 30 out))])

/-- The film is best effort: when it fails, only its task does. -/
def renderMp4 (dir : String) (workflowId : Nat) (scenario : String) : Async Unit := do
  let taskId ← createTask "render_mp4" workflowId (.obj [("scenario", .str scenario)])
  let target := "outputs/DEMO_" ++ scenario ++ "/DEMO_" ++ scenario ++ ".mp4"
  let (rc, _, _) ← run ["make", target] dir 120
  if rc ≠ 0 then
    failTask taskId ("DEMO_FORGE_MP4_FAIL: rc=" ++ toString rc ++ " (continuing without MP4)")
  else
    completeTask taskId (.obj [("ok", .bool true)])

def manifestStep (outDir : String) (workflowId : Nat) (scenario : String) : Async Manifest := do
  let taskId ← createTask "manifest" workflowId (.obj [("scenario", .str scenario)])
  let dir : Bool ← await (.isDir outDir)
  if dir then
    let manifest ← buildManifest outDir scenario
    completeTask taskId (.obj [("artifact_count", .int manifest.artifacts.length)])
    return manifest
  else
    failTask taskId "DEMO_FORGE_MANIFEST_FAIL: outputs dir missing"
    failWorkflow workflowId "manifest computation failed"
    raise (.runtimeError ("DEMO_FORGE_MANIFEST_FAIL: " ++ outDir ++ " not found"))

def approvalSummary (scenario trigger : String) : String :=
  "Demo ready — DEMO_" ++ scenario ++ " (" ++ (scenarioTitle scenario).getD "unknown" ++ "). " ++
    "Trigger: " ++ trigger ++ ". Approve to publish."

def approve (s : Settings) (outDir : String) (workflowId : Nat) (scenario trigger : String)
    (m : Manifest) : Async Nat := do
  let taskId ← createTask "approve" workflowId (.obj [("scenario", .str scenario)])
  let outputs ← formatOutputsForApproval m outDir
  let approvalId ← ApprovalGateway.send s {
    summary := approvalSummary scenario trigger
    outputs := outputs
    affected := m.artifacts.map Artifact.name
    riskLevel := "low"
    workflowId := some workflowId
    taskId := some taskId }
  completeTask taskId (.obj [("approval_id", .int approvalId)])
  return approvalId

def runSteps (s : Settings) (workflowId : Nat) (scenario trigger : String) (skipRender : Bool) :
    Async Returned := do
  checkTools s.demoForgeDir workflowId scenario
  capture s.demoForgeDir workflowId scenario
  if skipRender then pure () else renderMp4 s.demoForgeDir workflowId scenario
  let outDir := s.demoForgeDir ++ "/outputs/DEMO_" ++ scenario
  let manifest ← manifestStep outDir workflowId scenario
  let _ ← session (.addMemory "demo_forge_manifest" (memoryContent scenario manifest) manifest.json)
  let approvalId ← approve s outDir workflowId scenario trigger manifest
  session (.completeWorkflow workflowId "demo_request_completed"
    (.obj [("approval_id", .int (Int.ofNat approvalId))]))
  return .demo workflowId approvalId scenario manifest.artifacts.length

def taskChain : List String :=
  ["check_tools", "capture", "narrate", "render", "manifest", "approve"]

/-- `payload.get(...)`, of a dictionary. -/
def payloadFields (payload : Json) : Except PyException (List (String × Json)) :=
  match payload with
  | .obj fields => .ok fields
  | other =>
      .error (.attributeError ("'" ++ Python.typeName other ++ "' object has no attribute 'get'"))

def runDemoForgeRequest (s : Settings) (payload : Json) : Async Returned := do
  let fields ← Program.ofExcept (payloadFields payload)
  let scenario := Python.strip (Python.str ((Json.lookup "scenario" fields).getD (.str "")))
  if validScenarios.contains scenario then
    let trigger := Python.str ((Json.lookup "trigger" fields).getD (.str "manual"))
    let skipRender := Python.truthy ((Json.lookup "skip_render" fields).getD (.bool false))
    let makefile : Bool ← await (.isFile (s.demoForgeDir ++ "/Makefile"))
    if makefile then
      let entry ← logEntry "demo_request_started" (.obj [("scenario", .str scenario),
        ("trigger", .str trigger), ("demo_forge_dir", .str s.demoForgeDir),
          ("skip_render", .bool skipRender)])
      let workflowId ← session (.addWorkflow "demo_request" taskChain [entry])
      runSteps s workflowId scenario trigger skipRender
    else
      raise ⟨.fileNotFoundError, "DEMO_FORGE_NOT_FOUND: " ++ s.demoForgeDir ++
        " does not contain a Makefile. Set WISEORDER_DEMO_FORGE_DIR to a valid demo-forge clone."⟩
  else
    raise (.valueError ("demo_request payload.scenario must be one of " ++
      Python.repr (.arr (validScenarios.map .str)) ++ ", got " ++ Python.reprString scenario))

end WiseOrder.DemoForge
