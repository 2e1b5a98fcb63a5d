import WiseOrder.Api.Effects
import WiseOrder.Queues.RedisQueue

/-! The daily summary: counts of the last 24 hours in five sections of plain text, kept
as a row of the memory table and as a line of a file. -/
namespace WiseOrder.DailySummary
open Coroutine

structure DailyStats where
  periodStartUtc : String
  periodEndUtc : String
  workflowsCompleted : Nat
  workflowsFailed : Nat
  workflowsInterrupted : Nat
  workflowsRunning : Nat
  tasksCompleted : Nat
  tasksFailed : Nat
  approvalsPending : Nat
  approvalsDecided : Nat
  approvalsApproved : Nat
  approvalsRejected : Nat
  queueDepthHigh : Nat
  queueDepthNormal : Nat
  queueDepthFailed : Nat
  mostCommonWorkflowNames : List (String × Nat)
  mostCommonFailureTypes : List (String × Nat)
  errorLogLinesCount : Nat

def DailyStats.toDict (s : DailyStats) : Json :=
  let pairs (counts : List (String × Nat)) : Json := .arr (counts.map fun c =>
    .arr [.str c.1, .int c.2])
  .obj [("period_start_utc", .str s.periodStartUtc), ("period_end_utc", .str s.periodEndUtc),
    ("workflows_completed", .int s.workflowsCompleted),
      ("workflows_failed", .int s.workflowsFailed),
    ("workflows_interrupted", .int s.workflowsInterrupted),
      ("workflows_running", .int s.workflowsRunning),
    ("tasks_completed", .int s.tasksCompleted), ("tasks_failed", .int s.tasksFailed),
    ("approvals_pending", .int s.approvalsPending), ("approvals_decided", .int s.approvalsDecided),
    ("approvals_approved", .int s.approvalsApproved),
      ("approvals_rejected", .int s.approvalsRejected),
    ("queue_depth_high", .int s.queueDepthHigh), ("queue_depth_normal", .int s.queueDepthNormal),
    ("queue_depth_failed", .int s.queueDepthFailed),
    ("most_common_workflow_names", pairs s.mostCommonWorkflowNames),
    ("most_common_failure_types", pairs s.mostCommonFailureTypes),
    ("error_log_lines_count", .int s.errorLogLinesCount)]

/-- `now.strftime("%Y-%m-%d")` -/
def dateOf (now : Time) : String := Python.take 10 (Python.isoformat now)

/-- `needle in text` -/
def contains (needle text : String) : Bool := text.toList.tails.any fun rest =>
      needle.toList.isPrefixOf rest

def classifyError (text : String) : String :=
  let t := text.toLower
  if contains "timeout" t || contains "timed out" t then "timeout"
  else if contains "connection" t &&
    (contains "refused" t || contains "reset" t) then "connection_refused"
  else if contains "permission" t || contains "authoriz" t then "permission_denied"
  else if contains "invalid" t && contains "json" t then "json_parse"
  else if contains "no handler" t then "no_handler"
  else if contains "summarize failed" t || contains "draft failed" t then "llm_failed"
  else "other"

/-- `Counter(values).most_common(n)` -/
def mostCommon (n : Nat) (values : List String) : List (String × Nat) :=
  ((countBy id values).mergeSort fun a b => b.2 ≤ a.2).take n

/-- `dict(counts).get(b, 0)`: of several entries under one key the last one counts. -/
def countOf [DecidableEq β] (b : β) (counts : List (β × Nat)) : Nat :=
  match (counts.filter fun c => c.1 = b).getLast? with
  | some c => c.2
  | none => 0

/-- `row[0] or "pending"` -/
def decisionName : Option String → String
  | none | some "" => "pending"
  | some decision => decision

/-- The lines of the log's tail that say `ERROR`; a log that cannot be read has none. -/
def countRecentErrorLines (logDir : String) : Service Nat := do
  let path := logDir ++ "/wiseorder.jsonl"
  let file : Bool ← Service.await (.run (.isFile path))
  if file then
    Service.tryExcept (do
        let tail : String ← Service.await (.readLogTail path)
        return (Python.splitlines tail).countP (contains "\"levelname\": \"ERROR\""))
      fun _ => return 0
  else return 0

def depth (queue : QueueName) : Service Nat := Service.run (redis (.llen queue))

/-- `all_depths()`, in the order of the queues. -/
def allDepths : Service (Nat × Nat × Nat) := do
  let high ← depth .high
  let normal ← depth .normal
  let failed ← depth .failed
  return (high, normal, failed)

def gatherStats (logDir : String) (start stop : Time) : Service DailyStats := do
  let counts : PeriodCounts ← Service.select (.periodCounts start stop)
  let (high, normal, failed) ← allDepths
  let errorLines ← countRecentErrorLines logDir
  let decisions := counts.approvalDecision.map fun (decision, n) => (decisionName decision, n)
  let approved := countOf "approved" decisions
  let rejected := countOf "rejected" decisions
  return {
    periodStartUtc := Python.isoformat start
    periodEndUtc := Python.isoformat stop
    workflowsCompleted := countOf .completed counts.workflowStatus
    workflowsFailed := countOf .failed counts.workflowStatus
    workflowsInterrupted := countOf .interrupted counts.workflowStatus
    workflowsRunning := countOf .running counts.workflowStatus
    tasksCompleted := countOf .completed counts.taskStatus
    tasksFailed := countOf .failed counts.taskStatus
    approvalsPending := countOf "pending" decisions
    approvalsDecided := approved + rejected
    approvalsApproved := approved
    approvalsRejected := rejected
    queueDepthHigh := high
    queueDepthNormal := normal
    queueDepthFailed := failed
    mostCommonWorkflowNames := counts.workflowNames
    mostCommonFailureTypes := mostCommon 5 (counts.failedTaskErrors.map classifyError)
    errorLogLinesCount := errorLines }

/-! ### The text -/

def whatChanged (s : DailyStats) : List String :=
  if s.workflowsCompleted = 0 ∧ s.workflowsFailed = 0 ∧ s.workflowsInterrupted =
      0 ∧ s.workflowsRunning = 0 then
    ["nothing — the runtime was idle."]
  else
    let parts := [toString s.workflowsCompleted ++ " workflow(s) completed"] ++
      (if s.workflowsFailed ≠ 0 then [toString s.workflowsFailed ++ " failed"] else []) ++
      (if s.workflowsInterrupted ≠ 0 then [toString s.workflowsInterrupted ++ " interrupted"]
        else []) ++
      (if s.workflowsRunning ≠ 0 then [toString s.workflowsRunning ++ " still running"] else [])
    [", ".intercalate parts ++ "."] ++
      match s.mostCommonWorkflowNames with
      | [] => []
      | top :: _ => ["most common: `" ++ top.1 ++ "` (" ++ toString top.2 ++ "x)."]

def failureShapes (types : List (String × Nat)) : List String :=
  match types.take 3 with
  | [] => []
  | [top] => ["failure shape: `" ++ top.1 ++ "` (" ++ toString top.2 ++ " task(s))."]
  | tops =>
      ["top failure shapes: " ++ ", ".intercalate (tops.map fun t => "`" ++ t.1 ++ "` (" ++
        toString t.2 ++ ")") ++ "."]

def whatFailed (s : DailyStats) : List String :=
  if s.workflowsFailed = 0 ∧ s.queueDepthFailed = 0 ∧ s.mostCommonFailureTypes.isEmpty ∧
      s.errorLogLinesCount = 0 then
    ["nothing."]
  else
    (if s.workflowsFailed ≠ 0 then [toString s.workflowsFailed ++ " workflow(s) marked failed."]
      else []) ++
    (if s.queueDepthFailed ≠ 0 then ["dead-letter queue holds " ++ toString s.queueDepthFailed ++
      " job(s); see `GET /queues/failed`."] else []) ++
    failureShapes s.mostCommonFailureTypes ++
    (if s.errorLogLinesCount ≠ 0 then ["`logs/wiseorder.jsonl` has " ++
      toString s.errorLogLinesCount ++
      " ERROR-level line(s) in the recent tail."] else [])

def whatMatters (s : DailyStats) : List String :=
  let lines :=
    (if s.approvalsPending ≠ 0 then [toString s.approvalsPending ++
      " pending approval card(s) — operator action required."] else []) ++
    (if s.workflowsInterrupted ≠ 0 then [toString s.workflowsInterrupted ++
      " interrupted workflow(s) — possible orchestrator restart."] else []) ++
    (if s.queueDepthFailed ≠ 0 then [toString s.queueDepthFailed ++
      " dead-letter job(s) — investigate or discard."] else []) ++
    (if 5 < s.workflowsRunning then [toString s.workflowsRunning ++
      " workflows in 'running' state — verify they are actually progressing."] else [])
  if lines.isEmpty then ["nothing urgent."] else lines

def recommendedAction (s : DailyStats) : String :=
  if s.approvalsPending ≠ 0 then
    "Review pending approvals first. Each card carries the engineering summary, social draft, and risk level."
  else if s.queueDepthFailed ≠ 0 ∨ s.workflowsFailed ≠ 0 then
    "Triage the dead-letter queue and failed workflows. `GET /queues/failed` lists each with timestamped error notes."
  else if s.workflowsInterrupted ≠ 0 then
    "Investigate why workflow(s) were interrupted. Likely causes: orchestrator restart, host crash, " ++
      "or workflow stuck in 'running' past max-age."
  else if s.workflowsRunning ≠ 0 then
    "Confirm in-flight workflows are progressing. `GET /workflows/\x7bid\x7d` shows the per-task chain."
  else "None. The runtime is in a clean state."

def approvalBacklog (s : DailyStats) : String :=
  if s.approvalsPending = 0 ∧ s.approvalsDecided = 0 then "no approvals in the last 24h."
  else
    let decided :=
      if s.approvalsRejected = 0 then "all " ++ toString s.approvalsDecided ++ " approved"
      else if s.approvalsApproved = 0 then "all " ++ toString s.approvalsDecided ++ " rejected"
      else toString s.approvalsApproved ++ " approved, " ++ toString s.approvalsRejected ++
        " rejected"
    "; ".intercalate ([toString s.approvalsPending ++ " pending"] ++
      (if s.approvalsDecided ≠ 0 then [toString s.approvalsDecided ++ " decided (" ++
        decided ++ ")"] else [])) ++ "."

def formatSummary (s : DailyStats) (now : Time) : String :=
  let lines := ["WiseOrder daily summary — " ++ dateOf now ++ " (last 24 hours).", ""] ++
    ["**What changed**"] ++ whatChanged s ++ [""] ++
    ["**What failed**"] ++ whatFailed s ++ [""] ++
    ["**What matters most**"] ++ whatMatters s ++ [""] ++
    ["**Recommended next action**", recommendedAction s, ""] ++
    ["**Approval backlog**", approvalBacklog s]
  Python.rstrip ("\n".intercalate lines) ++ "\n"

/-! ### The worker -/

/-- `existing and existing.meta and existing.meta.get("date")` -/
def dateField (metadata : Json) : Except PyException Json :=
  if Python.truthy metadata then
    match metadata with
    | .obj fields => .ok ((Json.lookup "date" fields).getD .null)
    | other =>
        .error (.attributeError ("'" ++ Python.typeName other ++ "' object has no attribute 'get'"))
  else .ok .null

/-- One summary per UTC date: a later run of the day finds it and is skipped. -/
def runDailySummary (logDir : String) : Service Json := do
  let now ← Service.run utcnow
  let today := dateOf now
  let existing : Option (Nat × Memory) ← Service.select (.latestMemory "daily_summary")
  let last ← Program.ofExcept (match existing with
    | some m => dateField m.2.metadata
    | none => .ok .null)
  match existing, last with
  | some m, .str date =>
      if date = today then
        return .obj [("skipped", .bool true), ("reason", .str "already_ran_today"),
          ("memory_id", .int m.1), ("date", .str today)]
      else write now today
  | _, _ => write now today
where
  write (now : Time) (today : String) : Service Json := do
    let stats ← gatherStats logDir (now - 86400 * second) now
    let text := formatSummary stats now
    let memoryId ← Service.run (session (.addMemory "daily_summary" text (.obj [
      ("date", .str today), ("period_start_utc", .str stats.periodStartUtc),
        ("period_end_utc", .str stats.periodEndUtc),
      ("stats", stats.toDict)])))
    Service.await .makeLogDir
    let record : Json := .obj [("ts", .str (Python.isoformat now)), ("date", .str today),
      ("memory_id", .int (Int.ofNat memoryId)),
      ("stats", stats.toDict), ("summary", .str text)]
    Service.tryExcept (Service.await (.appendSummary (record.dumps ++ "\n"))) fun _ => return ()
    return .obj [("memory_id", .int (Int.ofNat memoryId)), ("date", .str today),
      ("summary", .str text), ("stats", stats.toDict)]

end WiseOrder.DailySummary
