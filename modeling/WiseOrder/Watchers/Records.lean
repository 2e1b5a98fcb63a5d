import WiseOrder.Python

/-! What the two background watchers record of what they watch, and what of it they
keep for the dashboard. -/
namespace WiseOrder

/-- The head is what the verifier gave, a text unless it says otherwise. -/
structure IntegrityCheck (Head : Type := String) where
  ts : String
  status : String
  count : Int
  head : Option Head
  chainDir : String
  note : String

structure IntegrityWatcher (Head : Type := String) where
  chainDir : String
  intervalSeconds : Json.Float
  lastHead : Option Head
  history : List (IntegrityCheck Head)

structure WorkflowRun where
  repo : String
  name : String
  status : String
  conclusion : String
  headSha : String
  createdAt : String
  url : String

structure CICheck where
  ts : String
  repo : String
  status : String
  note : String
  failedRuns : List WorkflowRun
  inFlightRuns : List WorkflowRun
  flakyWorkflows : List String

structure CIWatcher where
  repos : List String
  intervalSeconds : Json.Float
  history : List (String × List CICheck)

/-- The watchers of an orchestrator, as far as it has started them. -/
structure Watchers where
  integrity : Option IntegrityWatcher
  ci : Option CIWatcher

def optionStr : Option String → Json
  | none => .null
  | some text => .str text

def IntegrityCheck.toDict (check : IntegrityCheck) : Json := .obj [
  ("ts", .str check.ts), ("status", .str check.status), ("count", .int check.count),
    ("head", optionStr check.head),
  ("chain_dir", .str check.chainDir), ("note", .str check.note)]

def WorkflowRun.toDict (run : WorkflowRun) : Json := .obj [
  ("repo", .str run.repo), ("name", .str run.name), ("status", .str run.status),
    ("conclusion", .str run.conclusion),
  ("head_sha", .str run.headSha), ("created_at", .str run.createdAt), ("url", .str run.url)]

def CICheck.toDict (check : CICheck) : Json := .obj [
  ("ts", .str check.ts), ("repo", .str check.repo), ("status", .str check.status),
    ("note", .str check.note),
  ("failed_runs", .arr (check.failedRuns.map WorkflowRun.toDict)),
  ("in_flight_runs", .arr (check.inFlightRuns.map WorkflowRun.toDict)),
  ("flaky_workflows", .arr (check.flakyWorkflows.map .str))]

end WiseOrder
