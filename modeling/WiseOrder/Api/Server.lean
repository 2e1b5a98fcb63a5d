import WiseOrder.Api.Authorization
import WiseOrder.Approvals.Gateway
import WiseOrder.Workflows.DailySummary

/-! The HTTP API: its routes, and the handler of each. What the web framework decides
by itself is a parameter: how a path matches a template, what text is an integer or
a truth value, and the answer where no route matches. -/
namespace WiseOrder

def Orchestrator.enqueueManual (type : String) (payload : Json) : Async String := do
  let id : String ← await .uuid4
  let now ← utcnow
  let job := Job.new id type payload now
  RedisQueue.enqueue job .high
  return id

namespace Api
open Coroutine

inductive Body where
  | absent
  | malformed
  | json (value : Json)

/-- A request; the names of its headers come in lower case. -/
structure Request where
  method : String
  path : String
  query : List (String × String)
  headers : List (String × String)
  body : Body

namespace Request

/-- Of several headers of one name the first counts, of several query parameters the last. -/
def header (r : Request) (name : String) : Option String :=
  (r.headers.find? fun h => h.1 = name).map Prod.snd

def param (r : Request) (name : String) : Option String :=
  ((r.query.filter fun q => q.1 = name).getLast?).map Prod.snd

end Request

inductive Response where
  | json (statusCode : Nat) (body : Json)
  | dashboard
  | unprocessable
  | serverError
  | other (statusCode : Nat)

structure Framework where
  pathParams : (template path : String) → Option (List (String × String))
  intParam : String → Option Int
  boolParam : String → Option Bool
  unmatched : Request → Response

structure ServerSettings where
  apiHost : String
  apiAllowRemoteBind : Bool
  apiAuthToken : String
  logDir : String

/-! ### Rows as dictionaries -/

def optionTime : Option Time → Json
  | none => .null
  | some t => .str (Python.isoformat t)

def optionId : Option Nat → Json
  | none => .null
  | some id => .int id

def taskDict (row : Nat × Task) : Json := .obj [
  ("id", .int row.1), ("type", .str row.2.type), ("status", .str row.2.status.text),
  ("workflow_id", optionId row.2.workflowId), ("payload", row.2.payload),
    ("result", row.2.result.getD .null),
  ("error", optionStr row.2.error), ("created_at", .str (Python.isoformat row.2.createdAt)),
  ("completed_at", optionTime row.2.completedAt)]

def logFields (entry : LogEntry) : List (String × Json) :=
  [("ts", .str (Python.isoformat entry.ts)), ("event", .str entry.event), ("data", entry.data)]

def wfFields (row : Nat × Workflow) : List (String × Json) := [
  ("id", .int row.1), ("workflow_name", .str row.2.workflowName),
    ("status", .str row.2.status.text),
  ("task_chain", .arr (row.2.taskChain.map .str)),
    ("logs", .arr (row.2.logs.map fun entry => .obj (logFields entry))),
  ("created_at", .str (Python.isoformat row.2.createdAt)),
    ("completed_at", optionTime row.2.completedAt)]

def approvalDict (row : Nat × Approval) : Json := .obj [
  ("id", .int row.1), ("workflow_id", optionId row.2.workflowId),
    ("task_id", optionId row.2.taskId),
  ("summary", .str row.2.summary), ("outputs", row.2.outputs),
    ("affected", .arr (row.2.affected.map .str)),
  ("risk_level", .str row.2.riskLevel), ("decision", optionStr row.2.decision),
  ("delivered_via", optionStr row.2.deliveredVia),
    ("created_at", .str (Python.isoformat row.2.createdAt)),
  ("decided_at", optionTime row.2.decidedAt)]

def memoryDict (row : Nat × Memory) : Json := .obj [
  ("id", .int row.1), ("category", .str row.2.category), ("content", .str row.2.content),
  ("metadata", row.2.metadata), ("created_at", .str (Python.isoformat row.2.createdAt))]

def jobDict (j : Job) : Json := .obj [
  ("id", j.id), ("type", j.type), ("attempt", j.attempt), ("created_at", j.createdAt),
    ("notes", j.notes),
  ("payload", j.payload)]

/-! ### Handlers -/

def reply (body : Json) : Response := .json 200 body

def raised (e : HttpException) : Response := .json e.statusCode (.obj [("detail", .str e.detail)])

def depthsDict : Service Json := do
  let (high, normal, failed) ← DailySummary.allDepths
  return .obj [("high", .int (Int.ofNat high)), ("normal", .int (Int.ofNat normal)),
    ("failed", .int (Int.ofNat failed))]

/-- `q.ping()`, which does not raise. -/
def pingRedis : Service Bool := Service.tryExcept (Service.await (.run .redisPing)) fun _ =>
      return false

def pingDatabase : Service Bool := Service.tryExcept (Service.await (.run .dbPing)) fun _ =>
      return false

def health : Service Response := do
  let ping ← pingRedis
  let depths ← depthsDict
  return reply (.obj [("redis", .bool ping), ("queue_depths", depths)])

def ready : Service Response := do
  let database ← pingDatabase
  let redis ← pingRedis
  return .json (if database && redis then 200
    else 503) (.obj [("database", .bool database), ("redis", .bool redis)])

def listTasks (status : Option String) (limit : Int) : Service Response := do
  let rows : Relational.Rows Task ← Service.select (.tasks status limit)
  return reply (.arr (rows.map taskDict))

def listWorkflows (status : Option String) (limit : Int) : Service Response := do
  let rows : Relational.Rows Workflow ← Service.select (.workflows status limit)
  return reply (.arr (rows.map fun row => .obj (wfFields row)))

def getWorkflow (wfId : Int) : Service Response := do
  let found : Option ((Nat × Workflow) × Relational.Rows Task) ← Service.select (.workflow wfId)
  match found with
  | none => return raised ⟨404, "workflow not found"⟩
  | some (wf, tasks) => return reply (.obj (wfFields wf ++ [("tasks", .arr (tasks.map taskDict))]))

def listApprovals (pending : Bool) (limit : Int) : Service Response := do
  let rows : Relational.Rows Approval ← Service.select (.approvals pending limit)
  return reply (.arr (rows.map approvalDict))

def decideApproval (approvalId : Int) (decision : String) : Service Response := do
  let ok ← Service.run (ApprovalGateway.decide approvalId decision)
  if ok then return reply (.obj [("approval_id", .int approvalId), ("decision", .str decision)])
  else return raised ⟨404, "approval not found"⟩

def integrityDict : Option IntegrityWatcher → Json
  | none => .obj [("status", .str "not_running"), ("history", .arr [])]
  | some iw =>
      .obj [("status", .str "running"), ("chain_dir", .str iw.chainDir),
        ("interval_seconds", .float iw.intervalSeconds),
      ("last_known_head", optionStr iw.lastHead),
        ("history", .arr ((Python.lastOnes 20 iw.history).map IntegrityCheck.toDict))]

def ciDict : Option CIWatcher → Json
  | none => .obj [("status", .str "not_running"), ("history", .obj [])]
  | some ci =>
      .obj [("status", .str "running"), ("repos", .arr (ci.repos.map .str)),
        ("interval_seconds", .float ci.intervalSeconds),
      ("history", .obj (ci.history.map fun (repo, hist) =>
        (repo, .arr ((Python.lastOnes 10 hist).map CICheck.toDict))))]

def watchersStatus : Service Response := do
  let w : Watchers ← Service.await .watchers
  return reply (.obj [("integrity_watcher", integrityDict w.integrity),
    ("ci_watcher", ciDict w.ci)])

/-- `row.meta.get(key) if row.meta else None` -/
def metaField (key : String) (metadata : Json) : Except PyException Json :=
  if Python.truthy metadata then
    match metadata with
    | .obj fields => .ok ((Json.lookup key fields).getD .null)
    | other =>
        .error (.attributeError ("'" ++ Python.typeName other ++ "' object has no attribute 'get'"))
  else .ok .null

def latestDailySummary : Service Response := do
  let found : Option (Nat × Memory) ← Service.select (.latestMemory "daily_summary")
  match found with
  | none => return reply (.obj [("available", .bool false), ("reason", .str "no_summary_yet")])
  | some (id, row) => do
      let date ← Program.ofExcept (metaField "date" row.metadata)
      let stats ← Program.ofExcept (metaField "stats" row.metadata)
      return reply (.obj [("available", .bool true), ("id", .int id), ("date", date),
        ("summary", .str row.content),
        ("stats", stats), ("created_at", .str (Python.isoformat row.createdAt))])

def hits (res : VectorResult) : List Json :=
  res.documents.zipIdx.map fun (doc, i) => .obj [("id", res.ids.getD i .null), ("document", doc),
    ("metadata", res.metadatas.getD i (.obj [])), ("distance", res.distances.getD i .null)]

def memorySearch (q : String) (n : Int) : Service Response := do
  let res : VectorResult ← Service.await (.vectorQuery q n)
  return reply (.arr (hits res))

def memoryRecent (limit : Int) : Service Response := do
  let rows : Relational.Rows Memory ← Service.select (.memories limit)
  return reply (.arr (rows.map memoryDict))

/-- The last log entries of each workflow, by the text of their time, the latest first. -/
def recentEntries (limit : Int) (rows : Relational.Rows Workflow) : List (Nat × LogEntry) :=
  let entries := rows.flatMap fun r => (Python.lastOnes 10 r.2.logs).map fun entry => (r.1, entry)
  Python.upTo limit (entries.mergeSort fun a b => Python.isoformat b.2.ts ≤ Python.isoformat a.2.ts)

def logsRecent (limit : Int) : Service Response := do
  let rows : Relational.Rows Workflow ← Service.select (.workflows none 20)
  return reply (.arr ((recentEntries limit rows).map fun e =>
    .obj (("workflow_id", .int e.1) :: logFields e.2)))

def queuesFailed (limit : Int) : Service Response := do
  let jobs ← Service.run (RedisQueue.peekFailed limit)
  return reply (.arr (jobs.map jobDict))

def safeVectorCount : Service Nat := Service.tryExcept (Service.await .vectorCount) fun _ =>
      return (0 : Nat)

def stats : Service Response := do
  let (tasks, workflows) : List (Status × Nat) × List (Status × Nat) ← Service.select .statusCounts
  let depths ← depthsDict
  let vectors ← safeVectorCount
  let counts (c : List (Status × Nat)) : Json := .obj (c.map fun (status, n) =>
    (status.text, .int (Int.ofNat n)))
  return reply (.obj [("tasks", counts tasks), ("workflows", counts workflows), ("queues", depths),
    ("vector_count", .int (Int.ofNat vectors))])

def trigger (type : String) (payload : Json) : Service Response := do
  let id ← Service.run (Orchestrator.enqueueManual type payload)
  return reply (.obj [("job_id", .str id)])

def runSummaryNow (logDir : String) : Service Response := do
  let summary ← DailySummary.runDailySummary logDir
  return reply summary

/-! ### Routes -/

inductive Endpoint where
  | dashboard
  | health
  | ready
  | listTasks
  | listWorkflows
  | getWorkflow
  | listApprovals
  | decideApproval
  | watchersStatus
  | latestDailySummary
  | runSummaryNow
  | memorySearch
  | memoryRecent
  | logsRecent
  | queuesFailed
  | stats
  | trigger
  deriving DecidableEq

/-- A route, and whether it depends on the token. -/
structure Route where
  method : String
  template : String
  endpoint : Endpoint
  gated : Bool

def routes : List Route := [
  ⟨"GET", "/", .dashboard, false⟩,
  ⟨"GET", "/healthz", .health, false⟩,
  ⟨"GET", "/health", .health, false⟩,
  ⟨"GET", "/ready", .ready, false⟩,
  ⟨"GET", "/tasks", .listTasks, false⟩,
  ⟨"GET", "/workflows", .listWorkflows, false⟩,
  ⟨"GET", "/workflows/\x7bwf_id\x7d", .getWorkflow, false⟩,
  ⟨"GET", "/approvals", .listApprovals, false⟩,
  ⟨"POST", "/approvals/\x7bapproval_id\x7d/decide", .decideApproval, true⟩,
  ⟨"GET", "/watchers", .watchersStatus, false⟩,
  ⟨"GET", "/summary/latest", .latestDailySummary, false⟩,
  ⟨"POST", "/summary/run-now", .runSummaryNow, true⟩,
  ⟨"GET", "/memory/search", .memorySearch, false⟩,
  ⟨"GET", "/memory/recent", .memoryRecent, false⟩,
  ⟨"GET", "/logs/recent", .logsRecent, false⟩,
  ⟨"GET", "/queues/failed", .queuesFailed, false⟩,
  ⟨"GET", "/stats", .stats, false⟩,
  ⟨"POST", "/trigger", .trigger, true⟩]

/-- A parameter that does not validate is answered before the handler runs. -/
def validated (x : Option α) (handler : α → Service Response) : Service Response :=
  match x with
  | none => return .unprocessable
  | some a => handler a

namespace Request
variable (fw : Framework) (r : Request)

def intQuery (name : String) (default : Int) : Option Int :=
  match r.param name with
  | none => some default
  | some text => fw.intParam text

def boolQuery (name : String) (default : Bool) : Option Bool :=
  match r.param name with
  | none => some default
  | some text => fw.boolParam text

def intPath (params : List (String × String)) (name : String) : Option Int :=
  match params.find? fun p => p.1 = name with
  | none => none
  | some p => fw.intParam p.2

/-- `TriggerBody`: a type, and a payload that is a dictionary. -/
def triggerBody : Option (String × Json) :=
  match r.body with
  | .json (.obj fields) =>
      match Json.lookup "type" fields, Json.lookup "payload" fields with
      | some (.str type), none => some (type, .obj [])
      | some (.str type), some (.obj payload) => some (type, .obj payload)
      | _, _ => none
  | _ => none

/-- `DecisionBody` -/
def decisionBody : Option String :=
  match r.body with
  | .json (.obj fields) =>
      match Json.lookup "decision" fields with
      | some (.str decision) => some decision
      | _ => none
  | _ => none

end Request

def handle (fw : Framework) (s : ServerSettings) (params : List (String × String)) (r : Request) :
    Endpoint → Service Response
  | .dashboard => return .dashboard
  | .health => health
  | .ready => ready
  | .listTasks => validated (r.intQuery fw "limit" 50) (listTasks (r.param "status"))
  | .listWorkflows => validated (r.intQuery fw "limit" 50) (listWorkflows (r.param "status"))
  | .getWorkflow => validated (Request.intPath fw params "wf_id") getWorkflow
  | .listApprovals =>
      validated (r.boolQuery fw "pending" false) fun pending =>
        validated (r.intQuery fw "limit" 50) (listApprovals pending)
  | .decideApproval =>
      validated (Request.intPath fw params "approval_id") fun approvalId =>
        validated r.decisionBody (decideApproval approvalId)
  | .watchersStatus => watchersStatus
  | .latestDailySummary => latestDailySummary
  | .runSummaryNow => runSummaryNow s.logDir
  | .memorySearch =>
      validated (r.param "q") fun q => validated (r.intQuery fw "n" 5) (memorySearch q)
  | .memoryRecent => validated (r.intQuery fw "limit" 20) memoryRecent
  | .logsRecent => validated (r.intQuery fw "limit" 100) logsRecent
  | .queuesFailed => validated (r.intQuery fw "limit" 50) queuesFailed
  | .stats => stats
  | .trigger => validated r.triggerBody fun (type, payload) => trigger type payload

/-- The endpoints that read a body. -/
def Endpoint.readsBody : Endpoint → Bool
  | .decideApproval | .trigger => true
  | _ => false

/-- The first route that takes the request, with the parameters of its path. -/
def routed (fw : Framework) (r : Request) : Option (Route × List (String × String)) :=
  routes.findSome? fun route =>
    if route.method = r.method then (fw.pathParams route.template r.path).map fun params =>
      (route, params) else none

/-- A request is routed; its body must be JSON where one is read, the token is asked for where the
route depends on it, and only then the handler runs. What the handler raises is a server error. -/
def serve (fw : Framework) (s : ServerSettings) (r : Request) : Service Response :=
  match routed fw r with
  | none => return fw.unmatched r
  | some (route, params) =>
      match route.endpoint.readsBody, r.body with
      | true, .malformed => return .unprocessable
      | _, _ =>
          match if route.gated then requireToken s.apiAuthToken (r.header "authorization")
            else .ok () with
          | .error e => return raised e
          | .ok () =>
              Service.tryExcept (handle fw s params r route.endpoint) fun _ => return .serverError

end Api

end WiseOrder
