import WiseOrder.Memory.Queries

/-! The `session_scope` blocks of the program. Each is one transaction: it commits
as a whole, or it is rolled back and raises. Row ids that a block reads or writes
come with it; the clock is read once in a block. The block of a decision comes in two
parts, since others may commit between what it reads and what it writes; the other
blocks are taken to run one at a time. -/
namespace WiseOrder
open Relational

inductive Transaction where
  | addWorkflow (workflowName : String) (taskChain : List String) (logs : List LogEntry)
  | createTask (type : String) (workflowId : Nat) (payload : Json)
  | completeTask (taskId : Nat) (result : Json)
  | failTask (taskId : Nat) (error : String)
  | appendLog (workflowId : Nat) (entry : LogEntry)
  | failWorkflow (workflowId : Nat) (event error : String)
  | completeWorkflow (workflowId : Nat) (event : String) (data : Json)
  | addMemory (category content : String) (metadata : Json)
  | setEmbedding (memoryId : Nat) (embeddingId : String)
  | addApproval (request : ApprovalRequest)
  | setDelivered (approvalId : Nat) (deliveredVia : Option String)
  | findApproval (approvalId : Int)
  | updateDecision (approvalId : Nat) (decision : Option String) (decidedAt : Option Time)
  | reap (cutoff : Time) (marker : LogEntry)

namespace Transaction

/-- What a block hands out: the id of a new row, the columns of one that was looked for,
or how many rows were reaped. -/
def Reply : Transaction → Type
  | .addWorkflow .. | .createTask .. | .addMemory .. | .addApproval .. | .reap .. => Nat
  | .findApproval _ => Option (Option String × Option Time)
  | _ => Unit

def newWorkflow (now : Time) (workflowName : String) (taskChain : List String)
    (logs : List LogEntry) : Workflow where
  workflowName := workflowName
  taskChain := taskChain
  status := .running
  logs := logs
  createdAt := now
  completedAt := none

def newTask (now : Time) (type : String) (workflowId : Nat) (payload : Json) : Task where
  type := type
  status := .running
  payload := payload
  result := none
  error := none
  workflowId := some workflowId
  createdAt := now
  startedAt := some now
  completedAt := none

def newMemory (now : Time) (category content : String) (metadata : Json) : Memory where
  category := category
  content := content
  embeddingId := none
  metadata := metadata
  createdAt := now

def newApproval (now : Time) (req : ApprovalRequest) : Approval where
  workflowId := req.workflowId
  taskId := req.taskId
  summary := req.summary
  outputs := req.outputs
  affected := req.affected
  riskLevel := req.riskLevel
  decision := none
  deliveredVia := none
  createdAt := now
  decidedAt := none

/-- The rows that the reaper selects. -/
def orphan (cutoff : Time) (w : Workflow) : Bool := w.status = .running && w.createdAt < cutoff

def orphans (cutoff : Time) (db : Db) : List Nat :=
  (db.workflows.entries.filter fun e => orphan cutoff e.row).map Entry.id

/-- A running task of one of the workflows. -/
def orphanTask (workflows : List Nat) (t : Task) : Bool :=
  t.status = .running && match t.workflowId with
    | some id => workflows.contains id
    | none => false

/-- `scalar_one()` of a select by id, and the update of the row found. -/
def updateOne (table : Table CallId ρ) (id : Nat) (f : ρ → ρ) :
    Except PyException (Table CallId ρ) :=
  match table.find? id with
  | none => .error .noResultFound
  | some _ => .ok (table.updateAt id f)

def run (caller : CallId) (now : Time) : (t : Transaction) → Db → Except PyException (t.Reply × Db)
  | .addWorkflow name chain logs, db =>
      .ok (db.workflows.next,
        { db with workflows := db.workflows.insert caller (newWorkflow now name chain logs) })
  | .createTask type workflowId payload, db =>
      .ok (db.tasks.next,
        { db with tasks := db.tasks.insert caller (newTask now type workflowId payload) })
  | .completeTask taskId result, db => do
      let tasks ← updateOne db.tasks taskId (Task.complete now result)
      .ok ((), { db with tasks := tasks })
  | .failTask taskId error, db => do
      let tasks ← updateOne db.tasks taskId (Task.fail now error)
      .ok ((), { db with tasks := tasks })
  | .appendLog workflowId entry, db => do
      let workflows ← updateOne db.workflows workflowId (Workflow.log entry)
      .ok ((), { db with workflows := workflows })
  | .failWorkflow workflowId event error, db => do
      let entry : LogEntry := ⟨now, event, .obj [("error", .str error)]⟩
      let workflows ← updateOne db.workflows workflowId (Workflow.finish .failed now entry)
      .ok ((), { db with workflows := workflows })
  | .completeWorkflow workflowId event data, db => do
      let entry : LogEntry := ⟨now, event, data⟩
      let workflows ← updateOne db.workflows workflowId (Workflow.finish .completed now entry)
      .ok ((), { db with workflows := workflows })
  | .addMemory category content metadata, db =>
      .ok (db.memory.next,
        { db with memory := db.memory.insert caller (newMemory now category content metadata) })
  | .setEmbedding memoryId embeddingId, db => do
      let memory ← updateOne db.memory memoryId (Memory.embed embeddingId)
      .ok ((), { db with memory := memory })
  | .addApproval req, db =>
      .ok (db.approvals.next,
        { db with approvals := db.approvals.insert caller (newApproval now req) })
  | .setDelivered approvalId via, db => do
      let approvals ← updateOne db.approvals approvalId (Approval.deliver via)
      .ok ((), { db with approvals := approvals })
  | .findApproval approvalId, db =>
      if isInt64 approvalId then
        -- `scalar_one_or_none()`: a missing row is no error
        .ok ((db.approvals.entries.find? fun e => Int.ofNat e.id = approvalId).map fun e =>
          (e.row.decision, e.row.decidedAt), db)
      else .error Query.outOfRange
  | .updateDecision approvalId decision decidedAt, db => do
      let approvals ← updateOne db.approvals approvalId (Approval.decide decision decidedAt)
      .ok ((), { db with approvals := approvals })
  | .reap cutoff marker, db =>
      let ids := orphans cutoff db
      .ok (ids.length, { db with
        workflows := db.workflows.update (fun e => orphan cutoff e.row)
          (Workflow.finish .interrupted now marker)
        tasks := db.tasks.update (fun e => orphanTask ids e.row) (Task.interrupt now) })

end Transaction

end WiseOrder
