import WiseOrder.Foundation.Table
import WiseOrder.Python

/-! The rows of the four tables. -/
namespace WiseOrder

/-- What a call is of: a pipeline run by a worker, an orchestrator coming up, a
worker's loop, a request from outside, or an operator who drops a claim. -/
inductive Role where
  | pipeline
  | starter
  | worker
  | visitor
  | operator
  deriving DecidableEq

/-- A call of the program: the process it runs in, its number and its role. -/
structure CallId where
  process : Nat
  number : Nat
  role : Role
  deriving DecidableEq

inductive Status where
  | pending
  | running
  | completed
  | failed
  | interrupted
  deriving DecidableEq

structure LogEntry where
  ts : Time
  event : String
  data : Json

structure Task where
  type : String
  status : Status
  payload : Json
  result : Option Json
  error : Option String
  workflowId : Option Nat
  createdAt : Time
  startedAt : Option Time
  completedAt : Option Time

structure Workflow where
  workflowName : String
  taskChain : List String
  status : Status
  logs : List LogEntry
  createdAt : Time
  completedAt : Option Time

structure Memory where
  category : String
  content : String
  embeddingId : Option String
  metadata : Json
  createdAt : Time

structure Approval where
  workflowId : Option Nat
  taskId : Option Nat
  summary : String
  outputs : Json
  affected : List String
  riskLevel : String
  decision : Option String
  deliveredVia : Option String
  createdAt : Time
  decidedAt : Option Time

structure ApprovalRequest where
  summary : String
  outputs : Json
  affected : List String
  riskLevel : String
  workflowId : Option Nat
  taskId : Option Nat

/-- Every row is kept under the call that inserted it, a column the database lacks. -/
structure Db where
  workflows : Relational.Table CallId Workflow
  tasks : Relational.Table CallId Task
  memory : Relational.Table CallId Memory
  approvals : Relational.Table CallId Approval

namespace Db

def empty : Db := ⟨.empty, .empty, .empty, .empty⟩

end Db

namespace Workflow

def log (entry : LogEntry) (w : Workflow) : Workflow := { w with logs := w.logs ++ [entry] }

def finish (status : Status) (now : Time) (entry : LogEntry) (w : Workflow) : Workflow :=
  { w with status := status, completedAt := some now, logs := w.logs ++ [entry] }

def events (w : Workflow) : List String := w.logs.map LogEntry.event

@[simp] theorem log_status (w : Workflow) : (w.log entry).status = w.status := rfl
@[simp] theorem log_completedAt (w : Workflow) : (w.log entry).completedAt = w.completedAt := rfl
@[simp] theorem log_createdAt (w : Workflow) : (w.log entry).createdAt = w.createdAt := rfl
@[simp] theorem log_logs (w : Workflow) : (w.log entry).logs = w.logs ++ [entry] := rfl
@[simp] theorem finish_status (w : Workflow) : (w.finish s now entry).status = s := rfl
@[simp] theorem finish_completedAt (w : Workflow) : (w.finish s now entry).completedAt = some now :=
  rfl
@[simp] theorem finish_createdAt (w : Workflow) : (w.finish s now entry).createdAt = w.createdAt :=
  rfl
@[simp] theorem finish_logs (w : Workflow) : (w.finish s now entry).logs = w.logs ++ [entry] := rfl

end Workflow

namespace Task

def complete (now : Time) (result : Json) (t : Task) : Task :=
  { t with status := .completed, result := some result, completedAt := some now }

def fail (now : Time) (error : String) (t : Task) : Task :=
  { t with status := .failed, error := some error, completedAt := some now }

def interrupt (now : Time) (t : Task) : Task :=
  { t with
    status := .interrupted
    completedAt := some now
    error := some "orphaned at orchestrator startup" }

@[simp] theorem complete_status (t : Task) : (t.complete now value).status = .completed := rfl
@[simp] theorem complete_type (t : Task) : (t.complete now value).type = t.type := rfl
@[simp] theorem complete_workflowId (t : Task) : (t.complete now value).workflowId = t.workflowId :=
  rfl
@[simp] theorem fail_status (t : Task) : (t.fail now text).status = .failed := rfl
@[simp] theorem fail_type (t : Task) : (t.fail now text).type = t.type := rfl
@[simp] theorem fail_workflowId (t : Task) : (t.fail now text).workflowId = t.workflowId := rfl
@[simp] theorem interrupt_status (t : Task) : (t.interrupt now).status = .interrupted := rfl
@[simp] theorem interrupt_workflowId (t : Task) : (t.interrupt now).workflowId = t.workflowId := rfl

end Task

def Memory.embed (embeddingId : String) (m : Memory) : Memory :=
  { m with embeddingId := some embeddingId }

namespace Approval

def deliver (via : Option String) (a : Approval) : Approval := { a with deliveredVia := via }

/-- An update writes the columns that it is given. -/
def decide (decision : Option String) (decidedAt : Option Time) (a : Approval) : Approval :=
  { a with decision := decision.or a.decision, decidedAt := decidedAt.or a.decidedAt }

/-- An approval before anyone decided it. -/
def undecided (a : Approval) : Approval := { a with decision := none, decidedAt := none }

theorem undecided_deliver (a : Approval) : (a.deliver via).undecided = a.undecided.deliver via :=
  rfl

theorem undecided_decide (a : Approval) : (a.decide text now).undecided = a.undecided := rfl

end Approval

end WiseOrder
