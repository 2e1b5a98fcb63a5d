import WiseOrder.Memory.Models

/-! The `session_scope` blocks that only read. Where SQL leaves the order of rows open
they come in the order of their ids. -/
namespace WiseOrder
open Relational

def Status.text : Status → String
  | .pending => "pending"
  | .running => "running"
  | .completed => "completed"
  | .failed => "failed"
  | .interrupted => "interrupted"

/-- `GROUP BY` with `COUNT`: each value with the number of rows that have it. -/
def countBy [DecidableEq β] (f : α → β) (rows : List α) : List (β × Nat) :=
  (rows.map f).eraseDups.map fun b => (b, (rows.map f).count b)

/-- What the summary of a period is counted from. -/
structure PeriodCounts where
  workflowStatus : List (Status × Nat)
  taskStatus : List (Status × Nat)
  approvalDecision : List (Option String × Nat)
  workflowNames : List (String × Nat)
  failedTaskErrors : List String

inductive Query where
  | tasks (status : Option String) (limit : Int)
  | workflows (status : Option String) (limit : Int)
  | workflow (id : Int)
  | approvals (pending : Bool) (limit : Int)
  | latestMemory (category : String)
  | memories (limit : Int)
  | statusCounts
  | periodCounts (start stop : Time)

namespace Query

def Reply : Query → Type
  | .tasks .. => Rows Task
  | .workflows .. => Rows Workflow
  | .workflow _ => Option ((Nat × Workflow) × Rows Task)
  | .approvals .. => Rows Approval
  | .latestMemory _ => Option (Nat × Memory)
  | .memories _ => Rows Memory
  | .statusCounts => List (Status × Nat) × List (Status × Nat)
  | .periodCounts .. => PeriodCounts

def rows (t : Table CallId ρ) : Rows ρ := t.entries.map fun e => (e.id, e.row)

def invalidLimit : PyException := ⟨.other "DBAPIError", "LIMIT must not be negative"⟩

/-- An argument that the driver cannot bind. -/
def outOfRange : PyException := ⟨.other "DBAPIError", "value out of int64 range"⟩

/-- `ORDER BY id DESC LIMIT limit` -/
def newest (limit : Int) (rows : Rows ρ) : Except PyException (Rows ρ) :=
  if !isInt64 limit then .error outOfRange
  else if limit < 0 then .error invalidLimit
  else .ok (rows.reverse.take limit.toNat)

/-- `if status: stmt.where(... == status)` -/
def ofStatus (status : Option String) (f : ρ → Status) (rows : Rows ρ) : Rows ρ :=
  match status with
  | none | some "" => rows
  | some text => rows.filter fun r => (f r.2).text = text

def within (start stop : Time) (createdAt : ρ → Time) (rows : Rows ρ) : Rows ρ :=
  rows.filter fun r => start ≤ createdAt r.2 && createdAt r.2 < stop

def run : (q : Query) → Db → Except PyException q.Reply
  | .tasks status limit, db => newest limit (ofStatus status Task.status (rows db.tasks))
  | .workflows status limit, db =>
      newest limit (ofStatus status Workflow.status (rows db.workflows))
  | .workflow id, db =>
      if isInt64 id then
        .ok (((rows db.workflows).find? fun r => Int.ofNat r.1 = id).map fun w =>
          (w, (rows db.tasks).filter fun t => t.2.workflowId = some w.1))
      else .error outOfRange
  | .approvals pending limit, db =>
      newest limit ((rows db.approvals).filter fun a => !pending || a.2.decision.isNone)
  | .latestMemory category, db =>
      .ok (((rows db.memory).filter fun m => m.2.category = category).getLast?)
  | .memories limit, db => newest limit (rows db.memory)
  | .statusCounts, db =>
      .ok (countBy (fun t => t.2.status) (rows db.tasks),
        countBy (fun w => w.2.status) (rows db.workflows))
  | .periodCounts start stop, db =>
      let workflows := within start stop Workflow.createdAt (rows db.workflows)
      let tasks := within start stop Task.createdAt (rows db.tasks)
      let approvals := within start stop Approval.createdAt (rows db.approvals)
      .ok {
        workflowStatus := countBy (fun w => w.2.status) workflows
        taskStatus := countBy (fun t => t.2.status) tasks
        approvalDecision := countBy (fun a => a.2.decision) approvals
        workflowNames := ((countBy (fun w => w.2.workflowName) workflows).mergeSort fun a b =>
          b.2 ≤ a.2).take 5
        failedTaskErrors := ((tasks.filter fun t => t.2.status = .failed).filterMap fun t =>
          t.2.error).take 200 }

end Query

end WiseOrder
