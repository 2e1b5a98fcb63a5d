import WiseOrder.Runtime.Faults

/-! How the rows of a commit pipeline grow from step to step. -/
namespace WiseOrder.CommitPipeline
open Coroutine Relational
variable {id : Nat}

def kinds (rows : Rows Task) : List (String × Status) := rows.map fun t => (t.2.type, t.2.status)

/-- The tasks after `n` steps. -/
def tasksDone (n : Nat) : List (String × Status) :=
  (taskChain.take n).map fun type => (type, .completed)

/-- The log events after `n` steps. The save step writes none. -/
def eventsDone : Nat → List String
  | 0 => ["workflow_started"]
  | 1 => ["workflow_started", "summary_done"]
  | 2 | 3 => ["workflow_started", "summary_done", "social_done"]
  | _ => ["workflow_started", "summary_done", "social_done", "approval_sent"]

/-- The workflow row of a run of the pipeline for a commit. -/
structure RowIs (repo sha : Json) (id : Nat) (status : Status) (events : List String)
    (v : OwnRows) : Prop where
  row : ∃ w, v.workflows = [(id, w)] ∧ w.status = status ∧ w.events = events ∧ w.Of repo sha ∧
    (w.completedAt.isSome ↔ status ≠ .running)

theorem RowIs.running (is : RowIs repo sha id .running events v) : v.Running id := by
  obtain ⟨w, same, status, -⟩ := is.row
  exact ⟨w, same, status⟩

theorem RowIs.holds (is : RowIs repo sha id status events v) : v.workflows.Holds id := by
  obtain ⟨w, same, -⟩ := is.row
  exact ⟨w, by rw [same]; exact List.mem_singleton.mpr rfl⟩

/-- The last task, after those of the steps done. -/
structure TaskIs (n : Nat) (id taskId : Nat) (type : String) (status : Status) (v : OwnRows) :
    Prop where
  last : ∃ rows t, v.tasks = rows.add taskId t ∧ ¬ rows.Holds taskId ∧ kinds rows = tasksDone n ∧
    t.type = type ∧ t.status = status ∧ t.workflowId = some id ∧
      ∀ t ∈ rows, t.2.workflowId = some id

theorem TaskIs.holds (is : TaskIs n id taskId type status v) : v.tasks.Holds taskId := by
  obtain ⟨rows, t, same, -⟩ := is.last
  exact ⟨t, by rw [same]; exact List.mem_append_right _ (List.mem_singleton.mpr rfl)⟩

theorem TaskIs.kinds (is : TaskIs n id taskId type status v) :
    kinds v.tasks = tasksDone n ++ [(type, status)] := by
  obtain ⟨rows, t, same, -, done, rfl, rfl, -⟩ := is.last
  rw [same, ← done]
  simp [CommitPipeline.kinds, Rows.add]

theorem TaskIs.home (is : TaskIs n id taskId type status v) :
    ∀ t ∈ v.tasks, t.2.workflowId = some id := by
  obtain ⟨rows, t, same, -, -, -, -, mine, others⟩ := is.last
  intro task member
  rw [same] at member
  rcases List.mem_append.mp member with old | new
  · exact others task old
  · rw [List.mem_singleton.mp new]
    exact mine

theorem TaskIs.quiet (is : TaskIs n id taskId type status v) (stopped : status ≠ .running) :
    v.Quiet := by
  intro task member running
  have kind : (task.2.type, task.2.status) ∈ CommitPipeline.kinds v.tasks :=
    List.mem_map.mpr ⟨task, member, rfl⟩
  rw [is.kinds, running] at kind
  rcases List.mem_append.mp kind with old | new
  · obtain ⟨type, -, same⟩ := List.mem_map.mp old
    cases same
  · simp only [List.mem_singleton, Prod.mk.injEq] at new
    exact stopped new.2.symm

section
variable {v : OwnRows} {now : Time}

/-- A workflow keeps its identity when entries are appended to its log. -/
theorem of_append {w w' : Workflow} (is : w.Of repo sha) (name : w'.workflowName = w.workflowName)
    (logs : w'.logs = w.logs ++ more) : w'.Of repo sha := by
  obtain ⟨commit, ts, rest, started⟩ := is
  exact ⟨name.trans commit, ts, rest ++ more, by rw [logs, started, List.cons_append]⟩

theorem RowIs.log (is : RowIs repo sha id .running events v)
    (x : (Transaction.appendLog id entry).Reply) :
    RowIs repo sha id .running (events ++ [entry.event])
    (Transaction.commit now v (.appendLog id entry) x) := by
  obtain ⟨w, same, status, logged, commit, stamped⟩ := is.row
  refine ⟨w.log entry, ?_, status, ?_, of_append commit rfl rfl, stamped⟩
  · simp only [Transaction.commit, same, Rows.change, List.map_cons, List.map_nil, if_true]
  · rw [← logged]
    simp [Workflow.events]

theorem RowIs.finish (is : RowIs repo sha id .running events v) (status : Status) (now : Time)
    (stopped : status ≠ .running) (entry : LogEntry) :
    RowIs repo sha id status (events ++ [entry.event])
      { v with workflows := v.workflows.change id (Workflow.finish status now entry) } := by
  obtain ⟨w, same, -, logged, commit, -⟩ := is.row
  refine ⟨w.finish status now entry, ?_, rfl, ?_, of_append commit rfl rfl, by simp [stopped]⟩
  · simp only [same, Rows.change, List.map_cons, List.map_nil, if_true]
  · rw [← logged]
    simp [Workflow.events]

theorem TaskIs.complete (is : TaskIs n id taskId type status v)
    (x : (Transaction.completeTask taskId result).Reply) :
    TaskIs n id taskId type .completed
    (Transaction.commit now v (.completeTask taskId result) x) := by
  obtain ⟨rows, t, same, new, done, rfl, -, mine, others⟩ := is.last
  refine ⟨rows, t.complete now result, ?_, new, done, rfl, rfl, mine, others⟩
  simp only [Transaction.commit, same, Rows.change_last new]

theorem TaskIs.fail (is : TaskIs n id taskId type status v)
    (x : (Transaction.failTask taskId error).Reply) :
    TaskIs n id taskId type .failed (Transaction.commit now v (.failTask taskId error) x) := by
  obtain ⟨rows, t, same, new, done, rfl, -, mine, others⟩ := is.last
  refine ⟨rows, t.fail now error, ?_, new, done, rfl, rfl, mine, others⟩
  simp only [Transaction.commit, same, Rows.change_last new]

end

end WiseOrder.CommitPipeline
