import WiseOrder.Runtime.Upkeep
import WiseOrder.Workflows.CommitRuns

/-! A commit pipeline as a machine: it begins its four steps in order, each ends with its task
completed and logged, or spoils the workflow, and nothing comes after the end. What a call writes is
what the machine does, and its rows are at any time as the machine stands. -/
namespace WiseOrder.CommitPipeline
open Coroutine Coroutine.Program Relational

/-! ### The machine -/

/-- How far a workflow is: between steps with so many done, in a step whose task runs, is completed
but not yet logged, is over without the call having heard so, or failed with so many steps logged;
or at its end. -/
inductive Progress where
  | absent
  | idle (n : Nat)
  | working (n : Nat)
  | finished (n : Nat)
  | unheard (n : Nat)
  | spoiled (n logged : Nat)
  | failed (n logged : Nat)
  | completed

inductive Mark where
  | started
  | begun
  | finished
  | logged
  | unheard
  | spoiled
  | failed
  | completed

/-- The save step, the third, writes no log entry. -/
inductive Moves : Progress → Mark → Progress → Prop where
  | start : Moves .absent .started (.idle 0)
  | begin {n} (early : n < 4) : Moves (.idle n) .begun (.working n)
  | finish {n} (logs : n ≠ 2) : Moves (.working n) .finished (.finished n)
  | save : Moves (.working 2) .finished (.idle 3)
  | log {n} : Moves (.finished n) .logged (.idle (n + 1))
  | spoil {n} : Moves (.working n) .spoiled (.spoiled n n)
  | spoilLate {n} : Moves (.finished n) .spoiled (.spoiled n n)
  | lose {n} : Moves (.idle (n + 1)) .unheard (.unheard n)
  | spoilDone {n} : Moves (.unheard n) .spoiled (.spoiled n (n + 1))
  | fail {n m} : Moves (.spoiled n m) .failed (.failed n m)
  | complete : Moves (.idle 4) .completed .completed

namespace Progress

/-- Moves that were made at most. -/
def rank : Progress → Nat
  | .absent => 0
  | .idle n => 3 * n + 1
  | .working n => 3 * n + 2
  | .finished n => 3 * n + 3
  | .unheard n => 3 * n + 5
  | .spoiled n _ => 3 * n + 6
  | .failed n _ => 3 * n + 7
  | .completed => 14

/-- No step is begun after the fourth, and all but the last that was begun are logged. -/
def Within : Progress → Prop
  | .idle n => n ≤ 4
  | .working n | .finished n | .unheard n => n < 4
  | .spoiled n m | .failed n m => n < 4 ∧ (m = n ∨ m = n + 1)
  | _ => True

variable {p p' : Progress} {mark : Mark} {marks : List Mark}

theorem moves_rank (moves : Moves p mark p') : p.rank < p'.rank := by
  cases moves <;> simp only [rank] <;> omega

theorem moves_within (within : p.Within) (moves : Moves p mark p') : p'.Within := by
  cases moves with
  | begin early => exact early
  | log | fail => exact within
  | lose => exact Nat.lt_of_succ_le within
  | spoilDone => exact ⟨within, .inr rfl⟩
  | start | finish | save | spoil | spoilLate | complete => simp_all [Within]

theorem run_within (run : Transition.Run Moves .absent marks p) : p.Within :=
  run.invariant (P := Within) moves_within trivial

/-- A machine makes no more moves than its rank, so sixteen at most. -/
theorem run_length (run : Transition.Run Moves .absent marks p) : marks.length ≤ p.rank := by
  induction run with
  | refl => exact Nat.zero_le _
  | next earlier taken ih =>
      have higher := moves_rank taken
      rw [List.length_append, List.length_singleton]
      omega

/-- A step that failed is not among those that are logged. -/
def Heard : Progress → Prop
  | .unheard _ => False
  | .spoiled n m | .failed n m => m = n
  | _ => True

theorem run_heard (run : Transition.Run Moves .absent marks p) (heard : .unheard ∉ marks) :
    p.Heard := by
  induction run with
  | refl => trivial
  | next earlier taken ih =>
      rw [List.mem_append, not_or, List.mem_singleton] at heard
      have before := ih heard.1
      cases taken with
      | lose => exact absurd rfl heard.2
      | spoilDone => exact before.elim
      | fail => exact before
      | start | begin | finish | save | log | complete => trivial
      | spoil | spoilLate => rfl

/-- Nothing comes after the end. -/
theorem failed_final (moves : Moves (.failed n m) mark p) : False := by cases moves

theorem completed_final (moves : Moves .completed mark p) : False := by cases moves

end Progress

/-! ### Rows and marks -/

/-- What a transaction writes, once it is committed. -/
def marked : Transaction → List Mark
  | .addWorkflow .. => [.started]
  | .createTask .. => [.begun]
  | .completeTask .. => [.finished]
  | .appendLog .. => [.logged]
  | .failTask .. => [.spoiled]
  | .failWorkflow .. => [.failed]
  | .completeWorkflow .. => [.completed]
  | _ => []

/-- What a call has written: a transaction that raised may have been committed before or not, and
the call has not heard. -/
def Writes : Interaction calls → List Mark → Prop
  | ⟨.session t, .ok _⟩, marks => marks = marked t
  | ⟨.session t, .error _⟩, marks => marks = [] ∨ marks = marked t ∨ marks = marked t ++ [.unheard]
  | _, marks => marks = []

/-- A transaction that raises may have written nothing. -/
theorem writes_none {t : Transaction} {e : PyException} :
    Writes ⟨.session t, .error e⟩ [] := .inl rfl

theorem writes_redis {c : RedisCommand} {reply : Except PyException c.Reply} :
    Writes ⟨.redis c, reply⟩ [] := rfl

/-- What the calls of a history have written takes the machine from its beginning to where it is. -/
def Path (h : History) (p : Progress) : Prop :=
  ∃ marks, List.Forall₂ Writes h marks ∧ Transition.Run Moves .absent marks.flatten p

/-- The rows of a commit as the machine stands. -/
def Shows (repo sha : Json) (id : Nat) (v : OwnRows) : Progress → Prop
  | .absent => v.workflows = [] ∧ v.tasks = []
  | .idle n =>
      RowIs repo sha id .running (eventsDone n) v ∧ kinds v.tasks = tasksDone n ∧
        ∀ t ∈ v.tasks, t.2.workflowId = some id
  | .working n => RowIs repo sha id .running (eventsDone n) v ∧
      ∃ taskId type, taskChain[n]? = some type ∧ TaskIs n id taskId type .running v
  | .finished n => RowIs repo sha id .running (eventsDone n) v ∧
      ∃ taskId type, taskChain[n]? = some type ∧ TaskIs n id taskId type .completed v
  | .unheard n => RowIs repo sha id .running (eventsDone (n + 1)) v ∧
      ∃ taskId type, taskChain[n]? = some type ∧ TaskIs n id taskId type .completed v
  | .spoiled n m => RowIs repo sha id .running (eventsDone m) v ∧
      ∃ taskId type, taskChain[n]? = some type ∧ TaskIs n id taskId type .failed v
  | .failed n m => RowIs repo sha id .failed (eventsDone m ++ ["workflow_failed"]) v ∧
      ∃ taskId type, taskChain[n]? = some type ∧ TaskIs n id taskId type .failed v
  | .completed =>
      RowIs repo sha id .completed (eventsDone 4 ++ ["workflow_completed"]) v ∧ kinds v.tasks =
        tasksDone 4

variable {s : Settings} {i : CallId} {repo sha payload : Json} {id n m taskId : Nat}
    {type label : String} {h : History} {v v' : OwnRows}
  {p p' : Progress} {α : Type} {x : Interaction calls} {mark : Mark} {status : Status}

theorem path_more {marks : List Mark} (path : Path h p) (writes : Writes x marks)
    (moves : Transition.Run Moves p marks p') : Path (h ++ [x]) p' := by
  obtain ⟨earlier, written, run⟩ := path
  refine ⟨earlier ++ [marks], List.rel_append written (.cons writes .nil), ?_⟩
  rw [List.flatten_append, List.flatten_singleton]
  exact run.trans moves

theorem path_move (path : Path h p) (moves : Moves p mark p') (writes : Writes x [mark]) :
    Path (h ++ [x]) p' :=
  path_more path writes (.single moves)

theorem path_rest (path : Path h p) (none : Writes x []) : Path (h ++ [x]) p :=
  path_more path none (.refl p)

/-- The reaper has interrupted the workflow, with its tasks that ran. -/
structure Reaped (v v' : OwnRows) : Prop where
  workflows : ∃ now marker, v'.workflows = v.workflows.map fun e =>
    (e.1, e.2.finish .interrupted now marker)
  tasks : ∃ now, v'.tasks = v.tasks.map fun e => if e.2.status =
    .running then (e.1, e.2.interrupt now) else e

/-- The rows are as the machine stands, or as the reaper left them then. -/
def Follows (repo sha : Json) (h : History) (v : OwnRows) : Prop :=
  ∃ id p, Path h p ∧ (Shows repo sha id v p ∨ ∃ v₀, Shows repo sha id v₀ p ∧
    v₀.Running id ∧ Reaped v₀ v)

/-- The reaper leaves rows alone, or takes the running workflow with the tasks that run. -/
theorem reaped_own {k : CallId} {cutoff now : Time} {marker : LogEntry} {m : Nat} {db db' : Db}
    (ran : (Transaction.reap cutoff marker).run k now db = .ok (m, db'))
    (orderly : (db.own i).Orderly) : db'.own i = db.own i ∨ (∃ id, (db.own i).Running id) ∧
    Reaped (db.own i) (db'.own i) := by
  rcases same : orderly with ⟨workflows, -, -⟩ | ⟨id, w, led⟩
  · exact .inl (Transaction.own_reap_spared ran orderly
      fun w member => by simp [workflows] at member)
  have only (w' : Nat × Workflow) (member : w' ∈ (db.own i).workflows) : w' = (id, w) := by
    rwa [led.only, List.mem_singleton] at member
  cases selected : Transaction.orphan cutoff w with
  | false =>
      refine .inl (Transaction.own_reap_spared ran orderly fun w' member => ?_)
      rw [only w' member, selected]
  | true =>
      refine .inr ⟨⟨id, w, led.only, Transaction.orphan_running selected⟩, ⟨now, marker, ?_⟩, now,
        ?_⟩
      · rw [Transaction.own_reap ran]
        refine List.map_congr_left fun w' member => ?_
        rw [only w' member]
        simp [selected]
      · rw [Transaction.own_reap ran]
        refine List.map_congr_left fun t member => ?_
        have mine : (id, w) ∈
          (db.own i).workflows := by rw [led.only]; exact List.mem_singleton.mpr rfl
        have chosen : Transaction.orphanTask (Transaction.orphans cutoff db) t.2 =
            decide (t.2.status = .running) := by
          simp [Transaction.orphanTask, led.home t member, Transaction.mem_orphans mine, selected]
        simp only [chosen, decide_eq_true_eq]

theorem follows_reapable : Reapable (Follows repo sha) i := by
  rintro h k cutoff marker now m db db' ran orderly ⟨id, p, path, shows⟩
  rcases shows with shows | ⟨v₀, shows, running, reaped⟩
  · rcases reaped_own ran orderly with same | ⟨⟨id', running⟩, reaped⟩
    · exact ⟨id, p, path, .inl (same ▸ shows)⟩
    · refine ⟨id, p, path, .inr ⟨_, shows, ?_, reaped⟩⟩
      have row : ∃ status events, RowIs repo sha id status events (db.own i) := by
        obtain ⟨w, only, -⟩ := running
        cases p with
        | absent =>
            rw [shows.1] at only
            contradiction
        | _ => exact ⟨_, _, shows.1⟩
      obtain ⟨status, events, ⟨w, only, -⟩⟩ := row
      obtain ⟨w', only', runs⟩ := running
      cases only.symm.trans only'
      exact ⟨w, only, runs⟩
  · have same : db'.own i = db.own i := by
      refine Transaction.own_reap_spared ran orderly fun w member => ?_
      obtain ⟨now', marker', taken⟩ := reaped.workflows
      rw [taken] at member
      obtain ⟨e, -, rfl⟩ := List.mem_map.mp member
      simp [Transaction.orphan, Workflow.finish]
    exact ⟨id, p, path, .inr ⟨v₀, shows, running, same ▸ reaped⟩⟩

/-! ### The program -/

theorem follows_of (path : Path h p) (shows : Shows repo sha id v p) : Follows repo sha h v :=
  ⟨id, p, path, .inl shows⟩

/-- Between steps. -/
structure Idle (repo sha : Json) (id n : Nat) (h : History) (v : OwnRows) : Prop where
  path : Path h (.idle n)
  shows : Shows repo sha id v (.idle n)

/-- In a step, with so many logged and its task in the given status. -/
structure In (repo sha : Json) (id n logged taskId : Nat) (type : String) (status : Status)
    (p : Progress) (h : History) (v : OwnRows) : Prop where
  path : Path h p
  row : RowIs repo sha id .running (eventsDone logged) v
  task : TaskIs n id taskId type status v
  name : taskChain[n]? = some type

theorem In.working (inside : In repo sha id n n taskId type .running (.working n) h v) :
    Follows repo sha h v :=
  follows_of inside.path ⟨inside.row, taskId, type, inside.name, inside.task⟩

theorem In.finished (inside : In repo sha id n n taskId type .completed (.finished n) h v) :
    Follows repo sha h v :=
  follows_of inside.path ⟨inside.row, taskId, type, inside.name, inside.task⟩

theorem In.spoiled (inside : In repo sha id n m taskId type .failed (.spoiled n m) h v) :
    Follows repo sha h v :=
  follows_of inside.path ⟨inside.row, taskId, type, inside.name, inside.task⟩

/-- A step is over when its task is completed and its entry logged. -/
theorem In.idle (inside : In repo sha id n (n + 1) taskId type .completed (.idle (n + 1)) h v) :
    Idle repo sha id (n + 1) h v :=
  ⟨inside.path, inside.row, inside.task.kinds.trans (tasksDone_succ inside.name).symm,
    inside.task.home⟩

/-- A step whose body raised: it may have come to its end without hearing so. -/
inductive Broke (repo sha : Json) (id n taskId : Nat) (type : String) (h : History) (v : OwnRows) :
    Prop where
  | working (inside : In repo sha id n n taskId type .running (.working n) h v) :
      Broke repo sha id n taskId type h v
  | finished (inside : In repo sha id n n taskId type .completed (.finished n) h v) :
      Broke repo sha id n taskId type h v
  | unheard (inside : In repo sha id n (n + 1) taskId type .completed (.unheard n) h v) :
      Broke repo sha id n taskId type h v

theorem Broke.follows (broke : Broke repo sha id n taskId type h v) : Follows repo sha h v := by
  cases broke with
  | working inside => exact inside.working
  | finished inside => exact inside.finished
  | unheard inside =>
      exact follows_of inside.path ⟨inside.row, taskId, type, inside.name, inside.task⟩

/-- In any of these cases the task can be failed. -/
theorem Broke.spoils (broke : Broke repo sha id n taskId type h v) :
    ∃ m status p, In repo sha id n m taskId type status p h v ∧
    Moves p .spoiled (.spoiled n m) := by
  cases broke with
  | working inside => exact ⟨_, _, _, inside, .spoil⟩
  | finished inside => exact ⟨_, _, _, inside, .spoilLate⟩
  | unheard inside => exact ⟨_, _, _, inside, .spoilDone⟩

/-- Writes neither to the workflow nor to its tasks. -/
def Unmarked : Call → Prop
  | .session t => match t with
      | .addMemory .. | .setEmbedding .. | .addApproval _ | .setDelivered .. => True
      | _ => False
  | _ => True

theorem unmarked_marks (unmarked : Unmarked x.call) : Writes x [] := by
  obtain ⟨call, reply⟩ := x
  cases call with
  | session t =>
      cases reply with
      | ok y => cases t <;> first | exact unmarked.elim | rfl
      | error e => exact .inl rfl
  | _ => cases reply <;> rfl

theorem unmarked_rows {c : Call} {reply : Except PyException c.Reply} (unmarked : Unmarked c)
    (moved : ownEffect c v reply v') : v'.workflows = v.workflows ∧ v'.tasks = v.tasks := by
  cases c with
  | session t =>
      have committed (x : t.Reply) (now : Time) :
          (t.commit now v x).workflows = v.workflows ∧ (t.commit now v x).tasks = v.tasks := by
        cases t <;> first | exact unmarked.elim | exact ⟨rfl, rfl⟩
      cases reply with
      | error e =>
          rcases moved with rfl | ⟨x, now, -, rfl⟩
          · exact ⟨rfl, rfl⟩
          · exact committed x now
      | ok x =>
          obtain ⟨now, -, rfl⟩ := moved
          exact committed x now
  | now =>
      cases reply with
      | ok t =>
          cases moved
          exact ⟨rfl, rfl⟩
      | error e => exact moved.elim
  | _ => cases reply <;> cases moved <;> exact ⟨rfl, rfl⟩

/-- What calls leave that write nothing to the workflow and its tasks. -/
def Stays (G : History → OwnRows → Prop) : Prop :=
  ∀ h v x v', Writes x [] → v'.workflows = v.workflows → v'.tasks = v.tasks → G h v →
    G (h ++ [x]) v'

theorem In.stays (id n m taskId : Nat) (type : String) (status : Status) (p : Progress) :
    Stays (In repo sha id n m taskId type status p) :=
  fun _ _ _ _ none workflows tasks inside =>
    ⟨path_rest inside.path none, ⟨workflows ▸ inside.row.row⟩, ⟨tasks ▸ inside.task.last⟩,
      inside.name⟩

theorem In.rest (inside : In repo sha id n m taskId type status p h v) (none : Writes x []) :
    In repo sha id n m taskId type status p (h ++ [x]) v :=
  In.stays _ _ _ _ _ _ _ _ _ _ _ none rfl rfl inside

theorem Broke.rest (broke : Broke repo sha id n taskId type h v) (none : Writes x []) :
    Broke repo sha id n taskId type (h ++ [x]) v := by
  cases broke with
  | working inside => exact .working (inside.rest none)
  | finished inside => exact .finished (inside.rest none)
  | unheard inside => exact .unheard (inside.rest none)

/-! ### What the transactions leave -/

section
variable {now : Time} {text event : String} {data result : Json}

theorem Idle.begin (idle : Idle repo sha id n h v) (name : taskChain[n]? = some type)
    (early : n < 4) (reply : Except PyException Nat) (new : ¬ v.tasks.Holds taskId)
    (writes : Writes ⟨.session (.createTask type id payload), reply⟩ [.begun]) :
    In repo sha id n n taskId type .running (.working n)
    (h ++ [⟨.session (.createTask type id payload), reply⟩])
      (Transaction.commit now v (.createTask type id payload) taskId) := by
  obtain ⟨row, tasks, home⟩ := idle.shows
  exact ⟨path_move idle.path (.begin early) writes, ⟨row.row⟩,
    ⟨v.tasks, _, rfl, new, tasks, rfl, rfl, rfl, home⟩, name⟩

theorem In.complete (inside : In repo sha id n n taskId type .running (.working n) h v)
    (logs : n ≠ 2) (result : Json) (now : Time) (reply : Except PyException Unit) (y : Unit)
    (writes : Writes ⟨.session (.completeTask taskId result), reply⟩ [.finished]) :
    In repo sha id n n taskId type .completed (.finished n)
    (h ++ [⟨.session (.completeTask taskId result), reply⟩])
      (Transaction.commit now v (.completeTask taskId result) y) :=
  ⟨path_move inside.path (.finish logs) writes, ⟨inside.row.row⟩, inside.task.complete y,
    inside.name⟩

/-- The save step is over with its task. -/
theorem In.save (inside : In repo sha id 2 2 taskId type .running (.working 2) h v)
    {marks : List Mark} (moves : Transition.Run Moves (.working 2) marks p)
    (reply : Except PyException Unit) (y : Unit)
    (writes : Writes ⟨.session (.completeTask taskId result), reply⟩ marks) :
    In repo sha id 2 3 taskId type .completed p
    (h ++ [⟨.session (.completeTask taskId result), reply⟩])
      (Transaction.commit now v (.completeTask taskId result) y) :=
  ⟨path_more inside.path writes moves, ⟨inside.row.row⟩, inside.task.complete y, inside.name⟩

/-- The other steps are over when they are logged. -/
theorem In.log (inside : In repo sha id n n taskId type .completed (.finished n) h v)
    {ts : Time} {marks : List Mark} (logged : eventsDone (n + 1) = eventsDone n ++ [event])
    (moves : Transition.Run Moves (.finished n) marks p) (reply : Except PyException Unit)
    (y : (Transaction.appendLog id ⟨ts, event, data⟩).Reply)
    (writes : Writes ⟨.session (.appendLog id ⟨ts, event, data⟩), reply⟩ marks) :
    In repo sha id n (n + 1) taskId type .completed p
    (h ++ [⟨.session (.appendLog id ⟨ts, event, data⟩), reply⟩])
      (Transaction.commit now v (.appendLog id ⟨ts, event, data⟩) y) := by
  have row : RowIs repo sha id .running (eventsDone n ++ [event])
      (Transaction.commit now v (.appendLog id ⟨ts, event, data⟩) y) :=
    inside.row.log y
  rw [← logged] at row
  exact ⟨path_more inside.path writes moves, row, ⟨inside.task.last⟩, inside.name⟩

theorem In.spoil (inside : In repo sha id n m taskId type status p h v)
    (moves : Moves p .spoiled (.spoiled n m)) (text : String) (now : Time)
    (reply : Except PyException Unit) (y : Unit)
    (writes : Writes ⟨.session (.failTask taskId text), reply⟩ [.spoiled]) :
    In repo sha id n m taskId type .failed (.spoiled n m)
    (h ++ [⟨.session (.failTask taskId text), reply⟩])
      (Transaction.commit now v (.failTask taskId text) y) :=
  ⟨path_move inside.path moves writes, ⟨inside.row.row⟩, inside.task.fail y, inside.name⟩

theorem In.fail (inside : In repo sha id n m taskId type .failed (.spoiled n m) h v)
    (reply : Except PyException Unit) (y : Unit)
    (writes : Writes ⟨.session (.failWorkflow id "workflow_failed" text), reply⟩ [.failed]) :
    Follows repo sha (h ++ [⟨.session (.failWorkflow id "workflow_failed" text), reply⟩])
      (Transaction.commit now v (.failWorkflow id "workflow_failed" text) y) :=
  follows_of (p := .failed n m) (path_move inside.path .fail writes)
    ⟨inside.row.finish .failed now (by decide) ⟨now, "workflow_failed",
      .obj [("error", .str text)]⟩, taskId, type, inside.name,
      ⟨inside.task.last⟩⟩

theorem Idle.complete (idle : Idle repo sha id 4 h v) (reply : Except PyException Unit) (y : Unit)
    (writes : Writes ⟨.session (.completeWorkflow id "workflow_completed" data),
      reply⟩ [.completed]) :
    Follows repo sha (h ++ [⟨.session (.completeWorkflow id "workflow_completed" data), reply⟩])
      (Transaction.commit now v (.completeWorkflow id "workflow_completed" data) y) := by
  obtain ⟨row, tasks, home⟩ := idle.shows
  exact follows_of (p := .completed) (path_move idle.path .complete writes)
    ⟨row.finish .completed now (by decide) ⟨now, "workflow_completed", data⟩, tasks⟩

end

/-! ### Its parts -/

theorem quiet_keeps {G : History → OwnRows → Prop} {m : Async α} (within : m.Within Unmarked)
    (stays : Stays G) (shows : ∀ h v, G h v → Follows repo sha h v) (start : G h v) :
    KeepsUp (Follows repo sha) m (fun _ h v => G h v) h v := by
  induction m generalizing h v with
  | done result => exact start
  | await call onReply ih =>
      refine ⟨shows _ _ start, fun reply after moved => ih reply (within.2 reply) ?_⟩
      obtain ⟨workflows, tasks⟩ := unmarked_rows within.1 moved
      exact stays _ _ _ _ (unmarked_marks within.1) workflows tasks start

/-- The end of a step that is not the third. -/
theorem keeps_closing (inside : In repo sha id n n taskId type .running (.working n) h v)
    (result data : Json) {event : String} (logs : n ≠ 2)
    (logged : eventsDone (n + 1) = eventsDone n ++ [event]) (a : α) :
    KeepsUp (Follows repo sha) (do
      completeTask taskId result
      let entry ← logEntry event data
      appendLog id entry
      return a) (ending (fun _ h v => Idle repo sha id (n + 1) h v) fun _ h v =>
        Broke repo sha id n taskId type h v) h v := by
  apply obeys_bind_iff.mpr
  apply obeys_session inside.working
  · intro x now _
    have done := inside.complete logs result now (.ok x) x rfl
    apply obeys_bind_iff.mpr
    apply obeys_bind_iff.mpr
    apply obeys_utcnow done.finished
    intro ts
    have read : Writes ⟨.now, .ok ts⟩ [] := rfl
    have dated := done.rest read
    apply obeys_bind_iff.mpr
    apply obeys_session dated.finished
    · intro y later _
      exact (dated.log logged (.single .log) (.ok y) y rfl).idle
    · rintro e v' (rfl | ⟨y, later, -, rfl⟩)
      · exact .finished (dated.rest writes_none)
      · exact .unheard (dated.log logged ((Transition.Run.single .log).next .lose)
          (.error e) y (.inr (.inr rfl)))
  · rintro e v' (rfl | ⟨x, now, -, rfl⟩)
    · exact .working (inside.rest writes_none)
    · exact .finished (inside.complete logs result now (.error e) x (.inr (.inl rfl)))

/-- The `except` clause of a step. -/
theorem keeps_except {post : Post calls OwnRows α} (broke : Broke repo sha id n taskId type h v)
    (e : PyException) (raises : ∀ e h v, Follows repo sha h v → post (.error e) h v) :
    KeepsUp (Follows repo sha) (do
      failTask taskId e.text
      failWorkflow id (label ++ " failed: " ++ e.text)
      raise e : Async α) post h v := by
  obtain ⟨m, status, p, inside, moves⟩ := broke.spoils
  apply obeys_bind_iff.mpr
  apply obeys_session broke.follows
  · intro x later _
    have spoiled := inside.spoil moves e.text later (.ok x) x rfl
    apply obeys_bind_iff.mpr
    apply obeys_session spoiled.spoiled
    · intro y last _
      exact raises _ _ _ (spoiled.fail (.ok y) y rfl)
    · rintro e' v' (rfl | ⟨y, last, -, rfl⟩)
      · exact raises _ _ _ (spoiled.rest writes_none).spoiled
      · exact raises _ _ _ (spoiled.fail (.error e') y (.inr (.inl rfl)))
  · rintro e' v' (rfl | ⟨x, later, -, rfl⟩)
    · exact raises _ _ _ (broke.rest writes_none).follows
    · exact raises _ _ _ (inside.spoil moves e.text later (.error e') x (.inr (.inl rfl))).spoiled

/-- A step is begun, and ends as its body does or with its task and the workflow failed. -/
theorem keeps_step {body : Nat → Async α} {payload : Json} (idle : Idle repo sha id n h v)
    (name : taskChain[n]? = some type) (early : n < 4)
    (runs : ∀ taskId h v, In repo sha id n n taskId type .running (.working n) h v →
      KeepsUp (Follows repo sha) (body taskId)
      (ending (fun _ h v => Idle repo sha id (n + 1) h v) fun _ h v =>
        Broke repo sha id n taskId type h v) h v) :
    KeepsUp (Follows repo sha) (do
      let taskId ← createTask type id payload
      orFail taskId id label (body taskId))
      (ending (fun _ h v => Idle repo sha id (n + 1) h v) fun _ h v =>
        Follows repo sha h v) h v := by
  apply obeys_bind_iff.mpr
  apply obeys_session (follows_of idle.path idle.shows)
  · intro taskId now new
    apply obeys_tryExcept (runs taskId _ _ (idle.begin name early (.ok taskId) new rfl))
    · exact fun a h v done => done
    · intro e h v _ broke
      exact keeps_except broke e fun _ _ _ follows => follows
    · exact fun e h v _ broke => broke.follows
  · rintro e v' (rfl | ⟨taskId, now, new, rfl⟩)
    · exact follows_of (path_rest idle.path writes_none) idle.shows
    · exact (idle.begin name early (.error e) new (.inr (.inl rfl))).working

/-- A step that asks someone outside and writes the answer down. -/
theorem keeps_consult {c : Call} (inside : In repo sha id n n taskId type .running (.working n) h v)
    (outside : c.Outside) (unmarked : Unmarked c) (result data : c.Reply → Json)
    {event : String} (logs : n ≠ 2) (logged : eventsDone (n + 1) = eventsDone n ++ [event]) :
    KeepsUp (Follows repo sha) (do
      let a ← await c
      completeTask taskId (result a)
      let entry ← logEntry event (data a)
      appendLog id entry
      return a) (ending (fun _ h v => Idle repo sha id (n + 1) h v) fun _ h v =>
        Broke repo sha id n taskId type h v) h v := by
  apply obeys_bind_iff.mpr
  refine obeys_await outside inside.working fun reply => ?_
  have inside := In.stays _ _ _ _ _ _ _ _ _ _ _ (unmarked_marks (x := ⟨c, reply⟩) unmarked) rfl
    rfl inside
  cases reply with
  | ok a => exact keeps_closing inside (result a) (data a) logs logged a
  | error e => exact .working inside

theorem keeps_summarizeStep (idle : Idle repo sha id 0 h v)
    (repo' sha' subject author diff : Json) :
    KeepsUp (Follows repo sha) (summarizeStep id repo' sha' subject author diff)
      (ending (fun _ h v => Idle repo sha id 1 h v) fun _ h v => Follows repo sha h v) h v := by
  refine keeps_step idle rfl (by decide) fun taskId h v inside => ?_
  exact keeps_consult (c := .summarize subject author sha' diff) inside trivial trivial
    EngineeringSummary.toDict _ (by decide) rfl

theorem keeps_draftStep (idle : Idle repo sha id 1 h v) (sha' : Json) (eng : EngineeringSummary) :
    KeepsUp (Follows repo sha) (draftStep id sha' eng)
      (ending (fun _ h v => Idle repo sha id 2 h v) fun _ h v => Follows repo sha h v) h v := by
  refine keeps_step idle rfl (by decide) fun taskId h v inside => ?_
  exact keeps_consult (c := .draft eng.summary eng.changelog eng.riskLevel) inside trivial trivial
    SocialDraft.toDict _ (by decide) rfl

theorem unmarked_index (memoryId : Nat) (content : String) (repo sha : Json)
    (eng : EngineeringSummary) : (index memoryId content repo sha eng).Within Unmarked :=
  within_catching (within_bind (within_call trivial) fun _ => within_call trivial) fun _ => trivial

/-- The save step has no log entry: it is over when its task is completed. -/
theorem keeps_saveStep (idle : Idle repo sha id 2 h v) (repo' sha' subject author : Json)
    (eng : EngineeringSummary) :
    KeepsUp (Follows repo sha) (saveStep id repo' sha' subject author eng)
      (ending (fun _ h v => Idle repo sha id 3 h v) fun _ h v => Follows repo sha h v) h v := by
  refine keeps_step idle rfl (by decide) fun taskId h v inside => ?_
  have stays : Stays (In repo sha id 2 2 taskId "save" .running (.working 2)) :=
    In.stays _ _ _ _ _ _ _
  apply obeys_bind_iff.mpr
  apply obeys_ofExcept
  cases short sha' with
  | error e => exact .working inside
  | ok shortSha =>
      refine obeys_bind (quiet_keeps (within_call trivial) stays (fun _ _ => In.working) inside)
        (fun memoryId h v inside => ?_)
        fun e h v inside => .working inside
      refine obeys_bind (quiet_keeps (unmarked_index _ _ _ _ _) stays
        (fun _ _ => In.working) inside) (fun _ h v inside => ?_)
        fun e h v inside => .working inside
      apply obeys_session inside.working
      · intro x now _
        exact (inside.save (.single .save) (.ok x) x rfl).idle
      · rintro e v' (rfl | ⟨x, now, -, rfl⟩)
        · exact .working (inside.rest writes_none)
        · exact .unheard (inside.save ((Transition.Run.single .save).next .lose)
            (.error e) x (.inr (.inr rfl)))

theorem unmarked_send (req : ApprovalRequest) : (ApprovalGateway.send s req).Within Unmarked := by
  apply ApprovalGateway.within_send
  · intro c delivery
    cases c with
    | session => exact delivery.elim
    | _ => trivial
  · trivial
  · exact fun _ _ => trivial

theorem keeps_approvalStep (idle : Idle repo sha id 3 h v) (repo' sha' subject : Json)
    (eng : EngineeringSummary) (soc : SocialDraft) :
    KeepsUp (Follows repo sha) (approvalStep s id repo' sha' subject eng soc)
      (ending (fun _ h v => Idle repo sha id 4 h v) fun _ h v => Follows repo sha h v) h v := by
  refine keeps_step idle rfl (by decide) fun taskId h v inside => ?_
  have stays : Stays (In repo sha id 3 3 taskId "request_approval" .running (.working 3)) :=
    In.stays _ _ _ _ _ _ _
  apply obeys_bind_iff.mpr
  apply obeys_ofExcept
  cases approvalRequest id taskId repo' sha' subject eng soc with
  | error e => exact .working inside
  | ok req =>
      refine obeys_bind (quiet_keeps (unmarked_send req) stays (fun _ _ => In.working) inside)
        (fun approvalId h v inside => ?_)
        fun e h v inside => .working inside
      exact keeps_closing inside (.obj [("approval_id", .int approvalId)])
        (.obj [("id", .int approvalId)]) (by decide) rfl approvalId

theorem follows_runPipelineSteps (idle : Idle repo sha id 0 h v)
    (repo' sha' subject author diff : Json) :
    KeepsUp (Follows repo sha) (runPipelineSteps s id repo' sha' subject author diff)
    (fun _ h v => Follows repo sha h v) h v := by
  refine obeys_bind (keeps_summarizeStep idle _ _ _ _ _)
    (fun eng h v idle => ?_) fun e h v follows => follows
  refine obeys_bind (keeps_draftStep idle _ _) (fun soc h v idle => ?_) fun e h v follows => follows
  refine obeys_bind (keeps_saveStep idle _ _ _ _ _) (fun _ h v idle => ?_) fun e h v follows =>
    follows
  refine obeys_bind (keeps_approvalStep idle _ _ _ _ _)
    (fun approvalId h v idle => ?_) fun e h v follows => follows
  apply obeys_bind_iff.mpr
  apply obeys_session (follows_of idle.path idle.shows)
  · intro x now _
    exact idle.complete (.ok x) x rfl
  · rintro e v' (rfl | ⟨x, now, -, rfl⟩)
    · exact follows_of (path_rest idle.path writes_none) idle.shows
    · exact idle.complete (.error e) x (.inr (.inl rfl))

/-- Before there is a workflow. -/
def Before (h : History) (v : OwnRows) : Prop := Path h .absent ∧ v = OwnRows.none

theorem Before.follows (before : Before h v) : Follows repo sha h v := by
  obtain ⟨path, rfl⟩ := before
  exact ⟨0, .absent, path, .inl ⟨rfl, rfl⟩⟩

theorem Before.rest (before : Before h v) (none : Writes x []) : Before (h ++ [x]) v :=
  ⟨path_rest before.1 none, before.2⟩

theorem Before.start (before : Before h v) (id : Nat) (ts now : Time)
    (reply : Except PyException Nat)
    (writes : Writes ⟨.session (.addWorkflow "commit_pipeline" taskChain
      [⟨ts, "workflow_started", .obj [("repo", repo), ("sha", sha)]⟩]), reply⟩ [.started]) :
    Idle repo sha id 0 (h ++ [⟨.session (.addWorkflow "commit_pipeline" taskChain
        [⟨ts, "workflow_started", .obj [("repo", repo), ("sha", sha)]⟩]), reply⟩])
      (Transaction.commit now v (.addWorkflow "commit_pipeline" taskChain
        [⟨ts, "workflow_started", .obj [("repo", repo), ("sha", sha)]⟩]) id) := by
  obtain ⟨path, rfl⟩ := before
  exact ⟨path_move path .start writes,
    ⟨_, rfl, rfl, rfl, ⟨rfl, ts, [], rfl⟩, by simp [Transaction.newWorkflow]⟩, rfl,
    fun t member => absurd member List.not_mem_nil⟩

theorem follows_runClaimed (before : Before h v) (subject author diff : Json) :
    KeepsUp (Follows repo sha) (runClaimed s repo sha subject author diff)
    (fun _ h v => Follows repo sha h v) h v := by
  apply obeys_bind_iff.mpr
  apply obeys_bind_iff.mpr
  apply obeys_utcnow before.follows
  intro ts
  have before := before.rest (x := ⟨.now, .ok ts⟩) rfl
  apply obeys_bind_iff.mpr
  apply obeys_session before.follows
  · intro id now _
    have idle : Idle repo sha id 0 _ _ := before.start id ts now (.ok id) rfl
    apply obeys_bind_iff.mpr
    refine obeys_await trivial (follows_of idle.path idle.shows) fun reply => ?_
    cases reply with
    | ok x =>
        exact follows_runPipelineSteps ⟨path_rest idle.path writes_redis, idle.shows⟩ _ _ _ _ _
    | error e => exact follows_of (path_rest idle.path writes_redis) idle.shows
  · rintro e v' (rfl | ⟨id, now, -, rfl⟩)
    · exact (before.rest writes_none).follows
    · have idle : Idle repo sha id 0 _ _ := before.start id ts now (.error e) (.inr (.inl rfl))
      exact follows_of idle.path idle.shows

theorem follows_runCommitPipeline (names : commitOf payload = some (repo, sha)) :
    KeepsUp (Follows repo sha) (runCommitPipeline s payload) (fun _ h v => Follows repo sha h v)
    [] OwnRows.none := by
  have before : Before [] OwnRows.none := ⟨⟨[], .nil, .refl _⟩, rfl⟩
  apply obeys_bind_iff.mpr
  apply obeys_ofExcept
  cases required : requireKeys payload ["repo", "sha"] with
  | error e => exact before.follows
  | ok fields =>
      have same : commitOf payload =
          some ((Json.lookup "repo" fields).getD .null, (Json.lookup "sha" fields).getD .null) := by
        simp only [commitOf, required]
      cases names.symm.trans same
      apply obeys_bind_iff.mpr
      apply obeys_bind_iff.mpr
      refine obeys_await trivial before.follows fun reply => ?_
      cases reply with
      | error e => exact (before.rest writes_redis).follows
      | ok won =>
          cases won with
          | true => exact follows_runClaimed (before.rest writes_redis) _ _ _
          | false =>
              apply obeys_bind_iff.mpr
              refine obeys_await trivial (before.rest writes_redis).follows fun reply => ?_
              cases reply with
              | error e => exact ((before.rest writes_redis).rest writes_redis).follows
              | ok existing => exact ((before.rest writes_redis).rest writes_redis).follows

/-- At any time, with one orchestrator after the other, what a call of the pipeline has written is a
run of the machine, and its rows are as the machine stands then, or as the reaper has left them. -/
theorem pipeline_follows {c c' : Pool} {trace : List RunEvent} (fresh : Fresh c)
    (run : Transition.Run (Transition.Guarded (Step s) OneOrchestrator) c trace c')
    (role : i.role = .pipeline) (made : .spawn i (runCommitPipeline s payload) ∈ trace)
    (names : commitOf payload = some (repo, sha)) :
    Follows repo sha (c'.threads i).past (view i c'.world) :=
  run_upheld fresh run made role follows_reapable (follows_runCommitPipeline names)

/-- An orchestrator comes up, and a pipeline that it runs is in its first step. -/
theorem pipeline_follows_begun : ∃ trace c',
    Transition.Run (Transition.Guarded (Step (.defaults "/root")) OneOrchestrator) Pool.initial
      trace c' ∧ Path (c'.threads ⟨1, 2, .pipeline⟩).past (.working 0) ∧
    Follows (.str "/srv/app") (.str "4c1d") (c'.threads ⟨1, 2, .pipeline⟩).past
    (view ⟨1, 2, .pipeline⟩ c'.world) := by
  obtain ⟨_, serving⟩ := run_serving
  obtain ⟨_, -, executing⟩ := run_entry serving ⟨1, 2, .pipeline⟩ (.commitPipeline samplePayload)
    (openingScript "4c1d" 0 1 1) ((plays_attach rfl).trans (.call ⟨_, rfl, rfl⟩ (.stop _ _)))
      rfl rfl rfl
    (one_pipeline rfl rfl) one_calls
  have written : List.Forall₂ Writes (openingScript "4c1d" 0 1 1)
      [[], [], [.started], [], [.begun]] :=
    .cons rfl (.cons rfl (.cons rfl (.cons rfl (.cons rfl .nil))))
  have path : Path (openingScript "4c1d" 0 1 1) (.working 0) :=
    ⟨_, written, ((Transition.Run.refl _).next .start).next (.begin (by decide))⟩
  exact ⟨_, _, executing, path, pipeline_follows fresh_initial executing rfl
    (List.mem_append_right _ List.mem_cons_self) rfl⟩

end WiseOrder.CommitPipeline
