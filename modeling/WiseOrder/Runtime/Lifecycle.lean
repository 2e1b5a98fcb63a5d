import WiseOrder.Runtime.Protocol

/-! The life of a workflow. What a call has in the database is one workflow with
its tasks, and it is finished as a whole; a row moves on from running once, and
its log only grows. -/
namespace WiseOrder
open Coroutine Relational
variable {id : Nat} {h : History} {v : OwnRows} {i j : CallId} {now : Time} {db db' : Db}

namespace OwnRows

/-- The workflow `w` leads the rows of its call. Once it does not run any more it
says when it ended, and none of the tasks is running. -/
structure Led (id : Nat) (w : Workflow) (v : OwnRows) : Prop where
  only : v.workflows = [(id, w)]
  home : ∀ t ∈ v.tasks, t.2.workflowId = some id
  approvals : v.approvals.length ≤ 1
  begun : w.status ≠ .pending
  stamped : w.completedAt.isSome ↔ w.status ≠ .running
  settled : w.status ≠ .running → v.Quiet

def Orderly (v : OwnRows) : Prop :=
  (v.workflows = [] ∧ v.tasks = [] ∧ v.approvals = []) ∨ ∃ id w, v.Led id w

theorem orderly_none : OwnRows.none.Orderly := .inl ⟨rfl, rfl, rfl⟩

theorem Orderly.led {w : Workflow} (orderly : v.Orderly) (member : (id, w) ∈ v.workflows) :
    v.Led id w := by
  rcases orderly with ⟨none, -⟩ | ⟨id', w', led⟩
  · rw [none] at member
    contradiction
  · have only := led.only
    rw [only, List.mem_singleton, Prod.mk.injEq] at member
    rwa [member.1, member.2]

theorem Orderly.approvals (orderly : v.Orderly) : v.approvals.length ≤ 1 := by
  rcases orderly with ⟨-, -, none⟩ | ⟨id, w, led⟩
  · simp [none]
  · exact led.approvals

theorem Orderly.home {t : Nat × Task} (orderly : v.Orderly) (member : t ∈ v.tasks) :
    ∃ id w, t.2.workflowId = some id ∧ (id, w) ∈ v.workflows := by
  rcases orderly with ⟨-, none, -⟩ | ⟨id, w, led⟩
  · rw [none] at member
    contradiction
  · exact ⟨id, w, led.home t member, by rw [led.only]; exact List.mem_singleton.mpr rfl⟩

theorem Running.led (running : v.Running id) (orderly : v.Orderly) :
    ∃ w, v.Led id w ∧ w.status = .running := by
  obtain ⟨w, only, status⟩ := running
  exact ⟨w, orderly.led (by rw [only]; exact List.mem_singleton.mpr rfl), status⟩

/-- The tasks change, each under its workflow, and none begins to run again. -/
theorem Led.retask {w : Workflow} {f : Task → Task} (led : v.Led id w) (taskId : Nat)
    (home : ∀ t, (f t).workflowId = t.workflowId) (stopped : ∀ t, (f t).status ≠ .running) :
    Led id w { v with tasks := v.tasks.change taskId f } where
  only := led.only
  home := by
    intro t member
    obtain ⟨old, present, same⟩ := Rows.mem_change member
    rw [same]
    split
    · exact (home old).trans (led.home _ present)
    · exact led.home _ present
  approvals := led.approvals
  begun := led.begun
  stamped := led.stamped
  settled := by
    intro ended t member
    obtain ⟨old, present, same⟩ := Rows.mem_change member
    rw [same]
    split
    · exact stopped old
    · exact led.settled ended _ present

theorem Led.finish {w : Workflow} (led : v.Led id w) (quiet : v.Quiet) (begun : status ≠ .pending)
    (stopped : status ≠ .running) (entry : LogEntry) :
    Led id (w.finish status now entry)
      { v with workflows := v.workflows.change id (Workflow.finish status now entry) } where
  only := by simp only [led.only, Rows.change, List.map_cons, List.map_nil, if_true]
  home := led.home
  approvals := led.approvals
  begun := begun
  stamped := by simp [stopped]
  settled := fun _ => quiet

theorem Led.log {w : Workflow} (led : v.Led id w) (entry : LogEntry) :
    Led id (w.log entry) { v with workflows := v.workflows.change id (Workflow.log entry) } where
  only := by simp only [led.only, Rows.change, List.map_cons, List.map_nil, if_true]
  home := led.home
  approvals := led.approvals
  begun := led.begun
  stamped := led.stamped
  settled := led.settled

/-- Rows that do not count here may change. -/
theorem Led.same {w : Workflow} {v' : OwnRows} (led : v.Led id w)
    (workflows : v'.workflows = v.workflows) (tasks : v'.tasks = v.tasks)
    (approvals : v'.approvals.length ≤ 1) : v'.Led id w :=
  ⟨workflows.trans led.only, fun t member => led.home t (tasks ▸ member), approvals, led.begun,
    led.stamped,
    fun ended t member => led.settled ended t (tasks ▸ member)⟩

theorem Orderly.retask {f : Task → Task} (orderly : v.Orderly) (taskId : Nat)
    (held : v.tasks.Holds taskId) (home : ∀ t, (f t).workflowId = t.workflowId)
    (stopped : ∀ t, (f t).status ≠ .running) :
    Orderly { v with tasks := v.tasks.change taskId f } := by
  obtain ⟨t, member⟩ := held
  obtain ⟨id, w, -, present⟩ := orderly.home member
  exact .inr ⟨id, w, (orderly.led present).retask taskId home stopped⟩

theorem Orderly.commit {t : Transaction} {x : t.Reply} (orderly : v.Orderly)
    (lawful : t.Lawful h v) : (t.commit now v x).Orderly := by
  cases t with
  | addWorkflow name chain logs =>
      obtain ⟨rfl, -⟩ := lawful
      exact .inr ⟨x, _, rfl, fun t member => absurd member List.not_mem_nil, Nat.zero_le _,
        by simp [Transaction.newWorkflow], by simp [Transaction.newWorkflow],
        fun ended => absurd rfl ended⟩
  | createTask type id payload =>
      obtain ⟨w, led, running⟩ := lawful.led orderly
      refine .inr ⟨id, w, led.only, fun t member => ?_, led.approvals, led.begun, led.stamped,
        fun ended => absurd running ended⟩
      rcases List.mem_append.mp member with old | new
      · exact led.home t old
      · rw [List.mem_singleton.mp new]
        rfl
  | completeTask taskId result => exact orderly.retask taskId lawful (fun _ => rfl) fun _ => by simp
  | failTask taskId error => exact orderly.retask taskId lawful (fun _ => rfl) fun _ => by simp
  | appendLog id entry =>
      obtain ⟨w, led, -⟩ := lawful.led orderly
      exact .inr ⟨id, _, led.log entry⟩
  | failWorkflow id event error =>
      obtain ⟨w, led, -⟩ := lawful.1.led orderly
      exact .inr ⟨id, _, led.finish lawful.2 (by decide) (by decide) _⟩
  | completeWorkflow id event data =>
      obtain ⟨w, led, -⟩ := lawful.1.led orderly
      exact .inr ⟨id, _, led.finish lawful.2 (by decide) (by decide) _⟩
  | addMemory category content metadata =>
      exact orderly.imp id fun ⟨id, w, led⟩ => ⟨id, w, led.same rfl rfl led.approvals⟩
  | setEmbedding memoryId embeddingId =>
      exact orderly.imp id fun ⟨id, w, led⟩ => ⟨id, w, led.same rfl rfl led.approvals⟩
  | addApproval req =>
      obtain ⟨none, id, -, running⟩ := lawful
      obtain ⟨w, led, -⟩ := running.led orderly
      refine .inr ⟨id, w, led.same rfl rfl ?_⟩
      simp [Transaction.commit, none, Rows.add]
  | setDelivered approvalId via =>
      obtain ⟨a, member⟩ := lawful
      rcases orderly with ⟨-, -, none⟩ | ⟨id, w, led⟩
      · rw [none] at member
        contradiction
      · exact .inr ⟨id, w, led.same rfl rfl
          (by simpa [Transaction.commit, Rows.change] using led.approvals)⟩
  | findApproval approvalId => exact lawful.elim
  | updateDecision approvalId decision decidedAt => exact lawful.elim
  | reap cutoff marker => exact lawful.elim

end OwnRows

/-- What a row may become: it leaves running at most once, and keeps its log. -/
structure Workflow.Advances (w w' : Workflow) : Prop where
  name : w'.workflowName = w.workflowName
  createdAt : w'.createdAt = w.createdAt
  status : w'.status = w.status ∨
    (w.status = .running ∧ (w'.status = .completed ∨ w'.status = .failed ∨
      w'.status = .interrupted))
  logs : w.logs <+: w'.logs

namespace Workflow.Advances
variable {w w' w'' : Workflow}

theorem refl (w : Workflow) : w.Advances w := ⟨rfl, rfl, .inl rfl, List.prefix_refl _⟩

theorem trans (first : w.Advances w') (second : w'.Advances w'') : w.Advances w'' where
  name := second.name.trans first.name
  createdAt := second.createdAt.trans first.createdAt
  status := by
    rcases second.status with same | ⟨running, ended⟩
    · rw [same]
      exact first.status
    · rcases first.status with same | ⟨-, stopped⟩
      · exact .inr ⟨same ▸ running, ended⟩
      · rw [running] at stopped
        simp at stopped
  logs := first.logs.trans second.logs

theorem log (w : Workflow) (entry : LogEntry) : w.Advances (w.log entry) :=
  ⟨rfl, rfl, .inl rfl, List.prefix_append _ _⟩

theorem finish {ended : Status} (running : w.status = .running)
    (ends : ended = .completed ∨ ended = .failed ∨ ended = .interrupted)
    (now : Time) (entry : LogEntry) : w.Advances (w.finish ended now entry) :=
  ⟨rfl, rfl, .inr ⟨running, ends⟩, List.prefix_append _ _⟩

end Workflow.Advances

namespace Db

/-- All rows, each seen by the call that has it. -/
def Orderly (db : Db) : Prop := ∀ i, (db.own i).Orderly

def Advances (db db' : Db) : Prop := db.workflows.Evolves Workflow.Advances db'.workflows

theorem orderly_empty : Db.empty.Orderly := fun _ => .inl ⟨rfl, rfl, rfl⟩

theorem Advances.refl (db : Db) : db.Advances db := Table.Evolves.refl Workflow.Advances.refl _

theorem Advances.trans {db'' : Db} (first : db.Advances db') (second : db'.Advances db'') :
    db.Advances db'' :=
  Table.Evolves.trans Workflow.Advances.trans first second

theorem Advances.of_same (same : db'.workflows = db.workflows) : db.Advances db' := by
  unfold Advances
  rw [same]
  exact Advances.refl db

end Db

namespace Transaction
variable {t : Transaction} {x : t.Reply}

/-! ### The transactions of a pipeline -/

theorem orderly_lawful (ran : t.run i now db = .ok (x, db')) (lawful : t.Lawful h (db.own i))
    (orderly : (db.own j).Orderly) : (db'.own j).Orderly := by
  by_cases mine : i = j
  · subst j
    rw [(own_commit ran lawful.mine).2]
    exact orderly.commit lawful
  · rw [own_other ran lawful.mine mine]
    exact orderly

/-- The row that a call updates while its workflow runs. -/
theorem running_row (running : (db.own i).Running id) :
    ∀ e ∈ db.workflows.entries, e.id = id → e.row.status = .running := by
  intro e member same
  obtain ⟨w, only, status⟩ := running
  have mine : (id, w) ∈ db.workflows.owned i := by
    have listed : db.workflows.owned i = [(id, w)] := only
    rw [listed]
    exact List.mem_singleton.mpr rfl
  rw [Table.owned_entry mine member same]
  exact status

theorem advances_lawful (ran : t.run i now db = .ok (x, db')) (lawful : t.Lawful h (db.own i)) :
    db.Advances db' := by
  cases t with
  | addWorkflow name chain logs =>
      obtain ⟨rfl, rfl⟩ := Prod.mk.inj (Except.ok.inj ran)
      exact Table.evolves_insert Workflow.Advances.refl _ _ _
  | createTask | addMemory | addApproval =>
      obtain ⟨rfl, rfl⟩ := Prod.mk.inj (Except.ok.inj ran)
      exact .refl db
  | completeTask | failTask | setEmbedding | setDelivered =>
      rw [update_ok ran]
      exact .refl db
  | appendLog id entry =>
      rw [update_ok ran]
      exact Table.evolves_update Workflow.Advances.refl fun e _ _ => .log e.row entry
  | failWorkflow id event error =>
      rw [update_ok ran]
      exact Table.evolves_update Workflow.Advances.refl fun e member selected =>
        .finish (running_row lawful.1 e member (of_decide_eq_true selected)) (.inr (.inl rfl)) _ _
  | completeWorkflow id event data =>
      rw [update_ok ran]
      exact Table.evolves_update Workflow.Advances.refl fun e member selected =>
        .finish (running_row lawful.1 e member (of_decide_eq_true selected)) (.inl rfl) _ _
  | findApproval | updateDecision | reap => exact lawful.elim

/-! ### A decision -/

/-- It writes to the two columns of one approval at most. -/
theorem decides_run (ran : t.run i now db = .ok (x, db')) (decides : t.Decides) :
    db' = db ∨ ∃ approvalId decision decidedAt, db' =
    { db with approvals := db.approvals.updateAt approvalId (Approval.decide decision
      decidedAt) } := by
  cases t with
  | findApproval approvalId => exact .inl (find_ok ran).1
  | updateDecision approvalId decision decidedAt =>
      exact .inr ⟨approvalId, decision, decidedAt, update_ok ran⟩
  | _ => exact decides.elim

theorem Decides.mine (decides : t.Decides) : t.Mine v := by
  cases t with
  | findApproval | updateDecision => trivial
  | _ => exact decides.elim

theorem own_decide (ran : t.run i now db = .ok (x, db')) (decides : t.Decides) (j : CallId) :
    db'.own j = db.own j := by
  rcases decides_run ran decides with rfl | ⟨approvalId, decision, decidedAt, rfl⟩
  · rfl
  · simp only [Db.own, Table.owned_updateAt]
    rw [unsigned_decide Approval.undecided_decide]

theorem advances_decide (ran : t.run i now db = .ok (x, db')) (decides : t.Decides) :
    db.Advances db' := by
  rcases decides_run ran decides with rfl | ⟨approvalId, decision, decidedAt, rfl⟩
  · exact .refl _
  · exact .of_same rfl

/-! ### The reaper -/

section
variable {cutoff : Time} {marker : LogEntry} {n : Nat}

theorem orphan_running {w : Workflow} (selected : orphan cutoff w = true) :
    w.status = .running := by
  simp only [orphan, Bool.and_eq_true, decide_eq_true_eq] at selected
  exact selected.1

theorem advances_reap (ran : (reap cutoff marker).run i now db = .ok (n, db')) :
    db.Advances db' := by
  obtain ⟨-, rfl⟩ := Prod.mk.inj (Except.ok.inj ran)
  exact Table.evolves_update Workflow.Advances.refl fun e _ selected =>
    .finish (orphan_running selected) (.inr (.inr rfl)) _ _

/-- The reaper takes a workflow by its id, and so by its one row. -/
theorem mem_orphans {w : Workflow} (mine : (id, w) ∈ db.workflows.owned j) :
    id ∈ orphans cutoff db ↔ orphan cutoff w = true := by
  constructor
  · intro chosen
    obtain ⟨e, member, same⟩ := List.mem_map.mp chosen
    obtain ⟨present, selected⟩ := List.mem_filter.mp member
    rwa [Table.owned_entry mine present same] at selected
  · intro selected
    exact List.mem_map.mpr ⟨_, List.mem_filter.mpr ⟨Table.mem_owned.mp mine, selected⟩, rfl⟩

theorem own_reap (ran : (reap cutoff marker).run i now db = .ok (n, db')) (j : CallId) : db'.own j =
    { db.own j with
      workflows := (db.own j).workflows.map fun (id, w) =>
        if orphan cutoff w then (id, w.finish .interrupted now marker) else (id, w)
      tasks := (db.own j).tasks.map fun (id, t) =>
        if orphanTask (orphans cutoff db) t then (id, t.interrupt now) else (id, t) } := by
  obtain ⟨-, rfl⟩ := Prod.mk.inj (Except.ok.inj ran)
  simp only [Db.own, Table.owned_update]

/-- A call whose workflow is not an orphan keeps its rows. -/
theorem own_reap_spared (ran : (reap cutoff marker).run i now db = .ok (n, db'))
    (orderly : (db.own j).Orderly)
    (spared : ∀ w ∈ (db.own j).workflows, orphan cutoff w.2 = false) : db'.own j = db.own j := by
  rw [own_reap ran]
  have workflows : (db.own j).workflows.map (fun (id, w) =>
      if orphan cutoff w then (id, w.finish .interrupted now marker)
          else (id, w)) = (db.own j).workflows := by
    refine (List.map_congr_left fun _ member => ?_).trans (List.map_id _)
    simp [spared _ member]
  have tasks : (db.own j).tasks.map (fun (id, t) =>
      if orphanTask (orphans cutoff db) t then (id, t.interrupt now)
          else (id, t)) = (db.own j).tasks := by
    refine (List.map_congr_left fun task member => ?_).trans (List.map_id _)
    obtain ⟨id, w, home, present⟩ := orderly.home member
    have left : orphanTask (orphans cutoff db) task.2 = false := by
      simp [orphanTask, home, mem_orphans present, spared _ present]
    simp [left]
  rw [workflows, tasks]

theorem own_reap_none (ran : (reap cutoff marker).run i now db = .ok (n, db'))
    (none : db.own j = OwnRows.none) : db'.own j = OwnRows.none := by
  rw [own_reap ran, none]
  rfl

/-- The running tasks of an orphan are interrupted with it. -/
theorem orderly_reap (ran : (reap cutoff marker).run i now db = .ok (n, db'))
    (orderly : (db.own j).Orderly) : (db'.own j).Orderly := by
  rcases same : orderly with ⟨workflows, tasks, approvals⟩ | ⟨id, w, led⟩
  · rw [own_reap ran]
    exact .inl ⟨by simp [workflows], by simp [tasks], approvals⟩
  have mine : (id, w) ∈ (db.own j).workflows := by rw [led.only]; exact List.mem_singleton.mpr rfl
  cases selected : orphan cutoff w with
  | false =>
      rw [own_reap_spared ran orderly fun w' member => ?_]
      · exact orderly
      · rw [led.only, List.mem_singleton] at member
        rw [member, selected]
  | true =>
      rw [own_reap ran]
      refine .inr ⟨id, w.finish .interrupted now marker, ?_⟩
      constructor
      case only => simp [led.only, selected]
      case home =>
        intro t member
        obtain ⟨⟨taskId, old⟩, present, rfl⟩ := List.mem_map.mp member
        have home := led.home _ present
        dsimp only at home ⊢
        split <;> simpa using home
      case approvals => exact led.approvals
      case begun => simp
      case stamped => simp
      case settled =>
        intro _ t member running
        obtain ⟨⟨taskId, old⟩, present, rfl⟩ := List.mem_map.mp member
        have home := led.home _ present
        dsimp only at home running
        by_cases still : old.status = .running
        · simp [orphanTask, home, mem_orphans mine, selected, still] at running
        · simp [orphanTask, still] at running

end

end Transaction

/-! ### Rows that stay as they were inserted -/

/-- What an approval was asked with stays. -/
def SameRequest (a b : Approval) : Prop := b.workflowId = a.workflowId ∧ b.affected =
      a.affected ∧ b.outputs = a.outputs

def SameMemory (a b : Memory) : Prop := b.category = a.category ∧ b.metadata = a.metadata

theorem Transaction.rows_run {t : Transaction} {x : t.Reply} (ran : t.run i now db = .ok (x, db')) :
    db.memory.Evolves SameMemory db'.memory ∧ db.approvals.Evolves SameRequest db'.approvals := by
  have memory (table : Table CallId Memory) : table.Evolves SameMemory table :=
    .refl (fun _ => ⟨rfl, rfl⟩) _
  have approvals (table : Table CallId Approval) : table.Evolves SameRequest table :=
    .refl (fun _ => ⟨rfl, rfl, rfl⟩) _
  cases t with
  | addMemory =>
      obtain ⟨rfl, rfl⟩ := Prod.mk.inj (Except.ok.inj ran)
      exact ⟨Table.evolves_insert (fun _ => ⟨rfl, rfl⟩) _ _ _, approvals _⟩
  | addApproval =>
      obtain ⟨rfl, rfl⟩ := Prod.mk.inj (Except.ok.inj ran)
      exact ⟨memory _, Table.evolves_insert (fun _ => ⟨rfl, rfl, rfl⟩) _ _ _⟩
  | addWorkflow | createTask | reap =>
      obtain ⟨rfl, rfl⟩ := Prod.mk.inj (Except.ok.inj ran)
      exact ⟨memory _, approvals _⟩
  | findApproval =>
      obtain ⟨rfl, -⟩ := Transaction.find_ok ran
      exact ⟨memory _, approvals _⟩
  | completeTask | failTask | appendLog | failWorkflow | completeWorkflow =>
      rw [Transaction.update_ok ran]
      exact ⟨memory _, approvals _⟩
  | setEmbedding =>
      rw [Transaction.update_ok ran]
      exact ⟨Table.evolves_update (fun _ => ⟨rfl, rfl⟩) fun _ _ _ => ⟨rfl, rfl⟩, approvals _⟩
  | setDelivered | updateDecision =>
      rw [Transaction.update_ok ran]
      exact ⟨memory _, Table.evolves_update (fun _ => ⟨rfl, rfl, rfl⟩) fun _ _ _ => ⟨rfl, rfl, rfl⟩⟩

end WiseOrder
