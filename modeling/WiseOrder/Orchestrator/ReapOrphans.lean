import WiseOrder.Foundation.Script
import WiseOrder.Memory.Scope
import WiseOrder.Orchestrator.Main

/-! The reaper, statement by statement: a select of the orphans, and for each of them
an update of its row and one of its running tasks, all in one transaction. -/
namespace WiseOrder.Scope
open Coroutine Coroutine.Program Relational

/-- `timedelta(seconds=seconds)` -/
def timedelta (seconds : Int) : Except PyException Time :=
  let days := seconds / 86400
  if -999999999 ≤ days ∧ days ≤ 999999999 then .ok (seconds * second)
  else .error ⟨.other "OverflowError", "days=" ++ toString days ++
    "; must have magnitude <= 999999999"⟩

/-- `now - delta`, within the years 1 to 9999. -/
def minus (now delta : Time) : Except PyException Time :=
  let t := now - delta
  if -62135596800 * second ≤ t ∧ t < 253402300800 * second then .ok t
  else .error ⟨.other "OverflowError", "date value out of range"⟩

def cutoffAt (now : Time) (maxAgeSeconds : Int) : Except PyException Time := do
  let age ← timedelta maxAgeSeconds
  minus now age

def interruptOne (marker : LogEntry) (id : Nat) (wf : Workflow) : Program sql Unit := do
  let completedAt : Time ← statement .now
  let endedAt : Time ← statement .now
  -- the row is flushed before the second update is sent
  statement (.updateWorkflow id .interrupted completedAt (wf.logs ++ [marker]))
  statement (.interruptTasks id endedAt)

def interruptAll (marker : LogEntry) : List (Nat × Workflow) → Program sql Unit
  | [] => return ()
  | (id, wf) :: rows => do
      interruptOne marker id wf
      interruptAll marker rows

def reapBlock (cutoff : Time) (marker : LogEntry) : Program sql Nat := do
  let rows : List (Nat × Workflow) ← statement (.selectOrphans cutoff)
  interruptAll marker rows
  return rows.length

/-- What is done once the clock has been read. -/
def reapAt (now : Time) (maxAgeSeconds : Int) : Program sql Nat := do
  let cutoff ← ofExcept (cutoffAt now maxAgeSeconds)
  let markedAt : Time ← statement .now
  sessionScope (reapBlock cutoff (Orchestrator.interruptedMarker markedAt maxAgeSeconds))

def reapOrphanWorkflows (maxAgeSeconds : Int) : Program sql Nat := do
  let now : Time ← statement .now
  reapAt now maxAgeSeconds

/-! ### What a reaper leaves -/

/-- The row was finished between two instants. -/
def Finished (marker : LogEntry) (start stop : Time) (w w' : Workflow) : Prop :=
  ∃ t, start ≤ t ∧ t ≤ stop ∧ w' = w.finish .interrupted t marker

def Interrupted (start stop : Time) (task task' : Task) : Prop :=
  ∃ t, start ≤ t ∧ t ≤ stop ∧ task' = task.interrupt t

/-- A running task of one of the workflows. -/
def RunningIn (ids : List Nat) (e : Entry CallId Task) : Prop :=
  e.row.status = .running ∧ ∃ id ∈ ids, e.row.workflowId = some id

/-- The workflows under some ids have been interrupted between two instants, with their running
tasks, and nothing else has changed. -/
structure Reaped (ids : List Nat) (marker : LogEntry) (start stop : Time) (db db' : Db) : Prop where
  workflows : db.workflows.Became (fun e => e.id ∈ ids) (Finished marker start stop) db'.workflows
  tasks : db.tasks.Became (RunningIn ids) (Interrupted start stop) db'.tasks
  memory : db'.memory = db.memory
  approvals : db'.approvals = db.approvals

variable {marker : LogEntry} {start stop later : Time} {db db' : Db} {ids : List Nat}
    {w w' : Store} {cutoff : Time}

theorem reaped_none : Reaped [] marker start stop db db where
  workflows := Table.became_refl (by simp)
  tasks := Table.became_refl (by simp [RunningIn])
  memory := rfl
  approvals := rfl

theorem Reaped.mono (reaped : Reaped ids marker start stop db db') (le : stop ≤ later) :
    Reaped ids marker start later db db' where
  workflows := reaped.workflows.weaken (fun _ _ => .rfl) fun ⟨t, above, below, same⟩ =>
    ⟨t, above, Int.le_trans below le, same⟩
  tasks := reaped.tasks.weaken (fun _ _ => .rfl) fun ⟨t, above, below, same⟩ =>
    ⟨t, above, Int.le_trans below le, same⟩
  memory := reaped.memory
  approvals := reaped.approvals

theorem Reaped.nothing (reaped : Reaped [] marker start stop db db') : db' = db := by
  have workflows := reaped.workflows.same (by simp)
  have tasks := reaped.tasks.same (by simp [RunningIn])
  obtain ⟨-, -, memory, approvals⟩ := reaped
  cases db
  cases db'
  simp_all

/-- One more workflow, with its tasks. -/
theorem Reaped.one {id : Nat} {wf : Workflow} (reaped : Reaped ids marker start stop db db')
    (new : id ∉ ids) (row : ∀ e ∈ db.workflows.entries, e.id = id → e.row = wf)
    (within : start ≤ t ∧ t ≤ stop) (within' : start ≤ u ∧ u ≤ stop) :
    Reaped (ids ++ [id]) marker start stop db
    (interruptTasks id u (setWorkflow id .interrupted t (wf.logs ++ [marker]) db')) where
  workflows := by
    have changed : (interruptTasks id u (setWorkflow id .interrupted t (wf.logs ++ [marker])
      db')).workflows =
        db'.workflows.update (fun e => e.id = id)
          fun row =>
            { row with
              status := .interrupted
              completedAt := some t
              logs := wf.logs ++ [marker] } := rfl
    rw [changed]
    refine reaped.workflows.update (fun e _ before _ _ => ?_) fun e member before => ?_
    · have other : e.id ≠ id := fun same => new (same ▸ before)
      exact ⟨by simp [other], List.mem_append_left _ before⟩
    · refine ⟨by simp [before], fun same => ⟨t, within.1, within.2, ?_⟩⟩
      rw [row e member (by simpa using same)]
      rfl
  tasks := by
    have changed : (interruptTasks id u (setWorkflow id .interrupted t (wf.logs ++ [marker])
      db')).tasks =
        db'.tasks.update (runningIn id) (Task.interrupt u) := rfl
    rw [changed]
    refine reaped.tasks.update (fun e _ before task became => ?_) fun e member before => ?_
    · obtain ⟨_, -, -, rfl⟩ := became
      obtain ⟨running, n, there, home⟩ := before
      exact ⟨by simp [runningIn], running, n, List.mem_append_left _ there, home⟩
    · refine ⟨?_, fun _ => ⟨u, within'.1, within'.2, rfl⟩⟩
      simp only [RunningIn, not_and, not_exists] at before
      simp only [runningIn, Bool.and_eq_true, decide_eq_true_eq, RunningIn,
        List.mem_append, List.mem_singleton]
      constructor
      · rintro ⟨home, running⟩
        exact ⟨running, id, .inr rfl, home⟩
      · rintro ⟨running, n, there | rfl, home⟩
        · exact absurd home (before running n there)
        · exact ⟨home, running⟩
  memory := reaped.memory
  approvals := reaped.approvals

theorem Reaped.same {others : List Nat} (reaped : Reaped ids marker start stop db db')
    (same : ∀ id, id ∈ ids ↔ id ∈ others) : Reaped others marker start stop db db' where
  workflows := reaped.workflows.weaken (fun e _ => same e.id) id
  tasks := reaped.tasks.weaken (fun e _ => by simp only [RunningIn, same]) id
  memory := reaped.memory
  approvals := reaped.approvals

/-! ### The loop -/

/-- What the transaction has made of the database, with some of the orphans done. -/
def Progress (b : Store) (marker : LogEntry) (ids : List Nat) (w : Store) : Prop :=
  Reaped ids marker b.clock w.clock b.db w.pending ∧ b.clock ≤ w.clock

theorem obeys_interruptOne {b : Store} {id : Nat} {wf : Workflow} {seen : List (Interaction sql)}
    (progress : Progress b marker ids w) (same : w.db = b.db) (new : id ∉ ids)
    (row : ∀ e ∈ b.db.workflows.entries, e.id = id → e.row = wf) :
    (interruptOne marker id wf).Obeys rules
    (Uncommitted b fun _ => Progress b marker (ids ++ [id])) seen w := by
  obtain ⟨reaped, since⟩ := progress
  refine obeys_statement (fun e after performed => performed.elim) fun (t : Time) after performed =>
    ?_
  obtain ⟨above, rfl⟩ := performed
  refine obeys_statement (fun e after performed => performed.elim) fun (u : Time) after performed =>
    ?_
  obtain ⟨above', rfl⟩ := performed
  have first : b.clock ≤ t := Int.le_trans since above
  have second : b.clock ≤ u := Int.le_trans first above'
  refine obeys_statement (fun e after performed => ?_) fun _ after performed => ?_
  · cases performed
    exact ⟨same, raised_here⟩
  · cases performed
    refine obeys_call trivial fun reply after performed => ?_
    cases reply with
    | error e =>
        cases performed
        exact ⟨same, raised_here⟩
    | ok _ =>
        cases performed
        have wide := reaped.mono (Int.le_trans above above')
        exact ⟨⟨wide.one new row ⟨first, above'⟩ ⟨second, Int.le_refl u⟩, second⟩, same⟩

theorem obeys_interruptAll {b : Store} {rows : List (Nat × Workflow)}
    {seen : List (Interaction sql)} (progress : Progress b marker ids w) (same : w.db = b.db)
    (distinct : (ids ++ rows.map Prod.fst).Nodup)
    (each : ∀ x ∈ rows, ∀ e ∈ b.db.workflows.entries, e.id = x.1 → e.row = x.2) :
    (interruptAll marker rows).Obeys rules
    (Uncommitted b fun _ => Progress b marker (ids ++ rows.map Prod.fst)) seen w := by
  induction rows generalizing ids w seen with
  | nil =>
      rw [List.map_nil, List.append_nil]
      exact ⟨progress, same⟩
  | cons x rows ih =>
      obtain ⟨id, wf⟩ := x
      have new : id ∉ ids := by
        intro there
        have apart := (List.nodup_append.mp distinct).2.2
        exact apart id there id (by simp) rfl
      have here := each (id, wf) List.mem_cons_self
      refine obeys_bind (obeys_interruptOne progress same new here)
        (fun _ seen w progress => ?_) fun e seen w raised => raised
      have rest : ids ++ ((id, wf) :: rows).map Prod.fst = ids ++ [id] ++
        rows.map Prod.fst := by simp
      rw [rest] at distinct ⊢
      exact ih progress.1 progress.2 distinct fun x member => each x (List.mem_cons_of_mem _ member)

theorem orphans_nodup : (Transaction.orphans cutoff db).Nodup := by
  have distinct : (db.workflows.entries.map Entry.id).Nodup :=
    db.workflows.increasing.imp Nat.ne_of_lt
  exact distinct.sublist (List.filter_sublist.map _)

theorem obeys_reapBlock {seen : List (Interaction sql)} : (reapBlock cutoff marker).Obeys rules
    (Uncommitted w fun n v => Reaped (Transaction.orphans cutoff w.db) marker w.clock v.clock w.db
      v.pending ∧
      n = (Transaction.orphans cutoff w.db).length ∧ w.clock ≤ v.clock) seen (w.write w.db) := by
  refine obeys_statement
    (fun e after performed => ?_) fun (rows : List (Nat × Workflow)) after performed => ?_
  · cases performed
    exact ⟨rfl, raised_here⟩
  · obtain ⟨found, rfl⟩ := performed
    change rows.Perm ((w.db.workflows.entries.filter fun e => Transaction.orphan cutoff e.row).map
      fun e => (e.id, e.row)) at found
    have ids : (rows.map Prod.fst).Perm (Transaction.orphans cutoff w.db) := by
      simpa [Transaction.orphans, List.map_map, Function.comp_def] using found.map Prod.fst
    have each : ∀ x ∈ rows, ∀ e ∈ w.db.workflows.entries, e.id = x.1 → e.row = x.2 := by
      intro x member e there same
      obtain ⟨e', here, rfl⟩ := List.mem_map.mp (found.mem_iff.mp member)
      exact congrArg Entry.row (Table.unique there (List.mem_filter.mp here).1 same)
    have start : Progress w marker [] (w.write w.db) := ⟨reaped_none, Int.le_refl _⟩
    refine obeys_bind (obeys_interruptAll start rfl (ids.nodup_iff.mpr orphans_nodup) each)
      (fun _ seen v made => ?_) fun e seen v raised => raised
    obtain ⟨⟨reaped, since⟩, same⟩ := made
    have length : rows.length =
      (Transaction.orphans cutoff w.db).length := by simpa using ids.length_eq
    exact ⟨⟨reaped.same fun id => ids.mem_iff, length, since⟩, same⟩

/-! ### The effect -/

/-- A workflow that runs and was created before an instant. -/
def Orphan (cutoff : Time) (e : Entry CallId Workflow) : Prop :=
  e.row.status = .running ∧ e.row.createdAt < cutoff

/-- Exactly the orphans are interrupted, with a marker at the end of their logs, and exactly their
running tasks. -/
structure Effect (cutoff : Time) (marker : LogEntry) (start stop : Time) (db db' : Db) : Prop where
  workflows : db.workflows.Became (Orphan cutoff)
    (fun w w' => ∃ t, start ≤ t ∧ t ≤ stop ∧
      w' = { w with status := .interrupted, completedAt := some t, logs := w.logs ++ [marker] })
        db'.workflows
  tasks : db.tasks.Became
    (fun e => e.row.status = .running ∧ ∃ x ∈ db.workflows.entries, Orphan cutoff x ∧
      e.row.workflowId = some x.id)
    (fun t t' => ∃ u, start ≤ u ∧ u ≤ stop ∧
      t' = { t with
        status := .interrupted
        completedAt := some u
        error := some "orphaned at orchestrator startup" }) db'.tasks
  memory : db'.memory = db.memory
  approvals : db'.approvals = db.approvals

theorem orphan_iff {e : Entry CallId Workflow} : Transaction.orphan cutoff e.row =
      true ↔ Orphan cutoff e := by
  simp [Transaction.orphan, Orphan]

theorem mem_orphans {id : Nat} : id ∈ Transaction.orphans cutoff db ↔ ∃ e ∈ db.workflows.entries,
    Orphan cutoff e ∧ e.id = id := by
  simp [Transaction.orphans, Transaction.orphan, Orphan, and_assoc]

theorem Reaped.effect (reaped : Reaped (Transaction.orphans cutoff db) marker start stop db db') :
    Effect cutoff marker start stop db db' where
  workflows := by
    refine reaped.workflows.weaken (fun e member => ?_) fun changed => changed
    rw [mem_orphans]
    constructor
    · rintro ⟨e', member', orphan, same⟩
      exact Table.unique member' member same ▸ orphan
    · exact fun orphan => ⟨e, member, orphan, rfl⟩
  tasks := by
    refine reaped.tasks.weaken (fun e _ => and_congr_right fun _ => ?_) fun changed => changed
    constructor
    · rintro ⟨id, there, home⟩
      obtain ⟨x, member, orphan, rfl⟩ := mem_orphans.mp there
      exact ⟨x, member, orphan, home⟩
    · rintro ⟨x, member, orphan, home⟩
      exact ⟨x.id, mem_orphans.mpr ⟨x, member, orphan, rfl⟩, home⟩
  memory := reaped.memory
  approvals := reaped.approvals

/-- A reaper leaves no orphans before its cutoff. -/
theorem Effect.clears (effect : Effect cutoff marker start stop db db') :
    ∀ e ∈ db'.workflows.entries, ¬ Orphan cutoff e := by
  intro e member orphan
  obtain ⟨old, there, -, -, changed, kept⟩ := effect.workflows.origin member
  by_cases before : Orphan cutoff old
  · obtain ⟨t, -, -, same⟩ := changed before
    simp [Orphan, same] at orphan
  · rw [Orphan, kept before] at orphan
    exact before orphan

theorem Effect.idle (effect : Effect cutoff marker start stop db db')
    (none : ∀ e ∈ db.workflows.entries, ¬ Orphan cutoff e) : db' = db := by
  have workflows := effect.workflows.same none
  have tasks := effect.tasks.same fun e _ ⟨_, x, member, orphan, _⟩ => none x member orphan
  obtain ⟨-, -, memory, approvals⟩ := effect
  cases db
  cases db'
  simp_all

/-- The reaper has had its effect, since it first read the clock. -/
def HasReaped (now maxAge : Int) (n : Nat) (w w' : Store) : Prop :=
  ∃ cutoff marked, cutoffAt now maxAge = .ok cutoff ∧ now ≤ marked ∧
    Effect cutoff (Orchestrator.interruptedMarker marked maxAge) marked w'.clock w.db w'.db ∧
    n = (Transaction.orphans cutoff w.db).length

/-- How a reaper ends. -/
def reapEnds (now maxAge : Int) (w : Store) : Post sql Store Nat :=
  ending (fun n _ w' => HasReaped now maxAge n w w') fun e seen w' =>
    (w'.db = w.db ∨ Unheard seen ∧ ∃ n, HasReaped now maxAge n w w') ∧
      (cutoffAt now maxAge = .error e ∨ Raised seen)

theorem obeys_reapAt {now maxAge : Int} (since : now ≤ w.clock) (seen : List (Interaction sql)) :
    (reapAt now maxAge).Obeys rules (reapEnds now maxAge w) seen w := by
  unfold reapAt
  cases cut : cutoffAt now maxAge with
  | error e => exact ⟨.inl rfl, .inl cut⟩
  | ok cutoff =>
      refine obeys_statement (fun e after performed =>
        performed.elim) fun (marked : Time) after performed => ?_
      obtain ⟨above, rfl⟩ := performed
      refine (obeys_scope fun seen => obeys_reapBlock).mono fun result seen w' holds => ?_
      have committed {n : Nat} (commits : Commits (fun n v =>
        Reaped (Transaction.orphans cutoff w.db)
          (Orchestrator.interruptedMarker marked maxAge) marked v.clock w.db v.pending ∧
          n = (Transaction.orphans cutoff w.db).length ∧
              marked ≤ v.clock) n w') : HasReaped now maxAge n w w' := by
        obtain ⟨v, ⟨reaped, rfl, -⟩, db, clock⟩ := commits
        exact ⟨cutoff, marked, cut,
          Int.le_trans since above, by rw [db, clock]; exact reaped.effect, rfl⟩
      cases result with
      | ok n => exact committed holds
      | error e =>
          obtain ⟨raised, same | ⟨unheard, n, commits⟩⟩ := holds
          · exact ⟨.inl same, .inr raised⟩
          · exact ⟨.inr ⟨unheard, n, committed commits⟩, .inr raised⟩

/-- What a run of the reaper comes to, from its reading of the clock. -/
theorem plays_reap {now maxAge : Int} {script : List (Interaction sql)}
    {result : Except PyException Nat}
    (plays : Plays perform (reapOrphanWorkflows maxAge) w
      (⟨.now, .ok now⟩ :: script) (.done result) w') :
    reapEnds now maxAge w result script w' := by
  cases plays with
  | call performed rest =>
      obtain ⟨-, rfl⟩ := performed
      exact (rest.obeys (obeys_reapAt (Int.le_refl now) []) id fun _ => trivial).2

/-- With a clock that stands still, the loop does what the transaction of the whole model does at
once. -/
theorem Effect.transaction {t : Time} (caller : CallId) (effect : Effect cutoff marker t t db db') :
    Transaction.run caller t (.reap cutoff marker) db = .ok
    ((Transaction.orphans cutoff db).length, db') := by
  have workflows : db'.workflows = db.workflows.update (fun e => Transaction.orphan cutoff e.row)
      (Workflow.finish .interrupted t marker) := by
    refine effect.workflows.eq_update (fun e _ _ row ⟨u, above, below, same⟩ => ?_) fun e _ =>
      orphan_iff
    cases Int.le_antisymm below above
    exact same
  have tasks : db'.tasks = db.tasks.update (fun e =>
      Transaction.orphanTask (Transaction.orphans cutoff db) e.row) (Task.interrupt t) := by
    refine effect.tasks.eq_update (fun e _ _ row ⟨u, above, below, same⟩ => ?_) fun e _ => ?_
    · cases Int.le_antisymm below above
      exact same
    · cases home : e.row.workflowId with
      | none => simp [Transaction.orphanTask, home]
      | some id =>
          simp only [Transaction.orphanTask, home, Bool.and_eq_true, decide_eq_true_eq,
            List.contains_iff_mem, mem_orphans,
            Option.some.injEq]
          exact and_congr_right fun _ => exists_congr fun x => and_congr_right fun _ =>
            and_congr_right fun _ => eq_comm
  obtain ⟨-, -, memory, approvals⟩ := effect
  obtain ⟨ws, ts, ms, as⟩ := db'
  cases workflows
  cases tasks
  cases memory
  cases approvals
  rfl

/-- The reaper interrupts exactly the orphans and their running tasks and counts them, a second one
before the same instant finds none, and one that raises changes nothing, unless it is its commit
that raises, after all of it took effect. -/
theorem reap_exact {now maxAge : Int} {script : List (Interaction sql)}
    {result : Except PyException Nat}
    (first : Plays perform (reapOrphanWorkflows maxAge) w
      (⟨.now, .ok now⟩ :: script) (.done result) w') :
    (∀ e, result = .error e → w'.db = w.db ∨ Unheard script ∧ ∃ cutoff marked,
      cutoffAt now maxAge = .ok cutoff ∧ now ≤ marked ∧
      Effect cutoff (Orchestrator.interruptedMarker marked maxAge) marked w'.clock w.db w'.db) ∧
    (∀ n, result = .ok n → ∃ cutoff marked, cutoffAt now maxAge = .ok cutoff ∧ now ≤ marked ∧
      Effect cutoff (Orchestrator.interruptedMarker marked maxAge) marked w'.clock w.db w'.db ∧
      n = (Transaction.orphans cutoff w.db).length ∧
      ∀ now' maxAge' script' again v v', v.db = w'.db → cutoffAt now' maxAge' = .ok cutoff →
        Plays perform (reapOrphanWorkflows maxAge') v (⟨.now, .ok now'⟩ :: script')
        (.done again) v' →
        v'.db = w'.db ∧ ∀ m, again = .ok m → m = 0) ∧
    ((∃ cutoff, cutoffAt now maxAge = .ok cutoff) → ¬ Raised script → ∃ n, result = .ok n) := by
  have ends := plays_reap first
  refine ⟨?_, ?_, ?_⟩
  · rintro e rfl
    refine ends.1.imp_right ?_
    rintro ⟨unheard, n, cutoff, marked, cut, le, effect, -⟩
    exact ⟨unheard, cutoff, marked, cut, le, effect⟩
  · rintro n rfl
    obtain ⟨cutoff, marked, cut, le, effect, count⟩ := ends
    refine ⟨cutoff, marked, cut, le, effect, count,
      fun now' maxAge' script' again v v' same cut' second => ?_⟩
    have none (e) (member : e ∈ v.db.workflows.entries) : ¬ Orphan cutoff e :=
      effect.clears e (same ▸ member)
    have ends := plays_reap second
    cases again with
    | error e =>
        refine ⟨?_, fun m raised => by cases raised⟩
        rcases ends.1 with unchanged | ⟨-, m, cutoff', marked', cut'', -, effect', -⟩
        · exact unchanged.trans same
        · cases cut'.symm.trans cut''
          exact (effect'.idle none).trans same
    | ok m =>
        obtain ⟨cutoff', marked', cut'', -, effect', rfl⟩ := ends
        cases cut'.symm.trans cut''
        have empty : Transaction.orphans cutoff v.db = [] := by
          refine List.eq_nil_iff_forall_not_mem.mpr fun id there => ?_
          obtain ⟨e, member, orphan, -⟩ := mem_orphans.mp there
          exact none e member orphan
        refine ⟨(effect'.idle none).trans same, fun m counted => ?_⟩
        cases counted
        rw [empty, List.length_nil]
  · rintro ⟨cutoff, cut⟩ quiet
    cases result with
    | ok n => exact ⟨n, rfl⟩
    | error e =>
        rcases ends.2 with raised | raised
        · cases cut.symm.trans raised
        · exact absurd raised quiet

/-- Two workflows that run, one of them long since, with a task each. -/
def sampleStore : Store :=
  let caller : CallId := ⟨1, 1, .pipeline⟩
  let running (t : Time) := Transaction.newWorkflow t "commit_pipeline" CommitPipeline.taskChain []
  let db : Db := { Db.empty with
    workflows := (Relational.Table.empty.insert caller (running 0)).insert
      caller (running (650 * second))
    tasks :=
      (Relational.Table.empty.insert caller (Transaction.newTask 0 "summarize" 1 .null)).insert
      caller
      (Transaction.newTask (650 * second) "summarize" 2 .null) }
  ⟨700 * second, db, db⟩

def sampleReaping : List (Interaction sql) :=
  let t := 700 * second
  let marker := Orchestrator.interruptedMarker t 600
  let stale := Transaction.newWorkflow 0 "commit_pipeline" CommitPipeline.taskChain []
  [⟨.now, .ok t⟩, ⟨.begin, .ok ()⟩, ⟨.selectOrphans (100 * second),
    .ok ([(1, stale)] : List (Nat × Workflow))⟩,
    ⟨.now, .ok t⟩, ⟨.now, .ok t⟩, ⟨.updateWorkflow 1 .interrupted t [marker], .ok ()⟩,
      ⟨.interruptTasks 1 t, .ok ()⟩,
    ⟨.commit, .ok ()⟩]

theorem reap_exact_stale : ∃ w' : Store, (w'.db.workflows.entries.map fun e => e.row.status) =
    [.interrupted, .running] ∧ (w'.db.tasks.entries.map fun e => e.row.status) =
    [.interrupted, .running] ∧ ∃ cutoff marked, Effect cutoff
    (Orchestrator.interruptedMarker marked 600) marked w'.clock sampleStore.db w'.db := by
  have plays : ∃ w' : Store, Plays perform (reapOrphanWorkflows 600) sampleStore
    (⟨.now, .ok (700 * second)⟩ :: sampleReaping)
      (.done (.ok 1)) w' ∧ (w'.db.workflows.entries.map fun e => e.row.status) =
        [.interrupted, .running] ∧
      (w'.db.tasks.entries.map fun e => e.row.status) = [.interrupted, .running] :=
    ⟨_, .call ⟨by decide, rfl⟩ (.call ⟨by decide, rfl⟩ (.call rfl (.call ⟨.refl _, rfl⟩
      (.call ⟨by decide, rfl⟩ (.call ⟨by decide, rfl⟩ (.call rfl (.call rfl (.call rfl
      (.stop _ _))))))))), rfl, rfl⟩
  obtain ⟨w', plays, workflows, tasks⟩ := plays
  obtain ⟨cutoff, marked, -, -, effect, -⟩ := (reap_exact plays).2.1 1 rfl
  exact ⟨w', workflows, tasks, cutoff, marked, effect⟩

end WiseOrder.Scope
