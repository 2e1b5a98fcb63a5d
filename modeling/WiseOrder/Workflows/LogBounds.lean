import WiseOrder.Workflows.WorkflowLogs

/-! How long the logs of the workflows get over a run, and in which order the workflows and
their entries are. -/
namespace WiseOrder
open Coroutine Coroutine.Program Relational
variable {s : Settings} {c c' : Pool} {e : RunEvent} {trace : List RunEvent} {i : CallId} {t : Time}

/-- The time is one that the clock has shown. -/
def Shown (c : Pool) (t : Time) : Prop := 0 ≤ t ∧ t ≤ c.world.clock

/-- How many entries the workflow may have by now: the first, those that its call has added, and the
reaper's. -/
def room (c : Pool) (y : Relational.Entry CallId Workflow) : Nat :=
  1 + spent Call.logs (c.threads y.owner).past + (if y.row.status = .running then 0 else 1)

structure Recorded (s : Settings) (c : Pool) : Prop where
  shadowed : ∃ g, Shadowed s c g
  stamps : c.Obeys (fun _ => stamped) (fun _ _ _ _ => True) fun _ _ => ()
  begun : 0 ≤ c.world.clock
  reads : ∀ i t, Read (c.threads i).past t → Shown c t
  bounded : ∀ y ∈ c.world.db.workflows.entries, y.row.logs.length ≤ room c y
  dated : ∀ y ∈ c.world.db.workflows.entries, ∀ entry ∈ y.row.logs, Shown c entry.ts
  created : ∀ y ∈ c.world.db.workflows.entries, y.row.createdAt ≤ c.world.clock
  ordered : ∀ y ∈ c.world.db.workflows.entries, ∀ z ∈ c.world.db.workflows.entries, y.id ≤ z.id →
    y.row.createdAt ≤ z.row.createdAt

theorem recorded_initial : Recorded s Pool.initial where
  shadowed := ⟨fun _ => OwnRows.none, fresh_initial.shadowed _⟩
  stamps := fun i seen rest active => by cases active
  begun := Int.le_refl 0
  reads := fun i t read => absurd read List.not_mem_nil
  bounded := fun y member => absurd member List.not_mem_nil
  dated := fun y member => absurd member List.not_mem_nil
  created := fun y member => absurd member List.not_mem_nil
  ordered := fun y member => absurd member List.not_mem_nil

theorem Shown.step (shown : Shown c t) (step : Step s c e c') : Shown c' t :=
  ⟨shown.1, Int.le_trans shown.2 (Dedup.step_clock step)⟩

theorem spent_step (step : Step s c e c') (i : CallId) :
    spent Call.logs (c'.threads i).past = spent Call.logs (c.threads i).past + spent Call.logs
    (e.own i).toList := by
  rw [step.past i, spent, spent, spent, List.map_append, List.sum_append]

/-- A time that is read is what the clock shows. -/
theorem reads_step (step : Step s c e c') (begun : 0 ≤ c.world.clock)
    (reads : ∀ i t, Read (c.threads i).past t → Shown c t) (read : Read (c'.threads i).past t) :
    Shown c' t := by
  rw [Read, step.past i] at read
  rcases List.mem_append.mp read with old | new
  · exact (reads i t old).step step
  · obtain ⟨before, rfl⟩ := Event.mem_own.mp new
    have now : t = c.world.clock := by
      cases step with
      | call awaiting performed => exact performed.1
    exact Shown.step ⟨now ▸ begun, Int.le_of_eq now⟩ step

theorem stamps_step (step : Step s c e c')
    (stamps : c.Obeys (fun _ => stamped) (fun _ _ _ _ => True) fun _ _ => ()) :
    c'.Obeys (fun _ => stamped) (fun _ _ _ _ => True) fun _ _ => () := by
  apply step.history (fun _ _ _ _ => trivial) ?_ ?_ stamps
  · rintro c i p ⟨-, entry, -, rfl⟩
    exact entry.logs.stamps []
  · rintro w i a p seen ⟨-, -, rfl⟩
    have within : (Orchestrator.workerPass Orchestrator.registered).Within Silent :=
      (within_workerPass _).mono fun _ => silent_worker
    exact (Logs.silent within).stamps seen

/-- What a pipeline logs to is its own. -/
theorem Shadowed.owner {g : CallId → OwnRows} {y : Relational.Entry CallId Workflow}
    (shadowed : Shadowed s c g) (there : c.threads i ≠ .absent) (running : (g i).Running y.id)
    (member : y ∈ c.world.db.workflows.entries) : y.owner = i := by
  obtain ⟨z, old, names, mine⟩ := shadowed.own there running
  rw [Table.unique member old names.symm, mine]

theorem logs_step {y : Relational.Entry CallId Workflow} (recorded : Recorded s c)
    (step : Step s c e c') (member : y ∈ c'.world.db.workflows.entries) :
    y.row.logs.length ≤ room c' y ∧ ∀ entry ∈ y.row.logs, Shown c' entry.ts := by
  obtain ⟨g, shadowed⟩ := recorded.shadowed
  have paid (j : CallId) := spent_step step j
  have before {z : Relational.Entry CallId Workflow} (old : z ∈ c.world.db.workflows.entries) :
      z.row.logs.length ≤ room c z ∧ ∀ entry ∈ z.row.logs, Shown c' entry.ts :=
    ⟨recorded.bounded z old, fun entry inside => (recorded.dated z old entry inside).step step⟩
  have kept {z : Relational.Entry CallId Workflow} (old : z ∈ c.world.db.workflows.entries) :
      z.row.logs.length ≤ room c' z ∧ ∀ entry ∈ z.row.logs, Shown c' entry.ts := by
    refine ⟨Nat.le_trans (before old).1 ?_, (before old).2⟩
    rw [room, room, paid]
    omega
  rcases step_shadow shadowed step with ⟨same, -⟩ | ⟨i, tr, x, told, rfl, permitted, ran⟩
  · exact kept (same ▸ member)
  · have there := step_there step
    have stamps : (Call.session tr).entries.length ≤ 1 ∧ ∀ entry ∈ (Call.session tr).entries,
        Read (c.threads i).past entry.ts :=
      step.allowed recorded.stamps
    have brought {entry : LogEntry} (new : entry ∈ (Call.session tr).entries) : Shown c' entry.ts :=
      (recorded.reads i entry.ts (stamps.2 entry new)).step step
    have now : Shown c' c.world.clock := Shown.step ⟨recorded.begun, Int.le_refl _⟩ step
    have mine := paid i
    simp only [Event.own, if_true, Option.toList_some, spent,
      List.map_singleton, List.sum_singleton] at mine
    have adds {z : Relational.Entry CallId Workflow} {w : Workflow} {entry : LogEntry} (old : z ∈
      c.world.db.workflows.entries)
        (owner : z.owner = i) (one : (Call.session tr).logs = 1)
          (logs : w.logs = z.row.logs ++ [entry])
        (status : w.status = .running → z.row.status = .running) (stamp : Shown c' entry.ts) :
        w.logs.length ≤ room c' { z with row := w } ∧ ∀ entry ∈ w.logs, Shown c' entry.ts := by
      obtain ⟨length, stamped⟩ := before old
      rw [logs]
      refine ⟨?_, List.forall_mem_append.mpr ⟨stamped, List.forall_mem_singleton.mpr stamp⟩⟩
      simp only [room, owner, spent, List.length_append, List.length_singleton, mine,
        one] at length ⊢
      split at length <;> split <;> simp_all <;> omega
    cases Transaction.workflow_run ran member with
    | kept old => exact kept old
    | added =>
        refine ⟨?_, fun entry inside => brought inside⟩
        simp only [room]
        exact Nat.le_trans stamps.1 (by omega)
    | logged z old =>
        cases permitted with
        | pipeline role lawful =>
            exact adds old (shadowed.owner there lawful old) rfl rfl id
              (brought (List.mem_singleton.mpr rfl))
        | decision decides => exact decides.elim
    | failed z old | completed z old =>
        cases permitted with
        | pipeline role lawful =>
            exact adds old (shadowed.owner there lawful.1 old) rfl rfl
              (fun running => absurd running (by simp [Workflow.finish_status])) now
        | decision decides => exact decides.elim
    | @reaped cutoff marker z old chosen =>
        obtain ⟨length, stamped⟩ := before old
        have running := Transaction.orphan_running chosen
        refine ⟨?_, List.forall_mem_append.mpr ⟨stamped,
          List.forall_mem_singleton.mpr (brought (List.mem_singleton.mpr rfl))⟩⟩
        have more := paid z.owner
        simp only [room, running, if_true] at length
        simp only [room, Workflow.finish_logs, Workflow.finish_status, List.length_append,
          List.length_singleton, reduceCtorEq, if_false]
        omega

/-- A workflow is on from an earlier one, or new. -/
theorem Transaction.Leaves.origin {tr : Transaction} {now : Time} {db : Db}
    {y : Relational.Entry CallId Workflow} (leaves : tr.Leaves i now db y) :
    (∃ z ∈ db.workflows.entries, z.id = y.id ∧ z.owner = y.owner ∧
      z.row.createdAt = y.row.createdAt) ∨
      y.id = db.workflows.next ∧ y.row.createdAt = now := by
  cases leaves with
  | kept member => exact .inl ⟨y, member, rfl, rfl, rfl⟩
  | added => exact .inr ⟨rfl, rfl⟩
  | logged z member | failed z member | completed z member | reaped z member =>
      exact .inl ⟨z, member, rfl, rfl, rfl⟩

theorem created_step (recorded : Recorded s c) (step : Step s c e c') :
    (∀ y ∈ c'.world.db.workflows.entries, y.row.createdAt ≤ c'.world.clock) ∧
    ∀ y ∈ c'.world.db.workflows.entries, ∀ z ∈ c'.world.db.workflows.entries, y.id ≤ z.id →
    y.row.createdAt ≤ z.row.createdAt := by
  have later := Dedup.step_clock step
  rcases step_ran step with ⟨same, -⟩ | ⟨i, tr, x, told, rfl, -, ran⟩
  · rw [same]
    exact ⟨fun y member => Int.le_trans (recorded.created y member) later, recorded.ordered⟩
  · have origin {y : Relational.Entry CallId Workflow} (member : y ∈
      c'.world.db.workflows.entries) :=
      (Transaction.workflow_run ran member).origin
    refine ⟨fun y member => ?_, fun y left z right order => ?_⟩
    · rcases origin member with ⟨w, old, -, -, same⟩ | ⟨-, now⟩
      · exact Int.le_trans (same ▸ recorded.created w old) later
      · exact now ▸ later
    · rcases origin left with ⟨w, old, id, -, same⟩ | ⟨id, now⟩
      · rcases origin right with ⟨w', old', id', -, same'⟩ | ⟨-, now⟩
        · rw [← same, ← same']
          exact recorded.ordered w old w' old' (by omega)
        · rw [← same, now]
          exact recorded.created w old
      · rcases origin right with ⟨w', old', id', -, -⟩ | ⟨-, now'⟩
        · have below := c.world.db.workflows.below w' old'
          omega
        · exact Int.le_of_eq (now.trans now'.symm)

theorem recorded_step (recorded : Recorded s c) (step : Step s c e c') : Recorded s c' where
  shadowed := recorded.shadowed.elim fun _ shadowed => step_shadowed shadowed step
  stamps := stamps_step step recorded.stamps
  begun := Int.le_trans recorded.begun (Dedup.step_clock step)
  reads := fun _ _ => reads_step step recorded.begun recorded.reads
  bounded := fun _ member => (logs_step recorded step member).1
  dated := fun _ member => (logs_step recorded step member).2
  created := (created_step recorded step).1
  ordered := (created_step recorded step).2

theorem run_recorded (run : Transition.Run (Step s) Pool.initial trace c) : Recorded s c :=
  run.invariant recorded_step recorded_initial

/-- No workflow ever has more than ten entries. -/
theorem logs_bounded (run : Transition.Run (Step s) Pool.initial trace c)
    {y : Relational.Entry CallId Workflow} (member : y ∈ c.world.db.workflows.entries) :
    y.row.logs.length ≤ 10 := by
  have bounded := (run_recorded run).bounded y member
  have few : spent Call.logs (c.threads y.owner).past ≤ 8 := by
    refine Machine.run_spent (m := runtime s) (fun taken => taken) (fun _ => rfl) ?_ ?_ run y.owner
    · rintro c i p ⟨-, entry, -, rfl⟩
      exact entry.logs.costs
    · rintro w i a p ⟨-, -, rfl⟩
      exact (within_workerPass _).mono fun _ allowed => (silent_worker allowed).2
  rw [room] at bounded
  split at bounded <;> omega

end WiseOrder
