import WiseOrder.Orchestrator.Reaper

/-! What a restart does to the workflows of the process that died. The reaper runs
once in a start, and takes the rows that are older than the configured age by then. -/
namespace WiseOrder
open Coroutine Coroutine.Program Relational
variable {s : Settings} {i j : CallId} {c c' d : Pool} {e : RunEvent} {trace : List RunEvent}
    {h : History} {v v' : OwnRows} {id : Nat}

/-- The cutoff of a start that read the clock at the given time. -/
def cutoffOf (s : Settings) (readAt : Time) : Time :=
  readAt - s.orphanWorkflowMaxAgeSeconds * second

/-- The start read the clock and reaped with the cutoff of that reading. -/
structure ReapedAt (s : Settings) (readAt : Time) (h : History) : Prop where
  read : (⟨.now, .ok readAt⟩ : Interaction calls) ∈ h
  reaped : ∃ marker, ∃ n : Nat, (⟨.session (.reap (cutoffOf s readAt) marker),
    .ok n⟩ : Interaction calls) ∈ h
  only : ∀ x ∈ h, ∀ cutoff marker, x.call = .session (.reap cutoff marker) → cutoff =
    cutoffOf s readAt

theorem ReapedAt.append {x : Interaction calls} (reaped : ReapedAt s readAt h)
    (plain : ∀ cutoff marker, x.call ≠ .session (.reap cutoff marker)) :
    ReapedAt s readAt (h ++ [x]) where
  read := List.mem_append_left _ reaped.read
  reaped := by
    obtain ⟨marker, n, member⟩ := reaped.reaped
    exact ⟨marker, n, List.mem_append_left _ member⟩
  only := by
    intro y member cutoff marker same
    rcases List.mem_append.mp member with old | new
    · exact reaped.only y old cutoff marker same
    · rw [List.mem_singleton.mp new] at same
      exact absurd same (plain cutoff marker)

/-- A history in which nothing was reaped. -/
def Unreaped (h : History) : Prop := ∀ x ∈ h, ∀ cutoff marker, x.call ≠
      .session (.reap cutoff marker)

theorem Unreaped.append {x : Interaction calls} (unreaped : Unreaped h)
    (plain : ∀ cutoff marker, x.call ≠ .session (.reap cutoff marker)) : Unreaped (h ++ [x]) := by
  intro y member
  rcases List.mem_append.mp member with old | new
  · exact unreaped y old
  · rw [List.mem_singleton.mp new]
    exact plain

theorem leads_reap (unreaped : Unreaped h) :
    (Orchestrator.reapOrphanWorkflows s.orphanWorkflowMaxAgeSeconds).Leads
      (fun result h => ∀ n, result = .ok n → ∃ readAt, ReapedAt s readAt h) h := by
  refine leads_call (fun _ _ same => by contradiction) fun readAt => ?_
  refine leads_call (fun _ _ same => by contradiction) fun markedAt => ?_
  have before := (unreaped.append (x := ⟨.now, .ok readAt⟩) (by simp)).append (x :=
    ⟨.now, .ok markedAt⟩) (by simp)
  apply obeys_call trivial
  rintro reply - - n rfl
  refine ⟨readAt, by simp, ⟨_, n, List.mem_append_right _ (List.mem_singleton.mpr rfl)⟩,
    fun x member cutoff marker same => ?_⟩
  rcases List.mem_append.mp member with old | new
  · exact absurd same (before x old cutoff marker)
  · rw [List.mem_singleton.mp new] at same
    cases same
    rfl

/-- A start that returns has reaped, with one cutoff. -/
theorem leads_start (numWorkers : Nat) :
    (Orchestrator.start s numWorkers).Leads
    (fun result h => ∀ r, result = .ok r → ∃ readAt, ReapedAt s readAt h) [] := by
  have failed (h : History) (e : PyException) (r : Returned) :
      (.error e : Except PyException Returned) = .ok r → ∃ readAt, ReapedAt s readAt h :=
        fun same => by contradiction
  refine leads_call (fun _ => failed _ _) fun database => ?_
  cases database with
  | false => exact failed _ _
  | true =>
      refine leads_call (fun _ => failed _ _) fun _ =>
        leads_call (fun _ => failed _ _) fun answered => ?_
      cases answered with
      | false => exact failed _ _
      | true =>
          apply leads_bind (leads_reap (by simp [Unreaped]))
          · intro n h reaped
            obtain ⟨readAt, reaped⟩ := reaped n rfl
            refine leads_call (fun _ => failed _ _) fun _ =>
              leads_call (fun _ => failed _ _) fun _ => ?_
            exact fun _ _ => ⟨readAt, (reaped.append (by simp)).append (by simp)⟩
          · exact fun e h _ => failed _ _

/-! ### The rows of a process that died -/

/-- The workflow was interrupted, with those of its tasks that were running. -/
structure Interrupted (id : Nat) (v v' : OwnRows) : Prop where
  workflow : ∃ w, v'.workflows = [(id, w)] ∧ w.status = .interrupted
  tasks : ∀ t ∈ v.tasks, t.2.status = .running → ∃ t', (t.1, t') ∈ v'.tasks ∧ t'.status =
    .interrupted

theorem own_reap_taken {db db' : Db} {n id : Nat} {w : Workflow} (led : (db.own j).Led id w)
    (ran : (Transaction.reap cutoff marker).run i now db = .ok (n, db'))
    (orphan : Transaction.orphan cutoff w = true) : Interrupted id (db.own j) (db'.own j) := by
  have mine : (id, w) ∈ (db.own j).workflows := by rw [led.only]; exact List.mem_singleton.mpr rfl
  rw [Transaction.own_reap ran]
  refine ⟨⟨w.finish .interrupted now marker, by simp [led.only, orphan], rfl⟩,
    fun t member running => ?_⟩
  refine ⟨t.2.interrupt now, List.mem_map.mpr ⟨t, member, ?_⟩, rfl⟩
  have taken : Transaction.orphanTask (Transaction.orphans cutoff db) t.2 = true := by
    simp [Transaction.orphanTask, running, led.home t member, Transaction.mem_orphans mine, orphan]
  simp [taken]

/-- The rows of a call that does not execute any more. -/
structure Left (s : Settings) (j : CallId) (c : Pool) : Prop where
  sound : Sound s c
  alone : Alone c
  idle : ¬ (c.threads j).Live
  rows : view j c.world ≠ OwnRows.none
  orderly : (view j c.world).Orderly

theorem step_left (left : Left s j c) (step : Step s c e c') (one : OneOrchestrator c e c')
    (rows : view j c'.world ≠ OwnRows.none) : Left s j c' := by
  refine ⟨step_sound_alone left.sound left.alone step, step_alone left.sound left.alone step one,
    fun live => ?_, rows,
    step_orderly left.sound.obeys step left.orderly⟩
  rcases step.live live with ⟨p, rfl⟩ | ⟨p, rfl⟩ | ⟨before, -⟩
  · cases step with
    | spawn unused entry => exact left.rows entry.1
  · cases step with
    | again returned next =>
        have role : j.role ≠ .pipeline := by simp [next.1]
        exact left.rows (left.sound.rowless j (by simp [returned]) role)
  · exact left.idle before

/-- Only the reaper changes them. -/
theorem view_left (left : Left s j c) (step : Step s c e c') (calm : ¬ Reaps c e c') :
    view j c'.world = view j c.world := by
  by_cases mine : e.By j
  · cases step with
    | spawn | again => rfl
    | call awaiting performed =>
        cases mine
        exact absurd ⟨_, _, awaiting, trivial⟩ left.idle
    | drift | crash => exact mine.elim
  · exact step_view_other left.sound.obeys step calm mine

/-- The reaper is done with a pass, and the call of it has heard so. -/
def Reaped (e : RunEvent) : Prop :=
  ∃ i cutoff marker w, ∃ n : Nat, e = .call i ⟨.session (.reap cutoff marker), .ok n⟩ w

/-- A step leaves the rows as they are, or a pass of the reaper takes effect in it. -/
theorem step_reaped (left : Left s j c) (step : Step s c e c') :
    (view j c'.world = view j c.world ∧ ¬ Reaped e) ∨
      ∃ i cutoff marker reply n, e = .call i ⟨.session (.reap cutoff marker), reply⟩ c.world ∧
        (Transaction.reap cutoff marker).run i c.world.clock c.world.db = .ok (n, c'.world.db) := by
  rcases step_ran step with ⟨same, quiet⟩ | ⟨i, t, x, reply, rfl, -, ran⟩
  · refine .inl ⟨congrArg (fun db => Db.own db j) same, fun reaped => quiet ?_⟩
    obtain ⟨i, cutoff, marker, w, n, event⟩ := reaped
    exact ⟨i, .reap cutoff marker, n, w, event⟩
  · cases session_permitted (step.allowed left.sound.obeys) with
    | pipeline role lawful =>
        refine .inl ⟨view_left left step fun reaps => ?_, fun reaped => ?_⟩
        · obtain ⟨-, _, _, _, _, _, event⟩ := reaps
          cases event
          exact lawful
        · obtain ⟨_, _, _, _, _, event⟩ := reaped
          cases event
          exact lawful
    | decision decides =>
        refine .inl ⟨view_left left step fun reaps => ?_, fun reaped => ?_⟩
        · obtain ⟨-, _, _, _, _, _, event⟩ := reaps
          cases event
          exact decides
        · obtain ⟨_, _, _, _, _, event⟩ := reaped
          cases event
          exact decides
    | reap cutoff marker => exact .inr ⟨i, cutoff, marker, reply, x, rfl, ran⟩

/-- How a restart has gone so far for rows that were running: they are as they were, and then
nothing was reaped if they are old; or they were old, and are interrupted. -/
def Fate (s : Settings) (cutoff : Time) (j : CallId) (id : Nat) (w : Workflow)
    (v : OwnRows) (past : List RunEvent) (c : Pool) : Prop :=
  Left s j c ∧
    ((view j c.world = v ∧ (Transaction.orphan cutoff w = true → ∀ e ∈ past, ¬ Reaped e)) ∨
      (Transaction.orphan cutoff w = true ∧ Interrupted id v (view j c.world)))

/-- All that is reaped is reaped with one cutoff. -/
def Reaping (cutoff : Time) (trace : List RunEvent) : Prop :=
  ∀ i t marker (reply : Except PyException Nat) w, .call i ⟨.session (.reap t marker), reply⟩ w ∈
    trace → t = cutoff

theorem Interrupted.rows (interrupted : Interrupted id v v') : v' ≠ OwnRows.none := by
  obtain ⟨w, only, -⟩ := interrupted.workflow
  intro none
  rw [none] at only
  contradiction

theorem step_fate {w : Workflow} (led : v.Led id w) (fate : Fate s cutoff j id w v past c)
    (step : Step s c e c') (one : OneOrchestrator c e c') (reaping : Reaping cutoff (past ++ [e])) :
    Fate s cutoff j id w v (past ++ [e]) c' := by
  obtain ⟨left, fate⟩ := fate
  rcases step_reaped left step with ⟨same, quiet⟩ | ⟨i, t, marker, reply, n, rfl, ran⟩
  · refine ⟨step_left left step one (same ▸ left.rows), ?_⟩
    rw [same]
    refine fate.imp (fun kept => ⟨kept.1, fun orphan e' member => ?_⟩) fun taken => taken
    rcases List.mem_append.mp member with old | new
    · exact kept.2 orphan e' old
    · rw [List.mem_singleton.mp new]
      exact quiet
  · cases reaping i t marker reply _ (List.mem_append_right _ (List.mem_singleton.mpr rfl))
    rcases fate with ⟨rfl, -⟩ | ⟨orphan, interrupted⟩
    · cases orphan : Transaction.orphan cutoff w with
      | true =>
          have interrupted : Interrupted id (view j c.world) (view j c'.world) :=
            own_reap_taken led ran orphan
          exact ⟨step_left left step one interrupted.rows, .inr ⟨orphan, interrupted⟩⟩
      | false =>
          have same : view j c'.world = view j c.world := by
            refine Transaction.own_reap_spared ran (.inr ⟨id, w, led⟩) fun w' member => ?_
            have only : (c.world.db.own j).workflows = [(id, w)] := led.only
            rw [only, List.mem_singleton] at member
            rw [member, orphan]
          exact ⟨step_left left step one (same ▸ left.rows),
            .inl ⟨same, fun taken => by simp [orphan] at taken⟩⟩
    · obtain ⟨w', only, status⟩ := interrupted.workflow
      have same : view j c'.world = view j c.world := by
        refine Transaction.own_reap_spared ran left.orderly fun x member => ?_
        have only : (c.world.db.own j).workflows = [(id, w')] := only
        rw [only, List.mem_singleton] at member
        simp [member, Transaction.orphan, status]
      exact ⟨step_left left step one (same ▸ left.rows), .inr ⟨orphan, same ▸ interrupted⟩⟩

theorem run_fate {w : Workflow} (led : v.Led id w)
    (restart : Transition.Run (Transition.Guarded (Step s) OneOrchestrator)
      d trace c') (begins : Left s j d) (same : view j d.world = v)
      (reaping : Reaping cutoff trace) : Fate s cutoff j id w v trace c' := by
  refine restart.traced (P := fun past c => Reaping cutoff past → Fate s cutoff j id w v past c)
    (fun _ => ⟨begins, .inl ⟨same, by simp⟩⟩) ?_ reaping
  intro past c e c' _ fate taken reaping
  have before : Reaping cutoff past := fun i t marker reply w member =>
    reaping i t marker reply w (List.mem_append_left _ member)
  exact step_fate led (fate before) taken.1 taken.2 reaping

/-- After the process of a call has died, its rows are left. -/
theorem left_crash {dead : CallId → Prop} (sound : Sound s c) (alone : Alone c)
    (orderly : (view j c.world).Orderly) (death : Step s c (.crash dead) d) (dies : dead j)
    (rows : view j c.world ≠ OwnRows.none) : Left s j d ∧ view j d.world = view j c.world := by
  have calm : ¬ Reaps c (.crash dead) d := by simp [Reaps]
  have same : view j d.world = view j c.world :=
    step_view_other sound.obeys death calm fun mine => mine
  refine ⟨⟨step_sound_alone sound alone death,
    step_alone sound alone death (by simp [OneOrchestrator]), ?_, same ▸ rows,
    same ▸ orderly⟩, same⟩
  intro live
  rcases death.live live with ⟨p, event⟩ | ⟨p, event⟩ | ⟨-, survived⟩
  · contradiction
  · contradiction
  · exact survived dead rfl dies

/-- Once the next start has returned, the workflows that were running in the dead process are
interrupted with their running tasks, if they are older than the configured age at the time the
start read the clock; a younger one is left as it was. -/
theorem orphans_interrupted {c₀ : Pool} {dead : CallId → Prop} {trace' : List RunEvent}
    {r : Returned} (fresh : Fresh c₀) (empty : c₀.world.db = Db.empty)
    (run : Transition.Run (Transition.Guarded (Step s) OneOrchestrator) c₀ trace c)
    (death : Step s c (.crash dead) d)
    (restart : Transition.Run (Transition.Guarded (Step s) OneOrchestrator) d trace' c')
    (started : .spawn i (Orchestrator.start s numWorkers) ∈ trace') (starter : i.role = .starter)
    (next : ∀ j x w, .call j x w ∈ trace' →
      (∃ cutoff marker, x.call = .session (.reap cutoff marker)) → j = i)
    (returned : (c'.threads i).Ended (.ok r)) :
    ∃ readAt, (⟨.now, .ok readAt⟩ : Interaction calls) ∈ (c'.threads i).past ∧
      ∀ e ∈ c.world.db.workflows.entries, dead e.owner → e.row.status = .running →
        (e.row.createdAt < cutoffOf s readAt →
          (∃ row, ⟨e.id, e.owner, row⟩ ∈ c'.world.db.workflows.entries ∧
            row.status = .interrupted) ∧
          ∀ t ∈ c.world.db.tasks.entries, t.row.workflowId = some e.id → t.row.status = .running →
            ∃ row, ⟨t.id, t.owner, row⟩ ∈ c'.world.db.tasks.entries ∧ row.status = .interrupted) ∧
        (cutoffOf s readAt ≤ e.row.createdAt → e ∈ c'.world.db.workflows.entries ∧
          ∀ t ∈ c.world.db.tasks.entries, t.row.workflowId = some e.id →
          t ∈ c'.world.db.tasks.entries) := by
  obtain ⟨h, ended⟩ := returned
  have unused := Machine.absent_before (fun taken => taken.1) restart started
  have past {x : Interaction calls} : x ∈ (c'.threads i).past ↔ ∃ w, .call i x w ∈ trace' :=
    Machine.mem_past (fun taken => taken.1) restart unused
  obtain ⟨readAt, reaped⟩ := Machine.run_leads (fun taken => taken.1) restart started
    (fun w a q next => by simp [next.1] at starter) (leads_start numWorkers) ended r rfl
  rw [ended] at past ⊢
  have reaping : Reaping (cutoffOf s readAt) trace' := by
    intro k t marker reply w member
    cases next k _ w member ⟨t, marker, rfl⟩
    exact reaped.only _ (past.mpr ⟨w, member⟩) t marker rfl
  have happened : ∃ e ∈ trace', Reaped e := by
    obtain ⟨marker, n, member⟩ := reaped.reaped
    obtain ⟨w, there⟩ := past.mp member
    exact ⟨_, there, i, _, marker, w, n, rfl⟩
  refine ⟨readAt, reaped.read, fun e member dies running => ?_⟩
  have orderly := run_alone_orderly fresh empty run
  have mine : (e.id, e.row) ∈ (view e.owner c.world).workflows := Table.mem_owned.mpr member
  have led := (orderly e.owner).led mine
  have rows : view e.owner c.world ≠ OwnRows.none :=
    fun none => by simp [none, OwnRows.none] at mine
  obtain ⟨sound, alone⟩ := run_alone fresh run
  obtain ⟨left, same⟩ := left_crash sound alone (orderly e.owner) death dies rows
  obtain ⟨-, fate⟩ := run_fate led restart left same reaping
  have held {t : Relational.Entry CallId Task} (task : t ∈ c.world.db.tasks.entries)
      (home : t.row.workflowId = some e.id) : (t.id, t.row) ∈ (view e.owner c.world).tasks := by
    rw [← task_owner orderly member task home]
    exact Table.mem_owned.mpr task
  constructor
  · intro old
    have orphan : Transaction.orphan (cutoffOf s readAt) e.row =
      true := by simp [Transaction.orphan, running, old]
    rcases fate with ⟨-, quiet⟩ | ⟨-, interrupted⟩
    · obtain ⟨e', there, reaped⟩ := happened
      exact absurd reaped (quiet orphan e' there)
    · obtain ⟨w, only, status⟩ := interrupted.workflow
      refine ⟨⟨w, Table.mem_owned.mp ?_, status⟩, fun t task home still => ?_⟩
      · have only : c'.world.db.workflows.owned e.owner = [(e.id, w)] := only
        rw [only]
        exact List.mem_singleton.mpr rfl
      · obtain ⟨row, there, ended⟩ := interrupted.tasks _ (held task home) still
        exact ⟨row, task_owner orderly member task home ▸ Table.mem_owned.mp there, ended⟩
  · intro young
    have spared : Transaction.orphan (cutoffOf s readAt) e.row ≠ true := by
      simp [Transaction.orphan, running, Int.not_lt.mpr young]
    rcases fate with ⟨kept, -⟩ | ⟨orphan, -⟩
    · have kept : view e.owner c'.world = view e.owner c.world := kept
      refine ⟨?_, fun t task home => ?_⟩
      · rw [← kept] at mine
        exact Table.mem_owned.mp mine
      · have there := held task home
        rw [← kept] at there
        have entry := Table.mem_owned.mp there
        rwa [← task_owner orderly member task home] at entry
    · exact absurd orphan spared

/-- An orchestrator serves in the first process, and a pipeline of it has a task running. -/
structure Serving (c : Pool) : Prop where
  clock : c.world.clock = 0
  workflows : ∃ w, c.world.db.workflows.entries = [⟨1, ⟨1, 2, .pipeline⟩, w⟩] ∧
    w.status = .running ∧ w.createdAt = 0
  owned : c.world.db.own ⟨2, 1, .starter⟩ = OwnRows.none
  serving : ∀ process, process ≠ 1 → c.world.serving process = false
  threads : ∀ i, i.process ≠ 1 → c.threads i = .absent

theorem serving_reached : ∃ trace c,
    Transition.Run (Transition.Guarded (Step (.defaults "/root")) OneOrchestrator)
    Pool.initial trace c ∧ Serving c := by
  obtain ⟨_, serving⟩ := run_serving
  obtain ⟨_, -, executing⟩ := run_entry serving ⟨1, 2, .pipeline⟩ (.commitPipeline samplePayload)
    (openingScript "4c1d" 0 1 1) ((plays_attach rfl).trans (.call ⟨_, rfl, rfl⟩ (.stop _ _)))
      rfl rfl rfl
    (one_pipeline rfl rfl) one_calls
  refine ⟨_, _, executing, rfl, ⟨_, rfl, rfl, rfl⟩, rfl, fun process other => ?_, fun i other => ?_⟩
  · exact Function.update_of_ne other true fun _ => false
  · have first : i ≠ ⟨1, 1, .starter⟩ := fun same => other (congrArg CallId.process same)
    have second : i ≠ ⟨1, 2, .pipeline⟩ := fun same => other (congrArg CallId.process same)
    exact (Function.update_of_ne second _ _).trans (Function.update_of_ne first _ _)

/-- The process dies, and another orchestrator comes up `delay` later. -/
theorem restarted (serving : Serving c)
    (reached : Transition.Run (Transition.Guarded (Step (.defaults "/root")) OneOrchestrator)
      Pool.initial trace c)
    (delay : Time) (later : 0 ≤ delay) : ∃ d trace' c' n,
    Step (.defaults "/root") c (.crash fun i => i.process = 1) d ∧
    Transition.Run (Transition.Guarded (Step (.defaults "/root")) OneOrchestrator) d trace' c' ∧
    .spawn ⟨2, 1, .starter⟩ (Orchestrator.start (.defaults "/root") 2) ∈ trace' ∧
    (∀ j x w, .call j x w ∈ trace' → j = ⟨2, 1, .starter⟩) ∧
    c'.threads ⟨2, 1, .starter⟩ = .active (startScript delay n) (.done (.ok .nothing)) ∧
    (delay ≤ 600 * second → ∀ e ∈ c'.world.db.workflows.entries, e.row.status = .running) := by
  obtain ⟨⟨clock, db, redis, vectors, approvalsFile, posts, on, stopping⟩, threads⟩ := c
  obtain ⟨rfl, ⟨w, entries, running, created⟩, owned, off, absent⟩ := serving
  have dead (j : CallId) : ¬ (if j.process = 1 then (threads j).kill else threads j).Live := by
    by_cases same : j.process = 1
    · rw [if_pos same]
      exact Thread.kill_not_live _
    · rw [if_neg same]
      exact fun live => present_of_live live (absent j same)
  have passed (process : Nat) : Function.update on 1 false process = false := by
    by_cases same : process = 1
    · rw [same, Function.update_self]
    · rw [Function.update_of_ne same]
      exact off process same
  have death := step_dies reached 1
  obtain ⟨_, playing, restart⟩ :=
    run_entry (run_waits death delay later (by simp [OneOrchestrator]))
    ⟨2, 1, .starter⟩ (.start 2)
    (startScript delay (Transaction.orphans (delay - 600 * second) db).length)
    (.call rfl (.call rfl (.call rfl (.call ⟨rfl, rfl⟩ (.call ⟨rfl, rfl⟩
      (.call ⟨_, rfl, rfl⟩ (.call rfl (.call rfl (.stop _ _))))))))) rfl (absent _ (by decide)) owned
    (one_start passed dead _ rfl _) one_calls
  refine ⟨_, _, _, _, death, restart, by simp [Entry.program], fun j x w member => ?_,
    rfl, fun young e member => ?_⟩
  · rcases List.mem_cons.mp member with event | member
    · contradiction
    · rcases List.mem_cons.mp member with event | member
      · contradiction
      · obtain ⟨y, -, before, same⟩ := playing _ member
        exact (Event.call.inj same).1
  · obtain ⟨old, there, rfl⟩ := Table.mem_update.mp member
    have there : old ∈ db.workflows.entries := there
    have entries : db.workflows.entries = _ := entries
    rw [entries, List.mem_singleton] at there
    have spared : Transaction.orphan (delay - 600 * second) w = false := by
      simp only [Transaction.orphan, running, created]
      rw [decide_eq_false (Int.not_lt.mpr (Int.sub_nonpos_of_le young))]
      rfl
    subst there
    rw [if_neg]
    · exact running
    · exact fun taken => by
        have := spared.symm.trans taken
        contradiction

/-- A workflow of a process that died 601 seconds before the next start. -/
theorem orphans_interrupted_old : ∃ trace' c' e,
    Transition.Run (Transition.Guarded (Step (.defaults "/root")) OneOrchestrator) Pool.initial
      trace' c' ∧ e ∈ c'.world.db.workflows.entries ∧ e.row.status = .interrupted := by
  obtain ⟨trace, c, reached, serving⟩ := serving_reached
  obtain ⟨d, trace', c', n, death, restart, started, next, ended, -⟩ :=
    restarted serving reached (601 * second) (by decide)
  obtain ⟨readAt, read, kept⟩ :=
    orphans_interrupted fresh_initial rfl reached death restart started rfl
    (fun j x w member _ => next j x w member) ⟨_, ended⟩
  obtain ⟨w, entries, running, created⟩ := serving.workflows
  rw [ended] at read
  simp only [Thread.past, startScript, List.mem_cons, List.not_mem_nil, or_false,
    Interaction.mk.injEq, heq_eq_eq,
    reduceCtorEq, false_and, or_self, false_or, true_and] at read
  have same : readAt = 601 * second := Except.ok.inj read
  obtain ⟨⟨row, member, status⟩, -⟩ :=
    (kept _ (by rw [entries]; exact List.mem_singleton.mpr rfl) rfl running).1
    (by rw [same, created]; decide)
  exact ⟨_, c', _, (reached.next ⟨death, by simp [OneOrchestrator]⟩).trans restart, member, status⟩

/-- A workflow of a process that died just before the next start is still running when that has
returned. -/
theorem orphans_interrupted_young : ∃ trace c d trace' c',
    Transition.Run (Transition.Guarded (Step (.defaults "/root")) OneOrchestrator)
    Pool.initial trace c ∧ Step (.defaults "/root") c (.crash fun i => i.process = 1) d ∧
    Transition.Run (Transition.Guarded (Step (.defaults "/root")) OneOrchestrator) d trace' c' ∧
    (c'.threads ⟨2, 1, .starter⟩).Ended (.ok .nothing) ∧
    (∃ e ∈ c.world.db.workflows.entries, e.owner.process = 1 ∧ e.row.status = .running) ∧
    ∀ e ∈ c'.world.db.workflows.entries, e.row.status = .running := by
  obtain ⟨trace, c, reached, serving⟩ := serving_reached
  obtain ⟨d, trace', c', n, death, restart, -, -, ended, young⟩ :=
    restarted serving reached (5 * second) (by decide)
  obtain ⟨w, entries, running, -⟩ := serving.workflows
  exact ⟨trace, c, d, trace', c', reached, death, restart, ⟨_, ended⟩,
    ⟨_, by rw [entries]; exact List.mem_singleton.mpr rfl, rfl, running⟩, young (by decide)⟩
end WiseOrder
