import WiseOrder.Runtime.Invariants

/-! The reaper and the life of a workflow. A row leaves running once and for all as
long as the reaper takes no workflow whose call is still executing, which is so
when orchestrators come up one at a time. -/
namespace WiseOrder
open Coroutine Coroutine.Program Relational
variable {s : Settings} {i j : CallId} {c c' : Pool} {e : RunEvent} {trace : List RunEvent}

/-- The reaper takes no workflow whose call is still executing. -/
def Spares (c : Pool) (e : RunEvent) (c' : Pool) : Prop :=
  ∀ i cutoff marker reply w, e = .call i ⟨.session (.reap cutoff marker), reply⟩ w → c'.world.db ≠
    c.world.db →
    ∀ x ∈ c.world.db.workflows.entries, Transaction.orphan cutoff x.row =
      true → ¬ (c.threads x.owner).Live

/-- What a reaper leaves to a call whose workflow it does not take. -/
theorem view_spared (sound : Sound s c) (step : Step s c e c') (orderly : (view j c.world).Orderly)
    (idle : ¬ e.By j) (spared : ∀ i cutoff marker reply w,
      e = .call i ⟨.session (.reap cutoff marker), reply⟩ w →
      c'.world.db ≠ c.world.db → ∀ x ∈ (view j c.world).workflows, Transaction.orphan cutoff x.2 =
        false) :
    view j c'.world = view j c.world := by
  by_cases reaps : Reaps c e c'
  · obtain ⟨takes, i, cutoff, marker, reply, w, rfl⟩ := reaps
    rcases step_db sound.obeys step with same | ⟨k, t, x, reply', event, -, permitted, ran⟩
    · exact congrArg (fun db => Db.own db j) same
    · cases event
      exact Transaction.own_reap_spared ran orderly (spared i cutoff marker reply _ rfl takes)
  · exact step_view_other sound.obeys step reaps idle

theorem present_of_live {t : Thread calls Returned} (live : t.Live) : t ≠ .absent := by
  obtain ⟨past, rest, same, -⟩ := live
  simp [same]

theorem step_sound_spared (sound : Sound s c) (step : Step s c e c') (spares : Spares c e c') :
    Sound s c' := by
  apply step_sound sound step
  intro j live idle
  apply view_spared sound step (sound.orderly j (present_of_live live)) idle
  intro i cutoff marker reply w event takes x member
  by_contra taken
  have entry : (⟨x.1, j, x.2⟩ : Relational.Entry CallId Workflow) ∈ c.world.db.workflows.entries :=
    Table.mem_owned.mp member
  exact spares i cutoff marker reply w event takes _ entry (by simpa using taken) live

/-- Terminal states are final: from any state of such a run on, a row keeps its status, or
leaves running once. -/
theorem terminal_final (fresh : Fresh c)
    (run : Transition.Run (Transition.Guarded (Step s) Spares) c trace c')
    (later : Transition.Run (Transition.Guarded (Step s) Spares) c' trace' c'') :
    c'.world.db.Advances c''.world.db := by
  have sound : Sound s c' :=
    run.invariant (fun sound taken => step_sound_spared sound taken.1 taken.2) fresh.sound
  have both := later.invariant (P := fun d => Sound s d ∧ c'.world.db.Advances d.world.db)
    (fun ⟨sound, advances⟩ taken =>
      ⟨step_sound_spared sound taken.1 taken.2, advances.trans (step_advances sound.obeys taken.1)⟩)
    ⟨sound, .refl _⟩
  exact both.2

theorem spares_calls {script : History}
    (plain : ∀ x ∈ script, ∀ cutoff marker, x.call ≠ .session (.reap cutoff marker)) :
    ∀ c x before c', x ∈ script → Spares c (.call i x before) c' := by
  intro c x before c' member j cutoff marker reply w event
  cases event
  exact absurd rfl (plain _ member cutoff marker)

/-- A start goes so far that it has read the clock twice. -/
def readyScript (now : Time) : List (Interaction calls) :=
  [⟨.dbPing, .ok true⟩, ⟨.initDb, .ok ()⟩, ⟨.redisPing, .ok true⟩, ⟨.now, .ok now⟩, ⟨.now, .ok now⟩]

/-- A step of a pipeline whose model is overloaded. -/
def overloadedScript (sha : String) (id taskId : Nat) : List (Interaction calls) :=
  [⟨.summarize (.str "") (.str "") (.str sha) (.str ""), .error (.runtimeError "overloaded")⟩,
    ⟨.session (.failTask taskId "overloaded"), .ok ()⟩,
    ⟨.session (.failWorkflow id "workflow_failed" "summarize failed: overloaded"), .ok ()⟩]

/-- A process dies, and a start reaps its workflow beside that of another process; then that one
fails. -/
theorem terminal_final_failed : ∃ trace c' trace' c'',
    Transition.Run (Transition.Guarded (Step (.defaults "/root")) Spares) Pool.initial trace c' ∧
    Transition.Run (Transition.Guarded (Step (.defaults "/root")) Spares) c' trace' c'' ∧
    (c'.world.db.workflows.entries.map fun e => e.row.status) = [.interrupted, .running] ∧
    (c''.world.db.workflows.entries.map fun e => e.row.status) = [.interrupted, .failed] ∧
    c'.world.db.Advances c''.world.db := by
  obtain ⟨_, -, first⟩ := run_entry (run_start (.defaults "/root") Spares Pool.initial)
    ⟨1, 1, .pipeline⟩ (.commitPipeline samplePayload) (openingScript "4c1d" 0 1 1)
    ((plays_attach rfl).trans (.call ⟨_, rfl, rfl⟩ (.stop _ _))) rfl rfl rfl
    (fun _ => by simp [Spares]) (spares_calls (by simp [openingScript, attachScript, claimScript]))
  have died := first.next ⟨step_dies first 1, by simp [Spares]⟩
  have later := died.trans (run_idles died (601 * second) (by decide) (by simp [Spares]))
  have free : ((Redis.empty.set (slotOf "4c1d") Dedup.pending (3600 * second)).set
    (slotOf "4c1d") "1"
      (3600 * second)).live (601 * second) (slotOf "9f02") = none :=
    (Redis.live_other slots_differ.symm).trans (Redis.live_other slots_differ.symm)
  obtain ⟨_, -, executing⟩ := run_entry later ⟨2, 1, .pipeline⟩ (.commitPipeline (payloadOf "9f02"))
    (openingScript "9f02" (601 * second) 2 2)
      ((plays_attach free).trans (.call ⟨_, rfl, rfl⟩ (.stop _ _)))
    rfl rfl rfl (fun _ => by simp [Spares])
      (spares_calls (by simp [openingScript, attachScript, claimScript]))
  obtain ⟨_, -, ready⟩ :=
    run_entry executing ⟨3, 1, .starter⟩ (.start 2) (readyScript (601 * second))
    (.call rfl (.call rfl (.call rfl (.call ⟨rfl, rfl⟩ (.call ⟨rfl, rfl⟩ (.stop _ _))))))
      rfl rfl rfl
    (fun _ => by simp [Spares]) (spares_calls (by simp [readyScript]))
  have reaped := run_call ready ⟨3, 1, .starter⟩
    ⟨.session (.reap (1 * second) (Orchestrator.interruptedMarker (601 * second) 600)),
      .ok (1 : Nat)⟩ rfl ⟨_, rfl, rfl⟩
    fun c' => by
      intro i cutoff marker reply w same _ x member orphan
      cases same
      rcases List.mem_cons.mp member with rfl | member
      · rintro ⟨past, rest, active, waiting⟩
        contradiction
      · rw [List.mem_singleton.mp member] at orphan
        contradiction
  obtain ⟨_, -, failed⟩ := run_on reaped ⟨2, 1, .pipeline⟩ rfl (overloadedScript "9f02" 2 2)
    (.call rfl (.call ⟨_, rfl, rfl⟩ (.call ⟨_, rfl, rfl⟩ (.stop _ _))))
      (spares_calls (by simp [overloadedScript]))
  exact ⟨_, _, _, _, reaped, failed, rfl, rfl, terminal_final fresh_initial reaped failed⟩

/-- A second orchestrator reaps a workflow that still executes, and its call then marks it
failed. -/
theorem terminal_final_fails :
    ∃ trace c' trace' c'', Transition.Run (Step (.defaults "/root")) Pool.initial trace c' ∧
    Transition.Run (Step (.defaults "/root")) c' trace' c'' ∧
    (c'.world.db.workflows.entries.map fun e => (e.id, e.row.status)) = [(1, .interrupted)] ∧
    (c''.world.db.workflows.entries.map fun e => (e.id, e.row.status)) = [(1, .failed)] := by
  obtain ⟨_, -, executing⟩ :=
    run_entry (run_start (.defaults "/root") (fun _ _ _ => True) Pool.initial)
    ⟨1, 1, .pipeline⟩ (.commitPipeline samplePayload) (openingScript "4c1d" 0 1 1)
    ((plays_attach rfl).trans (.call ⟨_, rfl, rfl⟩ (.stop _ _))) rfl rfl rfl
      (fun _ => trivial) (fun _ _ _ _ _ => trivial)
  have waited := executing.next ⟨.drift (.inl ⟨601 * second, by decide, rfl⟩), trivial⟩
  obtain ⟨_, -, reaped⟩ := run_entry waited ⟨2, 1, .starter⟩ (.start 2)
    (readyScript (601 * second) ++
      [⟨.session (.reap (1 * second) (Orchestrator.interruptedMarker (601 * second) 600)),
        .ok (1 : Nat)⟩])
    (.call rfl
      (.call rfl (.call rfl (.call ⟨rfl, rfl⟩ (.call ⟨rfl, rfl⟩ (.call ⟨_, rfl, rfl⟩
        (.stop _ _)))))))
    rfl rfl rfl (fun _ => trivial) (fun _ _ _ _ _ => trivial)
  obtain ⟨_, -, failed⟩ := run_on reaped ⟨1, 1, .pipeline⟩ rfl (overloadedScript "4c1d" 1 1)
    (.call rfl (.call ⟨_, rfl, rfl⟩ (.call ⟨_, rfl, rfl⟩ (.stop _ _)))) (fun _ _ _ _ _ => trivial)
  exact ⟨_, _, _, _, reaped.unguard, failed.unguard, rfl, rfl⟩

/-! ### One orchestrator at a time -/

/-- An orchestrator starts when there is none, and pipelines are run by one that serves. -/
def OneOrchestrator (c : Pool) (e : RunEvent) (_ : Pool) : Prop :=
  ∀ i p, e = .spawn i p →
    (i.role = .starter → (∀ process, c.world.serving process = false) ∧
      ∀ j, (c.threads j).Live → j.role ≠ .starter ∧ j.role ≠ .pipeline) ∧
    (i.role = .pipeline → c.world.serving i.process = true)

/-- Pipelines execute where an orchestrator serves; and while one comes up without having created
workers, nothing serves. -/
structure Alone (c : Pool) : Prop where
  served : ∀ i, (c.threads i).Live → i.role = .pipeline → c.world.serving i.process = true
  single : ∀ i j, (c.threads i).Live → (c.threads j).Live → i.role =
    .starter → j.role = .starter → i = j
  early : ∀ i, (c.threads i).Live → i.role = .starter →
    (∀ x ∈ (c.threads i).past, ∀ n, x.call ≠ .createWorkers n) →
      ∀ process, c.world.serving process = false

/-- Which processes serve changes when an orchestrator creates its workers, and when a process
dies. -/
theorem step_serving (sound : Sound s c) (step : Step s c e c') :
    c'.world.serving = c.world.serving ∨
    (∃ i n reply, e = .call i ⟨.createWorkers n, reply⟩ c.world ∧ i.role = .starter ∧
      c'.world.serving = Function.update c.world.serving i.process true) ∨
    ∃ dead process, e = .crash dead ∧ (∀ i, dead i ↔ i.process = process) ∧
      c'.world.serving = Function.update c.world.serving process false := by
  cases step with
  | spawn | again => exact .inl rfl
  | drift moved => rcases moved with ⟨t, -, rfl⟩ | ⟨process, rfl⟩ <;> exact .inl rfl
  | crash fell =>
      obtain ⟨process, dies, rfl⟩ := fell
      exact .inr (.inr ⟨_, process, rfl, dies, rfl⟩)
  | @call i seen call onReply reply world awaiting performed =>
      change perform i call c.world reply world at performed
      cases call with
      | createWorkers n =>
          have allowed := (sound.obeys i _ _ awaiting).1
          have starter : i.role = .starter := by
            cases role : i.role <;> simp only [protocol, role] at allowed
            case starter => rfl
            all_goals exact allowed.elim
          cases reply with
          | ok x =>
              cases performed
              exact .inr (.inl ⟨i, n, _, rfl, starter, rfl⟩)
          | error e =>
              cases performed
              exact .inl rfl
      | _ => exact .inl ((perform_frame performed).serving fun n => by simp)

theorem step_alone (sound : Sound s c) (alone : Alone c) (step : Step s c e c')
    (one : OneOrchestrator c e c') : Alone c' := by
  have again (i : CallId) (p : Async Returned) (event : e = .again i p) : i.role = .worker := by
    subst event
    cases step with
    | again returned next => exact next.1
  have same_serving (i : CallId) (p : Async Returned) (event : e = .spawn i p) : c'.world.serving =
      c.world.serving := by
    subst event
    cases step with
    | spawn => rfl
  constructor
  case served =>
    intro i live role
    rcases step.live live with ⟨p, event⟩ | ⟨p, event⟩ | ⟨before, spared⟩
    · rw [same_serving i p event]
      exact (one i p event).2 role
    · simp [again i p event] at role
    · have serves := alone.served i before role
      rcases step_serving sound step with same | ⟨j, n, reply, -, -, created⟩ | ⟨dead, process,
        event, dies, fell⟩
      · rwa [same]
      · rw [created]
        by_cases same : i.process = j.process
        · rw [same, Function.update_self]
        · rwa [Function.update_of_ne same]
      · rw [fell, Function.update_of_ne fun same => spared dead event ((dies i).mpr same)]
        exact serves
  case single =>
    intro i j live live' role role'
    rcases step.live live with ⟨p, event⟩ | ⟨p, event⟩ | ⟨before, -⟩
    · rcases step.live live' with ⟨q, event'⟩ | ⟨q, event'⟩ | ⟨before', -⟩
      · cases event.symm.trans event'
        rfl
      · simp [again j q event'] at role'
      · exact absurd role' (((one i p event).1 role).2 j before').1
    · simp [again i p event] at role
    · rcases step.live live' with ⟨q, event'⟩ | ⟨q, event'⟩ | ⟨before', -⟩
      · exact absurd role (((one j q event').1 role').2 i before).1
      · simp [again j q event'] at role'
      · exact alone.single i j before before' role role'
  case early =>
    intro i live role none process
    rcases step.live live with ⟨p, event⟩ | ⟨p, event⟩ | ⟨before, -⟩
    · rw [same_serving i p event]
      exact ((one i p event).1 role).1 process
    · simp [again i p event] at role
    · rw [step.past i] at none
      have off := alone.early i before role fun x member => none x (List.mem_append_left _ member)
      rcases step_serving sound step with
        same | ⟨j, n, reply, rfl, starter, -⟩ | ⟨dead, dying, -, -, fell⟩
      · rw [same]
        exact off process
      · have there : (c.threads j).Live := by
          cases step with
          | call awaiting performed => exact ⟨_, _, awaiting, trivial⟩
        cases alone.single i j before there role starter
        exact absurd rfl (none
          ⟨.createWorkers n, reply⟩ (List.mem_append_right _ (by simp [Event.own])) n)
      · rw [fell]
        by_cases same : process = dying
        · rw [same, Function.update_self]
        · rw [Function.update_of_ne same]
          exact off process

/-- While orchestrators come up one at a time, the reaper finds no pipeline executing. -/
theorem step_sound_alone (sound : Sound s c) (alone : Alone c) (step : Step s c e c') :
    Sound s c' := by
  apply step_sound sound step
  intro j live idle
  by_cases reaps : Reaps c e c'
  · obtain ⟨-, i, cutoff, marker, reply, w, rfl⟩ := reaps
    have role : j.role ≠ .pipeline := by
      intro pipeline
      cases step with
      | call awaiting performed =>
          have permitted := session_permitted (sound.obeys i _ _ awaiting).1
          cases permitted with
          | pipeline role lawful => exact lawful.elim
          | decision decides => exact decides.elim
          | reap cutoff marker role none early =>
              have off := alone.early i ⟨_, _, awaiting, trivial⟩ role (by rwa [awaiting])
              have on := alone.served j live pipeline
              rw [off j.process] at on
              contradiction
    have none := sound.rowless j (present_of_live live) role
    rw [step_none sound.obeys step role none, none]
  · exact step_view_other sound.obeys step reaps idle

/-- The life of workflows and tasks. -/
structure Db.Lifecycle (db : Db) : Prop where
  quiet : ∀ e ∈ db.workflows.entries,
    (e.row.status = .completed ∨ e.row.status = .failed ∨ e.row.status = .interrupted) →
    ∀ t ∈ db.tasks.entries, t.row.workflowId = some e.id → t.row.status ≠ .running
  stamped : ∀ e ∈ db.workflows.entries, e.row.completedAt.isSome ↔ e.row.status ≠ .running

/-- A task under a workflow belongs to the call that the workflow belongs to. -/
theorem task_owner {db : Db} {e : Relational.Entry CallId Workflow}
    {t : Relational.Entry CallId Task} (orderly : db.Orderly) (member : e ∈ db.workflows.entries)
    (task : t ∈ db.tasks.entries) (home : t.row.workflowId = some e.id) : t.owner = e.owner := by
  have held : (t.id, t.row) ∈ (db.own t.owner).tasks := Table.mem_owned.mpr task
  obtain ⟨id, w, same, mine⟩ := (orderly t.owner).home held
  cases home.symm.trans same
  exact (congrArg Relational.Entry.owner (Table.owned_entry mine member rfl)).symm

theorem Db.Orderly.lifecycle {db : Db} (orderly : db.Orderly) : db.Lifecycle where
  quiet := by
    intro e member ended t task home
    have mine : (e.id, e.row) ∈ (db.own e.owner).workflows := Table.mem_owned.mpr member
    have held : (t.id, t.row) ∈ (db.own e.owner).tasks := by
      rw [← task_owner orderly member task home]
      exact Table.mem_owned.mpr task
    exact ((orderly e.owner).led mine).settled
      (by rcases ended with same | same | same <;> simp [same]) _ held
  stamped := by
    intro e member
    have mine : (e.id, e.row) ∈ (db.own e.owner).workflows := Table.mem_owned.mpr member
    exact ((orderly e.owner).led mine).stamped

theorem run_alone (fresh : Fresh c)
    (run : Transition.Run (Transition.Guarded (Step s) OneOrchestrator) c trace c') :
    Sound s c' ∧ Alone c' := by
  have none (i : CallId) : ¬ (c.threads i).Live := fun live => present_of_live live (fresh i)
  refine run.invariant (P := fun d => Sound s d ∧ Alone d) (fun ⟨sound, alone⟩ taken =>
    ⟨step_sound_alone sound alone taken.1, step_alone sound alone taken.1 taken.2⟩)
      ⟨fresh.sound, ?_⟩
  exact ⟨fun i live => absurd live (none i), fun i _ live => absurd live (none i),
    fun i live => absurd live (none i)⟩

theorem run_alone_orderly (fresh : Fresh c) (empty : c.world.db = Db.empty)
    (run : Transition.Run (Transition.Guarded (Step s) OneOrchestrator) c trace c') :
    c'.world.db.Orderly := by
  refine (run.invariant (P := fun d => (Sound s d ∧ Alone d) ∧ d.world.db.Orderly)
    (fun ⟨⟨sound, alone⟩, orderly⟩ taken => ⟨⟨step_sound_alone sound alone taken.1,
      step_alone sound alone taken.1 taken.2⟩, fun i =>
        step_orderly sound.obeys taken.1 (orderly i)⟩)
    ⟨run_alone fresh (.refl c), ?_⟩).2
  rw [empty]
  exact Db.orderly_empty

/-- With one orchestrator at a time, every state of the database is in order, and whatever happens
later the logs only grow. -/
theorem lifecycle_kept (fresh : Fresh c) (empty : c.world.db = Db.empty)
    (run : Transition.Run (Transition.Guarded (Step s) OneOrchestrator) c trace c')
    (later : Transition.Run (Transition.Guarded (Step s) OneOrchestrator) c' trace' c'') :
    c'.world.db.Lifecycle ∧ c'.world.db.workflows.Evolves
    (fun w w' => w.logs <+: w'.logs) c''.world.db.workflows := by
  have advances := later.invariant (P := fun d => (Sound s d ∧ Alone d) ∧
    c'.world.db.Advances d.world.db)
    (fun ⟨⟨sound, alone⟩, advances⟩ taken => ⟨⟨step_sound_alone sound alone taken.1,
      step_alone sound alone taken.1 taken.2⟩, advances.trans (step_advances sound.obeys taken.1)⟩)
    ⟨run_alone fresh run, .refl _⟩
  exact ⟨(run_alone_orderly fresh empty run).lifecycle, advances.2.mono Workflow.Advances.logs⟩

theorem one_calls {i : CallId} {script : History} :
    ∀ c x before c', x ∈ script → OneOrchestrator c (.call i x before) c' := by
  intro c x before c' _ j p event
  contradiction

/-- The script of a start at a time, with the number of workflows reaped. -/
def startScript (now : Time) (reaped : Nat) : History :=
  [⟨.dbPing, .ok true⟩, ⟨.initDb, .ok ()⟩, ⟨.redisPing, .ok true⟩, ⟨.now, .ok now⟩, ⟨.now, .ok now⟩,
    ⟨.session (.reap (now - 600 * second) (Orchestrator.interruptedMarker now 600)), .ok reaped⟩,
    ⟨.createWorkers 2, .ok ()⟩, ⟨.startServices, .ok ()⟩]

/-- A pipeline is called where an orchestrator serves. -/
theorem one_pipeline {c : Pool} {i : CallId} {p : Async Returned} (role : i.role = .pipeline)
    (served : c.world.serving i.process = true) (c' : Pool) :
    OneOrchestrator c (.spawn i p) c' := by
  rintro j q event
  cases event
  exact ⟨fun starter => by simp [role] at starter, fun _ => served⟩

theorem one_start {w : World} {threads : CallId → Thread calls Returned}
    (off : ∀ process, w.serving process = false) (dead : ∀ j, ¬ (threads j).Live) (i : CallId)
    (starter : i.role = .starter) (p : Async Returned) (c' : Pool) :
    OneOrchestrator ⟨w, threads⟩ (.spawn i p) c' := by
  rintro j q event
  cases event
  exact ⟨fun _ => ⟨off, fun j live => absurd live (dead j)⟩, fun role => by simp [starter] at role⟩

/-- The pool once an orchestrator has come up in it. -/
def Pool.serving : Pool :=
  ⟨{ World.initial with serving := Function.update (fun _ => false) 1 true },
    Function.update (fun _ => .absent)
      ⟨1, 1, .starter⟩ (.active (startScript 0 0) (.done (.ok .nothing)))⟩

theorem run_serving : ∃ trace,
    Transition.Run (Transition.Guarded (Step (.defaults "/root")) OneOrchestrator)
    Pool.initial trace Pool.serving := by
  obtain ⟨_, -, serving⟩ := run_entry (run_start (.defaults "/root") OneOrchestrator Pool.initial)
    ⟨1, 1, .starter⟩ (.start 2) (startScript 0 0)
    (.call rfl
      (.call rfl (.call rfl (.call ⟨rfl, rfl⟩ (.call ⟨rfl, rfl⟩ (.call ⟨_, rfl, rfl⟩ (.call rfl
        (.call rfl (.stop _ _))))))))) rfl rfl rfl
    (one_start (fun _ => rfl) (fun j live => present_of_live live rfl) _ rfl _) one_calls
  exact ⟨_, serving⟩

/-- An orchestrator comes up, and a pipeline that it runs fails. -/
theorem lifecycle_kept_failed : ∃ trace c' trace' c'',
    Transition.Run (Transition.Guarded (Step (.defaults "/root")) OneOrchestrator) Pool.initial
      trace c' ∧ Transition.Run
      (Transition.Guarded (Step (.defaults "/root")) OneOrchestrator) c' trace' c'' ∧
    (c''.world.db.workflows.entries.map fun e => e.row.status) = [.failed] ∧ c'.world.db.Lifecycle ∧
    c'.world.db.workflows.Evolves (fun w w' => w.logs <+: w'.logs) c''.world.db.workflows := by
  obtain ⟨_, serving⟩ := run_serving
  obtain ⟨_, -, executing⟩ := run_entry serving ⟨1, 2, .pipeline⟩ (.commitPipeline samplePayload)
    (openingScript "4c1d" 0 1 1) ((plays_attach rfl).trans (.call ⟨_, rfl, rfl⟩ (.stop _ _)))
      rfl rfl rfl
    (one_pipeline rfl rfl) one_calls
  obtain ⟨_, -, failed⟩ := run_on executing ⟨1, 2, .pipeline⟩ rfl (overloadedScript "4c1d" 1 1)
    (.call rfl (.call ⟨_, rfl, rfl⟩ (.call ⟨_, rfl, rfl⟩ (.stop _ _)))) one_calls
  have kept := lifecycle_kept fresh_initial rfl executing failed
  exact ⟨_, _, _, _, executing, failed, rfl, kept.1, kept.2⟩

end WiseOrder
