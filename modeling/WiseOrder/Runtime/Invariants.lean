import WiseOrder.Runtime.System
import WiseOrder.Runtime.Lifecycle
import WiseOrder.Workflows.CommitOutcome
import WiseOrder.Workflows.DemoOutcome

/-! The pool of calls keeps the protocol. Every program obeys its own, no call
disturbs the rows of another but the reaper, and every row moves on as the life
of a workflow allows. -/
namespace WiseOrder
open Coroutine Coroutine.Program Relational
variable {s : Settings} {i j : CallId} {h : History} {v : OwnRows} {w w' : World}
    {c c' : Pool} {e : RunEvent}
  {post : CallId → Post calls OwnRows Returned}

/-! ### Calls -/

theorem protocol_effect : (protocol s i).effect = ownEffect := by
  unfold protocol
  cases i.role <;> rfl

/-- The transactions of the program: those of a pipeline on its own rows, a
decision, and the reaper's before there are workers. -/
inductive Transaction.Permitted (i : CallId) (h : History) (v : OwnRows) : Transaction → Prop where
  | pipeline {t : Transaction} (role : i.role = .pipeline) (lawful : t.Lawful h v) :
      Permitted i h v t
  | decision {t : Transaction} (decides : t.Decides) : Permitted i h v t
  | reap (cutoff : Time) (marker : LogEntry) (role : i.role = .starter) (none : v = OwnRows.none)
      (early : ∀ x ∈ h, ∀ n, x.call ≠ .createWorkers n) : Permitted i h v (.reap cutoff marker)

theorem session_permitted {t : Transaction} (allowed : (protocol s i).allowed h (.session t) v) :
    t.Permitted i h v := by
  cases role : i.role <;> simp only [protocol, role] at allowed
  case pipeline => exact .pipeline role allowed
  case starter =>
    cases t with
    | reap cutoff marker => exact .reap cutoff marker role allowed.1 allowed.2
    | _ => exact allowed.elim
  case worker => exact allowed.elim
  case visitor => exact .decision allowed
  case operator => exact allowed.elim

theorem tracks (s : Settings) : Tracks (runtime s) (protocol s) view where
  effect := by
    intro i seen call w reply w' allowed performed
    rw [protocol_effect]
    apply perform_own performed
    rintro t x db rfl ran
    cases session_permitted allowed with
    | pipeline role lawful => exact Transaction.own_commit ran lawful.mine
    | decision decides => exact Transaction.own_commit ran decides.mine
    | reap cutoff marker role none early =>
        exact ⟨trivial, (Transaction.own_reap_none ran none).trans none.symm⟩

/-! ### Programs -/

theorem within_fail (job : Job) (error : String) :
    (RedisQueue.fail job error).Within workerAllowed :=
  RedisQueue.within_fail trivial fun _ => trivial

theorem within_runJob (registered : List String) (job : Job) :
    (Orchestrator.runJob registered job).Within workerAllowed := by
  apply within_bind (by trivial)
  intro handler
  cases handler with
  | none => exact within_fail _ _
  | some name =>
      exact within_catching (within_bind (within_call (by trivial)) fun _ => trivial) fun e =>
        within_fail _ _

theorem within_nextJob : Orchestrator.nextJob.Within workerAllowed := by
  apply within_catching
  · apply within_bind (within_call (by trivial))
    intro res
    cases res with
    | none => trivial
    | some popped => exact within_bind (by trivial) fun _ => trivial
  · exact fun e => within_bind (within_call (by trivial)) fun _ => trivial

theorem within_workerPass (registered : List String) :
    (Orchestrator.workerPass registered).Within workerAllowed := by
  apply within_bind (within_call (by trivial))
  intro stop
  split
  · trivial
  · apply within_bind within_nextJob
    intro job
    cases job with
    | none => trivial
    | some job => exact within_bind (within_runJob _ _) fun _ => trivial

theorem within_decide {may : Call → Prop} (finds : ∀ id, may (.session (.findApproval id)))
    (clock : may .now) (updates : ∀ t : Transaction, t.Decides → may (.session t))
    (approvalId : Int) (decision : String) :
    (ApprovalGateway.decide approvalId decision).Within may := by
  refine within_ite (fun known => ?_) fun _ => trivial
  apply within_bind (within_call (finds _))
  intro row
  cases row with
  | none => trivial
  | some columns =>
      apply within_bind (within_call clock)
      refine fun now => within_bind (within_call (updates _ fun text writes => ?_)) fun _ => trivial
      unfold ApprovalGateway.changed at writes
      split at writes
      · cases writes
      · cases writes
        exact known

/-- An orchestrator coming up that has created no workers yet. -/
def Early (h : History) (v : OwnRows) : Prop := v = OwnRows.none ∧
    ∀ x ∈ h, ∀ n, x.call ≠ .createWorkers n

/-- What an orchestrator brings up once it has reaped. -/
def Opening : Call → Prop
  | .createWorkers _ | .startServices => True
  | _ => False

theorem opening_allowed (h : History) (call : Call) (v : OwnRows) (opening : Opening call) :
    starterAllowed h call v := by
  cases call with
  | createWorkers | startServices => trivial
  | _ => exact opening.elim

theorem starter_effect {call : Call} {reply : Except PyException call.Reply}
    (moved : ownEffect call OwnRows.none reply v) (allowed : starterAllowed h call OwnRows.none) :
    v = OwnRows.none := by
  cases call with
  | session t =>
      cases t with
      | reap cutoff marker =>
          cases reply with
          | ok x =>
              obtain ⟨now, -, rfl⟩ := moved
              rfl
          | error e =>
              rcases moved with rfl | ⟨x, now, -, rfl⟩
              · rfl
              · rfl
      | _ => exact allowed.elim
  | now =>
      cases reply with
      | ok x => exact moved
      | error e => exact moved.elim
  | _ => cases reply <;> exact moved

theorem obeys_early (call : Call) (early : Early h v)
    (allowed : Early h v → starterAllowed h call v) (plain : ∀ n, call ≠ .createWorkers n) :
    (await call).Obeys starterProtocol (ending (fun _ => Early) fun _ _ _ => True) h v := by
  refine ⟨allowed early, fun reply after moved => ?_⟩
  cases reply with
  | error e => trivial
  | ok x =>
      obtain ⟨rfl, before⟩ := early
      refine ⟨starter_effect moved (allowed ⟨rfl, before⟩), fun y member => ?_⟩
      rcases List.mem_append.mp member with old | new
      · exact before y old
      · rw [List.mem_singleton.mp new]
        exact plain

theorem obeys_reap (early : Early h v) (maxAge : Int) :
    (Orchestrator.reapOrphanWorkflows maxAge).Obeys starterProtocol
    (ending (fun _ => Early) fun _ _ _ => True) h v := by
  apply obeys_bind (obeys_early .now early (fun _ => trivial) (by simp))
  · intro now h v early
    apply obeys_bind (obeys_early .now early (fun _ => trivial) (by simp))
    · intro markedAt h v early
      exact obeys_early _ early (fun early => early) (by simp)
    · exact fun _ _ _ _ => trivial
  · exact fun _ _ _ _ => trivial

theorem obeys_start (numWorkers : Nat) :
    (Orchestrator.start s numWorkers).Obeys starterProtocol anyEnd [] OwnRows.none := by
  have fresh : Early [] OwnRows.none := ⟨rfl, fun _ member => absurd member List.not_mem_nil⟩
  apply obeys_bind (obeys_early .dbPing fresh (fun _ => trivial) (by simp))
  · intro database h v early
    split
    · apply obeys_bind (obeys_early .initDb early (fun _ => trivial) (by simp))
      · intro _ h v early
        apply obeys_bind (obeys_early .redisPing early (fun _ => trivial) (by simp))
        · intro answered h v early
          split
          · apply obeys_bind (obeys_reap early _)
            · intro _ h v early
              refine Within.obeys ?_ opening_allowed _ _
              exact within_bind (within_call (by trivial)) fun _ =>
                within_bind (within_call (by trivial)) fun _ => trivial
            · exact fun _ _ _ _ => trivial
          · trivial
        · exact fun _ _ _ _ => trivial
      · exact fun _ _ _ _ => trivial
    · trivial
  · exact fun _ _ _ _ => trivial

theorem Entry.obeys (entry : Entry) (role : entry.role = i.role) :
    (entry.program s).Obeys (protocol s i) anyEnd [] OwnRows.none := by
  unfold protocol
  rw [← role]
  cases entry with
  | commitPipeline payload =>
      exact (CommitPipeline.obeys_runCommitPipeline payload).mono fun _ _ _ _ => trivial
  | demoRequest payload =>
      exact (DemoForge.obeys_runDemoForgeRequest payload).mono fun _ _ _ _ => trivial
  | start numWorkers => exact obeys_start numWorkers
  | worker => exact (within_workerPass _).obeys (fun _ _ _ may => may) _ _
  | enqueue job queue =>
      have within : (Entry.program s (.enqueue job queue)).Within visitorAllowed :=
        within_bind (RedisQueue.within_enqueue fun _ => trivial) fun _ => trivial
      exact within.obeys (fun _ _ _ may => may) _ _
  | decide approvalId decision =>
      have within : (Entry.program s (.decide approvalId decision)).Within visitorAllowed :=
        within_bind (within_decide (fun _ => trivial) trivial (fun t decides => decides) _ _)
          fun _ => trivial
      exact within.obeys (fun _ _ _ may => may) _ _
  | release repo sha =>
      have within : (Entry.program s (.release repo sha)).Within operatorAllowed :=
        within_bind (within_call (by trivial)) fun _ => trivial
      exact within.obeys (fun _ _ _ may => may) _ _

/-! ### Steps -/

/-- A transaction commits. -/
def Commits (e : RunEvent) : Prop :=
  ∃ (i : CallId) (t : Transaction) (x : t.Reply) (w : World), e = .call i ⟨.session t, .ok x⟩ w

/-- A step changes the database by one transaction, or not at all. -/
theorem step_ran (step : Step s c e c') :
    (c'.world.db = c.world.db ∧ ¬ Commits e) ∨
      ∃ (i : CallId) (t : Transaction) (x : t.Reply) (reply : Except PyException t.Reply),
        e = .call i ⟨.session t, reply⟩ c.world ∧ Acknowledged x reply ∧
          t.run i c.world.clock c.world.db = .ok (x, c'.world.db) := by
  have hosted : Hosted (runtime s) := ⟨rfl, rfl, rfl⟩
  rcases hosted.ran step with ⟨same, idle⟩ | ran
  · exact .inl ⟨same, fun ⟨i, t, x, w, commits⟩ => idle i t x w commits⟩
  · exact .inr ran

/-- The transaction of a step is permitted. -/
theorem step_db (obeys : c.Obeys (protocol s) post view) (step : Step s c e c') :
    c'.world.db = c.world.db ∨
    ∃ (i : CallId) (t : Transaction) (x : t.Reply) (reply : Except PyException t.Reply),
      e = .call i ⟨.session t, reply⟩ c.world ∧ Acknowledged x reply ∧
      t.Permitted i (c.threads i).past (view i c.world) ∧ t.run i c.world.clock c.world.db = .ok
      (x, c'.world.db) := by
  rcases step_ran step with ⟨same, -⟩ | ⟨i, t, x, reply, rfl, told, ran⟩
  · exact .inl same
  · exact .inr ⟨i, t, x, reply, rfl, told, session_permitted (step.allowed obeys), ran⟩

/-- The reaper takes something. -/
def Reaps (c : Pool) (e : RunEvent) (c' : Pool) : Prop :=
  c'.world.db ≠ c.world.db ∧
    ∃ (i : CallId) (cutoff : Time) (marker : LogEntry) (reply : Except PyException Nat) (w : World),
    e = .call i ⟨.session (.reap cutoff marker), reply⟩ w

theorem step_view_other (obeys : c.Obeys (protocol s) post view) (step : Step s c e c')
    (calm : ¬ Reaps c e c') (idle : ¬ e.By j) : view j c'.world = view j c.world := by
  rcases step_db obeys step with same | ⟨i, t, x, reply, rfl, -, permitted, ran⟩
  · exact congrArg (fun db => Db.own db j) same
  · cases permitted with
    | pipeline role lawful => exact Transaction.own_other ran lawful.mine idle
    | decision decides => exact Transaction.own_decide ran decides j
    | reap cutoff marker =>
        by_cases same : c'.world.db = c.world.db
        · exact congrArg (fun db => Db.own db j) same
        · exact absurd ⟨same, i, cutoff, marker, reply, c.world, rfl⟩ calm

theorem step_orderly (obeys : c.Obeys (protocol s) post view) (step : Step s c e c')
    (orderly : (view j c.world).Orderly) : (view j c'.world).Orderly := by
  rcases step_db obeys step with same | ⟨i, t, x, reply, rfl, -, permitted, ran⟩
  · unfold view
    rw [same]
    exact orderly
  · cases permitted with
    | pipeline role lawful => exact Transaction.orderly_lawful ran lawful orderly
    | decision decides =>
        unfold view
        rw [Transaction.own_decide ran decides j]
        exact orderly
    | reap cutoff marker => exact Transaction.orderly_reap ran orderly

/-- Only a pipeline comes to have rows. -/
theorem step_none (obeys : c.Obeys (protocol s) post view) (step : Step s c e c')
    (role : j.role ≠ .pipeline) (none : view j c.world = OwnRows.none) :
    view j c'.world = OwnRows.none := by
  rcases step_db obeys step with same | ⟨i, t, x, reply, rfl, -, permitted, ran⟩
  · unfold view
    rwa [same]
  · cases permitted with
    | pipeline pipeline lawful =>
        have other : i ≠ j := fun same => role (same ▸ pipeline)
        exact (Transaction.own_other ran lawful.mine other).trans none
    | decision decides => exact (Transaction.own_decide ran decides j).trans none
    | reap cutoff marker => exact Transaction.own_reap_none ran none

theorem step_advances (obeys : c.Obeys (protocol s) post view) (step : Step s c e c') :
    c.world.db.Advances c'.world.db := by
  rcases step_db obeys step with same | ⟨i, t, x, reply, rfl, -, permitted, ran⟩
  · exact .of_same (congrArg Db.workflows same)
  · cases permitted with
    | pipeline role lawful => exact Transaction.advances_lawful ran lawful
    | decision decides => exact Transaction.advances_decide ran decides
    | reap cutoff marker => exact Transaction.advances_reap ran

/-- The protocol is kept by a step that leaves the rows of the executing calls as they are. -/
theorem step_obeys (obeys : c.Obeys (protocol s) (fun _ => anyEnd) view) (step : Step s c e c')
    (spared : ∀ j, (c.threads j).Live → ¬ e.By j → view j c'.world = view j c.world) :
    c'.Obeys (protocol s) (fun _ => anyEnd) view := by
  refine step.obeys (tracks s) ?_ ?_ ?_ obeys
  · rintro i p rfl
    cases step with
    | spawn unused entry =>
        obtain ⟨none, entry, role, rfl⟩ := entry
        have none : view i c.world = OwnRows.none := none
        rw [none]
        exact entry.obeys role
  · rintro i p seen a rfl returned -
    cases step with
    | again returned next =>
        obtain ⟨role, -, rfl⟩ := next
        unfold protocol
        rw [role]
        exact (within_workerPass _).obeys (fun _ _ _ may => may) _ _
  · intro j seen rest active idle holds
    cases rest with
    | done result => trivial
    | await call onReply =>
        rw [spared j ⟨seen, _, active, trivial⟩ idle]
        exact holds

/-- A pool in which nothing was called yet. -/
def Fresh (c : Pool) : Prop := ∀ i, c.threads i = .absent

theorem fresh_initial : Fresh Pool.initial := fun _ => rfl

theorem Fresh.obeys (fresh : Fresh c) : c.Obeys (protocol s) post view := by
  intro i seen rest active
  rw [fresh i] at active
  contradiction

/-- What holds of a pool at any time: the protocol is kept, and the rows of every call that was
made are in order. -/
structure Sound (s : Settings) (c : Pool) : Prop where
  obeys : c.Obeys (protocol s) (fun _ => anyEnd) view
  orderly : ∀ i, c.threads i ≠ .absent → (view i c.world).Orderly
  rowless : ∀ i, c.threads i ≠ .absent → i.role ≠ .pipeline → view i c.world = OwnRows.none

theorem Fresh.sound (fresh : Fresh c) : Sound s c :=
  ⟨fresh.obeys, fun i made => absurd (fresh i) made, fun i made => absurd (fresh i) made⟩

theorem step_sound (sound : Sound s c) (step : Step s c e c')
    (spared : ∀ j, (c.threads j).Live → ¬ e.By j → view j c'.world = view j c.world) :
    Sound s c' := by
  have begins (i : CallId) (made : c'.threads i ≠ .absent) : c.threads i ≠ .absent ∨
      view i c.world = OwnRows.none := by
    rcases (step.present i).mp made with there | ⟨p, rfl⟩
    · exact .inl there
    · cases step with
      | spawn unused entry => exact .inr entry.1
  refine ⟨step_obeys sound.obeys step spared, fun i made => ?_, fun i made role => ?_⟩
  · apply step_orderly sound.obeys step
    rcases begins i made with there | none
    · exact sound.orderly i there
    · rw [none]
      exact OwnRows.orderly_none
  · apply step_none sound.obeys step role
    rcases begins i made with there | none
    · exact sound.rowless i there role
    · exact none

theorem step_sound_calm (sound : Sound s c) (step : Step s c e c') (calm : ¬ Reaps c e c') :
    Sound s c' :=
  step_sound sound step fun _ _ idle => step_view_other sound.obeys step calm idle

/-! ### Runs without a reaper -/

section
variable {step : Pool → RunEvent → Pool → Prop} {trace : List RunEvent}

theorem run_sound (sub : ∀ {c e c'}, step c e c' → Step s c e c' ∧ ¬ Reaps c e c')
    (run : Transition.Run step c trace c') (fresh : Fresh c) : Sound s c' :=
  run.invariant (fun sound taken => step_sound_calm sound (sub taken).1 (sub taken).2) fresh.sound

/-- A pipeline whose program has a postcondition meets it when it ends. -/
theorem run_ends {Q : Post calls OwnRows Returned} {p : Async Returned} {h : History}
    (sub : ∀ {c e c'}, step c e c' → Step s c e c' ∧ ¬ Reaps c e c')
    (run : Transition.Run step c trace c') (fresh : Fresh c) (spawned : .spawn i p ∈ trace)
    (pipeline : i.role = .pipeline) (specified : p.Obeys (protocol s i) Q [] OwnRows.none)
    (ended : c'.threads i = .active h (.done r)) : Q r h (view i c'.world) := by
  obtain ⟨past, rest, rfl⟩ := List.append_of_mem spawned
  obtain ⟨t, t', before, taken, after⟩ := run.split_at
  have obeys := (run_sound sub before fresh).obeys
  have start : t'.Obeys (protocol s) (Function.update (fun _ => anyEnd) i Q) view ∧
      t'.threads i ≠ .absent := by
    cases (sub taken).1 with
    | spawn unused entry =>
        refine ⟨fun j seen program active => ?_, by simp⟩
        by_cases same : j = i
        · subst j
          simp only [Function.update_self, Thread.active.injEq] at active ⊢
          obtain ⟨rfl, rfl⟩ := active
          have none : view i t.world = OwnRows.none := entry.1
          rw [none]
          exact specified
        · simp only [Function.update_of_ne same] at active ⊢
          exact obeys j seen program active
  have kept := after.invariant (P := fun u =>
    u.Obeys (protocol s) (Function.update (fun _ => anyEnd) i Q) view ∧
    u.threads i ≠ .absent) ?_ start
  · have final := kept.1 i _ _ ended
    rwa [Function.update_self] at final
  · rintro u e u' ⟨obeys, there⟩ taken
    obtain ⟨taken, calm⟩ := sub taken
    refine ⟨?_, (taken.present i).mpr (.inl there)⟩
    refine taken.obeys (tracks s) ?_ ?_ ?_ obeys
    · rintro j p rfl
      cases taken with
      | spawn unused entry =>
          have other : j ≠ i := fun same => there (same ▸ unused)
          obtain ⟨none, entry, role, rfl⟩ := entry
          have none : view j u.world = OwnRows.none := none
          rw [none, Function.update_of_ne other]
          exact entry.obeys role
    · rintro j p seen a rfl returned -
      cases taken with
      | again returned next =>
          obtain ⟨role, -, rfl⟩ := next
          have other : j ≠ i := fun same => by simp [← same, role] at pipeline
          rw [Function.update_of_ne other]
          unfold protocol
          rw [role]
          exact (within_workerPass _).obeys (fun _ _ _ may => may) _ _
    · intro j seen rest active idle holds
      rw [step_view_other obeys taken calm idle]
      exact holds

end

end WiseOrder
