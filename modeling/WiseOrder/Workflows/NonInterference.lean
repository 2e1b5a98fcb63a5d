import WiseOrder.Workflows.CommitRuns

/-! Calls for different commits. What one of them does to claim its commit depends on
the slot of that commit and on the clock alone, so that a call under another key can be
taken out of a run: only the number that the database gives the new row may change. -/
namespace WiseOrder.CommitPipeline
open Coroutine Coroutine.Program Relational
variable {s : Settings} {i j l : CallId} {c c' d : Pool} {e : RunEvent} {trace : List RunEvent}
    {repo sha payload : Json}
  {first second : Json} {k : String} {h : History}

/-- What a call does before its row is there: it claims under its key, and inserts the row if it
won. -/
def Claiming (k : String) (h : History) : Call → Prop
  | .redis (.setNx key _ _) | .redis (.get key) => key = k
  | .now => True
  | .session (.addWorkflow ..) => Won h k
  | _ => False

def claimingProtocol (k : String) : Protocol calls Unit :=
  ⟨fun h call _ => History.recorded h = true ∨ Claiming k h call, fun _ _ _ _ => True⟩

def Starts (k : String) (h : History) (p : Async Returned) : Prop :=
  p.Obeys (claimingProtocol k) (fun _ _ _ => True) h ()

theorem starts_recorded {p : Async Returned} (recorded : History.recorded h = true) :
    Starts k h p :=
  obeys_free (fun seen x recorded => by simp [recorded]) (fun _ _ _ => .inl) recorded

theorem starts_runClaimed (won : Won h (Dedup.key repo sha)) (subject author diff : Json) :
    Starts (Dedup.key repo sha) h (runClaimed s repo sha subject author diff) := by
  refine ⟨.inr trivial, fun reply _ _ => ?_⟩
  cases reply with
  | error e => trivial
  | ok ts =>
      refine ⟨.inr won.append, fun reply _ _ => ?_⟩
      cases reply with
      | error e => trivial
      | ok id => exact starts_recorded (by simp [History.isRecorded])

theorem starts_runCommitPipeline (names : commitOf payload = some (repo, sha)) :
    Starts (Dedup.key repo sha) [] (runCommitPipeline s payload) := by
  unfold commitOf at names
  cases required : requireKeys payload ["repo", "sha"] with
  | error e => simp [required] at names
  | ok fields =>
      rw [required] at names
      cases names
      unfold runCommitPipeline
      rw [required]
      refine ⟨.inr rfl, fun reply _ _ => ?_⟩
      cases reply with
      | error e => trivial
      | ok won =>
          cases won with
          | true => exact starts_runClaimed ⟨_, _, List.mem_singleton.mpr rfl⟩ _ _ _
          | false =>
              refine ⟨.inr rfl, fun reply _ _ => ?_⟩
              cases reply <;> trivial

/-! ### Two runs side by side -/

/-- Only these two calls are made. -/
def Pair (s : Settings) (i : CallId) (first : Json) (j : CallId) (second : Json) (c : Pool)
    (e : RunEvent) (c' : Pool) : Prop :=
  Pipelines s c e c' ∧ ∀ l p, e = .spawn l p →
    l = i ∧ p = runCommitPipeline s first ∨ l = j ∧ p = runCommitPipeline s second

/-- Only this call is made. -/
def Alone (s : Settings) (i : CallId) (first : Json) (c : Pool) (e : RunEvent) (c' : Pool) : Prop :=
  Pipelines s c e c' ∧ ∀ l p, e = .spawn l p → l = i ∧ p = runCommitPipeline s first

theorem alone_plain {first : Json} (other : ∀ i p, e ≠ .spawn i p) : Alone s i first c e c' :=
  ⟨pipelines_other other, fun i p same => absurd same (other i p)⟩

/-- What a call asks for, and when. -/
def timed (i : CallId) : RunEvent → Option (Call × Time)
  | .call l x before => if l = i then some (x.call, before.clock) else none
  | _ => none

/-- The call is as far in one run as in the other, and has no row yet. -/
structure Level (k : String) (i : CallId) (c d : Pool) : Prop where
  clock : d.world.clock = c.world.clock
  slot : d.world.redis.slots k = c.world.redis.slots k
  rows : c.threads i = .absent → view i d.world = view i c.world
  thread : d.threads i = c.threads i
  unrecorded : History.recorded (c.threads i).past = false

/-- The call has won and inserted its row in both runs. -/
structure Parted (k : String) (i : CallId) (c d : Pool) : Prop where
  recorded : History.recorded (c.threads i).past = true ∧ History.recorded (d.threads i).past = true
  won : Won (c.threads i).past k ∧ Won (d.threads i).past k

/-- A step that leaves the call and what it sees alone. -/
theorem Level.idle (level : Level k i c d) (clock : c'.world.clock = c.world.clock)
    (slot : c'.world.redis.slots k = c.world.redis.slots k)
    (rows : view i c'.world = view i c.world) (thread : c'.threads i = c.threads i) :
    Level k i c' d where
  clock := level.clock.trans clock.symm
  slot := level.slot.trans slot.symm
  rows := fun absent => (level.rows (thread ▸ absent)).trans rows.symm
  thread := level.thread.trans thread.symm
  unrecorded := thread ▸ level.unrecorded

/-- A call that has been told the same in both runs, and not of its row, is as far. -/
theorem Level.told {seen : History} {rest : Async Returned} {world world' : World}
    (clock : world'.clock = world.clock) (slot : world'.redis.slots k = world.redis.slots k)
    (unrecorded : History.recorded seen = false) :
    Level k i ⟨world, Function.update c.threads i (.active seen rest)⟩
      ⟨world', Function.update d.threads i (.active seen rest)⟩ :=
  ⟨clock, slot, by simp, by simp, by simpa [Thread.past] using unrecorded⟩

theorem level_call {seen : History} {call : Call}
    {onReply : Except PyException call.Reply → Async Returned}
    {reply : Except PyException call.Reply} {world : World} (level : Level k i c d)
    (awaiting : c.threads i = .active seen (.await call onReply))
    (starts : Starts k seen (.await call onReply))
    (performed : perform i call c.world reply world) :
    ∃ reply' world', perform i call d.world reply' world' ∧
      let step (c : Pool) (reply : Except PyException call.Reply) (world : World) : Pool :=
        ⟨world, Function.update c.threads i (.active (seen ++ [⟨call, reply⟩]) (onReply reply))⟩
      Level k i (step c reply world) (step d reply' world') ∨
          Parted k i (step c reply world) (step d reply' world') := by
  have unrecorded : History.recorded seen = false := by
    have unrecorded := level.unrecorded
    rwa [awaiting] at unrecorded
  have claiming : Claiming k seen call := starts.1.resolve_left (by simp [unrecorded])
  have frame := perform_frame performed
  have keyed {command : RedisCommand} (same : call = .redis command) (on : command.On k) :
      ∃ world', perform i call d.world reply world' ∧
        Level k i ⟨world, Function.update c.threads i
          (.active (seen ++ [⟨call, reply⟩]) (onReply reply))⟩
          ⟨world', Function.update d.threads i
              (.active (seen ++ [⟨call, reply⟩]) (onReply reply))⟩ := by
    subst same
    obtain ⟨r, performed', slot⟩ := perform_same performed on level.clock level.slot
    exact ⟨_, performed', .told (level.clock.trans frame.clock.symm) slot
      (by simp [unrecorded, History.isRecorded])⟩
  cases call with
  | redis command =>
      cases command with
      | setNx | get =>
          obtain ⟨world', performed', level⟩ := keyed rfl claiming
          exact ⟨reply, world', performed', .inl level⟩
      | _ => exact claiming.elim
  | now =>
      cases reply with
      | error e => exact performed.elim
      | ok t =>
          obtain ⟨rfl, rfl⟩ := performed
          refine ⟨.ok c.world.clock, d.world, ⟨level.clock.symm, rfl⟩, .inl ?_⟩
          exact .told level.clock level.slot (by simp [unrecorded, History.isRecorded])
  | session t =>
      cases t with
      | addWorkflow name chain logs =>
          have won : Won seen k := claiming
          cases reply with
          | error e =>
              -- the row is there in both runs, or in neither
              have told : History.recorded (seen ++
                  [⟨.session (.addWorkflow name chain logs), .error e⟩]) = false := by
                simp [unrecorded, History.isRecorded]
              rcases performed with rfl | ⟨id, db, ran, rfl⟩
              · exact ⟨.error e, d.world, .inl rfl, .inl (.told level.clock level.slot told)⟩
              · exact ⟨.error e, _, .inr ⟨_, _, rfl, rfl⟩, .inl (.told level.clock level.slot told)⟩
          | ok id =>
              refine ⟨.ok d.world.db.workflows.next, _, ⟨_, rfl, rfl⟩, .inr ⟨⟨?_, ?_⟩, ?_, ?_⟩⟩
              · simp [Thread.past, History.isRecorded]
              · simp [Thread.past, History.isRecorded]
              · simpa [Thread.past] using won.append
              · simpa [Thread.past] using won.append
      | _ => exact claiming.elim
  | _ => exact claiming.elim

theorem Level.step (piped : Piped s c) (level : Level k i c d)
    (starts : ∀ seen rest, c.threads i = .active seen rest → Starts k seen rest)
    (step : Step s c e c') (pair : Pair s i first j second c e c') (other : i ≠ j)
    (others : ∀ l command reply before, e = .call l ⟨.redis command, reply⟩ before →
      l ≠ i → ¬ command.Writes k) :
    ∃ more d', Transition.Run (Transition.Guarded (Step s) (Alone s i first)) d more d' ∧
      more.filterMap (timed i) = (timed i e).toList ∧ (Level k i c' d' ∨ Parted k i c' d') := by
  have calm := piped.calm step
  have rests (same : timed i e = none) (level : Level k i c' d) : ∃ more d',
      Transition.Run (Transition.Guarded (Step s) (Alone s i first)) d more d' ∧
      more.filterMap (timed i) = (timed i e).toList ∧ (Level k i c' d' ∨ Parted k i c' d') :=
    ⟨[], d, .refl d, by rw [same]; rfl, .inl level⟩
  have seen : view i c'.world = view i c.world ∨ e.By i := by
    by_cases mine : e.By i
    · exact .inr mine
    · exact .inl (step_view_other piped.sound.obeys step calm mine)
  cases step with
  | @spawn l p unused entry =>
      by_cases mine : l = i
      · subst l
        have program : p = runCommitPipeline s first :=
          (pair.2 i p rfl).elim (fun one => one.2) fun two => absurd two.1 other
        refine ⟨_, _, .single ⟨.spawn (level.thread.trans unused)
          ⟨(level.rows unused).trans entry.1, entry.2⟩,
          fun l q same => ?_, fun l q same => ?_⟩, rfl, .inl (.told level.clock level.slot rfl)⟩
        · cases same
          exact pair.1 i p rfl
        · cases same
          exact ⟨rfl, program⟩
      · exact rests rfl (level.idle rfl rfl rfl (Function.update_of_ne
          (fun same => mine same.symm) _ _))
  | @call l seen call onReply reply world awaiting performed =>
      by_cases mine : l = i
      · subst l
        obtain ⟨reply', world', performed', after⟩ :=
          level_call level awaiting (starts _ _ awaiting) performed
        refine ⟨_, _, .single ⟨.call (level.thread.trans awaiting) performed',
          alone_plain (by simp)⟩, ?_, after⟩
        simp [timed, level.clock]
      · have frame := perform_frame performed
        refine rests (if_neg mine) (level.idle frame.clock ?_ (seen.resolve_right mine)
          (Function.update_of_ne (fun same => mine same.symm) _ _))
        refine perform_slots performed fun command same => ?_
        subst same
        exact others l command reply _ rfl mine
  | @again l seen a p returned next =>
      have role := piped.roles l (by simp [returned])
      rw [next.1] at role
      contradiction
  | @drift world moved =>
      rcases moved with ⟨t, later, rfl⟩ | ⟨process, rfl⟩
      · refine ⟨_, _, .single ⟨.drift (.inl ⟨t, by rwa [level.clock], rfl⟩), alone_plain (by simp)⟩,
          rfl, .inl ?_⟩
        exact ⟨rfl, level.slot, level.rows, level.thread, level.unrecorded⟩
      · refine ⟨_, _, .single ⟨.drift (.inr ⟨process, rfl⟩), alone_plain (by simp)⟩, rfl, .inl ?_⟩
        exact ⟨level.clock, level.slot, level.rows, level.thread, level.unrecorded⟩
  | @crash dead world threads fell killed spared =>
      obtain ⟨process, died, rfl⟩ := fell
      have falls : Step s d (.crash dead)
        ⟨{ d.world with serving := Function.update d.world.serving process false },
          fun l => if l.process = process then (d.threads l).kill else d.threads l⟩ :=
        .crash ⟨process, died, rfl⟩ (fun l dies => if_pos ((died l).mp dies)) fun l lives =>
            if_neg fun same =>
          lives ((died l).mpr same)
      refine ⟨_, _, .single ⟨falls, alone_plain (by simp)⟩, rfl,
        .inl ⟨level.clock, level.slot, ?_, ?_, ?_⟩⟩
      · intro absent
        refine level.rows ?_
        by_cases dies : dead i
        · exact (Thread.kill_absent _).mp ((killed i dies).symm.trans absent)
        · exact (spared i dies).symm.trans absent
      · by_cases dies : dead i
        · simp only [killed i dies, if_pos ((died i).mp dies), level.thread]
        · simp only [spared i dies, if_neg fun same => dies ((died i).mpr same), level.thread]
      · by_cases dies : dead i
        · simpa only [killed i dies, Thread.kill_past] using level.unrecorded
        · simpa only [spared i dies] using level.unrecorded

theorem Parted.step (parted : Parted k i c d) (step : Step s c e c') : Parted k i c' d := by
  refine ⟨⟨?_, parted.recorded.2⟩, ?_, parted.won.2⟩
  · simp [step.past i, parted.recorded.1]
  · rw [step.past i]
    exact parted.won.1.append

theorem pair_made
    (run : Transition.Run (Transition.Guarded (Step s) (Pair s i first j second)) c trace c')
    (fresh : Fresh c) (there : c'.threads l ≠ .absent) :
    l = i ∧ .spawn i (runCommitPipeline s first) ∈ trace ∨ l = j ∧ .spawn j
    (runCommitPipeline s second) ∈ trace := by
  obtain ⟨p, spawned⟩ := Machine.spawned_within (m := runtime s)
    (fun taken => taken.1) run (fresh l) there
  obtain ⟨t, t', taken⟩ := run.taken spawned
  rcases taken.2.2 l p rfl with ⟨rfl, rfl⟩ | ⟨rfl, rfl⟩
  · exact .inl ⟨rfl, spawned⟩
  · exact .inr ⟨rfl, spawned⟩

/-- The first call has yet to claim as it started. -/
theorem pair_starts
    (run : Transition.Run (Transition.Guarded (Step s) (Pair s i first j second)) c trace c')
    (fresh : Fresh c) (other : i ≠ j) (names : commitOf first = some (repo, sha))
    {seen : History} {rest : Async Returned} (active : c'.threads i = .active seen rest) :
    Starts (Dedup.key repo sha) seen rest := by
  have made : .spawn i (runCommitPipeline s first) ∈ trace :=
    (pair_made run fresh (by simp [active])).elim (fun one => one.2) fun two => absurd two.1 other
  have once : ∀ w a q, ¬ (runtime s).again w i a q := by
    rintro w a q ⟨worker, -, -⟩
    rw [(run_spawned (fun pair => pair.1) run made).1] at worker
    contradiction
  exact (Machine.run_thread (m := runtime s) (K := Starts (Dedup.key repo sha)) (Q := fun _ => True)
    (fun taken => taken.1) run made once (starts_runCommitPipeline names) (fun _ _ _ reply ready =>
      ready.2 reply () trivial)
    fun _ _ _ => trivial).2 seen rest active

/-- The second call writes to its own key. -/
theorem pair_quiet
    (run : Transition.Run (Transition.Guarded (Step s) (Pair s i first j second)) c trace c')
    (fresh : Fresh c) (names : commitOf second = some (repo, sha))
    (member : (⟨.redis command, reply⟩ : Interaction calls) ∈ (c'.threads l).past)
    (other : l ≠ i) (different : k ≠ Dedup.key repo sha) : ¬ command.Writes k := by
  have there : c'.threads l ≠ .absent := by
    intro absent
    rw [absent] at member
    exact absurd member List.not_mem_nil
  obtain ⟨rfl, made⟩ := (pair_made run fresh there).resolve_left fun one => other one.1
  have mine := run_calls (fun pair => pair.1) run made (within_runCommitPipeline names) _ member
  intro writes
  cases command with
  | setNx | setEx => exact different (writes.symm.trans mine)
  | delete => exact mine.elim
  | _ => exact writes.elim

/-- Without the second call, the first does up to the insertion of its row what it does with it, at
the same times. -/
theorem run_beside (fresh : Fresh c)
    (run : Transition.Run (Transition.Guarded (Step s) (Pair s i first j second)) c trace c')
    (other : i ≠ j) (names : commitOf first = some (repo, sha))
    (names' : commitOf second = some (repo', sha'))
    (different : Dedup.key repo sha ≠ Dedup.key repo' sha') :
    ∃ beside d, Transition.Run (Transition.Guarded (Step s) (Alone s i first)) c beside d ∧
      beside.filterMap (timed i) <+: trace.filterMap (timed i) ∧
      (Level (Dedup.key repo sha) i c' d ∧ beside.filterMap (timed i) = trace.filterMap (timed i) ∨
        Parted (Dedup.key repo sha) i c' d) := by
  induction run with
  | refl =>
      refine ⟨[], c, .refl c, List.prefix_refl _, .inl ⟨⟨rfl, rfl, fun _ => rfl, rfl, ?_⟩, rfl⟩⟩
      rw [fresh i]
      rfl
  | @next past t e u earlier taken ih =>
      obtain ⟨beside, d, run, made, apart⟩ := ih
      have grows : past.filterMap (timed i) <+: (past ++ [e]).filterMap (timed i) := by
        rw [List.filterMap_append]
        exact List.prefix_append _ _
      rcases apart with ⟨level, same⟩ | parted
      · have quiet : ∀ l command reply before, e = .call l ⟨.redis command, reply⟩ before → l ≠ i →
            ¬ command.Writes (Dedup.key repo sha) := by
          rintro l command reply before rfl mine
          have member : (⟨.redis command, reply⟩ : Interaction calls) ∈ (u.threads l).past := by
            rw [taken.1.past l]
            exact List.mem_append_right _ (Event.mem_own.mpr ⟨_, rfl⟩)
          exact pair_quiet (earlier.next taken) fresh names' member mine different
        obtain ⟨more, d', onward, told, after⟩ :=
          level.step (run_piped (fun pair => pair.1) earlier fresh)
          (fun seen rest active => pair_starts earlier fresh other names active) taken.1 taken.2
            other quiet
        have told : (beside ++ more).filterMap (timed i) = (past ++ [e]).filterMap (timed i) := by
          rw [List.filterMap_append, List.filterMap_append, same, told]
          cases label : timed i e <;> simp [label]
        refine ⟨beside ++ more, d', run.trans onward, told ▸ List.prefix_refl _, ?_⟩
        rcases after with level | parted
        · exact .inl ⟨level, told⟩
        · exact .inr parted
      · exact ⟨beside, d, run, made.trans grows, .inr (parted.step taken.1)⟩

/-- The claim of a call came to the same: it was skipped and told the same, or it won, and inserted
its row. -/
structure SameClaim (k : String) (t t' : Thread calls Returned) : Prop where
  skipped : ∀ workflowId reason, t.Ended (.ok (.skipped workflowId reason)) ↔
    t'.Ended (.ok (.skipped workflowId reason))
  won : Won t.past k ↔ Won t'.past k
  recorded : History.recorded t.past = History.recorded t'.past

theorem skipped_unrecorded {condition : Pool → RunEvent → Pool → Prop}
    (sub : ∀ {c e c'}, condition c e c' → Pipelines s c e c')
    (run : Transition.Run (Transition.Guarded (Step s) condition) c trace c') (fresh : Fresh c)
    (ended : (c'.threads i).Ended (.ok (.skipped workflowId reason))) :
    History.recorded (c'.threads i).past = false := by
  obtain ⟨seen, active⟩ := ended
  obtain ⟨payload, made⟩ := run_made (i := i) sub run fresh (by simp [active])
  obtain ⟨repo, sha, -, ended⟩ := run_outcome sub run fresh made active
  rw [active]
  rcases ended with ⟨-, value, ex, existing, -, rfl⟩ | ⟨-, id, approvalId, eng, post, same, -⟩
  · simp [Thread.past, History.isRecorded]
  · cases same

/-- Calls for commits whose keys differ do not interfere: without the second, and at the same times,
the claim of the first comes to the same. -/
theorem undisturbed (fresh : Fresh c)
    (run : Transition.Run (Transition.Guarded (Step s) (Pair s i first j second)) c trace c')
    (other : i ≠ j) (names : commitOf first = some (repo, sha))
    (names' : commitOf second = some (repo', sha'))
    (different : Dedup.key repo sha ≠ Dedup.key repo' sha') :
    ∃ beside d, Transition.Run (Transition.Guarded (Step s) (Alone s i first)) c beside d ∧
      beside.filterMap (timed i) <+: trace.filterMap (timed i) ∧
      SameClaim (Dedup.key repo sha) (c'.threads i) (d.threads i) := by
  obtain ⟨beside, d, alone, made, apart⟩ := run_beside fresh run other names names' different
  refine ⟨beside, d, alone, made, ?_⟩
  rcases apart with ⟨level, -⟩ | parted
  · rw [level.thread]
    exact ⟨fun _ _ => Iff.rfl, Iff.rfl, rfl⟩
  · refine ⟨fun workflowId reason => ⟨fun ended => ?_, fun ended => ?_⟩,
      iff_of_true parted.won.1 parted.won.2, ?_⟩
    · have unrecorded := skipped_unrecorded (fun pair => pair.1) run fresh ended
      exact absurd (parted.recorded.1.symm.trans unrecorded) (by decide)
    · have unrecorded := skipped_unrecorded (fun alone => alone.1) alone fresh ended
      exact absurd (parted.recorded.2.symm.trans unrecorded) (by decide)
    · rw [parted.recorded.1, parted.recorded.2]

/-! ### Calls that meet -/

section
variable {i j : CallId} {first second : Json} {c c' : Pool} {e : RunEvent} {s : Settings}

theorem pair_plain (other : ∀ i p, e ≠ .spawn i p) : Pair s i first j second c e c' :=
  ⟨pipelines_other other, fun i p same => absurd same (other i p)⟩

theorem pair_first (role : i.role = .pipeline) :
    Pair s i first j second c (.spawn i (runCommitPipeline s first)) c' := by
  refine ⟨pipelines_spawn first role, fun l p same => ?_⟩
  cases same
  exact .inl ⟨rfl, rfl⟩

theorem pair_second (role : j.role = .pipeline) :
    Pair s i first j second c (.spawn j (runCommitPipeline s second)) c' := by
  refine ⟨pipelines_spawn second role, fun l p same => ?_⟩
  cases same
  exact .inr ⟨rfl, rfl⟩

theorem alone_first (role : i.role = .pipeline) :
    Alone s i first c (.spawn i (runCommitPipeline s first)) c' := by
  refine ⟨pipelines_spawn first role, fun l p same => ?_⟩
  cases same
  exact ⟨rfl, rfl⟩

end

/-- The second call claims before the first. -/
theorem undisturbed_both : ∃ beside d, Transition.Run
      (Transition.Guarded (Step (.defaults "/root")) (Alone (.defaults "/root")
        ⟨1, 1, .pipeline⟩ samplePayload))
      Pool.initial beside d ∧
    Won (d.threads ⟨1, 1, .pipeline⟩).past (slotOf "4c1d") := by
  have called := run_spawn (run_start (.defaults "/root")
      (Pair (.defaults "/root") ⟨1, 1, .pipeline⟩ samplePayload
        ⟨2, 1, .pipeline⟩ (payloadOf "9f02")) Pool.initial)
    ⟨2, 1, .pipeline⟩ (.commitPipeline (payloadOf "9f02")) rfl rfl rfl fun _ => pair_second rfl
  have claimed := run_call called
    ⟨2, 1, .pipeline⟩ ⟨.redis (.setNx (slotOf "9f02") Dedup.pending 3600), .ok true⟩ rfl
    ⟨_, rfl, rfl⟩ fun _ => pair_plain nofun
  have called' := run_spawn claimed ⟨1, 1, .pipeline⟩ (.commitPipeline samplePayload) rfl
    rfl rfl fun _ => pair_first rfl
  have free : (Redis.empty.set (slotOf "9f02") Dedup.pending (3600 * second)).live 0
      (slotOf "4c1d") = none :=
    Redis.live_other slots_differ
  have both := run_call called'
    ⟨1, 1, .pipeline⟩ ⟨.redis (.setNx (slotOf "4c1d") Dedup.pending 3600), .ok true⟩ rfl
    ⟨_, RedisCommand.setNx_free free (by decide), rfl⟩ fun _ => pair_plain nofun
  obtain ⟨beside, d, alone, -, same⟩ :=
    undisturbed fresh_initial both (by decide) rfl rfl slots_differ
  exact ⟨beside, d, alone, same.won.mp ⟨_, _, List.mem_singleton.mpr rfl⟩⟩

/-- The call has inserted a workflow under an id. -/
def Creates (h : History) (id : Nat) : Prop :=
  ∃ name chain logs, (⟨.session (.addWorkflow name chain logs), .ok id⟩ : Interaction calls) ∈ h

/-- Some run of two calls leads to such a state of the first. -/
def Together (first second : Json) (P : Thread calls Returned → Prop) : Prop :=
  ∃ trace c', Transition.Run (Transition.Guarded (Step (.defaults "/root"))
    (Pair (.defaults "/root") ⟨1, 1, .pipeline⟩ first ⟨2, 1, .pipeline⟩ second)) Pool.initial
      trace c' ∧
      P (c'.threads ⟨1, 1, .pipeline⟩)

/-- Some run of the first call by itself leads to such a state of it. -/
def ByItself (first : Json) (P : Thread calls Returned → Prop) : Prop :=
  ∃ trace c', Transition.Run (Transition.Guarded (Step (.defaults "/root"))
    (Alone (.defaults "/root") ⟨1, 1, .pipeline⟩ first)) Pool.initial trace c' ∧
      P (c'.threads ⟨1, 1, .pipeline⟩)

/-- The numbers of the rows come from one sequence: the first call creates workflow 2 if the second
inserts its own before, and workflow 1 if there is no second call. -/
theorem number_shared : Together samplePayload (payloadOf "9f02") (fun t => Creates t.past 2) ∧
    ByItself samplePayload (fun t => Creates t.past 1) := by
  have free : (World.initial.claimed ⟨2, 1, .pipeline⟩ "9f02").redis.live 0 (slotOf "4c1d") =
      none :=
    Redis.live_other slots_differ
  constructor
  · obtain ⟨_, -, before⟩ := run_entry (run_start (.defaults "/root")
        (Pair (.defaults "/root") ⟨1, 1, .pipeline⟩ samplePayload
          ⟨2, 1, .pipeline⟩ (payloadOf "9f02")) Pool.initial)
      ⟨2, 1, .pipeline⟩ (.commitPipeline (payloadOf "9f02")) (claimScript "9f02" 0 1)
        (plays_claim rfl) rfl rfl rfl
      (fun _ => pair_second rfl) fun _ _ _ _ _ => pair_plain nofun
    obtain ⟨_, -, after⟩ := run_entry before ⟨1, 1, .pipeline⟩ (.commitPipeline samplePayload)
      (claimScript "4c1d" 0 2) (plays_claim free) rfl rfl rfl
        (fun _ => pair_first rfl) fun _ _ _ _ _ => pair_plain nofun
    exact ⟨_, _, after, _, _, _,
      List.mem_cons_of_mem _ (List.mem_cons_of_mem _ (List.mem_singleton.mpr rfl))⟩
  · obtain ⟨_, -, only⟩ := run_entry (run_start (.defaults "/root")
        (Alone (.defaults "/root") ⟨1, 1, .pipeline⟩ samplePayload) Pool.initial)
      ⟨1, 1, .pipeline⟩ (.commitPipeline samplePayload) (claimScript "4c1d" 0 1)
        (plays_claim rfl) rfl rfl rfl
      (fun _ => alone_first rfl) fun _ _ _ _ _ => alone_plain nofun
    exact ⟨_, _, only, _, _, _,
      List.mem_cons_of_mem _ (List.mem_cons_of_mem _ (List.mem_singleton.mpr rfl))⟩

/-- The repository is the text `1`. -/
def textPayload : Json := .obj [("repo", .str "1"), ("sha", .str "4c1d")]

/-- The repository is the number `1`. -/
def numberPayload : Json := .obj [("repo", .int 1), ("sha", .str "4c1d")]

/-- The text and the number are formatted alike: the first call is skipped if the second claims
before, and wins if there is no second call. -/
theorem key_shared : Together textPayload numberPayload (fun t =>
      t.Ended (.ok (.skipped none "in_flight"))) ∧
    ByItself textPayload (fun t => Won t.past (Dedup.key (.str "1") (.str "4c1d"))) := by
  let k := Dedup.key (.str "1") (.str "4c1d")
  have held : (Redis.empty.set k Dedup.pending (3600 * second)).live 0 k = some Dedup.pending :=
    Redis.live_set (by decide)
  constructor
  · obtain ⟨_, -, before⟩ := run_entry (run_start (.defaults "/root")
        (Pair (.defaults "/root") ⟨1, 1, .pipeline⟩ textPayload ⟨2, 1, .pipeline⟩ numberPayload)
          Pool.initial)
      ⟨2, 1, .pipeline⟩ (.commitPipeline numberPayload)
      (wonScript (.int 1) (.str "4c1d")) (plays_won rfl) rfl rfl rfl
      (fun _ => pair_second rfl) fun _ _ _ _ _ => pair_plain nofun
    obtain ⟨_, -, after⟩ := run_entry before ⟨1, 1, .pipeline⟩ (.commitPipeline textPayload)
      (refusedScript (.str "1") (.str "4c1d") Dedup.pending) (plays_refused held) rfl rfl rfl
      (fun _ => pair_first rfl) fun _ _ _ _ _ => pair_plain nofun
    exact ⟨_, _, after, ⟨_, rfl⟩⟩
  · obtain ⟨_, -, only⟩ := run_entry (run_start (.defaults "/root")
        (Alone (.defaults "/root") ⟨1, 1, .pipeline⟩ textPayload) Pool.initial)
      ⟨1, 1, .pipeline⟩ (.commitPipeline textPayload)
      (wonScript (.str "1") (.str "4c1d")) (plays_won rfl) rfl rfl rfl
      (fun _ => alone_first rfl) fun _ _ _ _ _ => alone_plain nofun
    exact ⟨_, _, only, _, _, List.mem_singleton.mpr rfl⟩

/-- A second call for another commit changes the number that the first gives its row, and, where the
keys are the same, whether the first runs at all. -/
theorem disturbed : (Together samplePayload (payloadOf "9f02") (fun t => Creates t.past 2) ∧
      ByItself samplePayload fun t => Creates t.past 1) ∧
    Together textPayload numberPayload (fun t => t.Ended (.ok (.skipped none "in_flight"))) ∧
      ByItself textPayload fun t => Won t.past (Dedup.key (.str "1") (.str "4c1d")) :=
  ⟨number_shared, key_shared⟩

end WiseOrder.CommitPipeline
