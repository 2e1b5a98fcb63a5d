import WiseOrder.Orchestrator.Startup

/-! What `stop()` gets done. It awaits its children one after the other, and an exception
of one of them that no clause there catches ends it before the steps that follow. -/
namespace WiseOrder.Lifetime
open Coroutine Coroutine.Program
variable {around : Surroundings} {p q : Process} {c : Child}

/-- The exception, if any, that awaiting a task brings up when it ends in time. -/
def Surroundings.raises (around : Surroundings) (c : Child) : TaskState → Option PyException
  | .finished => none
  | .cancelled => some cancelledError
  | .failed e => some e
  | .running => match around.ending c with
      | .finishes | .lingers => none
      | .cancels => some cancelledError
      | .fails e => some e

/-- What awaiting a task brings up is caught. -/
def Surroundings.Quiet (around : Surroundings) (caught : PyException → Bool)
    (p : Process) (c : Child) : Prop :=
  ∀ state e, p.tasks c = some state → around.raises c state = some e → caught e = true

def catchesExit (e : PyException) : Bool := isTimeout e || isCancelled e

/-- The children end such that `stop()` gets through. -/
structure Surroundings.Settles (around : Surroundings) (p : Process) : Prop where
  api : around.Quiet isTimeout p .api
  background : ∀ c ∈ background, around.Quiet catchesExit p c
  jobs : ∀ id ∈ p.workers, around.Runs p id → (around.handling id).ending.isOk = true
  pops : ∀ id ∈ p.workers, ¬ around.Loses p id
  closing : p.redisOpen = true → around.closing.isOk = true

def stopped (around : Surroundings) (p : Process) : Except PyException Unit × Process :=
  (stop p).eval around.answer p

/-- `stop()` returns, every worker has come to its end, every job that was in hand or was popped
after the call has finished or is dead-lettered, and the client is closed. -/
structure Completes (around : Surroundings) (p : Process) : Prop where
  returns : (stopped around p).1 = .ok ()
  workers : ∀ id ∈ p.workers, (stopped around p).2.tasks (.worker id) ≠ some .running
  jobs : ∀ id ∈ p.workers, around.Runs p id ∨ around.Loses p id →
    (stopped around p).2.jobs id = some .finished ∨ (stopped around p).2.jobs id =
      some .deadLettered
  closed : (stopped around p).2.redisOpen = false

/-! ### Awaiting one task -/

/-- What waiting for tasks leaves of the rest. -/
structure Waited (cs : List Child) (p q : Process) : Prop where
  tasks : ∀ c, c ∉ cs → q.tasks c = p.tasks c
  jobs : q.jobs = p.jobs
  redisOpen : q.redisOpen = p.redisOpen

theorem Waited.refl (cs : List Child) (p : Process) : Waited cs p p := ⟨fun _ _ => rfl, rfl, rfl⟩

theorem Waited.trans {cs : List Child} {r : Process} (first : Waited [c] p q)
    (second : Waited cs q r) : Waited (c :: cs) p r where
  tasks d other := (second.tasks d fun member => other (List.mem_cons_of_mem _ member)).trans
    (first.tasks d fun member => other (List.mem_singleton.mp member ▸ List.mem_cons_self))
  jobs := second.jobs.trans first.jobs
  redisOpen := second.redisOpen.trans first.redisOpen

theorem waited_set (state : TaskState) : Waited [c] p (p.set c state) :=
  ⟨fun _ other => Function.update_of_ne (fun same => other (List.mem_singleton.mpr same)) _ _, rfl,
    rfl⟩

theorem quiet_same {caught : PyException → Bool} (same : q.tasks c = p.tasks c) :
    around.Quiet caught q c ↔ around.Quiet caught p c := by
  unfold Surroundings.Quiet
  rw [same]

theorem waitFor_ends (around : Surroundings) (c : Child) (state : TaskState) :
    (∃ e, around.raises c state = some e ∧ (around.waitFor c state).1 = .error e) ∨
      around.raises c state = none ∧ ((around.waitFor c state).1 = .ok () ∨
        (around.waitFor c state).1 = .error timeoutError) := by
  cases state with
  | finished => exact .inr ⟨rfl, .inl rfl⟩
  | cancelled => exact .inl ⟨_, rfl, rfl⟩
  | failed e => exact .inl ⟨e, rfl, rfl⟩
  | running =>
      cases ending : around.ending c <;> simp [Surroundings.raises, Surroundings.waitFor, ending]

/-- The wait of `stop()` for a task, with what it catches there and what it does then. -/
def waitThen (c : Child) (timeout : Nat) (caught : PyException → Bool) (handler : Life Unit) :
    Life Unit :=
  (await (.waitFor c timeout)).catching caught fun _ => handler

theorem eval_waitThen {caught : PyException → Bool} {handler : Life Unit}
    {timeout : Nat} {state : TaskState} (there : p.tasks c = some state)
    (handles : ∀ q, handler.eval around.answer q = (.ok (), q)) :
    (waitThen c timeout caught handler).eval around.answer p =
      (match (around.waitFor c state).1 with
        | .ok _ => .ok ()
        | .error e =>
            if caught e then .ok () else .error e, p.set c (around.waitFor c state).2) := by
  have waits : @eval processCalls Process Unit around.answer (await (.waitFor c timeout)) p =
      ((around.waitFor c state).1, p.set c (around.waitFor c state).2) := by
    change around.answer (.waitFor c timeout) p = _
    simp only [Surroundings.answer, there]
    rfl
  cases ends : (around.waitFor c state).1 with
  | ok _ => exact eval_catching_ok (waits.trans (by rw [ends]))
  | error e =>
      refine (eval_catching_error (waits.trans (by rw [ends]))).trans ?_
      dsimp only
      split
      · exact handles _
      · rfl

/-- Waiting for a task that is there, or passing over one that is not, returns just if what it
brings up is caught. -/
theorem waits_iff (around : Surroundings) (p : Process) {c : Child} (timeout : Nat)
    (caught : PyException → Bool) (handler : Life Unit) (times : caught timeoutError = true)
    (handles : ∀ q, handler.eval around.answer q = (.ok (), q)) {self : Process}
    (same : self.tasks c = p.tasks c) :
    let left := (onlyIf (self.tasks c).isSome (waitThen c timeout caught handler)).eval
      around.answer p
    (left.1 = .ok () ↔ around.Quiet caught p c) ∧ Waited [c] p left.2 := by
  rw [same]
  unfold onlyIf
  cases there : p.tasks c with
  | none =>
      refine ⟨⟨fun _ state e present => ?_, fun _ => rfl⟩, .refl _ p⟩
      rw [there] at present
      contradiction
  | some state =>
      simp only [Option.isSome_some, if_true]
      rw [eval_waitThen there handles]
      refine ⟨?_, waited_set _⟩
      have quiet : around.Quiet caught p c ↔ ∀ e, around.raises c state =
          some e → caught e = true := by
        constructor
        · exact fun quiet e raised => quiet state e there raised
        · rintro quiet state' e present raised
          rw [there] at present
          cases present
          exact quiet e raised
      rw [quiet]
      rcases waitFor_ends around c state with ⟨e, raised, ends⟩ | ⟨none, ends | ends⟩
      · simp [raised, ends]
      · simp [none, ends]
      · simp [none, ends, times]

/-! ### The steps of `stop()` -/

theorem eval_onlyIf {there : Bool} {m : Life Unit}
    (does : there = true → m.eval around.answer p = (.ok (), q))
    (idle : there = false → p = q) : (onlyIf there m).eval around.answer p = (.ok (), q) := by
  cases there with
  | true => exact does rfl
  | false =>
      rw [← idle rfl]
      rfl

theorem eval_cancelAll (self : Process) (cs : List Child) :
    (cancelAll self cs).eval around.answer q = (.ok (), q) := by
  induction cs with
  | nil => rfl
  | cons c cs ih => exact (eval_bind_ok (eval_onlyIf (fun _ => rfl) fun _ => rfl)).trans ih

theorem eval_tellAll : (tellAll p).eval around.answer p =
    (.ok (), { p with stopping := true, observing := false }) := by
  have observes : (onlyIf p.observing (await .stopEventWatcher)).eval around.answer
    { p with stopping := true } =
      (.ok (), { p with stopping := true, observing := false }) :=
    eval_onlyIf (fun _ => rfl) fun none => by rw [none]
  refine (eval_bind_ok rfl).trans ((eval_bind_ok observes).trans ?_)
  refine (eval_bind_ok (eval_onlyIf (fun _ => rfl) fun _ => rfl)).trans ?_
  refine (eval_bind_ok (eval_onlyIf (fun _ => rfl) fun _ => rfl)).trans ?_
  exact (eval_bind_ok (eval_cancelAll _ _)).trans (eval_onlyIf (fun _ => rfl) fun _ => rfl)

/-- Awaiting several tasks returns just if what each of them brings up is caught. -/
theorem awaits_iff (around : Surroundings) {self : Process} {cs : List Child} (once : cs.Nodup)
    (same : ∀ c ∈ cs, self.tasks c = p.tasks c) :
    (((awaitAll self cs).eval around.answer p).1 = .ok () ↔ ∀ c ∈ cs,
      around.Quiet catchesExit p c) ∧
      Waited cs p ((awaitAll self cs).eval around.answer p).2 := by
  induction cs generalizing p with
  | nil => exact ⟨⟨fun _ c member => absurd member List.not_mem_nil, fun _ => rfl⟩, .refl _ p⟩
  | cons c cs ih =>
      obtain ⟨other, once⟩ := List.nodup_cons.mp once
      obtain ⟨returns, waited⟩ := waits_iff around p 3 catchesExit (pure ()) rfl
        (fun _ => rfl) (same c List.mem_cons_self)
      generalize ends : (onlyIf (self.tasks c).isSome (waitThen c 3 catchesExit (pure ()))).eval
        around.answer p = left
        at returns waited
      obtain ⟨result, q⟩ := left
      have apart : ∀ d ∈ cs, q.tasks d = p.tasks d := by
        intro d member
        exact waited.tasks d fun here => other (List.mem_singleton.mp here ▸ member)
      cases result with
      | ok _ =>
          have whole : (awaitAll self (c :: cs)).eval around.answer p =
            (awaitAll self cs).eval around.answer q := eval_bind_ok ends
          obtain ⟨later, rest⟩ := ih once fun d member =>
            (same d (List.mem_cons_of_mem _ member)).trans (apart d member).symm
          rw [whole, later, List.forall_mem_cons]
          refine ⟨⟨fun quiet => ⟨returns.mp rfl, fun d member =>
            (quiet_same (apart d member)).mp (quiet d member)⟩,
            fun quiet d member => (quiet_same (apart d member)).mpr (quiet.2 d member)⟩,
              waited.trans rest⟩
      | error e =>
          have whole : (awaitAll self (c :: cs)).eval around.answer p = (.error e, q) :=
            eval_bind_error ends
          rw [whole]
          refine ⟨⟨nofun, fun quiet => ?_⟩, waited.trans (.refl cs q)⟩
          have returned := returns.mpr (quiet c List.mem_cons_self)
          contradiction

/-- What `stop()` does once the workers have ended. -/
def finish (self : Process) : Life Unit := do
  awaitAll self background
  await .closeRedis

theorem finish_iff (around : Surroundings) {self : Process}
    (same : ∀ c ∈ background, self.tasks c = p.tasks c) :
    (((finish self).eval around.answer p).1 = .ok () ↔
      (∀ c ∈ background, around.Quiet catchesExit p c) ∧
      (p.redisOpen = true → around.closing.isOk = true)) ∧
    (((finish self).eval around.answer p).1 = .ok () →
      ((finish self).eval around.answer p).2.redisOpen = false) ∧
    (∀ id, ((finish self).eval around.answer p).2.tasks (.worker id) = p.tasks (.worker id)) ∧
    ((finish self).eval around.answer p).2.jobs = p.jobs := by
  obtain ⟨returns, waited⟩ := awaits_iff around (by decide : background.Nodup) same
  have workers (id : Nat) : Child.worker id ∉ background := by simp [background]
  generalize ends : (awaitAll self background).eval around.answer p = left at returns waited
  obtain ⟨result, q⟩ := left
  cases result with
  | error e =>
      have whole : (finish self).eval around.answer p = (.error e, q) := eval_bind_error ends
      rw [whole]
      refine ⟨⟨nofun, fun ⟨quiet, _⟩ => ?_⟩, nofun, fun id => waited.tasks _ (workers id),
        waited.jobs⟩
      have returned := returns.mpr quiet
      contradiction
  | ok _ =>
      have whole : (finish self).eval around.answer p = around.answer .closeRedis q :=
        eval_bind_ok ends
      rw [whole, ← returns, ← waited.redisOpen]
      cases opened : q.redisOpen with
      | false =>
          simp only [Surroundings.answer, opened, Bool.false_eq_true, if_false]
          exact ⟨⟨fun _ => ⟨trivial, nofun⟩, fun _ => rfl⟩, fun _ => trivial, fun id =>
            waited.tasks _ (workers id), waited.jobs⟩
      | true =>
          simp only [Surroundings.answer, opened, if_true]
          refine ⟨?_, ?_, fun id => waited.tasks _ (workers id), waited.jobs⟩
          · cases around.closing <;> simp [Except.isOk, Except.toBool]
          · intro closed
            rw [closed]
            rfl

/-- The workers have ended. -/
structure Gathered (around : Surroundings) (p q : Process) : Prop where
  background : ∀ c ∈ background, q.tasks c = p.tasks c
  ended : ∀ id ∈ p.workers, q.tasks (.worker id) ≠ some .running
  jobs : ∀ id ∈ p.workers, q.jobs id = around.jobEnd p id
  redisOpen : q.redisOpen = p.redisOpen

theorem gather_gathers (waited : Waited [.api] p q) :
    Gathered around p (around.gather p.workers q) where
  background := by
    intro c member
    have same :=
      waited.tasks c
      (by rintro here; rw [List.mem_singleton.mp here] at member; revert member; decide)
    cases c with
    | worker id => simp [background] at member
    | _ => exact same
  ended := by
    intro id member
    simp only [Surroundings.gather, member, true_and]
    split
    · unfold Surroundings.workerEnd
      split
      · split <;> simp
      · simp
    · assumption
  jobs := by
    intro id member
    have running : q.tasks (.worker id) = p.tasks (.worker id) := waited.tasks _ (by simp)
    have runs : around.Runs q id ↔
      around.Runs p id := by simp only [Surroundings.Runs, waited.jobs, running]
    have loses : around.Loses q id ↔
      around.Loses p id := by simp only [Surroundings.Loses, waited.jobs, running]
    simp only [Surroundings.gather, member, if_true, Surroundings.jobEnd, runs, loses, waited.jobs]
  redisOpen := waited.redisOpen

theorem gather_nil (q : Process) : around.gather [] q = q := by
  simp only [Surroundings.gather, List.not_mem_nil, false_and, if_false]
  congr 1
  funext c
  cases c <;> rfl

/-- `stop()` gets past the API, or ends there. -/
theorem stopped_api (around : Surroundings) (p : Process) :
    (around.Quiet isTimeout p .api ∧ ∃ q, Gathered around p q ∧
      stopped around p = (finish p).eval around.answer q) ∨
    ¬ around.Quiet isTimeout p .api ∧ ∃ e q, stopped around p = (.error e, q) := by
  have told : (tellAll p).eval around.answer p =
    (.ok (), { p with stopping := true, observing := false }) := eval_tellAll
  obtain ⟨returns, waited⟩ := @waits_iff around { p with stopping := true, observing := false } .api
    5 isTimeout (await (.cancel .api))
    rfl (fun _ => rfl) p rfl
  generalize ends : (onlyIf (p.tasks .api).isSome
    (waitThen .api 5 isTimeout (await (.cancel .api)))).eval around.answer
    { p with stopping := true, observing := false } = left at returns waited
  obtain ⟨result, q⟩ := left
  have kept : Waited [.api] p q := ⟨waited.tasks, waited.jobs, waited.redisOpen⟩
  have returns : result = .ok () ↔ around.Quiet isTimeout p .api := returns
  cases result with
  | error e =>
      refine .inr ⟨fun quiet => ?_, e, q, (eval_bind_ok told).trans (eval_bind_error ends)⟩
      have returned := returns.mpr quiet
      contradiction
  | ok _ =>
      refine .inl ⟨returns.mp rfl, around.gather p.workers q, gather_gathers kept, ?_⟩
      refine (eval_bind_ok told).trans
        ((eval_bind_ok ends).trans (eval_bind_ok (eval_onlyIf (fun _ => rfl) fun none => ?_)))
      have none : p.workers = [] := by simpa using none
      rw [none, gather_nil]

theorem fate_kept (h : Handling) : (h.fate = .finished ∨ h.fate = .deadLettered) ↔ h.ending.isOk =
      true := by
  unfold Handling.fate
  cases h.ending with
  | error e => simp [Except.isOk, Except.toBool]
  | ok _ => cases h.handler <;> simp [Except.isOk, Except.toBool]

theorem jobEnd_runs {id : Nat} (runs : around.Runs p id) :
    around.jobEnd p id = some (around.handling id).fate := if_pos runs

theorem jobEnd_loses {id : Nat} (loses : around.Loses p id) : around.jobEnd p id = some .lost := by
  have idle : ¬ around.Runs p id := by
    rintro (held | ⟨-, job⟩)
    · exact loses.1 held
    · cases loses.2.2.symm.trans job
  rw [Surroundings.jobEnd, if_neg idle, if_pos loses]

/-- `_run_job` ends as its handler and the dead-lettering make it. -/
theorem runJob_ending {W : Type} {answer : Answers calls W} {w w' : W} {registered : List String}
    {job : Job} {name : String} {h : Handling}
    (found : Orchestrator.handlerOf registered job.type = .ok (some name))
    (handles : answer (.handler name job.payload) w = (h.handler, w))
    (fails : ∀ e, (RedisQueue.fail job e).eval answer w = (h.fail, w')) :
    ((Orchestrator.runJob registered job).eval answer w).1 = h.ending := by
  unfold Orchestrator.runJob Handling.ending
  rw [found]
  change ((tryExcept _ _).eval answer w).1 = _
  have answered : (WiseOrder.await (.handler name job.payload)).eval answer w = (h.handler, w) :=
    handles
  cases handled : h.handler with
  | ok result =>
      rw [handled] at answered
      exact congrArg Prod.fst (eval_catching_ok (eval_bind_ok answered))
  | error e =>
      rw [handled] at answered
      refine (congrArg Prod.fst (eval_catching_error (eval_bind_error answered))).trans ?_
      dsimp only
      split
      · rw [fails]
      · rfl

/-- `stop()` gets everything done just if its children end so that it settles. -/
theorem stop_completes : Completes around p ↔ around.Settles p := by
  rcases stopped_api around p with ⟨api, q, gathered, goes⟩ | ⟨loud, e, q, goes⟩
  · obtain ⟨returns, closed, workers, jobs⟩ := @finish_iff q around p fun c member =>
      (gathered.background c member).symm
    have background : (∀ c ∈ background, around.Quiet catchesExit q c) ↔
        ∀ c ∈ background, around.Quiet catchesExit p c :=
      forall₂_congr fun c member => quiet_same (gathered.background c member)
    rw [background, gathered.redisOpen] at returns
    constructor
    · rintro ⟨returned, -, kept, -⟩
      rw [goes] at returned kept
      obtain ⟨quiet, closes⟩ := returns.mp returned
      refine ⟨api, quiet, fun id member runs => ?_, fun id member loses => ?_, closes⟩
      · have fate := kept id member (.inl runs)
        rw [jobs, gathered.jobs id member, jobEnd_runs runs] at fate
        exact (fate_kept _).mp (by simpa using fate)
      · have fate := kept id member (.inr loses)
        rw [jobs, gathered.jobs id member, jobEnd_loses loses] at fate
        simp at fate
    · intro settles
      have returned := returns.mpr ⟨settles.background, settles.closing⟩
      refine ⟨by rw [goes]; exact returned, fun id member => ?_, fun id member takes =>
        ?_, by rw [goes]; exact closed returned⟩
      · rw [goes, workers]
        exact gathered.ended id member
      · have runs := takes.resolve_right (settles.pops id member)
        rw [goes, jobs, gathered.jobs id member, jobEnd_runs runs]
        simpa using (fate_kept _).mpr (settles.jobs id member runs)
  · refine ⟨fun completes => ?_, fun settles => absurd settles.api loud⟩
    have returned := completes.returns
    rw [goes] at returned
    contradiction

/-- A process whose API refused to bind, with a worker in the middle of a job. -/
def unbound : Process where
  tasks := fun c => match c with
    | .worker 0 | .integrityWatcher | .ciWatcher | .dailySummary => some .running
    | .api => some (.failed (.runtimeError "refusing to bind API"))
    | _ => none
  observing := true
  apiServer := false
  stopping := false
  workers := [0]
  jobs := fun id => if id = 0 then some .inHand else none
  redisOpen := true

/-- Everything else would have gone well, but the worker is left with its job and the client stays
open. -/
theorem stop_abandons : ¬ Completes calm unbound ∧
    (stopped calm unbound).1 = .error (.runtimeError "refusing to bind API") ∧
    (stopped calm unbound).2.tasks (.worker 0) = some .running ∧ (stopped calm unbound).2.jobs 0 =
      some .inHand ∧ (stopped calm unbound).2.redisOpen = true := by
  refine ⟨fun completes => ?_, rfl, rfl, rfl, rfl⟩
  have returned : (stopped calm unbound).1 = .ok () := completes.returns
  cases returned

end WiseOrder.Lifetime
