import WiseOrder.Orchestrator.Lifetime
import WiseOrder.Workflows.SummaryRuns

/-! The scheduler of the daily summary, beside the requests for one. A turn of its loop
sleeps until the target hour comes next, and runs the summary then. -/
namespace WiseOrder.SummarySchedule
open DailySummary Coroutine Coroutine.Program Relational
variable {hour : Int} {logDir : String} {now fire t F : Time}

/-! ### Time -/

def day : Time := 86400 * second

/-- `now.replace(hour=target_hour, minute=0, second=0, microsecond=0)` -/
def replaceHour (now : Time) (hour : Int) : Except PyException Time :=
  if 0 ≤ hour ∧ hour < 24 then .ok (now - now % day + hour * (3600 * second))
  else .error (.valueError "hour must be in 0..23")

/-- The next firing: today at the target hour, or tomorrow if past. -/
def nextFire (hour : Int) (now : Time) : Except PyException Time := do
  let fire ← replaceHour now hour
  return if fire ≤ now then fire + day else fire

/-- An instant at which the target hour begins. -/
def Target (hour : Int) (t : Time) : Prop := t % day = hour * (3600 * second)

theorem valid_of_nextFire (fires : nextFire hour now = .ok fire) : 0 ≤ hour ∧ hour < 24 := by
  by_contra invalid
  unfold nextFire replaceHour at fires
  rw [if_neg invalid] at fires
  contradiction

/-- The next firing is the first target instant after now, and at most a day ahead. -/
theorem nextFire_spec (fires : nextFire hour now = .ok fire) :
    now < fire ∧ fire ≤ now + day ∧ Target hour fire := by
  have valid := valid_of_nextFire fires
  unfold nextFire replaceHour at fires
  rw [if_pos valid] at fires
  have same := Except.ok.inj fires
  unfold Target day second Time at *
  split at same <;> omega

theorem nextFire_first (fires : nextFire hour now = .ok fire) (target : Target hour F)
    (later : now < F) : fire ≤ F := by
  obtain ⟨-, within, aimed⟩ := nextFire_spec fires
  unfold Target day second Time at *
  omega

/-! ### The loop -/

inductive OfficeCall where
  | service (c : ServiceCall)
  | sleep (duration : Time)

def OfficeCall.Reply : OfficeCall → Type
  | .service c => c.Reply
  | .sleep _ => Unit

abbrev officeCalls : Signature := ⟨OfficeCall, OfficeCall.Reply, PyException⟩

abbrev Office := Program officeCalls

/-- A coroutine of the services. -/
def Office.service (m : Service α) : Office α :=
  @Program.embed serviceCalls α α officeCalls OfficeCall.service
    (fun _ reply => reply) (fun result => result) m

/-- `asyncio.sleep` -/
def Office.sleep (duration : Time) : Office Unit := @Program.call officeCalls (.sleep duration)

/-- What a request returns, and how a turn of the scheduler ends: with a run behind it, or for
good. -/
inductive Outcome where
  | summary (result : Json)
  | ran (result : Except PyException Json)
  | cancelled

/-- A turn of `schedule_daily_summary`; a run that raises is only logged. -/
def schedulePass (logDir : String) (hour : Int) : Office Outcome := do
  let now : Time ← Office.service (Service.run utcnow)
  let fire ← Program.ofExcept (nextFire hour now)
  let slept ← (do
      Office.sleep (fire - now)
      return true : Office Bool).catching Lifetime.isCancelled fun _ => return false
  if slept then
    (do
      let summary ← Office.service (runDailySummary logDir)
      return .ran (.ok summary) : Office Outcome).catching PyException.isException fun e =>
        return .ran (.error e)
  else return .cancelled

/-- `POST /summary/run-now` -/
def runSummaryNow (logDir : String) : Office Outcome := do
  let summary ← Office.service (runDailySummary logDir)
  return .summary summary

/-! ### What its threads do -/

abbrev OfficeHistory := List (Interaction officeCalls)

def service? : Interaction officeCalls → Option (Interaction serviceCalls)
  | ⟨.service c, reply⟩ => some ⟨c, reply⟩
  | ⟨.sleep _, _⟩ => none

/-- A turn that has read the clock and slept until it fires. -/
def Slept (hour : Int) (h : OfficeHistory) (fire : Time) : Prop :=
  ∃ now rest, nextFire hour now = .ok fire ∧ h = ⟨.service (.run .now), .ok now⟩ ::
    ⟨.sleep (fire - now), .ok ()⟩ :: rest

/-- The part of a history that is a run of the summary. -/
def runPart (i : CallId) (h : OfficeHistory) : List (Interaction serviceCalls) :=
  (if i.role = .worker then h.drop 2 else h).filterMap service?

variable {i : CallId} {h more : OfficeHistory} {seen : List (Interaction serviceCalls)}

theorem Slept.grows (slept : Slept hour h fire) : Slept hour (h ++ more) fire := by
  obtain ⟨now, rest, fires, rfl⟩ := slept
  exact ⟨now, rest ++ more, fires, rfl⟩

theorem runPart_append (slept : i.role = .worker → ∃ fire, Slept hour h fire) :
    runPart i (h ++ more) = runPart i h ++ more.filterMap service? := by
  unfold runPart
  split
  · obtain ⟨fire, now, rest, -, rfl⟩ := slept ‹_›
    simp
  · exact List.filterMap_append

/-- A turn reads the clock, sleeps for as long as that says, and goes through a run; a request is a
run. -/
def officeAllowed (hour : Int) (i : CallId) (h : OfficeHistory) (c : OfficeCall) : Prop :=
  match c with
  | .service (.run .now) =>
      i.role = .worker ∧ h = [] ∨ (i.role = .worker → ∃ fire, Slept hour h fire) ∧ runPart i h = []
  | .service c => (i.role = .worker → ∃ fire, Slept hour h fire) ∧ runAllowed (runPart i h) c
  | .sleep duration => i.role = .worker ∧ ∃ now fire, nextFire hour now = .ok fire ∧
      h = [⟨.service (.run .now), .ok now⟩] ∧ duration = fire - now

def officeProtocol (hour : Int) (i : CallId) : Protocol officeCalls Unit :=
  ⟨fun h c _ => officeAllowed hour i h c, fun _ _ _ _ => True⟩

/-- A turn whose run has returned has written a summary, or found the one of its date. -/
def officeEnds (hour : Int) (i : CallId) : Post officeCalls Unit Outcome :=
  ending (fun outcome h _ => ∀ j, outcome = .ran (.ok j) → (∃ fire, Slept hour h fire) ∧
    ∃ now existing,
    Looked (runPart i h) now existing ∧ (Wrote (runPart i h) ∨ ∃ m, existing = some m ∧
      Dated (dateOf now) m.2)) fun _ _ _ => True

/-- The history of a thread that is in a run, and the run's own. -/
def InRun (hour : Int) (i : CallId) (wide : OfficeHistory)
    (seen : List (Interaction serviceCalls)) : Prop :=
  (i.role = .worker → ∃ fire, Slept hour wide fire) ∧ runPart i wide = seen

theorem InRun.grows (c : ServiceCall) (reply : Except PyException c.Reply)
    (inRun : InRun hour i h seen) :
    InRun hour i (h ++ [⟨.service c, reply⟩]) (seen ++ [⟨c, reply⟩]) := by
  obtain ⟨slept, rfl⟩ := inRun
  refine ⟨fun worker => ?_, runPart_append slept⟩
  obtain ⟨fire, slept⟩ := slept worker
  exact ⟨fire, slept.grows⟩

theorem InRun.admits {c : ServiceCall} (inRun : InRun hour i h seen) (allowed : runAllowed seen c) :
    officeAllowed hour i h (.service c) := by
  obtain ⟨slept, rfl⟩ := inRun
  unfold officeAllowed
  split
  · rename_i same
    cases same
    exact .inr ⟨slept, allowed⟩
  · rename_i same
    cases same
    exact ⟨slept, allowed⟩
  · contradiction

/-- A run that is begun in a thread obeys there. -/
theorem obeys_service (inRun : InRun hour i h []) :
    (Office.service (runDailySummary logDir)).Obeys (officeProtocol hour i)
    (fun result h _ => ∃ seen, InRun hour i h seen ∧ runEnds result seen ()) h () := by
  have inner : (Office.service (runDailySummary logDir)).Obeys (officeProtocol hour i)
      (fun result h _ =>
      ∃ inner seen, result = inner ∧ InRun hour i h seen ∧ runEnds inner seen ()) h () :=
    obeys_embed (fun (c : ServiceCall) (reply : Except PyException c.Reply) inRun =>
      inRun.grows c reply)
      (fun c view inRun allowed => inRun.admits allowed) (fun _ => trivial) inRun obeys_run
  refine inner.mono ?_
  rintro result h _ ⟨_, seen, rfl, inRun, ends⟩
  exact ⟨seen, inRun, ends⟩

theorem obeys_runSummaryNow (visitor : i.role = .visitor) :
    (runSummaryNow logDir).Obeys (officeProtocol hour i) (officeEnds hour i) [] () := by
  have begun : InRun hour i [] [] := by
    refine ⟨fun worker => ?_, ?_⟩
    · rw [visitor] at worker
      contradiction
    · simp [runPart, visitor]
  exact obeys_bind (obeys_service begun) (fun j h _ _ =>
    fun j' same => by cases same) fun _ _ _ _ => trivial

/-- A turn that has slept goes through a run. -/
theorem obeys_woken (worker : i.role = .worker) (slept : Slept hour h fire)
    (run : runPart i h = []) : ((do
    let summary ← Office.service (runDailySummary logDir)
    return .ran (.ok summary) : Office Outcome).catching PyException.isException fun e =>
      return .ran (.error e)).Obeys
      (officeProtocol hour i) (officeEnds hour i) h () := by
  have body : (do
      let summary ← Office.service (runDailySummary logDir)
      return .ran (.ok summary) : Office Outcome).Obeys (officeProtocol hour i)
        (ending (fun outcome => officeEnds hour i (.ok outcome)) fun _ _ _ => True) h () := by
    refine obeys_bind (obeys_service ⟨fun _ => ⟨fire, slept⟩, run⟩) ?_ fun _ _ _ _ => trivial
    rintro j h' _ ⟨_, ⟨woken, rfl⟩, now, existing, looked, left⟩ _ _
    refine ⟨woken worker, now, existing, looked, ?_⟩
    rcases left with wrote | ⟨m, found, dated, -⟩
    · exact .inl wrote
    · exact .inr ⟨m, found, dated⟩
  exact obeys_catching body (fun _ _ _ ends => ends) (fun e seen _ _ _ =>
    fun j same => by cases same) fun _ _ _ _ _ => trivial

/-- A turn sleeps until it fires, if it is not cancelled in its sleep. -/
theorem obeys_sleep (worker : i.role = .worker) (fires : nextFire hour now = .ok fire) : ((do
    Office.sleep (fire - now)
    return true : Office Bool).catching Lifetime.isCancelled fun _ =>
      return false).Obeys (officeProtocol hour i)
      (ending (fun slept h _ => slept = true → Slept hour h fire ∧ runPart i h = []) fun _ _ _ =>
        True)
      [⟨.service (.run .now), .ok now⟩] () := by
  have body : (do
      Office.sleep (fire - now)
      return true : Office Bool).Obeys (officeProtocol hour i)
        (ending (fun _ h _ => Slept hour h fire ∧ runPart i h = []) fun _ _ _ =>
            True) [⟨.service (.run .now), .ok now⟩] () := by
    refine ⟨⟨worker, now, fire, fires, rfl, rfl⟩, fun reply _ _ => ?_⟩
    cases reply with
    | error e => trivial
    | ok x => exact ⟨⟨now, [], fires, rfl⟩, by simp [runPart, worker]⟩
  exact obeys_catching body (fun _ _ _ woken _ => woken) (fun e seen _ _ _ =>
    fun slept => by contradiction) fun _ _ _ _ _ => trivial

theorem obeys_schedulePass (worker : i.role = .worker) :
    (schedulePass logDir hour).Obeys (officeProtocol hour i) (officeEnds hour i) [] () := by
  have begun : (Office.service (Service.run utcnow)).Obeys (officeProtocol hour i)
      (ending (fun now h _ => h = [⟨.service (.run .now), .ok now⟩]) fun _ _ _ => True) [] () := by
    refine ⟨.inl ⟨worker, rfl⟩, fun reply _ _ => ?_⟩
    cases reply <;> trivial
  apply obeys_bind begun
  · rintro now _ _ rfl
    cases fires : nextFire hour now with
    | error e => trivial
    | ok fire =>
        apply obeys_bind (obeys_sleep worker fires)
        · rintro slept h _ woken
          cases slept with
          | false => exact fun j same => by cases same
          | true => exact obeys_woken worker (woken rfl).1 (woken rfl).2
        · exact fun _ _ _ _ => trivial
  · exact fun _ _ _ _ => trivial

/-! ### The pool -/

/-- The turns of the scheduler, in their order. -/
def pass (n : Nat) : CallId := ⟨0, n, .worker⟩

abbrev OfficePool := Config CallId Host officeCalls Outcome

abbrev OfficeEvent := Event CallId Host officeCalls Outcome

/-- The first turn begins, or one whose run is over is followed by the next. -/
def Turns (c : OfficePool) (n : Nat) : Prop :=
  n = 0 ∨ ∃ m h result, n = m + 1 ∧ c.threads (pass m) = .active h (.done (.ok (.ran result)))

def performOffice (i : CallId) (c : OfficeCall) (host : Host) (reply : Except PyException c.Reply)
    (host' : Host) : Prop :=
  match c with
  | .service c => host.perform i c reply host'
  | .sleep _ => host' = host

/-- The scheduler, any number of requests, and whatever else goes on. -/
def office (logDir : String) (hour : Int) : Machine CallId Host officeCalls Outcome where
  spawn := fun c i p => i.role = .visitor ∧ p = runSummaryNow logDir ∨ ∃ n, i = pass n ∧ Turns c n ∧
    p = schedulePass logDir hour
  perform := fun i c host reply host' => performOffice i c host reply host'
  again := fun _ _ _ _ => False
  drift := Elsewhere
  crash := fun host _ host' => host' = host

theorem office_obeys {c c' : OfficePool} {e : OfficeEvent}
    (obeys : c.Obeys (officeProtocol hour) (officeEnds hour) fun _ _ => ())
    (step : (office logDir hour).Step c e c') :
    c'.Obeys (officeProtocol hour) (officeEnds hour) fun _ _ => () := by
  refine step.obeys ⟨fun _ _ => trivial⟩ ?_ ?_ (fun _ _ _ _ _ ready => ready) obeys
  · rintro i p rfl
    cases step with
    | spawn unused entry =>
        rcases entry with ⟨visitor, rfl⟩ | ⟨n, rfl, -, rfl⟩
        · exact obeys_runSummaryNow visitor
        · exact obeys_schedulePass rfl
  · rintro i p seen a rfl - -
    cases step with
    | again returned next => exact next.elim

end WiseOrder.SummarySchedule
