import WiseOrder.Workflows.SummarySchedule

/-! The turns of the scheduler of the daily summary. Each sleeps until the target hour that
comes next after its predecessor's look at the clock, and looks at the clock itself when it
wakes up, which may be later by as much as it is given. -/
namespace WiseOrder.SummarySchedule
open DailySummary Coroutine Coroutine.Program Relational
variable {hour : Int} {logDir : String} {late : Nat} {now fire since clock a f : Time}
    {existing : Option (Nat × Memory)}
  {i : CallId} {n m : Nat}
  {c c' : OfficePool} {e : OfficeEvent} {h : OfficeHistory} {x : Interaction officeCalls}

/-! ### One step -/

/-- The run of a thread. -/
abbrev runOf (c : OfficePool) (i : CallId) : List (Interaction serviceCalls) :=
  runPart i (c.threads i).past

theorem own_step (step : (office logDir hour).Step c e c') (i : CallId) :
    (c'.threads i).past = (c.threads i).past ∨ ∃ x, e = .call i x c.world ∧ (c'.threads i).past =
    (c.threads i).past ++ [x] := by
  rw [step.past i]
  cases own : e.own i with
  | none => exact .inl (List.append_nil _)
  | some x =>
      obtain ⟨before, rfl⟩ := Event.mem_own.mp (by rw [own]; exact List.mem_singleton.mpr rfl)
      cases step
      exact .inr ⟨_, rfl, rfl⟩

theorem runPart_snoc (i : CallId) (h : OfficeHistory) (x : Interaction officeCalls) :
    runPart i (h ++ [x]) = runPart i h ∨ ∃ y : Interaction serviceCalls, x =
      ⟨.service y.call, y.reply⟩ ∧ runPart i (h ++ [x]) = runPart i h ++ [y] := by
  have mapped (h : OfficeHistory) : (h ++ [x]).filterMap service? = h.filterMap service? ∨
      ∃ y : Interaction serviceCalls, x = ⟨.service y.call, y.reply⟩ ∧
          (h ++ [x]).filterMap service? = h.filterMap service? ++ [y] := by
    obtain ⟨call, reply⟩ := x
    cases call with
    | service c => exact .inr ⟨⟨c, reply⟩, rfl, by simp [service?]⟩
    | sleep duration => exact .inl (by simp [service?])
  unfold runPart
  split
  · by_cases short : 2 ≤ h.length
    · rw [List.drop_append_of_le_length short]
      exact mapped _
    · left
      rw [List.drop_eq_nil_of_le (by simp; omega), List.drop_eq_nil_of_le (by omega)]
  · exact mapped h

theorem run_step (step : (office logDir hour).Step c e c') (i : CallId) :
    runOf c' i = runOf c i ∨ ∃ y : Interaction serviceCalls, e =
      .call i ⟨.service y.call, y.reply⟩ c.world ∧ runOf c' i = runOf c i ++ [y] := by
  rcases own_step step i with same | ⟨x, rfl, grown⟩
  · exact .inl (by rw [runOf, same])
  · rcases runPart_snoc i (c.threads i).past x with same | ⟨y, rfl, longer⟩
    · exact .inl (by rw [runOf, grown, same])
    · exact .inr ⟨y, rfl, by rw [runOf, grown, longer]⟩

theorem runPart_service {s : ServiceCall} {reply : Except PyException s.Reply}
    (some : runPart i h ≠ []) : runPart i (h ++ [⟨.service s, reply⟩]) =
      runPart i h ++ [⟨s, reply⟩] := by
  unfold runPart at *
  by_cases worker : i.role = .worker
  · simp only [if_pos worker] at *
    by_cases long : 2 ≤ h.length
    · rw [List.drop_append_of_le_length long, List.filterMap_append]
      rfl
    · rw [List.drop_eq_nil_of_le (by omega)] at some
      contradiction
  · simp only [if_neg worker] at *
    rw [List.filterMap_append]
    rfl

/-- A thread that is in its run goes on with it. -/
theorem run_call {s : ServiceCall} {reply : Except PyException s.Reply} {before : Host}
    (step : (office logDir hour).Step c (.call i ⟨.service s, reply⟩ before) c')
    (some : runOf c i ≠ []) : runOf c' i = runOf c i ++ [⟨s, reply⟩] := by
  have own : (Event.own i (.call i ⟨.service s, reply⟩ before : OfficeEvent)).toList =
    [⟨.service s, reply⟩] := by simp [Event.own]
  rw [runOf, step.past i, own]
  exact runPart_service some

/-- Calls take no time. -/
theorem perform_clock {c : ServiceCall} {host host' : Host} {reply : Except PyException c.Reply}
    (performed : host.perform i c reply host') : host'.world.clock = host.world.clock := by
  cases c with
  | run call =>
      obtain ⟨w, performed, rfl⟩ := performed
      exact (perform_frame performed).clock
  | select q =>
      cases reply with
      | ok x => rw [performed.2]
      | error e => rw [show host' = host from performed]
  | watchers =>
      cases reply with
      | ok x => rw [performed.2]
      | error e => exact performed.elim
  | vectorQuery | vectorCount | makeLogDir | readLogTail | appendSummary =>
      cases reply <;> cases performed <;> rfl

theorem clock_call {before : Host} (step : (office logDir hour).Step c (.call i x before) c') :
    c'.world.world.clock = c.world.world.clock := by
  cases step with
  | @call i seen call onReply reply world awaiting performed =>
      cases call with
      | sleep duration => rw [show world = c.world from performed]
      | service s => exact perform_clock performed

theorem clock_read {before : Host}
    (step : (office logDir hour).Step c (.call i ⟨.service (.run .now), .ok now⟩ before) c') :
    now = c.world.world.clock := by
  cases step with
  | call awaiting performed =>
      obtain ⟨w, ⟨told, -⟩, -⟩ := performed
      exact told

/-- The clock can always be read. -/
theorem clock_told {error : PyException} {before : Host}
    (step : (office logDir hour).Step c (.call i ⟨.service (.run .now), .error error⟩ before) c') :
    False := by
  cases step with
  | call awaiting performed =>
      obtain ⟨w, told, -⟩ := performed
      exact told

theorem call_live {before : Host} (step : (office logDir hour).Step c (.call i x before) c') :
    (c.threads i).Live := by
  cases step with
  | call awaiting performed => exact ⟨_, _, awaiting, trivial⟩

theorem clock_step (step : (office logDir hour).Step c e c') :
    c.world.world.clock ≤ c'.world.world.clock := by
  cases step with
  | spawn | again => exact Int.le_refl _
  | drift moved => exact moved.1
  | @crash dead world threads fell =>
      have same : c.world = world := fell.symm
      exact Int.le_of_eq (congrArg (fun host : Host => host.world.clock) same)
  | call awaiting performed => exact Int.le_of_eq (clock_call (.call awaiting performed)).symm

/-- What a run may call, it may call in its thread only as a run. -/
theorem allowed_run {c : ServiceCall} (allowed : officeAllowed hour i h (.service c)) :
    runAllowed (runPart i h) c := by
  unfold officeAllowed at allowed
  split at allowed
  · rename_i same
    cases same
    rcases allowed with ⟨worker, rfl⟩ | ⟨-, fresh⟩
    · simp [runAllowed, runPart]
    · exact fresh
  · rename_i same
    cases same
    exact allowed.2
  · contradiction

/-- A step leaves the summaries as they are, or a run that has found none of its date inserts
one. -/
theorem step_summaries (obeys : c.Obeys (officeProtocol hour) (officeEnds hour) fun _ _ => ())
    (step : (office logDir hour).Step c e c') :
    (summaries c'.world.world.db = summaries c.world.world.db ∧
      ∀ i (t : Transaction) (x : t.Reply) before,
      e ≠ .call i ⟨.service (.run (.session t)), .ok x⟩ before) ∨
    ∃ i now existing stats told, Looked (runOf c i) now existing ∧
      e = .call i ⟨.service (.run (.session (summaryInsert now stats))), told⟩ c.world ∧
      summaries c'.world.world.db = summaries c.world.world.db ++
        [(c.world.world.db.memory.next, newSummary c.world.world.clock now stats)] := by
  cases step with
  | spawn | again => exact .inl ⟨rfl, fun _ _ _ _ same => by cases same⟩
  | drift moved => exact .inl ⟨moved.2, fun _ _ _ _ same => by cases same⟩
  | @crash dead world threads fell =>
      refine .inl ⟨?_, fun _ _ _ _ same => by cases same⟩
      rw [show world = c.world from fell]
  | @call i seen call onReply reply world awaiting performed =>
      have allowed := (obeys i _ _ awaiting).1
      cases call with
      | sleep duration =>
          refine .inl ⟨?_, fun _ _ _ _ same => by cases same⟩
          rw [show world = c.world from performed]
      | service s =>
          rcases perform_summaries (allowed_run allowed) performed with
            ⟨same, quiet⟩ | ⟨now, existing, stats, told, looked, -, -, same, appended⟩
          · refine .inl ⟨same, fun j t x before wrong => ?_⟩
            cases wrong
            exact quiet t x rfl
          · refine .inr ⟨i, now, existing, stats, told, ?_, ?_, appended⟩
            · rwa [runOf, awaiting]
            · cases same
              rfl

theorem run_grows (step : (office logDir hour).Step c e c') (i : CallId) :
    ∃ more, runOf c' i = runOf c i ++ more := by
  rcases run_step step i with same | ⟨y, -, longer⟩
  · exact ⟨[], by rw [same, List.append_nil]⟩
  · exact ⟨[y], longer⟩

theorem looked_kept (step : (office logDir hour).Step c e c')
    (looked : Looked (runOf c i) now existing) : Looked (runOf c' i) now existing := by
  obtain ⟨more, grown⟩ := run_grows step i
  rw [grown]
  exact looked.grows

/-- A run that has looked had looked before the step, or looks in it. -/
theorem looked_step (step : (office logDir hour).Step c e c')
    (looked : Looked (runOf c' i) now existing) : Looked (runOf c i) now existing ∨
    runOf c i = [⟨.run .now, .ok now⟩] ∧
      existing = (summaries c.world.world.db).getLast? ∧ c'.world =
        c.world ∧ (c.threads i).Live := by
  rcases run_step step i with same | ⟨y, rfl, longer⟩
  · exact .inl (same ▸ looked)
  · rw [longer] at looked
    rcases looked.of_snoc with before | ⟨read, rfl⟩
    · exact .inl before
    · cases step with
      | call awaiting performed =>
          obtain ⟨found, same⟩ := performed
          exact .inr ⟨read, (Except.ok.inj found).symm, same, _, _, awaiting, trivial⟩

/-! ### The turns -/

/-- The run of the turn has read the clock. -/
def Reads (c : OfficePool) (n : Nat) (f : Time) : Prop :=
  ∃ rest, runOf c (pass n) = ⟨.run .now, .ok f⟩ :: rest

/-- The turn has read the clock to see how long it is to sleep. -/
def Begun (h : OfficeHistory) (now : Time) : Prop :=
  ∃ rest, h = ⟨.service (.run .now), .ok now⟩ :: rest

/-- The turn is the last that has begun, or the first one if none has. -/
def Latest (c : OfficePool) (n : Nat) : Prop :=
  (n = 0 ∨ c.threads (pass n) ≠ .absent) ∧ c.threads (pass (n + 1)) = .absent

/-- A turn begins at the start of the scheduler, or where the run of the turn before it has read the
clock. -/
def Anchor (since : Time) (c : OfficePool) : Nat → Time → Prop
  | 0, a => a = since
  | n + 1, a => Reads c n a

/-- The clock has not reached the firing that comes next after an instant. -/
def Short (hour : Int) (a clock : Time) : Prop := clock = a ∨ ∃ fire, nextFire hour a = .ok fire ∧
    clock < fire

/-- How far the clock may get while the turn is the latest one: not to the next firing before it has
read the clock to see how long it is to sleep; then no later than by so much after it fires, until
its run has read the clock; and from there again not to the next firing. -/
def InReach (hour : Int) (late : Nat) (since : Time) (c : OfficePool) (n : Nat) (clock : Time) :
    Prop :=
  ((c.threads (pass n)).past = [] ∧ ∃ a, Anchor since c n a ∧ Short hour a clock) ∨
  (∃ now fire, Begun (c.threads (pass n)).past now ∧ (∀ f, ¬ Reads c n f) ∧
    nextFire hour now = .ok fire ∧ clock ≤ fire + late) ∨
  ∃ f, Reads c n f ∧ Short hour f clock

/-- The scheduler is not interrupted and wakes on time, or later by so much at most. No scheduled
run has raised. -/
structure OnTime (hour : Int) (late : Nat) (since : Time) (c : OfficePool) (e : OfficeEvent)
    (c' : OfficePool) : Prop where
  waits : e = .drift → c'.world.world.clock ≠ c.world.world.clock → ∃ n, Latest c n ∧
    InReach hour late since c n c'.world.world.clock
  returns : ∀ n p, e = .spawn (pass (n + 1)) p → ∀ h error, c.threads (pass n) ≠
    .active h (.done (.ok (.ran (.error error))))

/-- Only time itself moves the clock. -/
theorem moved_drift (step : (office logDir hour).Step c e c')
    (moved : c'.world.world.clock ≠ c.world.world.clock) : e = .drift := by
  cases step with
  | spawn | again => exact absurd rfl moved
  | drift => rfl
  | @crash dead world threads fell => exact absurd (by rw [show world = c.world from fell]) moved
  | call awaiting performed => exact absurd (clock_call (.call awaiting performed)) moved

/-- Short of the next firing it is less than a day from the instant. -/
theorem Short.within (short : Short hour a clock) : clock ≤ a + day := by
  rcases short with rfl | ⟨fire, fires, before⟩
  · exact Int.le_add_of_nonneg_right (by decide)
  · exact Int.le_trans (Int.le_of_lt before) (nextFire_spec fires).2.1

/-- What fires next after such an instant fires at most a day after the first. -/
theorem Short.fires (short : Short hour a now) (fires : nextFire hour now = .ok fire) :
    fire ≤ a + day := by
  rcases short with rfl | ⟨next, nexts, before⟩
  · exact (nextFire_spec fires).2.1
  · obtain ⟨-, within, target⟩ := nextFire_spec nexts
    exact Int.le_trans (nextFire_first fires target before) within

theorem Reads.unique {f' : Time} (reads : Reads c n f) (again : Reads c n f') : f = f' := by
  obtain ⟨rest, same⟩ := reads
  obtain ⟨rest', same'⟩ := again
  rw [same] at same'
  simp only [List.cons.injEq, Interaction.mk.injEq, heq_eq_eq, true_and] at same'
  exact Except.ok.inj same'.1

theorem Begun.unique {now' : Time} (begun : Begun h now) (again : Begun h now') : now = now' := by
  obtain ⟨rest, rfl⟩ := begun
  obtain ⟨rest', same⟩ := again
  simp only [List.cons.injEq, Interaction.mk.injEq, heq_eq_eq, true_and] at same
  exact Except.ok.inj same.1

theorem Begun.of_snoc (begun : Begun (h ++ [x]) now) (some : h ≠ []) : Begun h now := by
  obtain ⟨rest, same⟩ := begun
  cases h with
  | nil => contradiction
  | cons first more =>
      simp only [List.cons_append, List.cons.injEq] at same
      exact ⟨more, by rw [same.1]⟩

theorem Slept.begun (slept : Slept hour h fire) :
    ∃ now, nextFire hour now = .ok fire ∧ Begun h now := by
  obtain ⟨now, rest, fires, rfl⟩ := slept
  exact ⟨now, fires, _, rfl⟩

theorem Looked.reads (looked : Looked (runOf c (pass n)) f existing) : Reads c n f := by
  obtain ⟨more, same⟩ := looked
  exact ⟨_, same⟩

theorem Reads.step (reads : Reads c n f) (step : (office logDir hour).Step c e c') :
    Reads c' n f := by
  obtain ⟨rest, same⟩ := reads
  obtain ⟨more, grown⟩ := run_grows step (pass n)
  exact ⟨rest ++ more, by rw [grown, same]; rfl⟩

theorem Anchor.step (anchor : Anchor since c n a) (step : (office logDir hour).Step c e c') :
    Anchor since c' n a := by
  cases n with
  | zero => exact anchor
  | succ n => exact Reads.step anchor step

/-- A run that has read the clock had before the step, or does so in it. -/
theorem reads_step (step : (office logDir hour).Step c e c') (reads : Reads c' n f) :
    Reads c n f ∨ runOf c (pass n) = [] ∧ f = c.world.world.clock ∧
      e = .call (pass n) ⟨.service (.run .now), .ok f⟩ c.world := by
  obtain ⟨rest, same⟩ := reads
  rcases run_step step (pass n) with still | ⟨y, rfl, longer⟩
  · exact .inl ⟨rest, still ▸ same⟩
  · rw [longer] at same
    cases earlier : runOf c (pass n) with
    | cons z more =>
        rw [earlier] at same
        obtain ⟨rfl, -⟩ := List.cons.inj same
        exact .inl ⟨more, earlier⟩
    | nil =>
        rw [earlier] at same
        obtain ⟨rfl, -⟩ := List.cons.inj same
        exact .inr ⟨rfl, clock_read step, rfl⟩

/-- The turn is over. -/
def Over (c : OfficePool) (n : Nat) : Prop :=
  c.threads (pass n) ≠ .absent ∧ ¬ (c.threads (pass n)).Live

theorem Over.step (prior : Over c n) (step : (office logDir hour).Step c e c') : Over c' n := by
  refine ⟨(step.present _).mpr (.inl prior.1), fun live => ?_⟩
  rcases step.live live with ⟨p, rfl⟩ | ⟨p, rfl⟩ | ⟨before, -⟩
  · cases step with
    | spawn unused entry => exact prior.1 unused
  · cases step with
    | again returned next => exact next
  · exact prior.2 before

/-- A turn begins when the one before it is over. -/
theorem over_step (prior : ∀ n, c.threads (pass (n + 1)) ≠ .absent → Over c n)
    (step : (office logDir hour).Step c e c') : ∀ n, c'.threads (pass (n + 1)) ≠ .absent →
    Over c' n := by
  intro n there
  rcases (step.present _).mp there with before | ⟨p, rfl⟩
  · exact (prior n before).step step
  · have ended : Over c n := by
      cases step with
      | spawn unused entry =>
          rcases entry with ⟨visitor, -⟩ | ⟨m, same, turns, -⟩
          · contradiction
          · cases same
            rcases turns with zero | ⟨m, h, result, same, active⟩
            · contradiction
            · cases same
              refine ⟨by simp [active], ?_⟩
              rintro ⟨past, rest, live, waiting⟩
              rw [active] at live
              cases live
              exact waiting
    exact ended.step step

section
variable (prior : ∀ n, c.threads (pass (n + 1)) ≠ .absent → Over c n)
include prior

theorem present_down (there : c.threads (pass n) ≠ .absent) (upto : m ≤ n) :
    c.threads (pass m) ≠ .absent := by
  induction n with
  | zero =>
      cases Nat.le_zero.mp upto
      exact there
  | succ n ih =>
      rcases Nat.lt_or_eq_of_le upto with below | rfl
      · exact ih (prior n there).1 (Nat.le_of_lt_succ below)
      · exact there

theorem latest_unique (latest : Latest c n) (again : Latest c m) : m = n := by
  rcases Nat.lt_trichotomy m n with below | same | above
  · have there := latest.1.resolve_left (Nat.ne_of_gt (Nat.zero_lt_of_lt below))
    exact absurd again.2 (present_down prior there below)
  · exact same
  · have there := again.1.resolve_left (Nat.ne_of_gt (Nat.zero_lt_of_lt above))
    exact absurd latest.2 (present_down prior there above)

theorem live_latest (live : (c.threads (pass n)).Live) : Latest c n := by
  refine ⟨.inr fun absent => ?_, ?_⟩
  · obtain ⟨past, rest, active, -⟩ := live
    rw [absent] at active
    contradiction
  · by_contra there
    exact (prior n there).2 live

end

theorem runOf_nil (none : (c.threads i).past = []) : runOf c i = [] := by
  rw [runOf, none]
  simp [runPart]

theorem unread (none : runOf c (pass n) = []) : ¬ Reads c n f := by
  rintro ⟨rest, same⟩
  rw [none] at same
  contradiction

/-- A turn that makes a call is in its sleep, or before or after that. -/
theorem turn_stage {call : OfficeCall} (allowed : officeAllowed hour (pass n) h call) :
    (h = [] ∧ call = .service (.run .now)) ∨
    (∃ now fire, nextFire hour now = .ok fire ∧ h = [⟨.service (.run .now), .ok now⟩] ∧
      call = .sleep (fire - now)) ∨
    ∃ fire s, Slept hour h fire ∧ call = .service s := by
  unfold officeAllowed at allowed
  split at allowed
  · rcases allowed with ⟨-, none⟩ | ⟨slept, -⟩
    · exact .inl ⟨none, rfl⟩
    · obtain ⟨fire, slept⟩ := slept rfl
      exact .inr (.inr ⟨fire, _, slept, rfl⟩)
  · obtain ⟨fire, slept⟩ := allowed.1 rfl
    exact .inr (.inr ⟨fire, _, slept, rfl⟩)
  · obtain ⟨-, now, fire, fires, read, rfl⟩ := allowed
    exact .inr (.inl ⟨now, fire, fires, read, rfl⟩)

/-! ### How far the clock gets -/

/-- How far the clock is, by where the latest turn is. -/
structure Punctual (hour : Int) (late : Nat) (since : Time) (c : OfficePool) (n : Nat) : Prop where
  begins : (c.threads (pass n)).past = [] → ∃ a, Anchor since c n a ∧
    Short hour a c.world.world.clock
  sleeps : ∀ now, Begun (c.threads (pass n)).past now → (∀ f, ¬ Reads c n f) →
    c.world.world.clock = now ∨ ∃ fire, nextFire hour now = .ok fire ∧
      c.world.world.clock ≤ fire + late
  runs : ∀ f, Reads c n f → Short hour f c.world.world.clock

/-- Each turn has first read the clock, short of the firing that comes next after its anchor, and
its run has read it late by so much at most. -/
structure Timely (hour : Int) (late : Nat) (since : Time) (c : OfficePool) (n : Nat) : Prop where
  first : (c.threads (pass n)).past ≠ [] → ∃ now, Begun (c.threads (pass n)).past now
  sleeps : ∀ now, Begun (c.threads (pass n)).past now → ∃ a, Anchor since c n a ∧ Short hour a now
  runs : ∀ f, Reads c n f → ∃ now fire, Begun (c.threads (pass n)).past now ∧
    nextFire hour now = .ok fire ∧ f ≤ fire + late

section
variable (obeys : c.Obeys (officeProtocol hour) (officeEnds hour) fun _ _ => ())
  (prior : ∀ n, c.threads (pass (n + 1)) ≠ .absent → Over c n)
  (punctual : ∀ n, Latest c n → Punctual hour late since c n)

/-- What a turn begins after: nothing, or a turn whose run has returned. -/
theorem turn_entry {p : Office Outcome}
    (step : (office logDir hour).Step c (.spawn (pass n) p) c') :
    c.threads (pass n) = .absent ∧ (c'.threads (pass n)).past = [] ∧ c'.world = c.world ∧
    Turns c n := by
  cases step with
  | spawn unused entry =>
      refine ⟨unused, by simp [Thread.past], rfl, ?_⟩
      rcases entry with ⟨visitor, -⟩ | ⟨k, same, turns, -⟩
      · contradiction
      · cases same
        exact turns

include obeys prior punctual in
/-- A turn that begins has its anchor in the run of the turn before it. -/
theorem punctual_begins {p : Office Outcome}
    (step : (office logDir hour).Step c (.spawn (pass n) p) c')
    (onTime : OnTime hour late since c (.spawn (pass n) p) c') : Punctual hour late since c' n := by
  obtain ⟨unused, fresh, world, turns⟩ := turn_entry step
  refine ⟨fun _ => ?_, fun now begun _ => ?_, fun f reads =>
    absurd reads (unread (runOf_nil fresh))⟩
  · rw [world]
    rcases turns with rfl | ⟨m, h, result, rfl, ended⟩
    · have latest : Latest c 0 := by
        refine ⟨.inl rfl, ?_⟩
        by_contra there
        exact (prior 0 there).1 unused
      obtain ⟨a, anchor, short⟩ := (punctual 0 latest).begins (by rw [unused]; rfl)
      exact ⟨a, anchor.step step, short⟩
    · have latest : Latest c m := ⟨.inr (by simp [ended]), unused⟩
      cases result with
      | error error => exact absurd ended (onTime.returns m p rfl h error)
      | ok j =>
          obtain ⟨-, f, existing, looked, -⟩ := obeys (pass m) _ _ ended j rfl
          have past : (c.threads (pass m)).past = h := by rw [ended]; rfl
          have reads : Reads c m f := Looked.reads (by rwa [runOf, past])
          exact ⟨f, reads.step step, (punctual m latest).runs f reads⟩
  · obtain ⟨rest, same⟩ := begun
    rw [fresh] at same
    contradiction

/-- While the latest turn does nothing, the clock stays within its reach. -/
theorem punctual_still (prior : ∀ n, c.threads (pass (n + 1)) ≠ .absent → Over c n)
    (latest : Latest c n) (punctual : Punctual hour late since c n)
    (step : (office logDir hour).Step c e c') (onTime : OnTime hour late since c e c')
    (same : (c'.threads (pass n)).past = (c.threads (pass n)).past) :
    Punctual hour late since c' n := by
  have back (f : Time) (reads : Reads c' n f) : Reads c n f := by
    obtain ⟨rest, run⟩ := reads
    exact ⟨rest, by rwa [runOf, same] at run⟩
  by_cases still : c'.world.world.clock = c.world.world.clock
  · refine ⟨fun none => ?_, fun now begun quiet => ?_, fun f reads => ?_⟩
    · rw [still]
      obtain ⟨a, anchor, short⟩ := punctual.begins (same ▸ none)
      exact ⟨a, anchor.step step, short⟩
    · rw [still]
      exact punctual.sleeps now (same ▸ begun) fun f reads => quiet f (reads.step step)
    · rw [still]
      exact punctual.runs f (back f reads)
  · obtain ⟨m, again, reach⟩ := onTime.waits (moved_drift step still) still
    cases latest_unique prior latest again
    refine ⟨fun none => ?_, fun now begun quiet => ?_, fun f reads => ?_⟩
    · rw [same] at none
      rcases reach with ⟨-, a, anchor, short⟩ | ⟨now, fire, ⟨rest, read⟩, -⟩ | ⟨f, reads, -⟩
      · exact ⟨a, anchor.step step, short⟩
      · rw [none] at read
        contradiction
      · exact absurd reads (unread (runOf_nil none))
    · rw [same] at begun
      rcases reach with ⟨none, -⟩ | ⟨now', fire, begun', -, fires, upto⟩ | ⟨f, reads, -⟩
      · obtain ⟨rest, read⟩ := begun
        rw [none] at read
        contradiction
      · cases begun.unique begun'
        exact .inr ⟨fire, fires, upto⟩
      · exact absurd (reads.step step) (quiet f)
    · have reads := back f reads
      rcases reach with ⟨none, -⟩ | ⟨now, fire, -, quiet, -⟩ | ⟨f', reads', short⟩
      · exact absurd reads (unread (runOf_nil none))
      · exact absurd reads (quiet f)
      · exact reads.unique reads' ▸ short

/-- The latest turn makes a call. -/
theorem punctual_call (punctual : Punctual hour late since c n)
    (step : (office logDir hour).Step c (.call (pass n) x c.world) c')
    (grown : (c'.threads (pass n)).past = (c.threads (pass n)).past ++ [x]) :
    Punctual hour late since c' n := by
  have still := clock_call step
  refine ⟨fun none => ?_, fun now begun quiet => ?_, fun f reads => ?_⟩
  · rw [grown] at none
    simp at none
  · rw [still]
    by_cases first : (c.threads (pass n)).past = []
    · -- the turn reads the clock
      obtain ⟨rest, read⟩ := begun
      rw [grown, first] at read
      obtain ⟨rfl, -⟩ := List.cons.inj read
      exact .inl (clock_read step).symm
    · rw [grown] at begun
      exact punctual.sleeps now (begun.of_snoc first) fun f reads => quiet f (reads.step step)
  · rw [still]
    rcases reads_step step reads with before | ⟨-, told, -⟩
    · exact punctual.runs f before
    · exact .inl told.symm

include obeys prior punctual in
theorem punctual_step (step : (office logDir hour).Step c e c')
    (onTime : OnTime hour late since c e c') (latest : Latest c' n) :
    Punctual hour late since c' n := by
  by_cases spawned : ∃ p, e = .spawn (pass n) p
  · obtain ⟨p, rfl⟩ := spawned
    exact punctual_begins obeys prior punctual step onTime
  · have before : Latest c n := by
      refine ⟨latest.1.imp_right fun there => ?_, ?_⟩
      · exact ((step.present _).mp there).resolve_right spawned
      · by_contra there
        exact (step.present _).mpr (.inl there) latest.2
    rcases own_step step (pass n) with same | ⟨x, rfl, grown⟩
    · exact punctual_still prior before (punctual n before) step onTime same
    · exact punctual_call (punctual n before) step grown

include obeys prior punctual in
/-- What a turn reads from the clock is short of the firing that comes next after its anchor, or
late by so much at most. -/
theorem timely_step (timely : ∀ n, Timely hour late since c n)
    (step : (office logDir hour).Step c e c') (n : Nat) : Timely hour late since c' n := by
  have kept {now : Time} (begun : Begun (c.threads (pass n)).past now) : Begun
      (c'.threads (pass n)).past now := by
    obtain ⟨rest, same⟩ := begun
    rcases own_step step (pass n) with still | ⟨x, -, grown⟩
    · exact ⟨rest, still.trans same⟩
    · exact ⟨rest ++ [x], by rw [grown, same]; rfl⟩
  refine ⟨fun some => ?_, fun now begun => ?_, fun f reads => ?_⟩
  · rcases own_step step (pass n) with same | ⟨x, rfl, grown⟩
    · obtain ⟨now, begun⟩ := (timely n).first (same ▸ some)
      exact ⟨now, kept begun⟩
    · by_cases first : (c.threads (pass n)).past = []
      · have allowed : officeAllowed hour (pass n) (c.threads (pass n)).past x.call :=
          step.allowed obeys
        obtain ⟨call, reply⟩ := x
        rcases turn_stage allowed with ⟨-, same⟩ | ⟨_, _, -, read, -⟩ | ⟨fire, s, slept, -⟩
        · cases same
          cases reply with
          | ok now => exact ⟨now, [], by rw [grown, first]; rfl⟩
          | error error => exact (clock_told step).elim
        · rw [first] at read
          contradiction
        · obtain ⟨now, rest, -, read⟩ := slept
          rw [first] at read
          contradiction
      · obtain ⟨now, begun⟩ := (timely n).first first
        exact ⟨now, kept begun⟩
  · have later {now : Time} (begun : Begun (c.threads (pass n)).past now) : ∃ a,
      Anchor since c' n a ∧ Short hour a now := by
      obtain ⟨a, anchor, short⟩ := (timely n).sleeps now begun
      exact ⟨a, anchor.step step, short⟩
    rcases own_step step (pass n) with same | ⟨x, rfl, grown⟩
    · exact later (same ▸ begun)
    · rw [grown] at begun
      by_cases first : (c.threads (pass n)).past = []
      · obtain ⟨rest, read⟩ := begun
        rw [first] at read
        obtain ⟨rfl, -⟩ := List.cons.inj read
        obtain ⟨a, anchor, short⟩ := (punctual n (live_latest prior (call_live step))).begins first
        exact ⟨a, anchor.step step, clock_read step ▸ short⟩
      · exact later (begun.of_snoc first)
  · rcases reads_step step reads with before | ⟨none, told, rfl⟩
    · obtain ⟨now, fire, begun, fires, upto⟩ := (timely n).runs f before
      exact ⟨now, fire, kept begun, fires, upto⟩
    · have allowed : officeAllowed hour (pass n) (c.threads (pass n)).past (.service (.run .now)) :=
        step.allowed obeys
      rcases turn_stage allowed with ⟨first, -⟩ | ⟨_, _, -, -, same⟩ | ⟨fire, s, slept, -⟩
      · rcases own_step step (pass n) with same | ⟨x, same, grown⟩
        · exact absurd reads (unread (runOf_nil (same.trans first)))
        · refine absurd reads (unread ?_)
          rw [runOf, grown, first]
          simp [runPart, pass]
      · contradiction
      · obtain ⟨now, fires, begun⟩ := slept.begun
        refine ⟨now, fire, kept begun, fires, ?_⟩
        rw [told]
        rcases (punctual n (live_latest prior (call_live step))).sleeps now begun fun f =>
          unread none with same | ⟨fire', fires', upto⟩
        · rw [same]
          exact Int.le_trans (Int.le_of_lt (nextFire_spec fires).1)
            (Int.le_add_of_nonneg_right (Int.natCast_nonneg late))
        · cases Except.ok.inj (fires.symm.trans fires')
          exact upto

end

end WiseOrder.SummarySchedule
