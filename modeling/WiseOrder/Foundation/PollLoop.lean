import WiseOrder.Foundation.Run

/-! Loops that poll. A loop does a round, and another each time its interval has
passed, until it finds that it was told to stop; a round that raises ends it. What
a round finds is given with the round. -/
namespace Polling
variable {S Finds E : Type}

inductive Phase (E : Type) where
  | polling
  | waiting
  | stopped
  | failed (e : E)

structure Loop (S E : Type) where
  state : S
  phase : Phase E
  stop : Bool

inductive Event (Finds : Type) where
  | round (finds : Finds)
  | elapsed
  | stop
  | woken

/-- A loop that has been started. -/
def start (s : S) : Loop S E := ⟨s, .polling, false⟩

variable (round : Finds → S → Except E Unit × S)

/-- A loop looks at its stop flag after a round, and wakes up early when it is set while it
waits. -/
inductive Step : Loop S E → Event Finds → Loop S E → Prop where
  | returned {s s' stop finds} (ran : round finds s = (.ok (), s')) :
      Step ⟨s, .polling, stop⟩ (.round finds) ⟨s', if stop then .stopped else .waiting, stop⟩
  | raised {s s' stop finds e} (ran : round finds s = (.error e, s')) :
      Step ⟨s, .polling, stop⟩ (.round finds) ⟨s', .failed e, stop⟩
  | elapsed {s stop} : Step ⟨s, .waiting, stop⟩ .elapsed ⟨s, .polling, stop⟩
  | stop {s phase stop} : Step ⟨s, phase, stop⟩ .stop ⟨s, phase, true⟩
  | woken {s} : Step ⟨s, .waiting, true⟩ .woken ⟨s, .stopped, true⟩

/-- A round that does not raise. -/
def Survives (l : Loop S E) (event : Event Finds) (_ : Loop S E) : Prop :=
  ∀ finds, event = .round finds → (round finds l.state).1 = .ok ()

def Event.isRound : Event Finds → Bool
  | .round _ => true
  | _ => false

def Event.isElapsed : Event Finds → Bool
  | .elapsed => true
  | _ => false

def Phase.due : Phase E → Nat
  | .polling => 1
  | _ => 0

variable {round} {l l' : Loop S E} {event : Event Finds} {trace : List (Event Finds)} {s : S}

/-- A loop goes on: it has not failed, it stops only when told to, and it has done a round at the
start and one for each interval that has passed, but for the one that it is at. -/
structure GoesOn (trace : List (Event Finds)) (l : Loop S E) : Prop where
  alive : ∀ e, l.phase ≠ .failed e
  stopped : l.phase = .stopped → l.stop = true
  rounds : trace.countP Event.isRound + l.phase.due = trace.countP Event.isElapsed + 1

theorem step_goes_on (goes : GoesOn trace l) (step : Step round l event l')
    (survives : Survives round l event l') : GoesOn (trace ++ [event]) l' := by
  obtain ⟨alive, stopped, rounds⟩ := goes
  cases step with
  | @returned s s' stop finds ran =>
      refine ⟨?_, ?_, ?_⟩
      · cases stop <;> simp
      · cases stop <;> simp
      · cases stop <;> simpa [Event.isRound, Event.isElapsed, Phase.due, List.countP_append]
          using rounds
  | raised ran =>
      have returned := survives _ rfl
      simp [ran] at returned
  | elapsed =>
      refine ⟨by simp, by simp, ?_⟩
      simpa [Event.isRound, Event.isElapsed, Phase.due, List.countP_append] using rounds
  | stop =>
      refine ⟨alive, fun _ => rfl, ?_⟩
      simpa [Event.isRound, Event.isElapsed, List.countP_append] using rounds
  | woken =>
      exact ⟨by simp, fun _ =>
        rfl, by simpa [Event.isRound, Event.isElapsed, Phase.due, List.countP_append] using rounds⟩

theorem run_goes_on
    (run : Transition.Run (Transition.Guarded (Step round) (Survives round)) (start s) trace l) :
    GoesOn trace l :=
  run.traced ⟨by simp [start], by simp [start], rfl⟩ fun _ goes taken =>
    step_goes_on goes taken.1 taken.2

/-- A loop that has not stopped is at a round, whatever that will find, or waits for its interval to
pass. -/
theorem goes_next (goes : GoesOn trace l) (going : l.phase ≠ .stopped) :
    (∀ finds, ∃ l', Step round l (.round finds) l') ∨ ∃ l', Step round l .elapsed l' := by
  obtain ⟨s, phase, stop⟩ := l
  cases phase with
  | polling =>
      refine .inl fun finds => ?_
      rcases ran : round finds s with ⟨result, s'⟩
      cases result with
      | ok _ => exact ⟨_, .returned ran⟩
      | error e => exact ⟨_, .raised ran⟩
  | waiting => exact .inr ⟨_, .elapsed⟩
  | stopped => exact absurd rfl going
  | failed e => exact absurd rfl (goes.alive e)

end Polling
