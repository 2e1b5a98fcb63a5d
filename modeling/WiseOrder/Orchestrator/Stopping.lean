import WiseOrder.Orchestrator.JobBoard

/-! How soon a worker stops. Once it is to stop, it looks at the lanes once more at most, if it was
just about to, and calls one handler more at most; the next time that it looks whether it is to stop
is its end. -/
namespace WiseOrder.Orchestrator
open Coroutine Coroutine.Program
variable {s : Settings} {i : CallId} {c c' start : Pool} {event : RunEvent}
    {past trace : List RunEvent} {h : History} {x : Interaction calls}

def looks (h : History) : Nat := h.countP fun x => match x with
  | ⟨.redis (.blpop _), _⟩ => true
  | _ => false

def handovers (h : History) : Nat := (h.filterMap handedOver).length

/-- A text has just been taken. -/
def taking (a : Account) : Bool := match a.hand with
  | some (_, []) => true
  | _ => false

/-- Handlers that a worker may yet call before it looks whether it is to stop. -/
def owes (h : History) : Nat := (cleared h).toNat + (taking (account h)).toNat

/-- Who has a text in hand is not about to look at the lanes. -/
theorem clear_next (allowed : turnAllowed h x.call)
    (empty : cleared h = true → (account h).hand = none) : cleared (h ++ [x]) = true →
    (account (h ++ [x])).hand = none := by
  have idles (same : clears (cleared h) x = cleared h) (pop : popped x = none) :
      cleared (h ++ [x]) = true → (account (h ++ [x])).hand = none := by
    intro clear
    rw [cleared_snoc, same] at clear
    rw [account_snoc, Account.next, pop, empty clear]
    exact empty clear
  obtain ⟨call, reply⟩ := x
  cases call with
  | stopIsSet =>
      intro _
      have rest := allowed.2
      rw [account_snoc, Account.next, show popped ⟨.stopIsSet, reply⟩ = none from rfl, rest]
      exact rest
  | redis command =>
      cases command with
      | blpop queues =>
          intro clear
          rw [cleared_snoc] at clear
          contradiction
      | _ => exact idles rfl rfl
  | _ => exact idles rfl rfl

/-- A call of a worker that is to stop. -/
theorem owes_next (allowed : turnAllowed h x.call)
    (empty : cleared h = true → (account h).hand = none)
    (told : ∀ stop, x = ⟨.stopIsSet, .ok stop⟩ → stop = true) :
    looks [x] + (cleared (h ++ [x])).toNat ≤ (cleared h).toNat ∧ handovers
    [x] + owes (h ++ [x]) ≤ owes h := by
  have idles (same : clears (cleared h) x = cleared h) (pop : popped x = none)
    (look : looks [x] = 0) (quiet : handovers [x] = 0) :
      looks [x] + (cleared (h ++ [x])).toNat ≤ (cleared h).toNat ∧ handovers [x] + owes (h ++ [x]) ≤
          owes h := by
    have later : (taking (account (h ++ [x]))).toNat ≤ (taking (account h)).toNat := by
      rw [account_snoc, Account.next, pop]
      cases hand : (account h).hand with
      | none => simp [taking, hand]
      | some taken =>
          dsimp only
          split <;> simp [taking]
    unfold owes
    rw [cleared_snoc, same, look, quiet]
    omega
  obtain ⟨call, reply⟩ := x
  cases call with
  | stopIsSet =>
      have rest := allowed.2
      cases reply with
      | ok stop =>
          obtain rfl := told stop rfl
          have same : account (h ++ [⟨.stopIsSet, .ok true⟩]) = account h := by
            rw [account_snoc, Account.next, show popped ⟨.stopIsSet, .ok true⟩ = none
              from rfl, rest]
          have down : cleared (h ++ [⟨.stopIsSet, .ok true⟩]) = false := by rw [cleared_snoc]; rfl
          have look : looks [⟨.stopIsSet, .ok true⟩] = 0 := rfl
          have quiet : handovers [⟨.stopIsSet, .ok true⟩] = 0 := rfl
          simp [owes, same, down, look, quiet]
      | error e => exact idles rfl rfl rfl rfl
  | redis command =>
      cases command with
      | blpop queues =>
          have clear := allowed.2.2.2
          have down : cleared (h ++ [⟨.redis (.blpop queues), reply⟩]) =
            false := by rw [cleared_snoc]; rfl
          have look : looks [⟨.redis (.blpop queues), reply⟩] = 1 := rfl
          have quiet : handovers [⟨.redis (.blpop queues), reply⟩] = 0 := rfl
          have fresh := Bool.toNat_le (taking (account (h ++ [⟨.redis (.blpop queues), reply⟩])))
          unfold owes
          rw [clear, down, look, quiet, Bool.toNat_true, Bool.toNat_false]
          omega
      | _ => exact idles rfl rfl rfl rfl
  | handler name payload =>
      obtain ⟨text, hand⟩ := allowed.2
      have busy : cleared h = false := by
        by_contra clear
        rw [empty (by simpa using clear)] at hand
        contradiction
      have after : taking (account (h ++ [⟨.handler name payload, reply⟩])) = false := by
        rw [account_snoc, Account.next, show popped ⟨.handler name payload, reply⟩ = none
          from rfl, hand]
        dsimp only
        split <;> rfl
      have before : taking (account h) = true := by rw [taking, hand]
      have still : cleared (h ++ [⟨.handler name payload, reply⟩]) =
        false := by rw [cleared_snoc, busy]; rfl
      have look : looks [⟨.handler name payload, reply⟩] = 0 := rfl
      have one : handovers [⟨.handler name payload, reply⟩] = 1 := rfl
      unfold owes
      rw [busy, before, still, after, look, one, Bool.toNat_true, Bool.toNat_false]
      omega
  | _ => exact idles rfl rfl rfl rfl

theorem looks_snoc (h : History) (x : Interaction calls) :
    looks (h ++ [x]) = looks h + looks [x] := by
  simp [looks, List.countP_append]

theorem handovers_snoc (h : History) (x : Interaction calls) :
    handovers (h ++ [x]) = handovers h + handovers [x] := by
  simp [handovers, List.filterMap_append]

/-- Once a process is to stop it stays so. -/
theorem step_stopping {process : Nat} (step : Step s c event c')
    (stopping : c.world.stopping process = true) : c'.world.stopping process = true := by
  cases step with
  | spawn | again => exact stopping
  | call awaiting performed => rwa [(perform_frame performed).stopping]
  | drift moved =>
      rcases moved with ⟨t, -, rfl⟩ | ⟨other, rfl⟩
      · exact stopping
      · by_cases same : process = other
        · subst other
          exact Function.update_self _ _ _
        · dsimp only
          rwa [Function.update_of_ne same]
  | crash fell =>
      obtain ⟨other, -, rfl⟩ := fell
      exact stopping

/-- What a worker may do from some time on, when its process is to stop. -/
structure Winding (first h : History) : Prop where
  empty : cleared h = true → (account h).hand = none
  looked : looks h + (cleared h).toNat ≤ looks first + (cleared first).toNat
  handed : handovers h + owes h ≤ handovers first + owes first

theorem Winding.next {first : History} (winding : Winding first h) (allowed : turnAllowed h x.call)
    (told : ∀ stop, x = ⟨.stopIsSet, .ok stop⟩ → stop = true) : Winding first (h ++ [x]) := by
  obtain ⟨empty, looked, handed⟩ := winding
  obtain ⟨look, hand⟩ := owes_next allowed empty told
  constructor
  · exact clear_next allowed empty
  · rw [looks_snoc]
    omega
  · rw [handovers_snoc]
    omega

theorem step_winding {first : History} (turning : Turning s c)
    (stopping : c.world.stopping i.process = true) (worker : i.role = .worker)
    (winding : Winding first (c.threads i).past) (step : Step s c event c') :
    Winding first (c'.threads i).past := by
  rcases turning.next step worker with same | ⟨x, before, rfl, same, allowed⟩
  · rwa [same]
  · rw [same]
    refine winding.next allowed fun stop told => ?_
    subst told
    cases step with
    | call awaiting performed => exact performed.1.trans stopping

theorem run_empty (fresh : Fresh start) (run : Transition.Run (Step s) start trace c)
    (worker : i.role = .worker) : cleared (c.threads i).past = true →
    (account (c.threads i).past).hand = none :=
  run_turns (K := fun h => cleared h = true → (account h).hand = none) fresh run worker
    (fun _ => rfl) fun _ _ => clear_next

/-- Once its process is to stop, a worker looks at the lanes once more at most and calls one handler
more at most, whatever the other calls do and however long it goes on. -/
theorem stops_soon (fresh : Fresh start) (before : Transition.Run (Step s) start past c)
    (stopping : c.world.stopping i.process = true) (run : Transition.Run (Step s) c trace c')
    (worker : i.role = .worker) : looks (c'.threads i).past ≤ looks (c.threads i).past + 1 ∧
    handovers (c'.threads i).past ≤ handovers (c.threads i).past + 1 := by
  have empty := run_empty fresh before worker
  obtain ⟨-, -, winding⟩ := run.invariant
    (P := fun d => Turning s d ∧ d.world.stopping i.process = true ∧
      Winding (c.threads i).past (d.threads i).past)
    (fun holds step => ⟨step_turning holds.1 step, step_stopping step holds.2.1,
      step_winding holds.1 holds.2.1 worker holds.2.2 step⟩)
    ⟨run_turning fresh before, stopping, empty, Nat.le_refl _, Nat.le_refl _⟩
  have once := Bool.toNat_le (cleared (c.threads i).past)
  have owed : owes (c.threads i).past ≤ 1 := by
    unfold owes
    cases clear : cleared (c.threads i).past with
    | false => simpa using Bool.toNat_le _
    | true => simp [taking, empty clear]
  have looked := winding.looked
  have handed := winding.handed
  omega

/-- A worker that was not told to stop in time takes a job. -/
theorem stops_soon_last : ∃ past c trace c', Transition.Run (Step (.defaults "/root"))
    (Pool.waiting demoText) past c ∧ c.world.stopping 1 = true ∧ Transition.Run
    (Step (.defaults "/root")) c trace c' ∧ looks (c'.threads ⟨1, 1, .worker⟩).past = 1 ∧
    looks (c'.threads ⟨1, 1, .worker⟩).past ≤ looks (c.threads ⟨1, 1, .worker⟩).past + 1 := by
  obtain ⟨events, -, up⟩ :=
    run_entry (run_start (.defaults "/root") (fun _ _ _ => True) (Pool.waiting demoText))
    ⟨1, 1, .worker⟩
    .worker [⟨.stopIsSet, .ok false⟩] (.call ⟨rfl, rfl⟩ (.stop _ _)) rfl rfl rfl
      (fun _ => trivial) (fun _ _ _ _ _ => trivial)
  have told := up.next ⟨.drift (.inr ⟨1, rfl⟩), trivial⟩
  obtain ⟨events', -, run⟩ := run_on told ⟨1, 1, .worker⟩ rfl
    [⟨.redis (.blpop [.high, .normal]), .ok (some (.high, demoText))⟩]
    (.call ⟨_, rfl, rfl⟩ (.stop _ _)) (fun _ _ _ _ _ => trivial)
  exact ⟨_, _, _, _, told.unguard, rfl, run.unguard, rfl,
    (stops_soon (fun _ => rfl) told.unguard rfl run.unguard rfl).1⟩

end WiseOrder.Orchestrator
