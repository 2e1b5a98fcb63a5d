import WiseOrder.Foundation.Run
import Mathlib.Algebra.Order.Group.Int

/-! A lease that expires by itself. It is granted only while nobody holds it, and
whoever writes to it, holder or not, sets its end to a full term from then on; so
two grants are never closer than the term. -/
namespace Lease

structure State where
  clock : Int
  expires : Option Int

/-- Somebody holds the lease now. -/
def State.Held (s : State) : Prop := ∃ t, s.expires = some t ∧ s.clock < t

/-- A step is labelled with the time of the grant, if it is one. -/
inductive Step (term : Int) : State → Option Int → State → Prop where
  | wait {s : State} (later : s.clock ≤ now) : Step term s none { s with clock := now }
  | grant {s : State} (free : ¬ s.Held) :
      Step term s (some s.clock) { s with expires := some (s.clock + term) }
  | renew (s : State) : Step term s none { s with expires := some (s.clock + term) }

variable {term : Int} {s s' : State} {trace : List (Option Int)}

/-- After each grant the lease is there, and ends a full term later or after that. -/
theorem run_expires (run : Transition.Run (Step term) s trace s') :
    ∀ t, some t ∈ trace → t ≤ s'.clock ∧ ∃ ends, s'.expires = some ends ∧ t + term ≤ ends := by
  induction run with
  | refl => exact fun t member => absurd member List.not_mem_nil
  | @next past middle label last earlier taken ih =>
      intro t member
      rcases List.mem_append.mp member with old | new
      · obtain ⟨passed, ends, there, after⟩ := ih t old
        cases taken with
        | wait later => exact ⟨passed.trans later, ends, there, after⟩
        | grant free | renew => exact ⟨passed, _, rfl, Int.add_le_add_right passed term⟩
      · rw [List.mem_singleton] at new
        cases taken with
        | wait later | renew => contradiction
        | grant free =>
            cases Option.some.inj new
            exact ⟨Int.le_refl _, _, rfl, Int.le_refl _⟩

theorem grants_apart (run : Transition.Run (Step term) s trace s') :
    trace.Pairwise fun a b => ∀ t t', a = some t → b = some t' → t + term ≤ t' := by
  induction run with
  | refl => exact .nil
  | @next past middle label last earlier taken ih =>
      rw [List.pairwise_append]
      refine ⟨ih, List.pairwise_singleton _ _, ?_⟩
      rintro a old b new t t' rfl rfl
      rw [List.mem_singleton] at new
      cases taken with
      | wait later | renew => contradiction
      | grant free =>
          cases Option.some.inj new
          obtain ⟨-, ends, there, after⟩ := run_expires earlier t old
          have passed : ends ≤ middle.clock := Int.not_lt.mp fun still => free ⟨ends, there, still⟩
          exact after.trans passed

end Lease
