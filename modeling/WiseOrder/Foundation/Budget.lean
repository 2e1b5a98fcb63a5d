import WiseOrder.Foundation.Contract
import Mathlib.Algebra.GroupWithZero.Nat

/-! What the calls of a program may cost together. The budget of a program is that of its parts,
and in a pool no thread goes over the budget of what it was spawned with. -/
namespace Coroutine
variable {calls : Signature} {κ W α β : Type} {cost : calls.Call → Nat} {n k : Nat}
    {seen : List (Interaction calls)}

/-- What the calls of a history have cost. -/
def spent (cost : calls.Call → Nat) (seen : List (Interaction calls)) : Nat :=
  (seen.map fun x => cost x.call).sum

@[simp]
theorem spent_nil : spent cost ([] : List (Interaction calls)) = 0 := rfl

@[simp]
theorem spent_snoc (x : Interaction calls) :
    spent cost (seen ++ [x]) = spent cost seen + cost x.call := by
  simp [spent]

namespace Program

/-- Whatever the calls reply, those that are made cost at most `n` together. -/
def Costs (cost : calls.Call → Nat) : Nat → Program calls α → Prop
  | _, .done _ => True
  | n, .await call onReply => cost call ≤ n ∧ ∀ reply, (onReply reply).Costs cost (n - cost call)

theorem Costs.mono {m : Program calls α} (costs : m.Costs cost n) (more : n ≤ k) :
    m.Costs cost k := by
  induction m generalizing n k with
  | done result => trivial
  | await call onReply ih =>
      exact ⟨Nat.le_trans costs.1 more, fun reply => ih reply (costs.2 reply) (by omega)⟩

theorem costs_andThen {m : Program calls α} {next : Except calls.Error α → Program calls β}
    (first : m.Costs cost n) (rest : ∀ result, (next result).Costs cost k) :
    (m.andThen next).Costs cost (k + n) := by
  induction m generalizing n with
  | done result => exact (rest result).mono (Nat.le_add_right _ _)
  | await call onReply ih =>
      refine ⟨Nat.le_trans first.1 (Nat.le_add_left _ _), fun reply => ?_⟩
      rw [Nat.add_sub_assoc first.1]
      exact ih reply (first.2 reply)

theorem costs_call {c : calls.Call} (afford : cost c ≤ n) : (call c).Costs cost n :=
  ⟨afford, fun _ => trivial⟩

theorem costs_ret (a : α) : (pure a : Program calls α).Costs cost 0 := trivial

theorem costs_bind {m : Program calls α} {f : α → Program calls β} (first : m.Costs cost n)
    (rest : ∀ a, (f a).Costs cost k) : (m >>= f).Costs cost (k + n) := by
  apply costs_andThen first
  intro result
  cases result with
  | ok a => exact rest a
  | error e => trivial

theorem costs_catching {m : Program calls α} {caught : calls.Error → Bool}
    {handler : calls.Error → Program calls α} (body : m.Costs cost n)
    (handles : ∀ e, (handler e).Costs cost k) : (m.catching caught handler).Costs cost (k + n) := by
  apply costs_andThen body
  intro result
  cases result with
  | ok a => trivial
  | error e =>
      dsimp only
      split
      · exact handles e
      · trivial

/-- Calls that are free cost nothing, however many there are. -/
theorem Within.costs {m : Program calls α} (within : m.Within fun c => cost c = 0) :
    m.Costs cost 0 := by
  induction m with
  | done result => trivial
  | await call onReply ih =>
      exact ⟨Nat.le_of_eq within.1, fun reply => (ih reply (within.2 reply)).mono (Nat.zero_le _)⟩

/-- Only what costs nothing is called, or what the budget still admits. -/
def budget (cost : calls.Call → Nat) (n : Nat) : Protocol calls Unit :=
  ⟨fun seen c _ => cost c = 0 ∨ spent cost seen + cost c ≤ n, fun _ _ _ _ => True⟩

theorem Costs.obeys {m : Program calls α} (costs : m.Costs cost k)
    (left : spent cost seen + k ≤ n) : m.Obeys (budget cost n) (fun _ _ _ => True) seen () := by
  induction m generalizing seen k with
  | done result => trivial
  | await call onReply ih =>
      obtain ⟨afford, rest⟩ := costs
      refine ⟨.inr (by omega), fun reply after _ => ih reply (rest reply) ?_⟩
      rw [spent_snoc]
      dsimp only
      omega

end Program

namespace Machine
variable [DecidableEq κ] {m : Machine κ W calls α} {c c' : Config κ W calls α}

/-- No thread spends more than the budget of its program. -/
theorem run_spent {step : Config κ W calls α → Event κ W calls α → Config κ W calls α → Prop}
    (sub : ∀ {c e c'}, step c e c' → m.Step c e c') (absent : ∀ i, c.threads i = .absent)
    (spawned : ∀ c i p, m.spawn c i p → p.Costs cost n)
    (resumed : ∀ w i a p, m.again w i a p → p.Within fun call => cost call = 0)
    (run : Transition.Run step c trace c') (i : κ) : spent cost (c'.threads i).past ≤ n := by
  suffices kept : c'.Obeys (fun _ => Program.budget cost n) (fun _ _ _ _ => True) (fun _ _ => ()) ∧
      ∀ i, spent cost (c'.threads i).past ≤ n from kept.2 i
  refine run.invariant (P := fun d => d.Obeys (fun _ => Program.budget cost n)
    (fun _ _ _ _ => True) (fun _ _ => ()) ∧
    ∀ i, spent cost (d.threads i).past ≤ n) ?_ ⟨fun i seen rest active => ?_, fun i => ?_⟩
  · rintro c e c' ⟨obeys, few⟩ taken
    refine ⟨(sub taken).history (fun _ _ _ _ => trivial) (fun c i p entry =>
      (spawned c i p entry).obeys (by simp))
      (fun w i a p seen next => (resumed w i a p next).obeys (fun _ _ _ free => Or.inl free) _ _)
        obeys, fun i => ?_⟩
    · rw [(sub taken).past i]
      cases own : e.own i with
      | none => simpa using few i
      | some x =>
          obtain ⟨before, rfl⟩ :=
            Event.mem_own.mp (own ▸ Option.mem_toList.mpr rfl : x ∈ (e.own i).toList)
          rw [Option.toList_some, spent_snoc]
          rcases (sub taken).allowed obeys with free | afford
          · rw [free]
            exact few i
          · exact afford
  · rw [absent i] at active
    contradiction
  · rw [absent i]
    exact Nat.zero_le _

end Machine

end Coroutine
