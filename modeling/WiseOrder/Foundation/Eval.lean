import WiseOrder.Foundation.Script

/-! Programs in surroundings that answer every call in one way. -/
namespace Coroutine
variable {calls : Signature} {W α β : Type}

/-- How a call is answered in a state, and the state it leaves. -/
abbrev Answers (calls : Signature) (W : Type) := (c : calls.Call) → W → Except calls.Error
    (calls.Reply c) × W

namespace Program
variable {answer : Answers calls W} {w : W}

def eval (answer : Answers calls W) : Program calls α → W → Except calls.Error α × W
  | .done result, w => (result, w)
  | .await c onReply, w => (onReply (answer c w).1).eval answer (answer c w).2

@[simp]
theorem eval_call (c : calls.Call) : (call c).eval answer w = answer c w := rfl

@[simp]
theorem eval_done (result : Except calls.Error α) :
    (done result : Program calls α).eval answer w = (result, w) := rfl

@[simp]
theorem eval_ret (a : α) : (pure a : Program calls α).eval answer w = (.ok a, w) := rfl

@[simp]
theorem eval_raise (e : calls.Error) : (raise e : Program calls α).eval answer w = (.error e, w) :=
  rfl

theorem eval_andThen (m : Program calls α) (next : Except calls.Error α → Program calls β) :
    (m.andThen next).eval answer w = (next (m.eval answer w).1).eval answer
    (m.eval answer w).2 := by
  induction m generalizing w with
  | done result => rfl
  | await c onReply ih => exact ih _

theorem eval_bind (m : Program calls α) (f : α → Program calls β) : (m >>= f).eval answer w =
    match (m.eval answer w).1 with
    | .ok a => (f a).eval answer (m.eval answer w).2
    | .error e => (.error e, (m.eval answer w).2) := by
  refine (eval_andThen m _).trans ?_
  cases (m.eval answer w).1 <;> rfl

/-- A first part that returns. -/
theorem eval_bind_ok {m : Program calls α} {f : α → Program calls β} {a : α} {w' : W}
    (first : m.eval answer w = (.ok a, w')) : (m >>= f).eval answer w = (f a).eval answer w' := by
  rw [eval_bind, first]

/-- A first part that raises. -/
theorem eval_bind_error {m : Program calls α} {f : α → Program calls β} {e : calls.Error} {w' : W}
    (first : m.eval answer w = (.error e, w')) : (m >>= f).eval answer w = (.error e, w') := by
  rw [eval_bind, first]

theorem eval_catching_ok {caught : calls.Error → Bool} {body : Program calls α}
    {handler : calls.Error → Program calls α} {a : α} {w' : W}
    (returns : body.eval answer w = (.ok a, w')) :
    (body.catching caught handler).eval answer w = (.ok a, w') := by
  refine (eval_andThen body _).trans ?_
  rw [returns]
  rfl

theorem eval_catching_error {caught : calls.Error → Bool} {body : Program calls α}
    {handler : calls.Error → Program calls α} {e : calls.Error} {w' : W}
    (raises : body.eval answer w = (.error e, w')) : (body.catching caught handler).eval answer w =
      if caught e then (handler e).eval answer w' else (.error e, w') := by
  refine (eval_andThen body _).trans ?_
  rw [raises]
  dsimp only
  split <;> rfl

/-- States that every call of a program answers in the same way, and keeps related, lead it to the
same end. -/
theorem eval_related {R : W → W → Prop} {may : calls.Call → Prop} {m : Program calls α}
    {v : W} (within : m.Within may)
    (same : ∀ c, may c → ∀ w v, R w v → (answer c w).1 = (answer c v).1 ∧
      R (answer c w).2 (answer c v).2) (related : R w v) :
    (m.eval answer w).1 = (m.eval answer v).1 ∧ R (m.eval answer w).2 (m.eval answer v).2 := by
  induction m generalizing w v with
  | done result => exact ⟨rfl, related⟩
  | await c onReply ih =>
      obtain ⟨replies, related⟩ := same c within.1 w v related
      simp only [eval, replies]
      exact ih _ (within.2 _) related

end Program

end Coroutine
