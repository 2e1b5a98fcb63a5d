import WiseOrder.Foundation.Eval
import WiseOrder.Python
import Mathlib.Algebra.BigOperators.Intervals
import Mathlib.Algebra.Order.BigOperators.Group.Finset

/-! The call of the language model: attempts under a time limit, and a bounded number
of retries of those that time out or meet a transient error of the provider. -/
namespace WiseOrder.LlmCall
open Coroutine

structure Request where
  model : String
  prompt : String
  temperature : Json.Float
  maxTokens : Nat
  timeout : Json.Float

/-- What an attempt awaits: the completion, which raises when the limit passes, and the pause after
a transient error. -/
inductive Call where
  | acompletion (r : Request)
  | sleep (seconds : Nat)

def Call.Reply : Call → Type
  | .acompletion _ => Json
  | .sleep _ => Unit

abbrev llm : Signature := ⟨Call, Call.Reply, PyException⟩

/-- The clause of the `try` that selects an exception. The classes are the provider library's. -/
inductive Clause where
  | timeout
  | transient
  | none
  deriving DecidableEq

def getItem (key : String) : Json → Except PyException Json
  | .obj fields => match Json.lookup key fields with
      | some value => .ok value
      | none => .error (.keyError (Python.reprString key))
  | other => .error (.typeError ("'" ++ Python.typeName other ++ "' object is not subscriptable"))

def getFirst : Json → Except PyException Json
  | .arr (x :: _) => .ok x
  | .arr [] => .error ⟨.other "IndexError", "list index out of range"⟩
  | other => .error (.typeError ("'" ++ Python.typeName other ++ "' object is not subscriptable"))

/-- `resp["choices"][0]["message"]["content"].strip()` -/
def content (resp : Json) : Except PyException String := do
  let choices ← getItem "choices" resp
  let choice ← getFirst choices
  let message ← getItem "message" choice
  match ← getItem "content" message with
  | .str text => .ok (Python.strip text)
  | other =>
      .error (.attributeError ("'" ++ Python.typeName other ++ "' object has no attribute 'strip'"))

variable (clause : PyException → Clause)

/-- The loop, after a number of attempts. Every way round it has one attempt fewer left. -/
def attempts (r : Request) (maxRetries : Int) (attempt : Nat) : Program llm String :=
  .await (.acompletion r) fun reply =>
    match reply.bind content with
    | .ok text => .ret text
    | .error e =>
        match clause e with
        | .timeout =>
            if attempt + 1 > maxRetries then .raise e else attempts r maxRetries (attempt + 1)
        | .transient =>
            if attempt + 1 > maxRetries then .raise e
            else .await (.sleep (min (2 ^ (attempt + 1)) 30)) fun
              | .ok _ => attempts r maxRetries (attempt + 1)
              | .error interrupted => .raise interrupted
        | .none => .raise e
termination_by (maxRetries - attempt).toNat

def llmCall (r : Request) (maxRetries : Int) : Program llm String := attempts clause r maxRetries 0

/-- The attempts made and the seconds slept. -/
structure Meter where
  made : Nat
  slept : Nat

/-- Surroundings that answer the attempts, counted from 1, with a sequence of outcomes. -/
def answer (outcome : Nat → Except PyException Json) : Answers llm Meter
  | .acompletion _, w => (outcome (w.made + 1), { w with made := w.made + 1 })
  | .sleep seconds, w => (.ok (), { w with slept := w.slept + seconds })

/-- The attempt timed out or met a transient error. -/
def Retried (reply : Except PyException Json) : Prop :=
  ∃ e, reply.bind content = .error e ∧ clause e ≠ .none

/-- The pauses after the attempts before the `n`-th, at most. -/
def pauses (n : Nat) : Nat := (Finset.Ico 1 n).sum fun i => min (2 ^ i) 30

theorem pauses_succ (positive : 1 ≤ n) : pauses (n + 1) = pauses n + min (2 ^ n) 30 :=
  Finset.sum_Ico_succ_top positive _

theorem pauses_mono (le : m ≤ n) : pauses m ≤ pauses n :=
  Finset.sum_le_sum_of_subset (Finset.Ico_subset_Ico_right le)

/-- How the loop ends from some attempt on: the `k`-th attempt, which is not retried or the last one
allowed, gives the result. -/
structure Settles (outcome : Nat → Except PyException Json) (maxRetries : Int) (start : Meter)
    (ended : Except PyException String × Meter) : Prop where
  later : start.made < ended.2.made
  bounded : (ended.2.made : Int) ≤ max ((start.made : Int) + 1) (maxRetries + 1)
  retried : ∀ j, start.made < j → j < ended.2.made → Retried clause (outcome j)
  last : Retried clause (outcome ended.2.made) → maxRetries < ended.2.made
  result : ended.1 = (outcome ended.2.made).bind content
  slept : ended.2.slept + pauses (start.made + 1) ≤ start.slept + pauses ended.2.made

variable {clause} {outcome : Nat → Except PyException Json} {maxRetries : Int} {r : Request}

/-- An attempt that ends the loop. -/
theorem settles_now {w : Meter} {result : Except PyException String}
    (replied : (outcome (w.made + 1)).bind content = result)
    (last : ∀ e, result = .error e → clause e ≠ .none → maxRetries < w.made + 1) :
    Settles clause outcome maxRetries w (result, { w with made := w.made + 1 }) where
  later := Nat.lt_succ_self _
  bounded := by
    push_cast
    exact le_max_left _ _
  retried j above below := absurd below (Nat.not_lt.mpr above)
  last := by
    rintro ⟨e, raised, selected⟩
    have := last e (replied.symm.trans raised) selected
    push_cast
    exact this
  result := replied.symm
  slept := Nat.le_refl _

/-- An attempt that is retried, after a pause. -/
theorem settles_later {w : Meter} {ended : Except PyException String × Meter}
    (retried : Retried clause (outcome (w.made + 1))) (more : (w.made : Int) + 1 ≤ maxRetries)
    (pause : p ≤ min (2 ^ (w.made + 1)) 30)
    (rest : Settles clause outcome maxRetries ⟨w.made + 1, w.slept + p⟩ ended) :
    Settles clause outcome maxRetries w ended where
  later := Nat.lt_of_succ_lt rest.later
  bounded := by
    have := rest.bounded
    push_cast at this
    omega
  retried j above below := by
    rcases Nat.lt_or_eq_of_le (Nat.succ_le_of_lt above) with next | same
    · exact rest.retried j next below
    · exact same ▸ retried
  last := rest.last
  result := rest.result
  slept := by
    have := rest.slept
    have grown := pauses_succ (n := w.made + 1) (Nat.le_add_left 1 _)
    dsimp only at this
    omega

/-- What one way round the loop does. -/
theorem eval_attempts (a slept : Nat) :
    (attempts clause r maxRetries a).eval (answer outcome) ⟨a, slept⟩ =
    match (outcome (a + 1)).bind content with
    | .ok text => (.ok text, ⟨a + 1, slept⟩)
    | .error e =>
        match clause e with
        | .timeout =>
            if a + 1 > maxRetries then (.error e, ⟨a + 1, slept⟩)
            else (attempts clause r maxRetries (a + 1)).eval (answer outcome) ⟨a + 1, slept⟩
        | .transient =>
            if a + 1 > maxRetries then (.error e, ⟨a + 1, slept⟩)
            else (attempts clause r maxRetries (a + 1)).eval (answer outcome) ⟨a + 1,
              slept + min (2 ^ (a + 1)) 30⟩
        | .none => (.error e, ⟨a + 1, slept⟩) := by
  rw [attempts]
  simp only [Program.eval, answer]
  cases replied : (outcome (a + 1)).bind content with
  | ok text =>
      erw [replied]
      rfl
  | error e =>
      erw [replied]
      dsimp only
      by_cases spent : (a : Int) + 1 > maxRetries
      · cases clause e <;> simp only [spent, if_true] <;> rfl
      · cases clause e <;> simp only [spent, if_false] <;> rfl

theorem attempts_settle (a slept : Nat) :
    Settles clause outcome maxRetries ⟨a, slept⟩
    ((attempts clause r maxRetries a).eval (answer outcome) ⟨a, slept⟩) := by
  induction left : (maxRetries - a).toNat generalizing a slept with
  | zero =>
      have spent : (a : Int) + 1 > maxRetries := by omega
      rw [eval_attempts]
      cases replied : (outcome (a + 1)).bind content with
      | ok text => exact settles_now (w := ⟨a, slept⟩) replied fun e raised => by cases raised
      | error e =>
          dsimp only
          cases selected : clause e <;> simp only [spent, if_true] <;>
            exact settles_now (w := ⟨a, slept⟩) replied fun _ _ _ => spent
  | succ n ih =>
      rw [eval_attempts]
      cases replied : (outcome (a + 1)).bind content with
      | ok text => exact settles_now (w := ⟨a, slept⟩) replied fun e raised => by cases raised
      | error e =>
          have left' : (maxRetries - (a + 1 : Nat)).toNat = n := by omega
          have more : ¬ (a : Int) + 1 > maxRetries := by omega
          dsimp only
          cases selected : clause e with
          | none =>
              refine settles_now (w := ⟨a, slept⟩) replied fun raised same caught => ?_
              cases same
              exact absurd selected caught
          | timeout =>
              simp only [more, if_false]
              exact settles_later (w := ⟨a, slept⟩) ⟨e, replied, by simp [selected]⟩
                (Int.not_lt.mp more) (Nat.zero_le _)
                (ih _ _ left')
          | transient =>
              simp only [more, if_false]
              exact settles_later (w := ⟨a, slept⟩) ⟨e, replied, by simp [selected]⟩
                (Int.not_lt.mp more) (Nat.le_refl _)
                (ih _ _ left')

/-- An attempt within the bound that ends the loop, where every earlier one is retried. -/
theorem settles_at {ended : Except PyException String × Meter}
    (settles : Settles clause outcome maxRetries ⟨0, 0⟩ ended) {k : Nat} (positive : 1 ≤ k)
    (within : (k : Int) ≤ max 1 (maxRetries + 1))
    (earlier : ∀ j, 1 ≤ j → j < k → Retried clause (outcome j))
    (stops : ¬ Retried clause (outcome k)) : ended.2.made = k ∧ ended.1 =
    (outcome k).bind content := by
  have later := settles.later
  have same : ended.2.made = k := by
    rcases Nat.lt_trichotomy ended.2.made k with before | same | after
    · have := settles.last (earlier _ later before)
      omega
    · exact same
    · exact absurd (settles.retried k positive after) stops
  exact ⟨same, same ▸ settles.result⟩

/-- Bounded retries: the loop ends within its attempts, with the first text, with the first
exception that no clause selects, or with the exception of the last attempt when every one allowed
is retried. -/
theorem llm_bounded (clause : PyException → Clause) (outcome : Nat → Except PyException Json)
    (maxRetries : Int) (r : Request) :
    let ended := (llmCall clause r maxRetries).eval (answer outcome) ⟨0, 0⟩
    (ended.2.made : Int) ≤ max 1 (maxRetries + 1) ∧
    (∀ (k : Nat) text, 1 ≤ k → (k : Int) ≤ max 1 (maxRetries + 1) →
      (∀ j, 1 ≤ j → j < k → Retried clause (outcome j)) →
      (outcome k).bind content = .ok text → ended.2.made = k ∧ ended.1 = .ok text) ∧
    (∀ (k : Nat) e, 1 ≤ k → (k : Int) ≤ max 1 (maxRetries + 1) →
      (∀ j, 1 ≤ j → j < k → Retried clause (outcome j)) →
      (outcome k).bind content = .error e → clause e = .none → ended.2.made = k ∧ ended.1 =
        .error e) ∧
    ((∀ k : Nat, 1 ≤ k → (k : Int) ≤ max 1 (maxRetries + 1) → Retried clause (outcome k)) →
      (ended.2.made : Int) = max 1 (maxRetries + 1) ∧
        ∃ e, (outcome ended.2.made).bind content = .error e ∧ ended.1 = .error e) ∧
    ended.2.slept ≤ (Finset.Icc 1 maxRetries.toNat).sum fun i => min (2 ^ i) 30 := by
  intro ended
  have settles : Settles clause outcome maxRetries ⟨0, 0⟩ ended := attempts_settle 0 0
  have later : 0 < ended.2.made := settles.later
  have bounded : (ended.2.made : Int) ≤ max 1 (maxRetries + 1) := by simpa using settles.bounded
  refine ⟨bounded, fun k text positive within earlier returned => ?_,
    fun k e positive within earlier raised passes => ?_,
    fun all => ?_, ?_⟩
  · have stops : ¬ Retried clause (outcome k) := by
      rintro ⟨e, raised, -⟩
      cases returned.symm.trans raised
    obtain ⟨same, result⟩ := settles_at settles positive within earlier stops
    exact ⟨same, result.trans returned⟩
  · have stops : ¬ Retried clause (outcome k) := by
      rintro ⟨e', raised', selected⟩
      cases raised.symm.trans raised'
      exact selected passes
    obtain ⟨same, result⟩ := settles_at settles positive within earlier stops
    exact ⟨same, result.trans raised⟩
  · have retried := all _ later bounded
    have last := settles.last retried
    obtain ⟨e, raised, -⟩ := retried
    exact ⟨by omega, e, raised, settles.result.trans raised⟩
  · have few : pauses ended.2.made ≤ pauses (maxRetries.toNat + 1) := pauses_mono (by omega)
    have none : pauses 1 = 0 := rfl
    have slept := settles.slept
    simp only [Nat.zero_add, none, Nat.add_zero] at slept
    exact slept.trans few

end WiseOrder.LlmCall
