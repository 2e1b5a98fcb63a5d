import WiseOrder.Runtime.Rules

/-! What the history of a commit pipeline says of its failures: which exceptions
were swallowed, and which one ended the step that it fell into. -/
namespace WiseOrder
open Coroutine

namespace Call

/-- An exception of these calls is caught where it is raised and only logged. -/
def Swallowed : Call → Prop
  | .upsert .. | .session (.setEmbedding ..) | .appendFile _ | .httpPost .. => True
  | _ => False

/-- An exception of these calls reaches the `except` clause of a step. -/
def Handled : Call → Prop
  | .summarize .. | .draft .. | .upsert .. | .appendFile _ | .httpOpen
      | .httpPost .. | .httpClose => True
  | .session (.completeTask ..) | .session (.appendLog ..) | .session (.addMemory ..)
  | .session (.setEmbedding ..) | .session (.addApproval _) | .session (.setDelivered ..) => True
  | _ => False

/-- The transactions that finish a workflow. -/
def Finishes : Call → Prop
  | .session (.failWorkflow ..) | .session (.completeWorkflow ..) => True
  | _ => False

def isSend : Call → Bool
  | .session (.addApproval _) => true
  | _ => false

end Call

namespace History

/-- How often a request for approval was begun. -/
def sends (h : History) : Nat := h.countP fun x => x.call.isSend

/-- The vector store took the commit. -/
def isUpserted : Interaction calls → Bool
  | ⟨.upsert .., .ok _⟩ => true
  | _ => false

/-- The row's embedding id could not be written. -/
def isUnembedded : Interaction calls → Bool
  | ⟨.session (.setEmbedding ..), .error _⟩ => true
  | _ => false

/-- The workflow row was committed. -/
def isRecorded : Interaction calls → Bool
  | ⟨.session (.addWorkflow ..), .ok _⟩ => true
  | _ => false

/-- A task row was committed. -/
def isCreated : Interaction calls → Bool
  | ⟨.session (.createTask ..), .ok _⟩ => true
  | _ => false

def upserted (h : History) : Bool := h.any isUpserted
def unembedded (h : History) : Bool := h.any isUnembedded
def recorded (h : History) : Bool := h.any isRecorded

/-- How many task rows were committed. -/
def created (h : History) : Nat := h.countP isCreated

/-- Only calls raised whose exceptions are swallowed. -/
def Smooth (h : History) : Prop := ∀ x ∈ h, x.raised ≠ none → x.call.Swallowed

/-- The last exception that a call raised, and the call. -/
def LastFault (h : History) (c : Call) (e : PyException) : Prop :=
  ∃ before after, h = before ++ ⟨c, .error e⟩ :: after ∧ ∀ x ∈ after, x.raised = none

/-- An exception that comes to an `except` clause, or would: from the code between
calls, or as the last one raised by a call. -/
def Raised (h : History) (e : PyException) : Prop :=
  (h.Smooth ∧ e.isException = true) ∨ ∃ c, c.Handled ∧ h.LastFault c e

variable {h : History} {c : Call} {e : PyException}

@[simp] theorem sends_nil : History.sends [] = 0 := rfl

@[simp] theorem sends_append : History.sends (h ++ more) = h.sends + History.sends more :=
  List.countP_append

@[simp] theorem sends_cons (x : Interaction calls) :
    History.sends (x :: h) = h.sends + if x.call.isSend then 1 else 0 := List.countP_cons

@[simp] theorem created_nil : History.created [] = 0 := rfl

@[simp] theorem created_append : History.created (h ++ more) = h.created + History.created more :=
  List.countP_append

@[simp] theorem created_cons (x : Interaction calls) :
    History.created (x :: h) = h.created + if isCreated x then 1 else 0 := List.countP_cons

@[simp] theorem recorded_nil : History.recorded [] = false := rfl

@[simp] theorem recorded_append : History.recorded (h ++ more) =
    (h.recorded || History.recorded more) :=
  List.any_append

@[simp] theorem recorded_cons (x : Interaction calls) :
    History.recorded (x :: h) = (isRecorded x || h.recorded) := List.any_cons

@[simp] theorem upserted_nil : History.upserted [] = false := rfl

@[simp] theorem upserted_append : History.upserted (h ++ more) =
    (h.upserted || History.upserted more) :=
  List.any_append

@[simp] theorem upserted_cons (x : Interaction calls) :
    History.upserted (x :: h) = (isUpserted x || h.upserted) := List.any_cons

@[simp] theorem unembedded_nil : History.unembedded [] = false := rfl

@[simp] theorem unembedded_append :
    History.unembedded (h ++ more) = (h.unembedded || History.unembedded more) := List.any_append

@[simp] theorem unembedded_cons (x : Interaction calls) :
    History.unembedded (x :: h) = (isUnembedded x || h.unembedded) := List.any_cons

theorem smooth_nil : Smooth [] := fun _ member => absurd member List.not_mem_nil

theorem Smooth.ok {x : calls.Reply c} (smooth : h.Smooth) : Smooth (h ++ [⟨c, .ok x⟩]) := by
  intro y member raised
  rcases List.mem_append.mp member with old | new
  · exact smooth y old raised
  · rw [List.mem_singleton.mp new] at raised
    exact absurd rfl raised

theorem Smooth.swallowed (smooth : h.Smooth) (swallowed : c.Swallowed) :
    Smooth (h ++ [⟨c, .error e⟩]) := by
  intro y member raised
  rcases List.mem_append.mp member with old | new
  · exact smooth y old raised
  · rw [List.mem_singleton.mp new]
    exact swallowed

theorem lastFault_error : LastFault (h ++ [⟨c, .error e⟩]) c e := ⟨h, [], rfl, by simp⟩

theorem LastFault.ok {d : Call} {x : calls.Reply d} (last : h.LastFault c e) :
    LastFault (h ++ [⟨d, .ok x⟩]) c e := by
  obtain ⟨before, after, rfl, quiet⟩ := last
  refine ⟨before, after ++ [⟨d, .ok x⟩], by simp, fun y member => ?_⟩
  rcases List.mem_append.mp member with old | new
  · exact quiet y old
  · rw [List.mem_singleton.mp new]
    rfl

theorem LastFault.of_ok {d : Call} {x : calls.Reply d} (last : LastFault (h ++ [⟨d, .ok x⟩]) c e) :
    h.LastFault c e := by
  obtain ⟨before, after, same, quiet⟩ := last
  rcases List.eq_nil_or_concat after with rfl | ⟨rest, y, rfl⟩
  · have last := List.singleton_inj.mp (List.append_inj' same rfl).2
    cases congrArg Interaction.raised last
  · rw [List.concat_eq_append, ← List.cons_append, ← List.append_assoc] at same
    exact ⟨before, rest, (List.append_inj' same rfl).1, fun z member => quiet z (by simp [member])⟩

theorem LastFault.of_error {d : Call} (last : LastFault (h ++ [⟨d, .error e'⟩]) c e) :
    d = c ∧ e' = e := by
  obtain ⟨before, after, same, quiet⟩ := last
  rcases List.eq_nil_or_concat after with rfl | ⟨rest, y, rfl⟩
  · have last := List.singleton_inj.mp (List.append_inj' same rfl).2
    exact ⟨congrArg Interaction.call last, Option.some.inj (congrArg Interaction.raised last)⟩
  · rw [List.concat_eq_append, ← List.cons_append, ← List.append_assoc] at same
    have last := List.singleton_inj.mp (List.append_inj' same rfl).2
    have raised := quiet y (by simp)
    rw [← last] at raised
    contradiction

/-- There is one last exception. -/
theorem LastFault.unique (left : h.LastFault c e) (right : h.LastFault c' e') :
    c = c' ∧ e = e' := by
  obtain ⟨before, after, rfl, quiet⟩ := left
  induction after using List.reverseRecOn with
  | nil => exact right.of_error
  | append_singleton rest y ih =>
      obtain ⟨d, reply⟩ := y
      cases reply with
      | error e'' => exact absurd (quiet ⟨d, .error e''⟩ (by simp)) (by simp [Interaction.raised])
      | ok x =>
          rw [← List.cons_append, ← List.append_assoc] at right
          exact ih (fun z member => quiet z (by simp [member])) right.of_ok

theorem LastFault.smooth (last : h.LastFault c e) (smooth : h.Smooth) : c.Swallowed := by
  obtain ⟨before, after, rfl, -⟩ := last
  exact smooth ⟨c, .error e⟩ (by simp) (by simp [Interaction.raised])

theorem Smooth.raise (smooth : h.Smooth) (caught : e.isException = true) : h.Raised e :=
  .inl ⟨smooth, caught⟩

theorem raised_fault (handled : c.Handled) : Raised (h ++ [⟨c, .error e⟩]) e :=
  .inr ⟨c, handled, lastFault_error⟩

/-- An exception that is not caught was raised by a call. -/
theorem Raised.last (raised : h.Raised e) (uncaught : e.isException = false) :
    ∃ c, h.LastFault c e := by
  rcases raised with ⟨-, caught⟩ | ⟨c, -, last⟩
  · rw [caught] at uncaught
    contradiction
  · exact ⟨c, last⟩

end History

end WiseOrder
