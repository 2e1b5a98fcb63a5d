import Mathlib.Data.List.Induction

/-! Finite runs of a labelled transition relation, with the trace of their labels.
A run grows at its end, so that a property of the trace so far and of the state
reached is shown by looking at one step. -/
namespace Transition
variable {S E : Type}

inductive Run (step : S → E → S → Prop) : S → List E → S → Prop where
  | refl (s) : Run step s [] s
  | next : Run step s trace t → step t e u → Run step s (trace ++ [e]) u

/-- The steps of `step` whose label and source state meet a condition. -/
def Guarded (step : S → E → S → Prop) (condition : S → E → S → Prop) (s : S) (e : E) (t : S) :
    Prop :=
  step s e t ∧ condition s e t

/-- Every event of a trace meets a condition on the events before it. -/
def Always (condition : List E → E → Prop) (trace : List E) : Prop :=
  ∀ past e rest, trace = past ++ e :: rest → condition past e

section
variable {condition : List E → E → Prop} {past : List E} {e : E}

theorem Always.init (always : Always condition (past ++ [e])) : Always condition past := by
  rintro before e' rest rfl
  exact always before e' (rest ++ [e]) (by simp)

theorem Always.last (always : Always condition (past ++ [e])) : condition past e :=
  always past e [] rfl

theorem Always.left {before after : List E} (always : Always condition (before ++ after)) :
    Always condition before := by
  rintro past e rest rfl
  exact always past e (rest ++ after) (by simp)

theorem always_of {trace : List E} (holds : ∀ e ∈ trace, ∀ past, condition past e) :
    Always condition trace := by
  intro past e rest same
  exact holds e (same ▸ List.mem_append_right _ List.mem_cons_self) past

theorem always_snoc (always : Always condition past) (last : condition past e) :
    Always condition (past ++ [e]) := by
  intro before e' rest same
  rcases List.eq_nil_or_concat rest with rfl | ⟨rest, x, rfl⟩
  · obtain ⟨rfl, one⟩ := List.append_inj' same rfl
    rwa [← List.singleton_inj.mp one]
  · rw [List.concat_eq_append, ← List.cons_append, ← List.append_assoc] at same
    exact always before e' rest (List.append_inj' same rfl).1

end

namespace Run
variable {step other : S → E → S → Prop}

theorem single (taken : step s e t) : Run step s [e] t := .next (.refl s) taken

theorem trans (first : Run step s before t) (second : Run step t after u) :
    Run step s (before ++ after) u := by
  induction second with
  | refl => simpa only [List.append_nil] using first
  | next run taken ih =>
      rw [← List.append_assoc]
      exact .next ih taken

theorem mono (weaker : ∀ {s e t}, step s e t → other s e t) (run : Run step s trace t) :
    Run other s trace t := by
  induction run with
  | refl => exact .refl _
  | next _ taken ih => exact .next ih (weaker taken)

theorem unguard (run : Run (Guarded step condition) s trace t) : Run step s trace t :=
  run.mono And.left

theorem of_nil (run : Run step s [] t) : s = t := by
  generalize same : ([] : List E) = trace at run
  cases run with
  | refl => rfl
  | next _ _ => simp at same

theorem of_snoc (run : Run step s (trace ++ [e]) u) :
    ∃ t, Run step s trace t ∧ step t e u := by
  generalize same : trace ++ [e] = whole at run
  cases run with
  | refl => simp at same
  | next earlier taken =>
      obtain ⟨rfl, last⟩ := List.append_inj' same rfl
      cases List.cons.inj last |>.1
      exact ⟨_, earlier, taken⟩

/-- A run whose trace splits passes through a state at the split. -/
theorem split {before after : List E} (run : Run step s (before ++ after) u) :
    ∃ t, Run step s before t ∧ Run step t after u := by
  induction after using List.reverseRecOn generalizing u with
  | nil => exact ⟨u, by simpa only [List.append_nil] using run, .refl u⟩
  | append_singleton rest e ih =>
      rw [← List.append_assoc] at run
      obtain ⟨t, earlier, taken⟩ := of_snoc run
      obtain ⟨middle, first, second⟩ := ih earlier
      exact ⟨middle, first, .next second taken⟩

theorem split_at {before after : List E} (run : Run step s (before ++ e :: after) u) :
    ∃ t t', Run step s before t ∧ step t e t' ∧ Run step t' after u := by
  obtain ⟨t, first, rest⟩ := run.split
  obtain ⟨t', only, last⟩ : ∃ t', Run step t [e] t' ∧ Run step t' after u := Run.split rest
  obtain ⟨t'', start, taken⟩ : ∃ t'', Run step t [] t'' ∧ step t'' e t' := of_snoc only
  cases start.of_nil
  exact ⟨t, t', first, taken, last⟩

/-- An event of a trace was the label of a step. -/
theorem taken (run : Run step s trace u) (member : e ∈ trace) : ∃ t t', step t e t' := by
  obtain ⟨before, after, rfl⟩ := List.append_of_mem member
  obtain ⟨t, t', -, taken, -⟩ := run.split_at
  exact ⟨t, t', taken⟩

/-- What holds initially and is kept by every step holds in every state reached. -/
theorem invariant {P : S → Prop} (kept : ∀ {s e t}, P s → step s e t → P t)
    (run : Run step s trace t) (initial : P s) : P t := by
  induction run with
  | refl => exact initial
  | next _ taken ih => exact kept ih taken

/-- What holds of the empty trace and is kept as the trace grows holds of every run. -/
theorem traced {P : List E → S → Prop} (initial : P [] s)
    (kept : ∀ {past t e u}, Run step s past t → P past t → step t e u → P (past ++ [e]) u)
    (run : Run step s trace t) : P trace t := by
  induction run with
  | refl => exact initial
  | next earlier taken ih => exact kept earlier ih taken

/-- Steps that an invariant shows to be steps of another relation as well. -/
theorem sharpen {P : S → Prop} (kept : ∀ {s e t}, P s → step s e t → P t)
    (each : ∀ {s e t}, P s → step s e t → other s e t) (run : Run step s trace t) (initial : P s) :
    Run other s trace t := by
  induction run with
  | refl => exact .refl _
  | next earlier taken ih => exact .next ih (each (earlier.invariant kept initial) taken)

/-- A run is followed, step by step, by a run of another system. -/
theorem simulate {T F : Type} {follows : T → F → T → Prop} {P : S → Prop}
    (state : S → T) (label : E → F) (kept : ∀ {s e t}, P s → step s e t → P t)
    (each : ∀ {s e t}, P s → step s e t → follows (state s) (label e) (state t))
    (run : Run step s trace t) (initial : P s) :
    Run follows (state s) (trace.map label) (state t) := by
  induction run with
  | refl => exact .refl _
  | next earlier taken ih =>
      rw [List.map_append]
      exact .next ih (each (earlier.invariant kept initial) taken)

/-- A run is followed by a run of another system in which the same is observed, if each of its steps
is. -/
theorem observe {T F O : Type} {follows : T → F → T → Prop} {P : S → Prop} {shown : E → List O}
    {seen : F → List O} (state : S → T) (kept : ∀ {s e t}, P s → step s e t → P t)
    (each : ∀ {s e t}, P s → step s e t → ∃ more, Run follows (state s) more (state t) ∧
      more.flatMap seen = shown e)
    (run : Run step s trace t) (initial : P s) :
    ∃ moves, Run follows (state s) moves (state t) ∧ moves.flatMap seen = trace.flatMap shown := by
  induction run with
  | refl => exact ⟨[], .refl _, rfl⟩
  | next earlier taken ih =>
      obtain ⟨moves, followed, same⟩ := ih
      obtain ⟨more, last, shows⟩ := each (earlier.invariant kept initial) taken
      refine ⟨moves ++ more, followed.trans last, ?_⟩
      rw [List.flatMap_append, List.flatMap_append, same, shows, List.flatMap_singleton]

/-- A reflexive and transitive relation that holds across each step holds across a run. -/
theorem relation {R : S → S → Prop} (refl : ∀ s, R s s)
    (trans : ∀ {s t u}, R s t → R t u → R s u) (across : ∀ {s e t}, step s e t → R s t)
    (run : Run step s trace t) : R s t := by
  induction run with
  | refl => exact refl _
  | next _ taken ih => exact trans ih (across taken)

end Run

end Transition
