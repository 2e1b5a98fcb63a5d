import WiseOrder.Foundation.Contract

/-! Runs of one thread by itself, given by the replies that its calls get. -/
namespace Coroutine
variable {calls : Signature} {κ W α : Type}

/-- The program goes through the interactions and is left with the rest of it. -/
inductive Plays (perform : (c : calls.Call) → W → Except calls.Error (calls.Reply c) → W → Prop) :
    Program calls α → W → List (Interaction calls) → Program calls α → W → Prop where
  | stop (p w) : Plays perform p w [] p w
  | call {c onReply w reply w' script p w''} (performed : perform c w reply w')
      (rest : Plays perform (onReply reply) w' script p w'') :
      Plays perform (.await c onReply) w (⟨c, reply⟩ :: script) p w''

/-- A program that obeys where its calls are performed issues only calls that are allowed, and goes
on to obey. -/
theorem Plays.obeys {perform : (c : calls.Call) → W → Except calls.Error (calls.Reply c) → W → Prop}
    {P : Protocol calls W} {post : Post calls W α} {may : calls.Call → Prop}
    {p p' : Program calls α} {w w' : W} {script seen : List (Interaction calls)}
    (plays : Plays perform p w script p' w') (obeys : p.Obeys P post seen w)
    (effects : ∀ {c w reply w'}, perform c w reply w' → P.effect c w reply w')
    (admits : ∀ {seen c w}, P.allowed seen c w → may c) :
    (∀ x ∈ script, may x.call) ∧ p'.Obeys P post (seen ++ script) w' := by
  induction plays generalizing seen with
  | stop p w => exact ⟨fun x member => absurd member List.not_mem_nil, by rwa [List.append_nil]⟩
  | call performed rest ih =>
      obtain ⟨allowed, later⟩ := ih (obeys.2 _ _ (effects performed))
      refine ⟨fun x member => ?_, by rwa [List.append_assoc, List.singleton_append] at later⟩
      rcases List.mem_cons.mp member with rfl | later
      · exact admits obeys.1
      · exact allowed x later

section
variable {perform : (c : calls.Call) → W → Except calls.Error (calls.Reply c) → W → Prop}
    {p p' : Program calls α} {w w' : W}
  {script : List (Interaction calls)}

/-- A program goes through a script also with something to do after it. -/
theorem Plays.andThen (next : Except calls.Error α → Program calls β)
    (plays : Plays perform p w script p' w') :
    Plays perform (p.andThen next) w script (p'.andThen next) w' := by
  induction plays with
  | stop p w => exact .stop _ _
  | call performed rest ih => exact .call performed ih

theorem Plays.trans {more : List (Interaction calls)} {p'' : Program calls α} {w'' : W}
    (first : Plays perform p w script p' w') (second : Plays perform p' w' more p'' w'') :
    Plays perform p w (script ++ more) p'' w'' := by
  induction first with
  | stop p w => exact second
  | call performed rest ih => exact .call performed (ih second)

end

namespace Machine
variable [DecidableEq κ] {m : Machine κ W calls α}
  {condition : Config κ W calls α → Event κ W calls α → Config κ W calls α → Prop}

/-- The events of a thread that plays a script. -/
def Playing (i : κ) (script : List (Interaction calls)) (events : List (Event κ W calls α)) :
    Prop :=
  ∀ e ∈ events, ∃ x ∈ script, ∃ before, e = .call i x before

/-- A thread that plays a script takes the pool along. -/
theorem run_plays {i : κ} {p p' : Program calls α} {w w' : W} {script : List (Interaction calls)}
    {start : Config κ W calls α} {threads : κ → Thread calls α} {seen : List (Interaction calls)}
    (earlier : Transition.Run (Transition.Guarded m.Step condition) start past ⟨w, threads⟩)
    (active : threads i = .active seen p) (plays : Plays (m.perform i) p w script p' w')
    (admitted : ∀ c x before c', x ∈ script → condition c (.call i x before) c') :
    ∃ events, Playing i script events ∧ Transition.Run (Transition.Guarded m.Step condition) start
    (past ++ events)
      ⟨w', Function.update threads i (.active (seen ++ script) p')⟩ := by
  induction plays generalizing threads seen past with
  | stop p w =>
      rw [List.append_nil, ← active, Function.update_eq_self]
      exact ⟨[], fun _ member => absurd member List.not_mem_nil, by rwa [List.append_nil]⟩
  | @call c onReply w reply w' script p w'' performed rest ih =>
      have next := earlier.next ⟨.call active performed, admitted _ _ _ _ List.mem_cons_self⟩
      obtain ⟨events, playing, run⟩ := ih next (Function.update_self ..)
        fun d x before d' member => admitted d x before d' (List.mem_cons_of_mem _ member)
      rw [Function.update_idem, List.append_assoc, List.append_assoc, List.singleton_append,
        List.singleton_append] at run
      refine ⟨_, fun e member => ?_, run⟩
      rcases List.mem_cons.mp member with rfl | later
      · exact ⟨_, List.mem_cons_self, w, rfl⟩
      · obtain ⟨x, there, before, same⟩ := playing e later
        exact ⟨x, List.mem_cons_of_mem _ there, before, same⟩

/-- A thread is spawned and plays a script. -/
theorem run_spawned {i : κ} {p p' : Program calls α} {w w' : W} {script : List (Interaction calls)}
    {start : Config κ W calls α} {threads : κ → Thread calls α}
    (earlier : Transition.Run (Transition.Guarded m.Step condition) start past ⟨w, threads⟩)
    (unused : threads i = .absent) (entry : m.spawn ⟨w, threads⟩ i p)
    (plays : Plays (m.perform i) p w script p' w')
    (starts : ∀ c', condition ⟨w, threads⟩ (.spawn i p) c')
    (admitted : ∀ c x before c', x ∈ script → condition c (.call i x before) c') :
    ∃ events, Playing i script events ∧
      Transition.Run (Transition.Guarded m.Step condition) start (past ++ .spawn i p :: events)
        ⟨w', Function.update threads i (.active script p')⟩ := by
  have next := earlier.next ⟨.spawn unused entry, starts _⟩
  obtain ⟨events, playing, run⟩ := run_plays next (Function.update_self ..) plays admitted
  rw [Function.update_idem, List.nil_append, List.append_assoc, List.singleton_append] at run
  exact ⟨events, playing, run⟩

end Machine

end Coroutine
