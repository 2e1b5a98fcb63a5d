import WiseOrder.Foundation.Run
import WiseOrder.Foundation.Program
import Mathlib.Data.List.Perm.Basic
import Mathlib.Logic.Function.Basic

/-! Pools of coroutines over one shared world. Each step performs one awaited
call of one thread and runs that thread to its next await; between steps the
world may drift, threads may be spawned, and a crash may take any of them. Every
thread keeps the interactions it has had. -/
namespace Coroutine

inductive Thread (calls : Signature) (α : Type) where
  | absent
  | active (past : List (Interaction calls)) (rest : Program calls α)
  | lost (past : List (Interaction calls))

variable {calls : Signature} {κ W α : Type}

namespace Thread

def past : Thread calls α → List (Interaction calls)
  | .absent => []
  | .active past _ => past
  | .lost past => past

/-- Still executing: spawned, not crashed, and with a call outstanding. -/
def Live (t : Thread calls α) : Prop := ∃ past rest, t = .active past rest ∧ rest.Waiting

def Ended (t : Thread calls α) (result : Except calls.Error α) : Prop :=
  ∃ past, t = .active past (.done result)

def kill : Thread calls α → Thread calls α
  | .active past (.await _ _) => .lost past
  | t => t

theorem kill_past (t : Thread calls α) : t.kill.past = t.past := by
  cases t with
  | absent | lost => rfl
  | active past rest => cases rest <;> rfl

theorem kill_absent (t : Thread calls α) : t.kill = .absent ↔ t = .absent := by
  cases t with
  | absent | lost => simp [kill]
  | active past rest => cases rest <;> simp [kill]

theorem kill_active {t : Thread calls α} (same : t.kill = .active seen rest) :
    t = .active seen rest ∧ ¬ rest.Waiting := by
  cases t with
  | absent | lost => simp [kill] at same
  | active seen rest =>
      cases rest with
      | done result =>
          obtain ⟨rfl, rfl⟩ := Thread.active.inj same
          exact ⟨rfl, id⟩
      | await call onReply => simp [kill] at same

theorem kill_not_live (t : Thread calls α) : ¬ t.kill.Live := by
  rintro ⟨past, rest, same, waiting⟩
  exact (kill_active same).2 waiting

end Thread

structure Config (κ W : Type) (calls : Signature) (α : Type) where
  world : W
  threads : κ → Thread calls α

/-- How a pool may move: which programs may be spawned, what a call may reply and
do to the world, what a thread that has returned may go on with, how the world
changes by itself, and what a crash of a set of threads does to the world. -/
structure Machine (κ W : Type) (calls : Signature) (α : Type) where
  spawn : Config κ W calls α → κ → Program calls α → Prop
  perform : κ → (c : calls.Call) → W → Except calls.Error (calls.Reply c) → W → Prop
  again : W → κ → α → Program calls α → Prop
  drift : W → W → Prop
  crash : W → (κ → Prop) → W → Prop

/-- A call is recorded with the world it was performed in. -/
inductive Event (κ W : Type) (calls : Signature) (α : Type) where
  | spawn (i : κ) (p : Program calls α)
  | call (i : κ) (x : Interaction calls) (before : W)
  | again (i : κ) (p : Program calls α)
  | drift
  | crash (dead : κ → Prop)

/-- The thread that takes the step. -/
def Event.By : Event κ W calls α → κ → Prop
  | .spawn i _, j | .call i _ _, j | .again i _, j => i = j
  | .drift, _ | .crash _, _ => False

def Event.own [DecidableEq κ] (i : κ) : Event κ W calls α → Option (Interaction calls)
  | .call j x _ => if j = i then some x else none
  | _ => none

def Event.made : Event κ W calls α → Option (Interaction calls)
  | .call _ x _ => some x
  | _ => none

theorem Event.mem_own [DecidableEq κ] {e : Event κ W calls α} : x ∈ (e.own i).toList ↔
    ∃ before, e = .call i x before := by
  cases e with
  | call j y before =>
      by_cases same : j = i
      · subst j
        simp [own, eq_comm]
      · simp [own, same]
  | spawn | again | drift | crash => simp [own]

theorem Event.own_other [DecidableEq κ] {e : Event κ W calls α} (idle : ¬ e.By i) :
    e.own i = none := by
  cases e with
  | call j x before => exact if_neg idle
  | spawn | again | drift | crash => rfl

theorem own_once [DecidableEq κ] {ids : List κ} {e : Event κ W calls α} (once : ids.Nodup)
    (all : ∀ i x before, e = .call i x before → i ∈ ids) :
    (ids.flatMap fun i => (e.own i).toList) = e.made.toList := by
  cases e with
  | call i x before =>
      obtain ⟨earlier, later, rfl⟩ := List.append_of_mem (all i x before rfl)
      rw [List.nodup_append] at once
      obtain ⟨-, afterwards, apart⟩ := once
      have none (ids : List κ) (other : ∀ j ∈ ids, i ≠ j) : (ids.flatMap fun j =>
          ((Event.call (α := α) i x before).own j).toList) = [] := by
        rw [List.flatMap_eq_nil_iff]
        intro j member
        simp [Event.own, other j member]
      rw [List.flatMap_append, List.flatMap_cons, none earlier fun j member =>
        (apart j member i List.mem_cons_self).symm,
        none later fun j member same => (List.nodup_cons.mp afterwards).1 (same ▸ member)]
      simp [Event.own, Event.made]
  | spawn | again | drift | crash => simp [Event.own, Event.made]

/-- What a trace records is what its threads did, in some order. -/
theorem made_perm [DecidableEq κ] {ids : List κ} {trace : List (Event κ W calls α)}
    (once : ids.Nodup) (all : ∀ i x before, .call i x before ∈ trace → i ∈ ids) :
    (trace.filterMap Event.made).Perm (ids.flatMap fun i => trace.filterMap (Event.own i)) := by
  induction trace with
  | nil => simp
  | cons e rest ih =>
      have split (f : Event κ W calls α → Option (Interaction calls)) : (e :: rest).filterMap f =
          (f e).toList ++ rest.filterMap f := by
        cases made : f e <;> simp [made]
      have here := own_once once fun i x before same => all i x before (same ▸ List.mem_cons_self)
      have later := ih fun i x before member => all i x before (List.mem_cons_of_mem _ member)
      simp only [split]
      rw [← here]
      exact (later.append_left _).trans (List.flatMap_append_perm ..)

namespace Machine
variable [DecidableEq κ]

inductive Step (m : Machine κ W calls α) :
    Config κ W calls α → Event κ W calls α → Config κ W calls α → Prop where
  | spawn {c i p} (unused : c.threads i = .absent) (entry : m.spawn c i p) :
      Step m c (.spawn i p) ⟨c.world, Function.update c.threads i (.active [] p)⟩
  | call {c i seen call onReply reply world}
      (awaiting : c.threads i = .active seen (.await call onReply))
      (performed : m.perform i call c.world reply world) :
      Step m c (.call i ⟨call, reply⟩ c.world)
        ⟨world, Function.update c.threads i (.active (seen ++ [⟨call, reply⟩]) (onReply reply))⟩
  | again {c i seen a p} (returned : c.threads i = .active seen (.done (.ok a)))
      (next : m.again c.world i a p) :
      Step m c (.again i p) ⟨c.world, Function.update c.threads i (.active seen p)⟩
  | drift {c world} (moved : m.drift c.world world) : Step m c .drift ⟨world, c.threads⟩
  | crash {c dead world threads} (fell : m.crash c.world dead world)
      (killed : ∀ i, dead i → threads i = (c.threads i).kill)
      (spared : ∀ i, ¬ dead i → threads i = c.threads i) :
      Step m c (.crash dead) ⟨world, threads⟩

variable {m : Machine κ W calls α}

/-- A thread that does not take the step goes on as it was, unless it dies. -/
theorem Step.other (step : m.Step c e c') (idle : ¬ e.By i)
    (active : c'.threads i = .active seen rest) : c.threads i = .active seen rest := by
  cases step with
  | spawn | call | again =>
      dsimp only at active
      rwa [Function.update_of_ne (fun same => idle same.symm)] at active
  | drift => exact active
  | @crash dead world threads fell killed spared =>
      by_cases dies : dead i
      · exact (Thread.kill_active ((killed i dies).symm.trans active)).1
      · exact (spared i dies).symm.trans active

theorem Step.active (step : m.Step c e c') (mine : e.By i) :
    ∃ seen rest, c'.threads i = .active seen rest := by
  cases step with
  | spawn | call | again =>
      cases mine
      exact ⟨_, _, Function.update_self _ _ _⟩
  | drift | crash => exact mine.elim

/-- A thread that is there stays, and one comes to be there by its spawn alone. -/
theorem Step.present (step : m.Step c e c') (i : κ) :
    c'.threads i ≠ .absent ↔ c.threads i ≠ .absent ∨ ∃ p, e = .spawn i p := by
  cases step with
  | @spawn j p unused entry =>
      by_cases same : i = j
      · subst j
        simp
      · simp [Function.update_of_ne same, Ne.symm same]
  | @call j seen call onReply reply world awaiting performed =>
      by_cases same : i = j
      · subst j
        simp [awaiting]
      · simp [Function.update_of_ne same]
  | @again j seen a p returned next =>
      by_cases same : i = j
      · subst j
        simp [returned]
      · simp [Function.update_of_ne same]
  | drift => simp
  | @crash dead world threads fell killed spared =>
      by_cases dies : dead i
      · simp [killed i dies, Thread.kill_absent]
      · simp [spared i dies]

/-- A thread that executes was spawned or resumed by the step, or executed before and survived. -/
theorem Step.live (step : m.Step c e c') (live : (c'.threads i).Live) :
    (∃ p, e = .spawn i p) ∨ (∃ p, e = .again i p) ∨
      (c.threads i).Live ∧ ∀ dead, e = .crash dead → ¬ dead i := by
  cases step with
  | @spawn j p unused entry =>
      by_cases same : i = j
      · exact .inl ⟨p, by rw [same]⟩
      · simp only [Function.update_of_ne same] at live
        exact .inr (.inr ⟨live, by simp⟩)
  | @call j seen call onReply reply world awaiting performed =>
      by_cases same : i = j
      · subst j
        exact .inr (.inr ⟨⟨seen, _, awaiting, trivial⟩, by simp⟩)
      · simp only [Function.update_of_ne same] at live
        exact .inr (.inr ⟨live, by simp⟩)
  | @again j seen a p returned next =>
      by_cases same : i = j
      · exact .inr (.inl ⟨p, by rw [same]⟩)
      · simp only [Function.update_of_ne same] at live
        exact .inr (.inr ⟨live, by simp⟩)
  | drift => exact .inr (.inr ⟨live, by simp⟩)
  | @crash dead world threads fell killed spared =>
      by_cases dies : dead i
      · simp only [killed i dies] at live
        exact absurd live (Thread.kill_not_live _)
      · simp only [spared i dies] at live
        refine .inr (.inr ⟨live, fun dead' same => ?_⟩)
        cases same
        exact dies

theorem Step.past (step : m.Step c e c') (i : κ) :
    (c'.threads i).past = (c.threads i).past ++ (e.own i).toList := by
  cases step with
  | @spawn j p unused entry =>
      by_cases same : i = j
      · subst j
        simp [Event.own, Thread.past, unused]
      · simp [Event.own, Function.update_of_ne same]
  | @call j seen call onReply reply world awaiting performed =>
      by_cases same : i = j
      · subst j
        simp [Event.own, awaiting, Thread.past]
      · simp [Event.own, Function.update_of_ne same, Ne.symm same]
  | @again j seen a p returned next =>
      by_cases same : i = j
      · subst j
        simp [Event.own, returned, Thread.past]
      · simp [Event.own, Function.update_of_ne same]
  | drift => simp [Event.own]
  | @crash dead world threads fell killed spared =>
      by_cases dies : dead i
      · simp [Event.own, killed i dies, Thread.kill_past]
      · simp [Event.own, spared i dies]

/-- A thread that a run spawns was not there before. -/
theorem absent_before {step : Config κ W calls α → Event κ W calls α → Config κ W calls α → Prop}
    (sub : ∀ {c e c'}, step c e c' → m.Step c e c') (run : Transition.Run step c trace c')
    (spawned : .spawn i p ∈ trace) : c.threads i = .absent := by
  obtain ⟨past, rest, rfl⟩ := List.append_of_mem spawned
  obtain ⟨t, t', before, taken, -⟩ := run.split_at
  have unused : t.threads i = .absent := by
    cases sub taken with
    | spawn unused entry => exact unused
  by_contra there
  exact before.invariant (P := fun u => u.threads i ≠ .absent)
    (fun present taken => ((sub taken).present i).mpr (.inl present)) there unused

/-- A thread that is there after a run and was not before it was spawned in between. -/
theorem spawned_within {step : Config κ W calls α → Event κ W calls α → Config κ W calls α → Prop}
    (sub : ∀ {c e c'}, step c e c' → m.Step c e c') (run : Transition.Run step c trace c')
    (unused : c.threads i = .absent) (there : c'.threads i ≠ .absent) :
    ∃ p, .spawn i p ∈ trace := by
  induction run with
  | refl => exact absurd unused there
  | next earlier taken ih =>
      rcases ((sub taken).present i).mp there with before | ⟨p, rfl⟩
      · obtain ⟨p, member⟩ := ih before
        exact ⟨p, List.mem_append_left _ member⟩
      · exact ⟨p, List.mem_append_right _ (List.mem_singleton.mpr rfl)⟩

/-- A thread that a run spawned is there after it. -/
theorem there_after {step : Config κ W calls α → Event κ W calls α → Config κ W calls α → Prop}
    (sub : ∀ {c e c'}, step c e c' → m.Step c e c') (run : Transition.Run step c trace c')
    (spawned : .spawn i p ∈ trace) : c'.threads i ≠ .absent := by
  obtain ⟨past, rest, rfl⟩ := List.append_of_mem spawned
  obtain ⟨t, t', -, taken, after⟩ := run.split_at
  exact after.invariant (P := fun u => u.threads i ≠ .absent)
    (fun present taken => ((sub taken).present i).mpr (.inl present))
      (((sub taken).present i).mpr (.inr ⟨p, rfl⟩))

/-- A thread's history is what the trace records of it. -/
theorem run_past {step : Config κ W calls α → Event κ W calls α → Config κ W calls α → Prop}
    (sub : ∀ {c e c'}, step c e c' → m.Step c e c') (run : Transition.Run step c trace c') (i : κ) :
    (c'.threads i).past = (c.threads i).past ++ trace.filterMap (Event.own i) := by
  induction run with
  | refl => simp
  | next earlier taken ih =>
      rw [(sub taken).past i, ih, List.filterMap_append, List.append_assoc]
      cases own : Event.own i _ <;> simp [own]

theorem mem_past {step : Config κ W calls α → Event κ W calls α → Config κ W calls α → Prop}
    (sub : ∀ {c e c'}, step c e c' → m.Step c e c') (run : Transition.Run step c trace c')
    (fresh : c.threads i = .absent) :
    x ∈ (c'.threads i).past ↔ ∃ before, Event.call i x before ∈ trace := by
  rw [run_past sub run i, fresh]
  simp only [Thread.past, List.nil_append, List.mem_filterMap]
  constructor
  · rintro ⟨e, member, own⟩
    cases e with
    | call j y before =>
        simp only [Event.own] at own
        split at own
        · rename_i same
          cases Option.some.inj own
          exact ⟨before, same ▸ member⟩
        · contradiction
    | _ => simp [Event.own] at own
  · rintro ⟨before, member⟩
    exact ⟨_, member, by simp [Event.own]⟩

end Machine

end Coroutine
