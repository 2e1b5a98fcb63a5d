import WiseOrder.Foundation.Run
import Mathlib.Data.List.Perm.Basic
import Mathlib.Logic.Function.Basic

/-! Work that waits in lanes for workers. Items join a lane at its end, a worker takes the first
item of the first lane that has one, and settles it before it takes another. Whatever the
order of these moves, a lane is handed out in the order in which it was filled, and every item
is at one place. -/
namespace WorkQueue
variable {L I K R : Type}

/-- What waits in each lane, what each worker has in hand, and what it has settled, with the
result. -/
structure Board (L I K R : Type) where
  waiting : L → List I
  held : K → Option I
  settled : K → List (I × R)

inductive Move (L I K R : Type) where
  | put (lane : L) (item : I)
  | take (worker : K) (lane : L) (item : I)
  | settle (worker : K) (item : I) (result : R)

/-- What is seen of the lanes from outside. -/
inductive Sight (L I K : Type) where
  | joined (lane : L) (item : I)
  | left (lane : L) (item : I) (worker : K)

namespace Move

def sights : Move L I K R → List (Sight L I K)
  | .put lane item => [.joined lane item]
  | .take worker lane item => [.left lane item worker]
  | .settle .. => []

end Move

namespace Sight
variable [DecidableEq L] [DecidableEq K]

def joinedIn (lane : L) : Sight L I K → List I
  | .joined l item => if l = lane then [item] else []
  | .left .. => []

def leftFrom (lane : L) : Sight L I K → List I
  | .joined .. => []
  | .left l item _ => if l = lane then [item] else []

def takenBy (worker : K) : Sight L I K → List I
  | .joined .. => []
  | .left _ item k => if k = worker then [item] else []

end Sight

namespace Board

def empty : Board L I K R := ⟨fun _ => [], fun _ => none, fun _ => []⟩

variable [DecidableEq L] [DecidableEq K]

def put (b : Board L I K R) (lane : L) (item : I) : Board L I K R :=
  { b with waiting := Function.update b.waiting lane (b.waiting lane ++ [item]) }

def take (b : Board L I K R) (worker : K) (lane : L) (item : I) (rest : List I) : Board L I K R :=
  { b with
    waiting := Function.update b.waiting lane rest
    held := Function.update b.held worker (some item) }

def settle (b : Board L I K R) (worker : K) (item : I) (result : R) : Board L I K R :=
  { b with held := Function.update b.held worker none,
           settled := Function.update b.settled worker (b.settled worker ++ [(item, result)]) }

/-- What a worker has had, in the order in which it took it. -/
def had (b : Board L I K R) (worker : K) : List I :=
  (b.settled worker).map Prod.fst ++ (b.held worker).toList

end Board

section
variable [DecidableEq L] [DecidableEq K] {order : List L}

/-- The lanes are looked at in a given order. -/
inductive Step (order : List L) : Board L I K R → Move L I K R → Board L I K R → Prop where
  | put {b} (lane item) : Step order b (.put lane item) (b.put lane item)
  | take {b} {earlier later : List L} (worker lane item rest) (free : b.held worker = none)
      (looked : order = earlier ++ lane :: later)
      (none : ∀ l ∈ earlier, b.waiting l = []) (first : b.waiting lane = item :: rest) :
      Step order b (.take worker lane item) (b.take worker lane item rest)
  | settle {b} (worker item result) (has : b.held worker = some item) :
      Step order b (.settle worker item result) (b.settle worker item result)

variable {b b' : Board L I K R} {moves : List (Move L I K R)} {sights : List (Sight L I K)}

theorem step_lane {move : Move L I K R} (step : Step order b move b') (lane : L) :
    b.waiting lane ++ move.sights.flatMap (Sight.joinedIn lane) = move.sights.flatMap
    (Sight.leftFrom lane) ++ b'.waiting lane := by
  cases step with
  | put l item =>
      by_cases same : l = lane
      · subst l
        simp [Move.sights, Sight.joinedIn, Sight.leftFrom, Board.put]
      · simp [Move.sights, Sight.joinedIn, Sight.leftFrom, Board.put, same,
          Function.update_of_ne (Ne.symm same)]
  | take worker l item rest free looked none first =>
      by_cases same : l = lane
      · subst l
        simp [Move.sights, Sight.joinedIn, Sight.leftFrom, Board.take, first]
      · simp [Move.sights, Sight.joinedIn, Sight.leftFrom, Board.take, same,
          Function.update_of_ne (Ne.symm same)]
  | settle worker item result has => simp [Move.sights, Board.settle]

/-- A lane is handed out in the order in which it was filled. -/
theorem run_lane (run : Transition.Run (Step order) b moves b') (lane : L) :
    b.waiting lane ++ (moves.flatMap Move.sights).flatMap (Sight.joinedIn lane) =
      (moves.flatMap Move.sights).flatMap (Sight.leftFrom lane) ++ b'.waiting lane := by
  induction run with
  | refl => simp
  | next earlier taken ih =>
      simp only [List.flatMap_append, List.flatMap_singleton]
      rw [← List.append_assoc, ih, List.append_assoc, step_lane taken lane, List.append_assoc]

theorem step_had {move : Move L I K R} (step : Step order b move b') (worker : K) :
    b.had worker ++ move.sights.flatMap (Sight.takenBy worker) = b'.had worker := by
  cases step with
  | put lane item => simp [Move.sights, Sight.takenBy, Board.had, Board.put]
  | take k lane item rest free looked none first =>
      by_cases same : k = worker
      · subst k
        simp [Move.sights, Sight.takenBy, Board.had, Board.take, free]
      · simp [Move.sights, Sight.takenBy, Board.had, Board.take, same,
          Function.update_of_ne (Ne.symm same)]
  | settle k item result has =>
      by_cases same : k = worker
      · subst k
        simp [Move.sights, Board.had, Board.settle, has]
      · simp [Move.sights, Board.had, Board.settle, Function.update_of_ne (Ne.symm same)]

/-- What a worker has settled or has in hand is what it has taken, in that order. -/
theorem run_had (run : Transition.Run (Step order) b moves b') (worker : K) :
    b.had worker ++ (moves.flatMap Move.sights).flatMap (Sight.takenBy worker) = b'.had worker := by
  induction run with
  | refl => simp
  | next earlier taken ih =>
      simp only [List.flatMap_append, List.flatMap_singleton]
      rw [← List.append_assoc, ih, step_had taken worker]

end

section
variable [DecidableEq L] [DecidableEq K] {sights : List (Sight L I K)}
    {lanes : List L} {workers : List K}

/-- The sights of items that leave a lane are those of workers that take an item. -/
theorem left_perm (once : lanes.Nodup) (known : workers.Nodup)
    (within : ∀ lane item worker, .left lane item worker ∈ sights →
      lane ∈ lanes ∧ worker ∈ workers) :
    (lanes.flatMap fun lane => sights.flatMap (Sight.leftFrom lane)).Perm
      (workers.flatMap fun worker => sights.flatMap (Sight.takenBy worker)) := by
  have silent {κ : Type} (keys : List κ) : (keys.flatMap fun _ => ([] : List I)) = [] :=
    List.flatMap_eq_nil_iff.mpr fun _ _ => rfl
  induction sights with
  | nil => simp [silent]
  | cons sight rest ih =>
      have later := ih fun lane item worker member =>
        within lane item worker (List.mem_cons_of_mem _ member)
      have split {κ : Type} (keys : List κ) (f : κ → Sight L I K → List I) :
          (keys.flatMap fun key => (sight :: rest).flatMap (f key)).Perm
            ((keys.flatMap fun key => f key sight) ++ keys.flatMap fun key =>
                rest.flatMap (f key)) := by
        simp only [List.flatMap_cons]
        exact (List.flatMap_append_perm ..).symm
      refine (split lanes Sight.leftFrom).trans (.trans ?_ (split workers Sight.takenBy).symm)
      refine List.Perm.append (.of_eq ?_) later
      cases sight with
      | joined lane item => exact (silent lanes).trans (silent workers).symm
      | left lane item worker =>
          obtain ⟨there, knows⟩ := within lane item worker List.mem_cons_self
          have one {κ : Type} [DecidableEq κ] (keys : List κ) (key : κ) (nodup : keys.Nodup)
            (member : key ∈ keys) :
              (keys.flatMap fun k => if key = k then [item] else []) = [item] := by
            obtain ⟨before, after, rfl⟩ := List.append_of_mem member
            obtain ⟨-, afterwards, apart⟩ := List.nodup_append.mp nodup
            have none (ks : List κ) (other : ∀ k ∈ ks, key ≠ k) : (ks.flatMap fun k =>
                if key = k then [item] else []) = [] :=
              List.flatMap_eq_nil_iff.mpr fun k inside => if_neg (other k inside)
            rw [List.flatMap_append, List.flatMap_cons, if_pos rfl, none before fun k inside =>
              (apart k inside key List.mem_cons_self).symm,
              none after fun k inside same => (List.nodup_cons.mp afterwards).1 (same ▸ inside)]
            rfl
          exact (one lanes lane once there).trans (one workers worker known knows).symm

end

section
variable [DecidableEq L] [DecidableEq K] {order : List L} {moves : List (Move L I K R)}
    {b b' : Board L I K R} {workers : List K}

/-- Items leave only the lanes that are looked at. -/
theorem run_left (run : Transition.Run (Step order) b moves b')
    (seen : .left lane item worker ∈ moves.flatMap Move.sights) : lane ∈ order := by
  obtain ⟨move, member, shown⟩ := List.mem_flatMap.mp seen
  obtain ⟨t, t', taken⟩ := run.taken member
  cases taken with
  | put l i => simp [Move.sights] at shown
  | take k l i rest free looked none first =>
      simp only [Move.sights, List.mem_singleton, Sight.left.injEq] at shown
      obtain ⟨rfl, -, -⟩ := shown
      simp [looked]
  | settle k i result has => simp [Move.sights] at shown

/-- Every item that has joined a lane waits there, or one worker has settled it or has it in hand:
none is lost, and none is there twice. -/
theorem run_conserves (run : Transition.Run (Step order) b moves b')
    (idle : ∀ worker, b.had worker = []) (once : order.Nodup) (known : workers.Nodup)
    (all : ∀ lane item worker, .left lane item worker ∈ moves.flatMap Move.sights →
      worker ∈ workers) :
    (order.flatMap fun lane => b.waiting lane ++
      (moves.flatMap Move.sights).flatMap (Sight.joinedIn lane)).Perm
      ((order.flatMap b'.waiting) ++ workers.flatMap b'.had) := by
  have had : b'.had = fun worker => (moves.flatMap Move.sights).flatMap (Sight.takenBy worker) :=
    funext fun worker => by rw [← run_had run worker, idle worker, List.nil_append]
  simp only [run_lane run]
  rw [had]
  refine ((List.flatMap_append_perm ..).symm).trans (List.perm_append_comm.trans ?_)
  exact (left_perm once known fun lane item worker seen =>
    ⟨run_left run seen, all lane item worker seen⟩).append_left _

end

end WorkQueue
