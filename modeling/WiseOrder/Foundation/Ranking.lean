import Mathlib.Data.List.Nodup

/-! The first few of a stable sort. An element is among them exactly if fewer lead it,
where of two elements of the same rank the earlier one leads. -/
namespace Ranking
variable {α : Type*} [DecidableEq α] {le : α → α → Bool} {l : List α} {x y : α} {n : Nat}

/-- The second element ranks before the first, or with it and comes earlier. -/
def Leads (le : α → α → Bool) (l : List α) (x y : α) : Prop :=
  le y x ∧ (le x y → l.idxOf y < l.idxOf x)

instance : DecidablePred (Leads le l x) := fun _ => inferInstanceAs (Decidable (_ ∧ _))

/-- How many lead the element. -/
def ahead (le : α → α → Bool) (l : List α) (x : α) : Nat := l.countP (Leads le l x)

theorem leads_irrefl : ¬ Leads le l x x := by
  rintro ⟨self, earlier⟩
  exact Nat.lt_irrefl _ (earlier self)

theorem leads_asymm (leads : Leads le l x y) : ¬ Leads le l y x :=
  fun back => Nat.lt_asymm (leads.2 back.1) (back.2 leads.1)

theorem sublist_of_idxOf (member : x ∈ l) (earlier : l.idxOf y < l.idxOf x) : [y, x].Sublist l := by
  induction l with
  | nil => simp at member
  | cons z l ih =>
      by_cases same : z = x
      · simp [same] at earlier
      · have member := List.mem_of_ne_of_mem (Ne.symm same) member
        by_cases first : z = y
        · subst first
          exact (List.singleton_sublist.mpr member).cons_cons z
        · rw [List.idxOf_cons_ne _ same, List.idxOf_cons_ne _ first] at earlier
          exact (ih member (Nat.lt_of_succ_lt_succ earlier)).cons z

theorem idxOf_of_sublist (unique : l.Nodup) (sub : [y, x].Sublist l) : l.idxOf y < l.idxOf x := by
  induction l with
  | nil => simp at sub
  | cons z l ih =>
      obtain ⟨fresh, unique⟩ := List.nodup_cons.mp unique
      cases sub with
      | cons _ later =>
          have first : z ≠ y := fun same => fresh (same ▸ later.subset List.mem_cons_self)
          have second : z ≠ x := fun same => fresh (same ▸ later.subset (by simp))
          rw [List.idxOf_cons_ne _ first, List.idxOf_cons_ne _ second]
          exact Nat.succ_lt_succ (ih unique later)
      | cons_cons _ later =>
          have second : y ≠ x := fun same => fresh (same ▸ List.singleton_sublist.mp later)
          simp [List.idxOf_cons_ne _ second]

section
variable (trans : ∀ a b c, le a b → le b c → le a c) (total : ∀ a b, le a b || le b a)
include trans total

/-- In the sorted list an element follows those that lead it. -/
theorem leads_of_sublist (unique : l.Nodup) (sub : [y, x].Sublist (l.mergeSort le)) :
    Leads le l x y := by
  have sorted : le y x := by
    have ordered := List.Pairwise.sublist sub (List.pairwise_mergeSort trans total l)
    simpa using ordered
  have there : ∀ z ∈ [y, x], z ∈ l := fun z member => List.mem_mergeSort.mp (sub.subset member)
  have unique' := (List.mergeSort_perm l le).nodup_iff.mpr unique
  have apart : y ≠ x := List.pairwise_pair.mp (unique'.sublist sub)
  refine ⟨sorted, fun same => ?_⟩
  by_contra late
  have others : l.idxOf x ≠ l.idxOf y :=
    fun same => apart ((List.idxOf_inj (there x (by simp))).mp same).symm
  have earlier :=
    sublist_of_idxOf (there y (by simp)) (Nat.lt_of_le_of_ne (Nat.le_of_not_lt late) others)
  have swapped := List.pair_sublist_mergeSort trans total same earlier
  exact Nat.lt_asymm (idxOf_of_sublist unique' sub) (idxOf_of_sublist unique' swapped)

/-- An element stands behind as many as lead it. -/
theorem ahead_eq {first rest : List α} (unique : l.Nodup)
    (split : l.mergeSort le = first ++ x :: rest) : ahead le l x = first.length := by
  have before : ∀ y ∈ first, Leads le l x y := by
    intro y member
    refine leads_of_sublist trans total unique (split ▸ ?_)
    exact (List.singleton_sublist.mpr member).append (List.singleton_sublist.mpr List.mem_cons_self)
  have after : ∀ y ∈ rest, ¬ Leads le l x y := by
    intro y member
    refine leads_asymm (leads_of_sublist trans total unique (split ▸ ?_))
    exact ((List.singleton_sublist.mpr member).cons_cons x).trans (List.sublist_append_right _ _)
  rw [ahead, ← (List.mergeSort_perm l le).countP_eq, split, List.countP_append, List.countP_cons,
    List.countP_eq_length.mpr (by simpa using before),
      List.countP_eq_zero.mpr (by simpa using after)]
  simp [leads_irrefl]

/-- The first few of the sorted list. -/
theorem mem_take_mergeSort (unique : l.Nodup) : x ∈ (l.mergeSort le).take n ↔
    x ∈ l ∧ ahead le l x < n := by
  constructor
  · intro member
    have listed := List.mem_of_mem_take member
    obtain ⟨first, rest, split⟩ := List.append_of_mem listed
    refine ⟨List.mem_mergeSort.mp listed, ?_⟩
    rw [ahead_eq trans total unique split]
    by_contra late
    rw [split, List.take_append_of_le_length (Nat.le_of_not_lt late)] at member
    have unique' := split ▸ (List.mergeSort_perm l le).nodup_iff.mpr unique
    exact (List.nodup_append.mp unique').2.2 x (List.mem_of_mem_take member) x List.mem_cons_self
      rfl
  · rintro ⟨member, few⟩
    obtain ⟨first, rest, split⟩ :=
      List.append_of_mem ((List.mergeSort_perm l le).mem_iff.mpr member)
    rw [ahead_eq trans total unique split] at few
    obtain ⟨more, rfl⟩ := Nat.exists_eq_add_of_lt few
    rw [split, Nat.add_assoc, List.take_length_add_append]
    simp

end

end Ranking
