import WiseOrder.Python
import Mathlib.Data.List.Nodup
import Mathlib.Data.List.Perm.Basic
import Mathlib.Data.String.Basic

/-! The order of the keys of JSON objects. A value in which it differs, at any level,
is an equal value, and is the same text once its keys are sorted. -/
namespace Json

mutual
/-- Equal values, with the keys of any object within in another order. -/
inductive Reordered : Json → Json → Prop
  | null : Reordered .null .null
  | bool (b : Bool) : Reordered (.bool b) (.bool b)
  | int (n : Int) : Reordered (.int n) (.int n)
  | float (x : Json.Float) : Reordered (.float x) (.float x)
  | str (s : String) : Reordered (.str s) (.str s)
  | arr : ReorderedItems xs ys → Reordered (.arr xs) (.arr ys)
  | obj : ReorderedFields fs gs → gs.Perm hs → Reordered (.obj fs) (.obj hs)

inductive ReorderedItems : List Json → List Json → Prop
  | nil : ReorderedItems [] []
  | cons : Reordered x y → ReorderedItems xs ys → ReorderedItems (x :: xs) (y :: ys)

inductive ReorderedFields : List (String × Json) → List (String × Json) → Prop
  | nil : ReorderedFields [] []
  | cons (k : String) : Reordered v w → ReorderedFields fs gs →
      ReorderedFields ((k, v) :: fs) ((k, w) :: gs)
end

theorem ReorderedFields.keys (same : ReorderedFields fs gs) :
    gs.map Prod.fst = fs.map Prod.fst := by
  induction fs generalizing gs with
  | nil =>
      cases same
      rfl
  | cons f fs ih =>
      cases same with
      | cons k _ rest => rw [List.map_cons, List.map_cons, ih rest]

/-! ### Sorting -/

section
open WiseOrder.Python

theorem insertField_comm {a b : String × Json} (other : a.1 ≠ b.1) (fields : List (String × Json)) :
    insertField a (insertField b fields) = insertField b (insertField a fields) := by
  induction fields with
  | nil =>
      simp only [insertField]
      rcases lt_or_gt_of_ne other with less | less
      · simp [less.le, not_le.mpr less]
      · simp [less.le, not_le.mpr less]
  | cons f rest ih =>
      by_cases first : a.1 ≤ f.1 <;> by_cases second : b.1 ≤ f.1
      · rcases lt_or_gt_of_ne other with less | less
        · simp [insertField, first, second, less.le, not_le.mpr less]
        · simp [insertField, first, second, less.le, not_le.mpr less]
      · have less : a.1 < b.1 := lt_of_le_of_lt first (not_le.mp second)
        simp [insertField, first, second, not_le.mpr less]
      · have less : b.1 < a.1 := lt_of_le_of_lt second (not_le.mp first)
        simp [insertField, first, second, not_le.mpr less]
      · simp [insertField, first, second, ih]

theorem sortKeysFields_eq (fields : List (String × Json)) :
    sortKeysFields fields = fields.foldr (fun f sorted => insertField (f.1, sortKeys f.2) sorted)
    [] := by
  induction fields with
  | nil => rfl
  | cons f fields ih => rw [List.foldr_cons, ← ih, sortKeysFields]

/-- The order in which distinct keys come does not matter. -/
theorem sortKeysFields_perm (perm : gs.Perm hs) (distinct : (gs.map Prod.fst).Nodup) :
    sortKeysFields gs = sortKeysFields hs := by
  rw [sortKeysFields_eq, sortKeysFields_eq]
  apply perm.foldr_eq'
  intro f there g here sorted
  by_cases same : f.1 = g.1
  · rw [List.inj_on_of_nodup_map distinct there here same]
  · exact insertField_comm (a := (g.1, sortKeys g.2)) (b :=
      (f.1, sortKeys f.2)) (Ne.symm same) sorted

mutual
theorem sortKeys_reordered (same : Reordered v w) (distinct : v.Distinct) :
    sortKeys v = sortKeys w := by
  match v with
  | .null | .bool _ | .int _ | .float _ | .str _ =>
      cases same
      rfl
  | .arr xs =>
      cases same with
      | arr items => rw [sortKeys, sortKeys, sortKeysItems_reordered items distinct]
  | .obj fs =>
      cases same with
      | obj fields perm =>
          rw [sortKeys, sortKeys, sortKeysFields_reordered fields distinct.2,
            sortKeysFields_perm perm (by rw [fields.keys]; exact distinct.1)]

theorem sortKeysItems_reordered (same : ReorderedItems xs ys) (distinct : DistinctItems xs) :
    sortKeysItems xs = sortKeysItems ys := by
  match xs with
  | [] =>
      cases same
      rfl
  | x :: xs =>
      cases same with
      | cons first rest =>
          rw [sortKeysItems, sortKeysItems, sortKeys_reordered first distinct.1,
            sortKeysItems_reordered rest distinct.2]

theorem sortKeysFields_reordered (same : ReorderedFields fs gs) (distinct : DistinctFields fs) :
    sortKeysFields fs = sortKeysFields gs := by
  match fs with
  | [] =>
      cases same
      rfl
  | (k, v) :: fs =>
      cases same with
      | cons _ first rest =>
          rw [sortKeysFields, sortKeysFields, sortKeys_reordered first distinct.1,
            sortKeysFields_reordered rest distinct.2]
end

end

/-! ### Looking up -/

theorem lookup_some (distinct : (fields.map Prod.fst).Nodup) :
    lookup key fields = some v ↔ (key, v) ∈ fields := by
  induction fields with
  | nil => simp [lookup]
  | cons f fields ih =>
      obtain ⟨fresh, distinct⟩ := List.nodup_cons.mp distinct
      rw [lookup]
      split
      · rename_i same
        subst key
        constructor
        · rintro ⟨⟩
          exact List.mem_cons_self
        · intro member
          rcases List.mem_cons.mp member with same | member
          · exact congrArg (fun g => some g.2) same.symm
          · exact absurd (List.mem_map_of_mem (f := Prod.fst) member) fresh
      · rename_i other
        rw [ih distinct, List.mem_cons]
        constructor
        · exact .inr
        · rintro (same | member)
          · exact absurd (congrArg Prod.fst same).symm other
          · exact member

theorem ReorderedFields.member (same : ReorderedFields fs gs) (member : (key, v) ∈ fs) :
    ∃ w, (key, w) ∈ gs ∧ Reordered v w := by
  induction fs generalizing gs with
  | nil => cases member
  | cons f fs ih =>
      cases same with
      | cons k first rest =>
          rcases List.mem_cons.mp member with same | member
          · cases same
            exact ⟨_, List.mem_cons_self, first⟩
          · obtain ⟨w, there, reordered⟩ := ih rest member
            exact ⟨w, List.mem_cons_of_mem _ there, reordered⟩

/-- The value of a key is found in any order, itself reordered. -/
theorem Reordered.lookup (same : Reordered (.obj fs) w) (distinct : (fs.map Prod.fst).Nodup)
    (found : Json.lookup key fs = some v) : ∃ hs u, w = .obj hs ∧ Json.lookup key hs =
      some u ∧ Reordered v u := by
  cases same with
  | @obj _ gs hs fields perm =>
      obtain ⟨u, member, reordered⟩ := fields.member ((lookup_some distinct).mp found)
      have kept : (hs.map Prod.fst).Nodup := by
        rw [← (perm.map Prod.fst).nodup_iff, fields.keys]
        exact distinct
      exact ⟨hs, u, rfl, (lookup_some kept).mpr (perm.mem_iff.mp member), reordered⟩

end Json
