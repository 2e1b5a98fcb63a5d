import WiseOrder.Foundation.Patterns
import Mathlib.Data.List.Perm.Basic

/-! Words of a text replaced one after the other, and the templates whose slots are to be
filled in this way. -/
namespace Substitution
open Patterns

variable {α : Type} [DecidableEq α]

/-- Every `old` replaced, from the left, where the first elements to come belong to the last one
found. -/
def replaceFrom (old new : List α) : Nat → List α → List α
  | _, [] => []
  | skip + 1, _ :: xs => replaceFrom old new skip xs
  | 0, x :: xs =>
      if old.isPrefixOf (x :: xs) then new ++ replaceFrom old new (old.length - 1) xs
      else x :: replaceFrom old new 0 xs

/-- Every `old` of a text replaced, for an `old` that is not empty. -/
def replace (old new text : List α) : List α := replaceFrom old new 0 text

section Words
variable {old new text xs : List α} {x y : α}

theorem replaceFrom_skip (n : Nat) (xs : List α) :
    replaceFrom old new n xs = replace old new (xs.drop n) := by
  induction n generalizing xs with
  | zero => rfl
  | succ n ih =>
      cases xs with
      | nil => rfl
      | cons x xs => exact ih xs

theorem replace_found (some : old ≠ []) (new xs : List α) : replace old new (old ++ xs) =
      new ++ replace old new xs := by
  cases old with
  | nil => exact absurd rfl some
  | cons x old =>
      have found : (x :: old).isPrefixOf (x :: old ++ xs) = true :=
        List.isPrefixOf_iff_prefix.mpr (List.prefix_append _ _)
      rw [List.cons_append] at found ⊢
      rw [replace, replaceFrom, if_pos found, replaceFrom_skip]
      simp

theorem replace_other (other : ¬ old <+: x :: xs) :
    replace old new (x :: xs) = x :: replace old new xs :=
  if_neg fun found => other (List.isPrefixOf_iff_prefix.mp found)

theorem replace_absent (new : List α) (absent : ¬ old <:+: text) : replace old new text = text := by
  induction text with
  | nil => rfl
  | cons x xs ih =>
      rw [replace_other fun found => absent found.isInfix]
      exact congrArg (x :: ·) (ih fun within =>
        absent (within.trans (List.suffix_cons x xs).isInfix))

/-- The first place where a word is found. -/
theorem replace_split (new : List α) (some : old ≠ []) (within : old <:+: text) :
    ∃ before after, text = before ++ old ++ after ∧ replace old new text = before ++
      new ++ replace old new after := by
  induction text with
  | nil => exact absurd (List.infix_nil.mp within) some
  | cons x xs ih =>
      by_cases found : old <+: x :: xs
      · obtain ⟨after, same⟩ := found
        refine ⟨[], after, same.symm, ?_⟩
        rw [← same, replace_found some new]
        rfl
      · have later : old <:+: xs := (List.infix_cons_iff.mp within).resolve_left found
        obtain ⟨before, after, rfl, replaced⟩ := ih later
        refine ⟨x :: before, after, rfl, ?_⟩
        rw [replace_other found, replaced]
        rfl

theorem replace_same (some : old ≠ []) (text : List α) : replace old old text = text := by
  by_cases within : old <:+: text
  · obtain ⟨before, after, split, replaced⟩ := replace_split old some within
    have shorter : after.length < text.length := by
      have := List.length_pos_of_ne_nil some
      simp [split]
      omega
    rw [replaced, replace_same some after, split]
  · exact replace_absent _ within
termination_by text.length

/-- Every word found changes the length by the same amount. -/
theorem length_replace (new : List α) (some : old ≠ []) (text : List α) :
    ∃ n, (replace old new text).length + n * old.length = text.length + n * new.length := by
  by_cases within : old <:+: text
  · obtain ⟨before, after, split, replaced⟩ := replace_split new some within
    have shorter : after.length < text.length := by
      have := List.length_pos_of_ne_nil some
      simp [split]
      omega
    obtain ⟨n, counted⟩ := length_replace new some after
    refine ⟨n + 1, ?_⟩
    rw [replaced, split]
    simp only [List.length_append, Nat.add_mul]
    omega
  · exact ⟨0, by simp [replace_absent new within]⟩
termination_by text.length

/-- A text stays as it is where it has none of the words, or gets back each of them. -/
theorem replace_fixed (some : old ≠ []) : replace old new text = text ↔
    (old <:+: text → new = old) := by
  constructor
  · intro fixed within
    obtain ⟨before, after, split, replaced⟩ := replace_split new some within
    have same : new ++ replace old new after = old ++ after := by
      have := replaced.symm.trans (fixed.trans split)
      simpa [List.append_assoc] using this
    obtain ⟨n, counted⟩ := length_replace new some after
    have lengths : new.length + (replace old new after).length = old.length + after.length := by
      simpa using congrArg List.length same
    have long : (n + 1) * new.length = (n + 1) * old.length := by
      simp only [Nat.add_mul]
      omega
    exact (List.append_inj same (Nat.eq_of_mul_eq_mul_left (Nat.succ_pos n) long)).1
  · intro back
    by_cases within : old <:+: text
    · rw [back within, replace_same some]
    · exact replace_absent _ within

/-- An element that no word has keeps the words on its two sides apart. -/
theorem replace_stop (some : old ≠ []) (outside : y ∉ old) (xs ys : List α) :
    replace old new (xs ++ y :: ys) = replace old new xs ++ y :: replace old new ys := by
  have apart (skip : Nat) (xs : List α) (short : skip ≤ xs.length) :
      replaceFrom old new skip (xs ++ y :: ys) = replaceFrom old new skip xs ++
          y :: replace old new ys := by
    induction xs generalizing skip with
    | nil =>
        obtain rfl : skip = 0 := Nat.le_zero.mp short
        refine replace_other fun found => ?_
        obtain ⟨rest, same⟩ := found
        cases old with
        | nil => exact some rfl
        | cons z old => exact outside ((List.cons.inj same).1 ▸ List.mem_cons_self)
    | cons x xs ih =>
        cases skip with
        | succ skip => exact ih skip (Nat.le_of_succ_le_succ short)
        | zero =>
            have same : old.isPrefixOf (x :: (xs ++ y :: ys)) = old.isPrefixOf (x :: xs) :=
              isPrefixOf_stop outside (x :: xs) ys
            simp only [List.cons_append, replaceFrom, same]
            split
            · rename_i found
              have long := (List.isPrefixOf_iff_prefix.mp found).length_le
              rw [ih _ (by simp only [List.length_cons] at long; omega), List.append_assoc]
            · rw [ih 0 (Nat.zero_le _), List.cons_append]
  exact apart 0 xs (Nat.zero_le _)

end Words

/-! ### Templates -/

/-- The texts that stand for the slots. None of them has another in it. -/
structure Placeholders (α κ : Type) where
  key : κ → List α
  nonempty : ∀ k, key k ≠ []
  apart : ∀ k j, k ≠ j → ¬ key j <:+: key k

variable {κ : Type}

/-- A literal part: it has no placeholder, and none reaches into it. -/
structure Literal (p : Placeholders α κ) (text : List α) : Prop where
  absent : ∀ k, ¬ p.key k <:+: text
  first : ∃ y rest, text = y :: rest ∧ ∀ k, y ∉ p.key k
  last : ∃ rest y, text = rest ++ [y] ∧ ∀ k, y ∉ p.key k

/-- A text with slots, each with the literal part that follows it. -/
structure Template (p : Placeholders α κ) where
  head : List α
  slots : List (κ × List α)
  head_literal : Literal p head
  slots_literal : ∀ slot ∈ slots, Literal p slot.2

variable {p : Placeholders α κ}

def fillSlots (contents : κ → List α) (slots : List (κ × List α)) : List α :=
  slots.flatMap fun slot => contents slot.1 ++ slot.2

/-- Every slot filled at once. -/
def Template.fill (t : Template p) (contents : κ → List α) : List α :=
  t.head ++ fillSlots contents t.slots

/-- The text of the template. -/
def Template.text (t : Template p) : List α := t.fill p.key

theorem replace_literal {lit : List α} (plain : Literal p lit) (k : κ) (new xs ys : List α) :
    replace (p.key k) new (xs ++ lit ++ ys) = replace (p.key k) new xs ++ lit ++ replace
    (p.key k) new ys := by
  obtain ⟨y, rest, rfl, before⟩ := plain.first
  obtain ⟨init, z, same, after⟩ := plain.last
  have split (ys : List α) : replace (p.key k) new (y :: rest ++ ys) = (y :: rest) ++
      replace (p.key k) new ys := by
    have kept := replace_absent new (plain.absent k)
    rw [same] at kept ⊢
    rw [replace_stop (p.nonempty k) (after k)] at kept
    rw [List.append_assoc, List.singleton_append, replace_stop (p.nonempty k) (after k),
      List.append_assoc]
    have kept_init : replace (p.key k) new init = init := (List.append_inj' kept rfl).1
    rw [kept_init]
    rfl
  have whole := split ys
  rw [List.append_assoc, List.cons_append, replace_stop (p.nonempty k) (before k)]
  rw [List.cons_append, show y :: (rest ++ ys) = [] ++ y :: (rest ++ ys) from rfl,
    replace_stop (p.nonempty k) (before k)] at whole
  rw [List.append_assoc, ← whole]
  rfl

theorem replace_fillSlots {slots : List (κ × List α)} (plain : ∀ slot ∈ slots, Literal p slot.2)
    (k : κ) (new : List α) (contents : κ → List α) :
    replace (p.key k) new (fillSlots contents slots) =
      fillSlots (fun j => replace (p.key k) new (contents j)) slots := by
  induction slots with
  | nil => rfl
  | cons slot slots ih =>
      have rest := ih fun other member => plain other (List.mem_cons_of_mem slot member)
      simp only [fillSlots, List.flatMap_cons] at rest ⊢
      rw [replace_literal (plain slot List.mem_cons_self), rest]

/-- A placeholder is replaced in what the slots hold, and nowhere else. -/
theorem replace_fill (t : Template p) (k : κ) (new : List α) (contents : κ → List α) :
    replace (p.key k) new (t.fill contents) = t.fill fun j => replace
    (p.key k) new (contents j) := by
  have head := replace_literal t.head_literal k new [] (fillSlots contents t.slots)
  rw [List.nil_append] at head
  rw [Template.fill, head, replace_fillSlots t.slots_literal]
  rfl

/-- Each placeholder replaced by its value, one after the other. -/
def inOrder (p : Placeholders α κ) (value : κ → List α) (order : List κ) (text : List α) : List α :=
  order.foldl (fun text k => replace (p.key k) (value k) text) text

variable {value : κ → List α}

theorem inOrder_fill (t : Template p) (order : List κ) (contents : κ → List α) :
    inOrder p value order (t.fill contents) = t.fill fun k => inOrder p value order
    (contents k) := by
  induction order generalizing contents with
  | nil => rfl
  | cons k order ih =>
      simp only [inOrder, List.foldl_cons] at ih ⊢
      rw [replace_fill, ih]

theorem inOrder_append (first second : List κ) (text : List α) :
    inOrder p value (first ++ second) text = inOrder p value second (inOrder p value first text) :=
  List.foldl_append

theorem inOrder_fixed {order : List κ} {text : List α}
    (fixed : ∀ k ∈ order, replace (p.key k) (value k) text = text) :
    inOrder p value order text = text := by
  induction order with
  | nil => rfl
  | cons k order ih =>
      rw [inOrder, List.foldl_cons, fixed k List.mem_cons_self]
      exact ih fun j member => fixed j (List.mem_cons_of_mem k member)

/-- What the replacements make of a placeholder: its value, as the later ones leave it. -/
theorem inOrder_key {before after : List κ} {k : κ} (first : k ∉ before) :
    inOrder p value (before ++ k :: after) (p.key k) = inOrder p value after (value k) := by
  have untouched : inOrder p value before (p.key k) = p.key k :=
    inOrder_fixed fun j member => replace_absent _ (p.apart k j fun same => first (same ▸ member))
  have own : replace (p.key k) (value k) (p.key k) = value k := by
    simpa [replace, replaceFrom] using replace_found (p.nonempty k) (value k) []
  rw [inOrder_append, untouched, inOrder, List.foldl_cons, own]
  rfl

omit [DecidableEq α] in
theorem fill_congr {t : Template p} {contents contents' : κ → List α}
    (same : ∀ slot ∈ t.slots, contents slot.1 = contents' slot.1) :
    t.fill contents = t.fill contents' :=
  congrArg (t.head ++ ·) (List.flatMap_congr fun slot member =>
    congrArg (· ++ slot.2) (same slot member))

/-- The replacements of a list of fields put just its value into every slot, in whatever order they
are made. -/
structure Plain (t : Template p) (fields : List κ) (value : κ → List α) : Prop where
  verbatim : ∀ order, order.Perm fields → ∀ k ∈ fields, inOrder p value order (p.key k) = value k
  anyOrder : ∀ order, order.Perm fields → inOrder p value order t.text = t.fill value

/-- No value has the placeholder of another field, unless that field's value is its placeholder. -/
def Closed (p : Placeholders α κ) (fields : List κ) (value : κ → List α) : Prop :=
  ∀ k ∈ fields, ∀ j ∈ fields, k ≠ j → p.key j <:+: value k → value j = p.key j

variable {fields : List κ}

theorem verbatim_of_closed (closed : Closed p fields value) {order : List κ} (once : fields.Nodup)
    (perm : order.Perm fields) {k : κ} (member : k ∈ fields) :
    inOrder p value order (p.key k) = value k := by
  obtain ⟨before, after, rfl⟩ := List.append_of_mem (perm.symm.subset member)
  have distinct : (before ++ k :: after).Nodup := perm.nodup_iff.mpr once
  obtain ⟨-, rest, apart⟩ := List.nodup_append.mp distinct
  rw [inOrder_key fun earlier => apart k earlier k List.mem_cons_self rfl]
  refine inOrder_fixed fun j later => (replace_fixed (p.nonempty j)).mpr fun within => ?_
  have other : k ≠ j := fun same => (List.nodup_cons.mp rest).1 (same ▸ later)
  exact closed k member j (perm.subset (by simp [later])) other within

variable [DecidableEq κ]

theorem closed_of_verbatim (once : fields.Nodup)
    (verbatim : ∀ order, order.Perm fields → ∀ k ∈ fields,
      inOrder p value order (p.key k) = value k) :
    Closed p fields value := by
  intro k member j other differ within
  have second : j ∈ fields.erase k := (List.mem_erase_of_ne (Ne.symm differ)).mpr other
  -- the other fields first, then `k`, and `j` last
  have perm : ((fields.erase k).erase j ++ k :: [j]).Perm fields := by
    refine List.perm_append_comm.trans ?_
    exact ((List.perm_cons_erase second).symm.cons k).trans (List.perm_cons_erase member).symm
  have absent : k ∉ (fields.erase k).erase j :=
    fun early => once.not_mem_erase (List.mem_of_mem_erase early)
  have made := verbatim _ perm k member
  rw [inOrder_key absent] at made
  exact (replace_fixed (p.nonempty j)).mp made within

theorem plain_iff {t : Template p} (once : fields.Nodup) (all : ∀ slot ∈ t.slots, slot.1 ∈ fields) :
    Plain t fields value ↔ Closed p fields value := by
  refine ⟨fun plain => closed_of_verbatim once plain.verbatim, fun closed => ?_⟩
  refine ⟨fun order perm k member => verbatim_of_closed closed once perm member, fun order perm =>
    ?_⟩
  rw [Template.text, inOrder_fill]
  exact fill_congr fun slot member => verbatim_of_closed closed once perm (all slot member)

end Substitution
