import Mathlib.Data.List.TakeWhile
import Mathlib.Data.List.Infix

/-! Patterns in a list: the leftmost place where one matches, and the stretch from the
first of one kind of element to the last of another. -/
namespace Patterns

variable {α β : Type}

/-- What is found at the leftmost place where anything is. -/
def search (here : List α → Option β) : List α → Option β
  | [] => here []
  | x :: xs => match here (x :: xs) with
      | some found => some found
      | none => search here xs

variable {here : List α → Option β}

theorem search_here {xs : List α} (found : here xs = some b) : search here xs = some b := by
  cases xs with
  | nil => exact found
  | cons x xs => simp [search, found]

/-- Nothing is found before the places where something may match. -/
theorem search_skip {p : List α} (nowhere : ∀ x ∈ p, ∀ rest, here (x :: rest) = none)
    (xs : List α) : search here (p ++ xs) = search here xs := by
  induction p with
  | nil => rfl
  | cons x p ih =>
      simp only [List.cons_append, search, nowhere x List.mem_cons_self]
      exact ih fun y member => nowhere y (List.mem_cons_of_mem x member)

theorem search_none {p : List α} (nowhere : ∀ x ∈ p, ∀ rest, here (x :: rest) = none)
    (last : here [] = none) : search here p = none := by
  have := search_skip nowhere []
  rw [List.append_nil] at this
  exact this.trans last

/-- What follows changes nothing where no match reaches into it. -/
theorem search_append {q : List α} (stable : ∀ t, here (t ++ q) = here t)
    (none : search here q = none) (xs : List α) : search here (xs ++ q) = search here xs := by
  induction xs with
  | nil =>
      have last := stable []
      cases q with
      | nil => rfl
      | cons y q =>
          rw [List.nil_append, none]
          simp only [search] at none ⊢
          cases found : here (y :: q) with
          | some b => simp [found] at none
          | none => exact found.symm.trans last
  | cons x xs ih =>
      have same := stable (x :: xs)
      simp only [List.cons_append, search] at same ⊢
      rw [same, ih]

variable {first last : α → Bool}

/-- From the first element of one kind to the last of another, where one follows. -/
def between (first last : α → Bool) (xs : List α) : Option (List α) :=
  match xs.dropWhile fun x => !first x with
  | [] => none
  | x :: rest => match rest.reverse.dropWhile fun x => !last x with
      | [] => none
      | upTo => some (x :: upTo.reverse)

theorem between_span {p q inner : List α} {x y : α} (before : ∀ z ∈ p, first z = false)
    (opens : first x = true) (closes : last y = true) (after : ∀ z ∈ q, last z = false) :
    between first last (p ++ x :: (inner ++ y :: q)) = some (x :: (inner ++ [y])) := by
  have begun : (p ++ x :: (inner ++ y :: q)).dropWhile (fun x => !first x) =
      x :: (inner ++ y :: q) := by
    rw [List.dropWhile_append_of_pos fun z member => by simp [before z member]]
    simp [opens]
  have ended : (inner ++ y :: q).reverse.dropWhile (fun x => !last x) = y :: inner.reverse := by
    rw [List.reverse_append, List.reverse_cons, List.append_assoc,
      List.dropWhile_append_of_pos fun z member => by simp [after z (List.mem_reverse.mp member)]]
    simp [closes]
  simp only [between, begun, ended]
  simp

/-- A prefix ends before an element that it does not have. -/
theorem isPrefixOf_stop [BEq α] [LawfulBEq α] {w : List α} {y : α}
    (outside : y ∉ w) (xs rest : List α) : w.isPrefixOf (xs ++ y :: rest) = w.isPrefixOf xs := by
  induction w generalizing xs with
  | nil => simp [List.isPrefixOf]
  | cons x w ih =>
      have other : y ∉ w := fun member => outside (List.mem_cons_of_mem x member)
      cases xs with
      | nil =>
          have differs : (x == y) = false := by
            simp only [beq_eq_false_iff_ne]
            rintro rfl
            exact outside List.mem_cons_self
          simp [List.isPrefixOf, differs]
      | cons z xs => simp [List.isPrefixOf, ih other]

theorem isPrefixOf_append [BEq α] [LawfulBEq α] {w q : List α} (outside : ∀ y ∈ q, y ∉ w)
    (xs : List α) : w.isPrefixOf (xs ++ q) = w.isPrefixOf xs := by
  cases q with
  | nil => rw [List.append_nil]
  | cons y q => exact isPrefixOf_stop (outside y List.mem_cons_self) xs q

end Patterns
