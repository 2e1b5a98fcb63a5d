import Mathlib.Data.List.Nodup
import Mathlib.Logic.Function.Basic

/-! Tables of rows under increasing ids. Each row remembers who put it in, so that
the rows of one owner can be followed by themselves: what others do to their own
rows does not show there. -/
namespace Relational
variable {κ ρ : Type}

structure Entry (κ ρ : Type) where
  id : Nat
  owner : κ
  row : ρ

/-- Ids increase in the order of insertion and lie below the next one. -/
structure Table (κ ρ : Type) where
  entries : List (Entry κ ρ)
  next : Nat
  increasing : (entries.map Entry.id).Pairwise (· < ·)
  below : ∀ e ∈ entries, e.id < next

/-- Rows with their ids. -/
abbrev Rows (ρ : Type) := List (Nat × ρ)

namespace Rows
variable {rows more : Rows ρ} {id n : Nat} {row : ρ} {f : ρ → ρ}

def change (id : Nat) (f : ρ → ρ) (rows : Rows ρ) : Rows ρ :=
  rows.map fun (n, row) => if n = id then (n, f row) else (n, row)

def add (rows : Rows ρ) (id : Nat) (row : ρ) : Rows ρ := rows ++ [(id, row)]

def Holds (rows : Rows ρ) (id : Nat) : Prop := ∃ row, (id, row) ∈ rows

theorem change_append (id : Nat) (f : ρ → ρ) (rows more : Rows ρ) :
    (rows ++ more).change id f = rows.change id f ++ more.change id f := List.map_append

theorem change_absent (absent : ¬ rows.Holds id) : rows.change id f = rows := by
  induction rows with
  | nil => rfl
  | cons entry rows ih =>
      obtain ⟨n, row⟩ := entry
      have other : n ≠ id := fun same => absent ⟨row, by simp [same]⟩
      have rest : ¬ Rows.Holds rows id :=
        fun ⟨r, member⟩ => absent ⟨r, List.mem_cons_of_mem _ member⟩
      simp only [change, List.map_cons, other, if_false] at ih ⊢
      rw [ih rest]

theorem change_last (absent : ¬ rows.Holds id) :
    (rows.add id row).change id f = rows.add id (f row) := by
  rw [add, change_append, change_absent absent]
  simp [change, add]

theorem mem_change (member : (n, row) ∈ rows.change id f) :
    ∃ old, (n, old) ∈ rows ∧ row = if n = id then f old else old := by
  obtain ⟨⟨m, old⟩, present, same⟩ := List.mem_map.mp member
  by_cases target : m = id
  · simp only [target, if_true, Prod.mk.injEq] at same
    exact ⟨old, by rw [← same.1, ← target]; exact present, by simp [← same.1, same.2]⟩
  · simp only [target, if_false, Prod.mk.injEq] at same
    obtain ⟨rfl, rfl⟩ := same
    exact ⟨old, present, by simp [target]⟩

theorem holds_change : (rows.change id f).Holds n ↔ rows.Holds n := by
  constructor
  · rintro ⟨row, member⟩
    obtain ⟨old, present, -⟩ := mem_change member
    exact ⟨old, present⟩
  · rintro ⟨row, member⟩
    refine ⟨if n = id then f row else row, List.mem_map.mpr ⟨(n, row), member, ?_⟩⟩
    by_cases target : n = id <;> simp [target]

theorem only {a b : Nat × ρ} (few : rows.length ≤ 1) (left : a ∈ rows) (right : b ∈ rows) :
    a = b := by
  match rows, few with
  | [], _ => contradiction
  | [_], _ => exact (List.mem_singleton.mp left).trans (List.mem_singleton.mp right).symm

end Rows

namespace Table
variable {t : Table κ ρ} {id n : Nat} {e e' : Entry κ ρ} {i j : κ} {row row' : ρ} {f : ρ → ρ}
  {chosen : Entry κ ρ → Bool}

def empty : Table κ ρ := ⟨[], 1, .nil, by simp⟩

def insert (t : Table κ ρ) (owner : κ) (row : ρ) : Table κ ρ where
  entries := t.entries ++ [⟨t.next, owner, row⟩]
  next := t.next + 1
  increasing := by
    rw [List.map_append, List.pairwise_append]
    refine ⟨t.increasing, List.pairwise_singleton _ _, fun a old b new => ?_⟩
    obtain ⟨e, member, rfl⟩ := List.mem_map.mp old
    rw [List.map_singleton, List.mem_singleton] at new
    exact new ▸ t.below e member
  below := by
    intro e member
    rcases List.mem_append.mp member with old | new
    · exact Nat.lt_succ_of_lt (t.below e old)
    · rw [List.mem_singleton] at new
      exact new ▸ Nat.lt_succ_self _

/-- Rewrite the rows of the entries that `chosen` selects. -/
def update (t : Table κ ρ) (chosen : Entry κ ρ → Bool) (f : ρ → ρ) : Table κ ρ where
  entries := t.entries.map fun e => if chosen e then { e with row := f e.row } else e
  next := t.next
  increasing := by
    have ids : (t.entries.map fun e => if chosen e then { e with row := f e.row }
      else e).map Entry.id =
        t.entries.map Entry.id := by
      rw [List.map_map]
      apply List.map_congr_left
      intro e _
      simp only [Function.comp_apply]
      split <;> rfl
    rw [ids]
    exact t.increasing
  below := by
    intro e member
    obtain ⟨old, present, same⟩ := List.mem_map.mp member
    have id : e.id = old.id := by
      rw [← same]
      split <;> rfl
    exact id ▸ t.below old present

def find? (t : Table κ ρ) (id : Nat) : Option (Entry κ ρ) := t.entries.find? fun e => e.id = id

/-- `update` at one id. -/
def updateAt (t : Table κ ρ) (id : Nat) (f : ρ → ρ) : Table κ ρ := t.update (fun e => e.id = id) f

theorem mem_insert :
    e ∈ (t.insert owner row).entries ↔ e ∈ t.entries ∨ e = ⟨t.next, owner, row⟩ := by
  simp [insert]

theorem mem_update :
    e ∈ (t.update chosen f).entries ↔
      ∃ old ∈ t.entries, e = if chosen old then { old with row := f old.row } else old := by
  simp only [update, List.mem_map, eq_comm]

theorem find?_mem (found : t.find? id = some e) : e ∈ t.entries ∧ e.id = id :=
  ⟨List.mem_of_find?_eq_some found, by simpa using List.find?_some found⟩

/-- Entries with one id are one entry. -/
theorem unique (left : e ∈ t.entries) (right : e' ∈ t.entries) (same : e.id = e'.id) :
    e = e' := by
  have distinct : (t.entries.map Entry.id).Nodup := t.increasing.imp Nat.ne_of_lt
  exact List.inj_on_of_nodup_map distinct left right same

theorem find?_of_mem (member : e ∈ t.entries) : t.find? e.id = some e := by
  cases found : t.find? e.id with
  | none =>
      have := List.find?_eq_none.mp found e member
      simp at this
  | some e' =>
      obtain ⟨present, same⟩ := find?_mem found
      rw [unique present member same]

theorem find?_insert (t : Table κ ρ) (owner : κ) (row : ρ) (id : Nat) :
    (t.insert owner row).find? id = (t.find? id).or
    (if t.next = id then some ⟨t.next, owner, row⟩ else none) := by
  simp only [find?, insert, List.find?_append, List.find?_cons, List.find?_nil]
  by_cases same : t.next = id <;> simp [same]

theorem find?_update (t : Table κ ρ) (chosen : Entry κ ρ → Bool) (f : ρ → ρ) (id : Nat) :
    (t.update chosen f).find? id =
      (t.find? id).map fun e => if chosen e then { e with row := f e.row } else e := by
  have ids : ((fun e : Entry κ ρ => decide (e.id = id)) ∘ fun e =>
    if chosen e then { e with row := f e.row } else e) =
      fun e => decide (e.id = id) := by
    funext e
    simp only [Function.comp_apply]
    split <;> rfl
  simp only [find?, update, List.find?_map, ids]

/-- Every row is still there, changed as `R` allows. -/
def Evolves (R : ρ → ρ → Prop) (t t' : Table κ ρ) : Prop :=
  ∀ e ∈ t.entries, ∃ row, R e.row row ∧ ⟨e.id, e.owner, row⟩ ∈ t'.entries

section
variable {R : ρ → ρ → Prop}

theorem Evolves.refl (same : ∀ row, R row row) (t : Table κ ρ) : t.Evolves R t :=
  fun e member => ⟨e.row, same e.row, member⟩

theorem Evolves.trans {t t' t'' : Table κ ρ} (follow : ∀ {a b c}, R a b → R b c → R a c)
    (first : t.Evolves R t') (second : t'.Evolves R t'') : t.Evolves R t'' := by
  intro e member
  obtain ⟨row, moved, present⟩ := first e member
  obtain ⟨row', moved', present'⟩ := second _ present
  exact ⟨row', follow moved moved', present'⟩

theorem Evolves.mono {R' : ρ → ρ → Prop} {t t' : Table κ ρ} (weaker : ∀ {a b}, R a b → R' a b)
    (evolves : t.Evolves R t') : t.Evolves R' t' := by
  intro e member
  obtain ⟨row, moved, present⟩ := evolves e member
  exact ⟨row, weaker moved, present⟩

theorem evolves_insert (same : ∀ row, R row row) (t : Table κ ρ) (owner : κ) (row : ρ) :
    t.Evolves R (t.insert owner row) :=
  fun e member => ⟨e.row, same e.row, mem_insert.mpr (.inl member)⟩

theorem evolves_update (same : ∀ row, R row row)
    (changes : ∀ e ∈ t.entries, chosen e = true → R e.row (f e.row)) :
    t.Evolves R (t.update chosen f) := by
  intro e member
  cases selected : chosen e with
  | true =>
      exact ⟨f e.row, changes e member selected, mem_update.mpr ⟨e, member, by simp [selected]⟩⟩
  | false => exact ⟨e.row, same e.row, mem_update.mpr ⟨e, member, by simp [selected]⟩⟩

end

/-- The rows that were chosen have changed as `R` says, and nothing else has. -/
structure Became (chosen : Entry κ ρ → Prop) (R : ρ → ρ → Prop) (t t' : Table κ ρ) : Prop where
  next : t'.next = t.next
  rows : List.Forall₂ (fun e e' => e'.id = e.id ∧ e'.owner = e.owner ∧ (chosen e → R e.row e'.row) ∧
    (¬ chosen e → e'.row = e.row))
    t.entries t'.entries

section
variable {picked more : Entry κ ρ → Prop} {R R' : ρ → ρ → Prop} {t' : Table κ ρ}

theorem became_refl (none : ∀ e ∈ t.entries, ¬ picked e) : t.Became picked R t where
  next := rfl
  rows := List.forall₂_same.mpr fun e member =>
    ⟨rfl, rfl, fun taken => absurd taken (none e member), fun _ => rfl⟩

/-- Where `R` leaves no choice, the table is an update of the old one. -/
theorem Became.eq_update (became : t.Became picked R t')
    (only : ∀ e ∈ t.entries, picked e → ∀ row, R e.row row → row = f e.row)
    (same : ∀ e ∈ t.entries, (chosen e = true ↔ picked e)) : t' = t.update chosen f := by
  obtain ⟨next, rows⟩ := became
  have entries : t'.entries = (t.update chosen f).entries := by
    have length : t'.entries.length = (t.update chosen f).entries.length := by
      rw [← rows.length_eq, Table.update, List.length_map]
    refine List.ext_get length fun k below' below => ?_
    have there : k < t.entries.length := rows.length_eq ▸ below'
    obtain ⟨id, owner, changed, kept⟩ := rows.get there below'
    have member := List.get_mem t.entries ⟨k, there⟩
    have iff := same _ member
    have new : (t.update chosen f).entries.get ⟨k, below⟩ =
        if chosen (t.entries.get ⟨k, there⟩) then
          { t.entries.get ⟨k, there⟩ with row := f (t.entries.get ⟨k, there⟩).row }
        else t.entries.get ⟨k, there⟩ := by simp [Table.update]
    rw [new]
    generalize t'.entries.get ⟨k, below'⟩ = e' at *
    generalize t.entries.get ⟨k, there⟩ = e at *
    obtain ⟨i, o, r⟩ := e'
    cases id
    cases owner
    by_cases taken : picked e
    · cases only _ member taken _ (changed taken)
      rw [if_pos (iff.mpr taken)]
    · cases kept taken
      rw [if_neg fun chosen => taken (iff.mp chosen)]
  obtain ⟨es, n, inc, below⟩ := t'
  cases entries
  cases next
  rfl

/-- Where nothing was chosen, nothing has changed. -/
theorem Became.same (became : t.Became picked R t') (none : ∀ e ∈ t.entries, ¬ picked e) :
    t' = t := by
  have updated : t' = t.update (fun _ => false) id :=
    became.eq_update (fun e member taken => absurd taken (none e member))
      fun e member => by simp [none e member]
  rw [updated]
  simp [update]

/-- Every row there afterwards was there before. -/
theorem Became.origin (became : t.Became picked R t') (member : e' ∈ t'.entries) : ∃ e ∈ t.entries,
    e'.id = e.id ∧ e'.owner = e.owner ∧ (picked e → R e.row e'.row) ∧
    (¬ picked e → e'.row = e.row) := by
  obtain ⟨⟨k, below'⟩, rfl⟩ := List.get_of_mem member
  have below : k < t.entries.length := became.rows.length_eq ▸ below'
  exact ⟨_, List.get_mem t.entries ⟨k, below⟩, became.rows.get below below'⟩

theorem Became.weaken (became : t.Became picked R t') (same : ∀ e ∈ t.entries, (picked e ↔ more e))
    (weaker : ∀ {a b}, R a b → R' a b) : t.Became more R' t' where
  next := became.next
  rows := by
    refine List.forall₂_iff_get.mpr ⟨became.rows.length_eq, fun k below below' => ?_⟩
    obtain ⟨id, owner, changed, kept⟩ := became.rows.get below below'
    have iff := same _ (List.get_mem t.entries ⟨k, below⟩)
    exact ⟨id, owner, fun taken => weaker (changed (iff.mpr taken)), fun left =>
      kept fun taken => left (iff.mp taken)⟩

/-- A further update changes rows that were not chosen before. -/
theorem Became.update (became : t.Became picked R t')
    (old : ∀ e ∈ t.entries, picked e → ∀ row, R e.row row →
      sel ⟨e.id, e.owner, row⟩ = false ∧ more e)
    (new : ∀ e ∈ t.entries, ¬ picked e → (sel e = true ↔ more e) ∧
      (sel e = true → R e.row (f e.row))) :
    t.Became more R (t'.update sel f) where
  next := became.next
  rows := by
    refine List.forall₂_map_right_iff.mpr (List.forall₂_iff_get.mpr ⟨became.rows.length_eq,
      fun k below below' => ?_⟩)
    obtain ⟨id, owner, changed, kept⟩ := became.rows.get below below'
    have member := List.get_mem t.entries ⟨k, below⟩
    generalize t.entries.get ⟨k, below⟩ = e at *
    generalize t'.entries.get ⟨k, below'⟩ = e' at *
    obtain ⟨id', owner', row'⟩ := e'
    cases id
    cases owner
    by_cases before : picked e
    · obtain ⟨skipped, also⟩ := old e member before row' (changed before)
      simp only [skipped, Bool.false_eq_true, if_false]
      exact ⟨trivial, trivial, fun _ => changed before, fun left => absurd also left⟩
    · obtain ⟨iff, changes⟩ := new e member before
      cases kept before
      cases taken : sel e with
      | true => simpa [taken] using ⟨fun _ => changes taken, fun left => absurd (iff.mp taken) left⟩
      | false => simpa [taken] using fun chosen => absurd (iff.mpr chosen) (by simp [taken])

end

section
variable [DecidableEq κ]

def owned (t : Table κ ρ) (i : κ) : Rows ρ :=
  (t.entries.filter fun e => e.owner = i).map fun e => (e.id, e.row)

theorem mem_owned : (n, row) ∈ t.owned i ↔ ⟨n, i, row⟩ ∈ t.entries := by
  simp only [owned, List.mem_map, List.mem_filter, decide_eq_true_eq, Prod.mk.injEq]
  constructor
  · rintro ⟨e, ⟨member, rfl⟩, rfl, rfl⟩
    exact member
  · intro member
    exact ⟨_, ⟨member, rfl⟩, rfl, rfl⟩

@[simp]
theorem owned_insert (t : Table κ ρ) (i : κ) (row : ρ) :
    (t.insert i row).owned i = (t.owned i).add t.next row := by
  simp [Rows.add, owned, insert, List.filter_append]

theorem owned_insert_other (t : Table κ ρ) (row : ρ) (other : j ≠ i) :
    (t.insert j row).owned i = t.owned i := by
  simp [owned, insert, List.filter_append, other]

/-- A new id is above all ids that were there. -/
theorem owned_below (holds : (t.owned i).Holds n) : n < t.next := by
  obtain ⟨row, member⟩ := holds
  exact t.below _ (mem_owned.mp member)

theorem owned_update (t : Table κ ρ) (chosen : Entry κ ρ → Bool) (f : ρ → ρ) (i : κ) :
    (t.update chosen f).owned i =
      (t.owned i).map fun (n, row) => if chosen ⟨n, i, row⟩ then (n, f row) else (n, row) := by
  simp only [owned, update, List.filter_map, List.map_map]
  have kept : t.entries.filter ((fun e => decide (e.owner = i)) ∘ fun e =>
      if chosen e then { e with row := f e.row } else e) = t.entries.filter fun e =>
          e.owner = i := by
    apply List.filter_congr
    intro e _
    simp only [Function.comp_apply]
    split <;> rfl
  rw [kept]
  apply List.map_congr_left
  intro e member
  have owner : e.owner = i := by simpa using (List.mem_filter.mp member).2
  simp only [Function.comp_apply, ← owner]
  split <;> rfl

@[simp]
theorem owned_updateAt (t : Table κ ρ) (n : Nat) (f : ρ → ρ) (i : κ) :
    (t.updateAt n f).owned i = (t.owned i).change n f := by
  simp only [updateAt, owned_update, Rows.change, decide_eq_true_eq]

/-- Changing an entry does not show among the rows of another owner. -/
theorem owned_updateAt_other (mine : (t.owned j).Holds n) (other : j ≠ i) :
    (t.updateAt n f).owned i = t.owned i := by
  rw [owned_updateAt, Rows.change_absent]
  rintro ⟨row, member⟩
  obtain ⟨row', member'⟩ := mine
  have := unique (mem_owned.mp member) (mem_owned.mp member') rfl
  exact other (congrArg Entry.owner this).symm

/-- An owner's row is the row of every entry under its id. -/
theorem owned_entry (mine : (n, row) ∈ t.owned i) (member : e ∈ t.entries) (same : e.id = n) :
    e = ⟨n, i, row⟩ :=
  unique member (mem_owned.mp mine) same

end

end Table

end Relational
