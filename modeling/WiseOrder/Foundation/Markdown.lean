import Mathlib.Data.List.Basic
import Mathlib.Data.List.TakeDrop

/-! The simple markup of a chat message. An underscore, an asterisk, a backtick or a bracket
opens an entity outside of one, three backticks open a block, and a backslash takes a marker
as it is; within an entity nothing but its end counts. The characters of a text are marked
with whether they are of a value that was put into it. -/
namespace Markdown

abbrev Marked := Char × Bool

def isMarker (c : Char) : Bool := c = '_' || c = '*' || c = '`' || c = '['

def closer (c : Char) : Char := if c = '[' then ']' else c

def nextMarker : List Marked → Bool
  | [] => false
  | (c, _) :: _ => isMarker c

def nextAddress : List Marked → Bool
  | [] => false
  | (c, _) :: _ => c = '('

def twoBackticks : List Marked → Bool
  | (c, _) :: (d, _) :: _ => c = '`' && d = '`'
  | _ => false

inductive Mode where
  | plain
  | escaped
  | entity (stop : Char)
  | fence (more : Nat) (closing : Bool)
  | block
  | address

def Mode.afterFence (closing : Bool) : Nat → Mode
  | 0 => if closing then plain else block
  | n + 1 => fence n closing

/-- Which of the characters that open or close an entity are of a value; nothing if an entity is
left open. -/
def scan : Mode → List Marked → Option (List Bool)
  | .plain, [] | .escaped, [] | .address, [] => some []
  | .entity _, [] | .fence .., [] | .block, [] => none
  | .plain, (c, own) :: rest =>
      if c = '\\' && nextMarker rest then scan .escaped rest
      else if c = '`' && twoBackticks rest then (scan (.fence 1 false) rest).map (own :: ·)
      else if isMarker c then (scan (.entity (closer c)) rest).map (own :: ·)
      else scan .plain rest
  | .escaped, _ :: rest => scan .plain rest
  | .entity stop, (c, own) :: rest =>
      if c = stop then (scan (if c = ']' && nextAddress rest then .address else .plain) rest).map
        (own :: ·)
      else scan (.entity stop) rest
  | .fence more closing, (_, own) :: rest =>
      (scan (Mode.afterFence closing more) rest).map (own :: ·)
  | .block, (c, own) :: rest =>
      if c = '`' && twoBackticks rest then (scan (.fence 1 true) rest).map (own :: ·)
      else scan .block rest
  | .address, (c, _) :: rest => scan (if c = ')' then .plain else .address) rest

/-- Every entity is closed, and no character of a value opens or closes one. -/
def Inert (scanned : Option (List Bool)) : Prop :=
  ∃ tags, scanned = some tags ∧ ∀ own ∈ tags, own = false

def Parses (text : List Marked) : Prop := Inert (scan .plain text)

/-! ### Texts made of pieces -/

def mark (own : Bool) (s : List Char) : List Marked := s.map (·, own)

/-- What a text is put together of: characters of its own, a title in bold, and values, one of them
as code. -/
inductive Piece where
  | literal (s : List Char)
  | bold (title : List Char)
  | code (v : List Char)
  | value (v : List Char)

def Piece.marked : Piece → List Marked
  | literal s => mark false s
  | bold title => ('*', false) :: (mark false title ++ [('*', false)])
  | code v => ('`', false) :: (mark true v ++ [('`', false)])
  | value v => mark true v

def text (pieces : List Piece) : List Marked := pieces.flatMap Piece.marked

/-- The markers are all escaped. -/
def Clean : List Char → Bool
  | [] => true
  | [c] => !isMarker c
  | c :: d :: rest =>
      if c = '\\' && isMarker d then Clean rest else !isMarker c && Clean (d :: rest)

/-- What of the piece is among the next `n` characters ends no entity that it does not begin, and
leaves none open. -/
def Piece.Fits (n : Nat) : Piece → Prop
  | literal _ => True
  | bold title => n = 0 ∨ title.length + 2 ≤ n
  | code v => n = 0 ∨ ('`' ∉ v ∧ v.length + 2 ≤ n)
  | value v => Clean (v.take n) = true

def Fits : Nat → List Piece → Prop
  | _, [] => True
  | n, p :: rest => p.Fits n ∧ Fits (n - p.marked.length) rest

/-- The characters of its own are no markers, and a title does not end early. -/
def Piece.Sound : Piece → Prop
  | literal s => ∀ c ∈ s, isMarker c = false ∧ c ≠ '\\'
  | bold title => '*' ∉ title
  | code _ | value _ => True

/-- After a value comes no marker. -/
def Spaced : List Piece → Prop
  | [] => True
  | p :: rest => (match p with
      | .code _ | .value _ => nextMarker (text rest) = false
      | _ => True) ∧ Spaced rest

section
variable {s v w title : List Char} {c : Char} {own : Bool} {rest : List Marked}
    {o : Option (List Bool)} {n : Nat} {pieces : List Piece}

theorem inert_nil : Inert (some []) := ⟨[], rfl, fun _ member => absurd member List.not_mem_nil⟩

theorem not_inert_none : ¬ Inert none := by
  rintro ⟨tags, same, -⟩
  cases same

theorem inert_map : Inert (o.map (own :: ·)) ↔ own = false ∧ Inert o := by
  constructor
  · rintro ⟨tags, same, none⟩
    obtain ⟨tags', rfl, rfl⟩ := Option.map_eq_some_iff.mp same
    obtain ⟨first, others⟩ := List.forall_mem_cons.mp none
    exact ⟨first, tags', rfl, others⟩
  · rintro ⟨rfl, tags, rfl, none⟩
    exact ⟨false :: tags, rfl, List.forall_mem_cons.mpr ⟨rfl, none⟩⟩

theorem nextMarker_take (calm : nextMarker rest = false) : nextMarker (rest.take n) = false := by
  cases rest with
  | nil => simp [nextMarker]
  | cons f rest =>
      cases n with
      | zero => rfl
      | succ n => exact calm

/-! ### Scanning -/

theorem scan_plain : scan .plain ((c, own) :: rest) =
    if c = '\\' && nextMarker rest then scan .escaped rest
    else if c = '`' && twoBackticks rest then (scan (.fence 1 false) rest).map (own :: ·)
    else if isMarker c then (scan (.entity (closer c)) rest).map (own :: ·)
    else scan .plain rest := rfl

@[simp]
theorem scan_escaped : scan .escaped ((c, own) :: rest) = scan .plain rest := rfl

theorem scan_within {stop : Char} : scan (.entity stop) ((c, own) :: rest) =
    if c = stop then (scan (if c = ']' && nextAddress rest then .address else .plain) rest).map
    (own :: ·) else scan (.entity stop) rest := rfl

@[simp]
theorem scan_fence {more : Nat} {closing : Bool} : scan (.fence more closing) ((c, own) :: rest) =
    (scan (Mode.afterFence closing more) rest).map (own :: ·) := rfl

theorem scan_other (plain : isMarker c = false) (solid : (c = '\\' && nextMarker rest) = false) :
    scan .plain ((c, own) :: rest) = scan .plain rest := by
  have backtick : (c = '`' && twoBackticks rest) = false := by
    cases same : decide (c = '`') with
    | false => rfl
    | true =>
        rw [of_decide_eq_true same] at plain
        exact absurd plain (by decide)
  rw [scan_plain, if_neg (by simp [solid]), if_neg (by simp [backtick]), if_neg (by simp [plain])]

theorem scan_literal (sound : ∀ c ∈ s, isMarker c = false ∧ c ≠ '\\') :
    scan .plain (mark own s ++ rest) = scan .plain rest := by
  induction s with
  | nil => rfl
  | cons c s ih =>
      obtain ⟨⟨plain, solid⟩, others⟩ := List.forall_mem_cons.mp sound
      rw [mark, List.map_cons, List.cons_append, scan_other plain (by simp [solid])]
      exact ih others

/-- An entity goes on to its end. -/
theorem scan_entity {stop : Char} {own' : Bool} (none : stop ∉ s) (other : stop ≠ ']') :
    scan (.entity stop) (mark own s ++ (stop, own') :: rest) = (scan .plain rest).map
    (own' :: ·) := by
  induction s with
  | nil => simp [mark, scan_within, other]
  | cons c s ih =>
      obtain ⟨first, others⟩ := not_or.mp (mt List.mem_cons.mpr none)
      rw [mark, List.map_cons, List.cons_append, scan_within, if_neg (Ne.symm first)]
      exact ih others

/-- An entity without its end is left open. -/
theorem scan_open {stop : Char} (none : stop ∉ s) : scan (.entity stop) (mark own s) = .none := by
  induction s with
  | nil => rfl
  | cons c s ih =>
      obtain ⟨first, others⟩ := not_or.mp (mt List.mem_cons.mpr none)
      rw [mark, List.map_cons, scan_within, if_neg (Ne.symm first)]
      exact ih others

/-- A value whose markers are all escaped goes by. -/
theorem scan_clean (clean : Clean v = true) (calm : nextMarker rest = false) :
    scan .plain (mark true v ++ rest) = scan .plain rest := by
  induction v using Clean.induct with
  | case1 => rfl
  | case2 c =>
      have plain : isMarker c = false := by simpa [Clean] using clean
      exact scan_other plain (by simp [calm])
  | case3 c d v escapes ih =>
      rw [Clean, if_pos escapes] at clean
      have skipped : scan .plain (mark true (c :: d :: v) ++ rest) =
          scan .plain (mark true v ++ rest) := by
        simp only [mark, List.map_cons, List.cons_append, scan_plain, scan_escaped,
          nextMarker, escapes, if_true]
      rw [skipped, ih clean]
  | case4 c d v solid ih =>
      rw [Clean, if_neg solid] at clean
      obtain ⟨plain, clean⟩ := Bool.and_eq_true_iff.mp clean
      rw [mark, List.map_cons, List.cons_append,
        scan_other (by simpa using plain) (by simpa [nextMarker] using solid)]
      exact ih clean

/-- A marker of a value opens an entity. -/
theorem scan_marker (marker : isMarker c = true) : ¬ Inert (scan .plain ((c, true) :: rest)) := by
  have solid : c ≠ '\\' := by
    rintro rfl
    exact absurd marker (by decide)
  rw [scan_plain, if_neg (by simp [solid])]
  split
  · exact fun inert => absurd (inert_map.mp inert).1 (by decide)
  · exact fun inert => absurd (inert_map.mp inert).1 (by decide)

theorem scan_unclean (unclean : Clean v = false) : ¬ Inert (scan .plain (mark true v ++ rest)) := by
  induction v using Clean.induct with
  | case1 => simp [Clean] at unclean
  | case2 c =>
      have marker : isMarker c = true := by simpa [Clean] using unclean
      exact scan_marker marker
  | case3 c d v escapes ih =>
      rw [Clean, if_pos escapes] at unclean
      have skipped : scan .plain (mark true (c :: d :: v) ++ rest) =
          scan .plain (mark true v ++ rest) := by
        simp only [mark, List.map_cons, List.cons_append, scan_plain, scan_escaped,
          nextMarker, escapes, if_true]
      rw [skipped]
      exact ih unclean
  | case4 c d v solid ih =>
      rw [Clean, if_neg solid] at unclean
      cases marker : isMarker c with
      | true => exact scan_marker marker
      | false =>
          rw [marker, Bool.not_false, Bool.true_and] at unclean
          rw [mark, List.map_cons, List.cons_append,
            scan_other marker (by simpa [nextMarker] using solid)]
          exact ih unclean

/-! ### Pieces -/

theorem mark_append (s t : List Char) : mark own (s ++ t) = mark own s ++ mark own t :=
  List.map_append

theorem mark_take (s : List Char) : (mark own s).take n = mark own (s.take n) := List.map_take.symm

theorem mark_length (s : List Char) : (mark own s).length = s.length := List.length_map ..

theorem twoBackticks_other (other : c ≠ '`') : twoBackticks ((c, own) :: rest) = false := by
  cases rest <;> simp [twoBackticks, other]

theorem twoBackticks_calm (calm : nextMarker rest = false) :
    twoBackticks ((c, own) :: rest) = false := by
  cases rest with
  | nil => rfl
  | cons f rest =>
      have other : f.1 ≠ '`' := by
        intro same
        simp [nextMarker, same, isMarker] at calm
      simp [twoBackticks, other]

/-- A value in backticks is none if it has one itself. -/
theorem scan_backtick (backtick : '`' ∈ v) :
    ¬ Inert (scan .plain (('`', false) :: (mark true v ++ rest).take n)) := by
  obtain ⟨before, after, rfl, fresh⟩ := List.eq_append_cons_of_mem backtick
  rw [scan_plain, if_neg (by simp)]
  have opened (cut : n ≤ before.length) : ¬ Inert
      (scan (.entity '`') ((mark true (before ++ '`' :: after) ++ rest).take n)) := by
    have kept : (mark true (before ++ '`' :: after) ++ rest).take n =
        mark true (before.take n) := by
      rw [mark_append, List.append_assoc, List.take_append_of_le_length (by rwa [mark_length]),
        mark_take]
    rw [kept, scan_open fun member => fresh (List.mem_of_mem_take member)]
    exact not_inert_none
  have closed (kept : before.length < n) : ¬ Inert
      (scan (.entity '`') ((mark true (before ++ '`' :: after) ++ rest).take n)) := by
    obtain ⟨k, rfl⟩ := Nat.exists_eq_add_of_lt kept
    have split : (mark true (before ++ '`' :: after) ++ rest).take (before.length + k + 1) =
        mark true before ++ ('`', true) :: (mark true after ++ rest).take k := by
      have count : (mark true before).length = before.length := mark_length before
      rw [mark_append, List.append_assoc, Nat.add_assoc, ← count, List.take_length_add_append]
      rfl
    rw [split, scan_entity fresh (by decide)]
    exact fun inert => absurd (inert_map.mp inert).1 (by decide)
  split
  · -- the first of the two characters after the backtick is the value's
    rename_i three
    obtain ⟨c, tail, first⟩ : ∃ c tail, mark true (before ++ '`' :: after) ++
        rest = (c, true) :: tail := by
      cases before with
      | nil => exact ⟨_, _, rfl⟩
      | cons b before => exact ⟨_, _, rfl⟩
    rw [first] at three ⊢
    cases n with
    | zero => simp [twoBackticks] at three
    | succ n =>
        rw [List.take_succ_cons, scan_fence]
        exact fun inert => absurd (inert_map.mp (inert_map.mp inert).2).1 (by decide)
  · rw [if_pos (by decide)]
    rcases Nat.lt_or_ge before.length n with kept | cut
    · exact fun inert => closed kept (inert_map.mp inert).2
    · exact fun inert => opened cut (inert_map.mp inert).2

theorem parses_literal (s : List Char) (sound : (Piece.literal s).Sound) :
    Parses ((mark false s ++ rest).take n) ↔ Parses (rest.take (n - s.length)) := by
  rw [List.take_append, mark_take, mark_length, Parses, scan_literal fun c member =>
    sound c (List.mem_of_mem_take member)]
  rfl

theorem take_marked (p : Piece) (k : Nat) : (p.marked ++ rest).take (k + p.marked.length) =
      p.marked ++ rest.take k := by
  rw [Nat.add_comm, List.take_length_add_append]

@[simp]
theorem bold_length (title : List Char) : (Piece.bold title).marked.length = title.length + 2 := by
  simp [Piece.marked, mark]

@[simp]
theorem code_length (v : List Char) : (Piece.code v).marked.length = v.length + 2 := by
  simp [Piece.marked, mark]

theorem parses_bold (sound : '*' ∉ title) : Parses (((Piece.bold title).marked ++ rest).take n) ↔
    (Piece.bold title).Fits n ∧ Parses (rest.take (n - (title.length + 2))) := by
  have opened (t : List Marked) : scan .plain (('*', false) :: t) =
      (scan (.entity '*') t).map (false :: ·) := by
    rw [scan_plain, if_neg (by simp), if_neg (by simp), if_pos (by decide)]
    rfl
  rcases Nat.lt_or_ge n (title.length + 2) with cut | whole
  · cases n with
    | zero => simp [Piece.Fits]
    | succ n =>
        have kept : ((Piece.bold title).marked ++ rest).take (n + 1) = ('*', false) ::
            mark false (title.take n) := by
          simp only [Piece.marked, List.cons_append, List.append_assoc, List.take_succ_cons]
          rw [List.take_append_of_le_length (by rw [mark_length]; omega), mark_take]
        rw [kept, Parses, opened, scan_open fun member => sound (List.mem_of_mem_take member)]
        simp [Piece.Fits, not_inert_none]
        omega
  · obtain ⟨k, rfl⟩ := Nat.exists_eq_add_of_le' whole
    have kept : ((Piece.bold title).marked ++ rest).take (k + (title.length + 2)) =
        ('*', false) :: (mark false title ++ ('*', false) :: rest.take k) := by
      rw [← bold_length, take_marked]
      simp [Piece.marked]
    rw [kept, Parses, opened, scan_entity sound (by decide), inert_map, inert_map]
    simp [Piece.Fits, Parses]

theorem parses_code (calm : nextMarker rest = false) :
    Parses (((Piece.code v).marked ++ rest).take n) ↔ (Piece.code v).Fits n ∧ Parses
    (rest.take (n - (v.length + 2))) := by
  obtain _ | n := n
  · simp [Piece.Fits]
  by_cases backtick : '`' ∈ v
  · have kept : ((Piece.code v).marked ++ rest).take (n + 1) = ('`', false) ::
      (mark true v ++ (('`', false) :: rest)).take n := by
      simp [Piece.marked]
    rw [kept]
    exact ⟨fun parses => absurd parses (scan_backtick backtick),
      fun ⟨fits, _⟩ => by simp [Piece.Fits, backtick] at fits⟩
  · have opened {t : List Marked} (one : twoBackticks t = false) :
        scan .plain (('`', false) :: t) = (scan (.entity '`') t).map (false :: ·) := by
      rw [scan_plain, if_neg (by simp), if_neg (by simp [one]), if_pos (by decide)]
      rfl
    have single {t : List Marked} (calm : nextMarker t = false) : twoBackticks
        (mark true v ++ ('`', false) :: t) = false := by
      cases v with
      | nil => exact twoBackticks_calm calm
      | cons a v => exact twoBackticks_other fun same => backtick (same ▸ List.mem_cons_self)
    rcases Nat.lt_or_ge (n + 1) (v.length + 2) with cut | whole
    · have kept : ((Piece.code v).marked ++ rest).take (n + 1) =
        ('`', false) :: mark true (v.take n) := by
        simp only [Piece.marked, List.cons_append, List.append_assoc, List.take_succ_cons]
        rw [List.take_append_of_le_length (by rw [mark_length]; omega), mark_take]
      have one : twoBackticks (mark true (v.take n)) = false := by
        cases start : v.take n with
        | nil => rfl
        | cons a w =>
            have there : a ∈ v := List.mem_of_mem_take (start ▸ List.mem_cons_self)
            exact twoBackticks_other fun same => backtick (same ▸ there)
      rw [kept, Parses, opened one, scan_open fun member => backtick (List.mem_of_mem_take member)]
      simp [Piece.Fits, not_inert_none]
      omega
    · obtain ⟨k, same⟩ := Nat.exists_eq_add_of_le' whole
      have kept : ((Piece.code v).marked ++ rest).take (n + 1) = ('`', false) ::
          (mark true v ++ ('`', false) :: rest.take k) := by
        rw [same, ← code_length, take_marked]
        simp [Piece.marked]
      rw [kept, Parses, opened (single (nextMarker_take calm)), scan_entity backtick (by decide),
        inert_map, inert_map, same]
      simp [Piece.Fits, Parses, backtick]

theorem parses_value (calm : nextMarker rest = false) : Parses ((mark true v ++ rest).take n) ↔
    (Piece.value v).Fits n ∧ Parses (rest.take (n - v.length)) := by
  rw [List.take_append, mark_take, mark_length, Piece.Fits]
  cases clean : Clean (v.take n) with
  | true => simp [Parses, scan_clean clean (nextMarker_take calm)]
  | false => simp [Parses, scan_unclean clean]

/-- A text that is cut after `n` characters parses, with its values inert, exactly when each of its
pieces fits. -/
theorem parses_iff (sound : ∀ p ∈ pieces, p.Sound) (spaced : Spaced pieces) :
    Parses ((text pieces).take n) ↔ Fits n pieces := by
  induction pieces generalizing n with
  | nil => simp [text, Parses, scan, Fits, inert_nil]
  | cons p rest ih =>
      obtain ⟨first, others⟩ := List.forall_mem_cons.mp sound
      obtain ⟨calm, spaced⟩ := spaced
      have joined : text (p :: rest) = p.marked ++ text rest := List.flatMap_cons
      rw [joined, Fits, ← ih others spaced]
      cases p with
      | literal s =>
          rw [Piece.marked, parses_literal s first, mark_length]
          exact (iff_of_eq (true_and _)).symm
      | bold title => rw [parses_bold first, bold_length]
      | code v => rw [parses_code calm, code_length]
      | value v => rw [Piece.marked, parses_value calm, mark_length]

end

end Markdown
