import Mathlib.Data.List.Basic

/-! The markup of a hypertext, and texts put into it. A tag goes from an angle bracket to the next
one that is not within quotes; outside of the tags is what is shown, where a few entities stand for
the characters that would be markup. -/
namespace Markup

inductive Mode where
  | text
  | tag
  | double
  | single
  deriving DecidableEq

def step : Mode → Char → Mode
  | .text, c => if c = '<' then .tag else .text
  | .tag, c =>
      if c = '>' then .text else if c = '"' then .double else if c = '\'' then .single else .tag
  | .double, c => if c = '"' then .tag else .double
  | .single, c => if c = '\'' then .tag else .single

def after (m : Mode) (cs : List Char) : Mode := cs.foldl step m

/-- The characters for which `keeps` holds where they stand. -/
def picked (keeps : Mode → Char → Bool) : Mode → List Char → List Char
  | _, [] => []
  | m, c :: cs => if keeps m c then c :: picked keeps (step m c) cs else picked keeps (step m c) cs

def isTag : Mode → Char → Bool
  | .text, c => c = '<'
  | .tag, _ => true
  | .double, c => c = '"'
  | .single, c => c = '\''

def isText : Mode → Char → Bool
  | .text, c => c ≠ '<'
  | _, _ => false

/-- The tags, without the values of their attributes. -/
def tags (m : Mode) (cs : List Char) : List Char := picked isTag m cs

def words (m : Mode) (cs : List Char) : List Char := picked isText m cs

/-- Markup, or the start of an entity. -/
def isSpecial (c : Char) : Bool := c = '&' || c = '<' || c = '>' || c = '"' || c = '\''

def entity (c : Char) : List Char :=
  if c = '&' then ['&', 'a', 'm', 'p', ';']
  else if c = '<' then ['&', 'l', 't', ';']
  else if c = '>' then ['&', 'g', 't', ';']
  else if c = '"' then ['&', 'q', 'u', 'o', 't', ';']
  else if c = '\'' then ['&', '#', '3', '9', ';']
  else [c]

def escape (v : List Char) : List Char := v.flatMap entity

/-- The text that a text with entities stands for. -/
def shown : List Char → List Char
  | [] => []
  | '&' :: 'a' :: 'm' :: 'p' :: ';' :: cs => '&' :: shown cs
  | '&' :: 'l' :: 't' :: ';' :: cs => '<' :: shown cs
  | '&' :: 'g' :: 't' :: ';' :: cs => '>' :: shown cs
  | '&' :: 'q' :: 'u' :: 'o' :: 't' :: ';' :: cs => '"' :: shown cs
  | '&' :: '#' :: '3' :: '9' :: ';' :: cs => '\'' :: shown cs
  | c :: cs => c :: shown cs

section
variable {m : Mode} {v : List Char} {c : Char} {keeps : Mode → Char → Bool}

theorem after_append (m : Mode) (a b : List Char) : after m (a ++ b) = after (after m a) b :=
  List.foldl_append ..

theorem picked_append (m : Mode) (a b : List Char) :
    picked keeps m (a ++ b) = picked keeps m a ++ picked keeps (after m a) b := by
  induction a generalizing m with
  | nil => rfl
  | cons c a ih =>
      rw [List.cons_append, picked, picked, ih]
      split <;> rfl

theorem mem_picked (member : c ∈ picked keeps m v) : c ∈ v := by
  induction v generalizing m with
  | nil => exact member
  | cons d v ih =>
      rw [picked] at member
      split at member
      · rcases List.mem_cons.mp member with rfl | later
        · exact List.mem_cons_self
        · exact List.mem_cons_of_mem _ (ih later)
      · exact List.mem_cons_of_mem _ (ih member)

theorem shown_other (other : c ≠ '&') (cs : List Char) : shown (c :: cs) = c :: shown cs := by
  rw [shown.eq_def]
  split <;> simp_all

theorem shown_plain (plain : ∀ c ∈ v, c ≠ '&') (cs : List Char) :
    shown (v ++ cs) = v ++ shown cs := by
  induction v with
  | nil => rfl
  | cons c v ih =>
      obtain ⟨first, others⟩ := List.forall_mem_cons.mp plain
      rw [List.cons_append, shown_other first, ih others, List.cons_append]

theorem shown_entity (c : Char) (cs : List Char) : shown (entity c ++ cs) = c :: shown cs := by
  unfold entity
  split_ifs with amp lt gt quot apos
  · rw [amp]; rfl
  · rw [lt]; rfl
  · rw [gt]; rfl
  · rw [quot]; rfl
  · rw [apos]; rfl
  · exact shown_other amp cs

/-- An escaped value is shown as it is. -/
theorem shown_escape (v cs : List Char) : shown (escape v ++ cs) = v ++ shown cs := by
  induction v with
  | nil => rfl
  | cons c v ih =>
      rw [escape, List.flatMap_cons, List.append_assoc, shown_entity,
        ← escape, ih, List.cons_append]

/-- Neither an angle bracket nor a quotation mark. -/
def Inert (v : List Char) : Prop := ∀ c ∈ v, c ≠ '<' ∧ c ≠ '>' ∧ c ≠ '"' ∧ c ≠ '\''

theorem inert_entity (c : Char) : Inert (entity c) := by
  unfold entity Inert
  split_ifs with amp lt gt quot apos
  · simp
  · simp
  · simp
  · simp
  · simp
  · intro d member
    cases List.mem_singleton.mp member
    exact ⟨lt, gt, quot, apos⟩

theorem inert_escape (v : List Char) : Inert (escape v) := by
  intro c member
  obtain ⟨d, -, member⟩ := List.mem_flatMap.mp member
  exact inert_entity d c member

theorem step_inert (inert : Inert [c]) (outside : m ≠ .tag) : step m c = m := by
  obtain ⟨lt, -, quot, apos⟩ := inert c List.mem_cons_self
  cases m with
  | tag => contradiction
  | text => simp [step, lt]
  | double => simp [step, quot]
  | single => simp [step, apos]

theorem inert_cons : Inert (c :: v) ↔ Inert [c] ∧ Inert v := by
  simp [Inert]

theorem Inert.after (inert : Inert v) (outside : m ≠ .tag) : after m v = m := by
  induction v with
  | nil => rfl
  | cons c v ih =>
      obtain ⟨first, others⟩ := inert_cons.mp inert
      rw [Markup.after, List.foldl_cons, step_inert first outside]
      exact ih others

theorem Inert.picked (inert : Inert v) (outside : m ≠ .tag) :
    picked keeps m v = v.filter (keeps m) := by
  induction v with
  | nil => rfl
  | cons c v ih =>
      obtain ⟨first, others⟩ := inert_cons.mp inert
      rw [Markup.picked, step_inert first outside, ih others, List.filter_cons]

/-- A value that is inert makes no tag, in a text or in quotes. -/
theorem Inert.tags (inert : Inert v) (outside : m ≠ .tag) : tags m v = [] := by
  rw [Markup.tags, inert.picked outside, List.filter_eq_nil_iff]
  intro c member
  obtain ⟨lt, -, quot, apos⟩ := inert c member
  cases m with
  | tag => contradiction
  | text => simp [isTag, lt]
  | double => simp [isTag, quot]
  | single => simp [isTag, apos]

/-- In a text it is shown, in quotes it is not. -/
theorem Inert.words (inert : Inert v) (outside : m ≠ .tag) :
    words m v = if m = .text then v else [] := by
  rw [Markup.words, inert.picked outside]
  split
  · refine List.filter_eq_self.mpr fun c member => ?_
    simp [isText, *, (inert c member).1]
  · refine List.filter_eq_nil_iff.mpr fun c _ => ?_
    cases m <;> simp_all [isText]

end

/-! ### Texts made of pieces -/

/-- The template's own text, or a value that is put in, escaped or as it is. -/
inductive Piece where
  | literal (s : List Char)
  | escaped (v : List Char)
  | raw (v : List Char)

namespace Piece

def text : Piece → List Char
  | literal s | raw s => s
  | escaped v => escape v

def own : Piece → List Char
  | literal s => s
  | escaped _ | raw _ => []

end Piece

def render (ps : List Piece) : List Char := ps.flatMap Piece.text

/-- The template without its values. -/
def frame (ps : List Piece) : List Char := ps.flatMap Piece.own

/-- What is shown of a text made of pieces. -/
def content : Mode → List Piece → List Char
  | _, [] => []
  | m, .literal s :: ps => words m s ++ content (after m s) ps
  | m, .escaped v :: ps | m, .raw v :: ps => (if m = .text then v else []) ++ content m ps

/-- A literal without entities leads from a mode to another. -/
def leads (m : Mode) (s : List Char) (m' : Mode) : Bool := s.all (· ≠ '&') && after m s = m'

/-- Values stand in texts or in quotes, and those that are not escaped have no need to be; and the
pieces lead to a mode. -/
def Placed : Mode → List Piece → Mode → Prop
  | m, [], m' => m = m'
  | m, .literal s :: ps, m' => ∃ next, leads m s next = true ∧ Placed next ps m'
  | m, .escaped _ :: ps, m' => m ≠ .tag ∧ Placed m ps m'
  | m, .raw v :: ps, m' => m ≠ .tag ∧ (∀ c ∈ v, isSpecial c = false) ∧ Placed m ps m'

/-- A part of a page: it begins and ends in a text. -/
abbrev Whole (ps : List Piece) : Prop := Placed .text ps .text

section
variable {m m' : Mode} {ps qs : List Piece} {s v cs : List Char}

theorem inert_of_plain (plain : ∀ c ∈ v, isSpecial c = false) : Inert v := by
  intro c member
  have ordinary := plain c member
  simp only [isSpecial, Bool.or_eq_false_iff, decide_eq_false_iff_not] at ordinary
  obtain ⟨⟨⟨⟨-, lt⟩, gt⟩, quot⟩, apos⟩ := ordinary
  exact ⟨lt, gt, quot, apos⟩

theorem leads_iff : leads m s m' = true ↔ (∀ c ∈ s, c ≠ '&') ∧ after m s = m' := by
  simp [leads]

/-- The values leave the tags as the template has them. -/
theorem Placed.tags (placed : Placed m ps m') : tags m (render ps) = tags m (frame ps) ∧
    after m (render ps) = m' := by
  induction ps generalizing m with
  | nil => exact ⟨rfl, placed⟩
  | cons p ps ih =>
      have passes {v : List Char} (inert : Inert v) (outside : m ≠ .tag) (rest : Placed m ps m') :
          Markup.tags m (v ++ render ps) = Markup.tags m (frame ps) ∧
              Markup.after m (v ++ render ps) = m' := by
        rw [Markup.tags, picked_append, after_append, inert.after outside]
        exact ⟨(congrArg (· ++ _) (inert.tags outside)).trans (ih rest).1, (ih rest).2⟩
      cases p with
      | literal s =>
          obtain ⟨next, leading, rest⟩ := placed
          obtain ⟨-, rfl⟩ := leads_iff.mp leading
          obtain ⟨same, mode⟩ := ih rest
          rw [render, frame, List.flatMap_cons, List.flatMap_cons, after_append, Markup.tags,
            Markup.tags, picked_append, picked_append]
          exact ⟨congrArg (_ ++ ·) same, mode⟩
      | escaped v => exact passes (inert_escape v) placed.1 placed.2
      | raw v => exact passes (inert_of_plain placed.2.1) placed.1 placed.2.2

/-- What is shown is the template's text with the values in it as they are. -/
theorem Placed.shown (placed : Placed m ps m') (cs : List Char) :
    shown (words m (render ps) ++ cs) = content m ps ++ shown cs := by
  induction ps generalizing m with
  | nil => rfl
  | cons p ps ih =>
      have splits (v : List Char) : words m (v ++ render ps) ++ cs = words m v ++
          (words (Markup.after m v) (render ps) ++ cs) := by
        rw [words, picked_append, List.append_assoc, words, words]
      cases p with
      | literal s =>
          obtain ⟨next, leading, rest⟩ := placed
          obtain ⟨clean, rfl⟩ := leads_iff.mp leading
          have plain : ∀ c ∈ words m s, c ≠ '&' := fun c member => clean c (mem_picked member)
          rw [content, render, List.flatMap_cons, Piece.text, ← render, splits,
            shown_plain plain, ih rest, List.append_assoc]
      | escaped v =>
          obtain ⟨outside, rest⟩ := placed
          rw [content, render, List.flatMap_cons, Piece.text, ← render, splits,
            (inert_escape v).after outside,
            (inert_escape v).words outside, List.append_assoc]
          split
          · rw [shown_escape, ih rest]
          · exact ih rest
      | raw v =>
          obtain ⟨outside, plain, rest⟩ := placed
          have inert := inert_of_plain plain
          rw [content, render, List.flatMap_cons, Piece.text, ← render, splits, inert.after outside,
            inert.words outside, List.append_assoc]
          split
          · rw [shown_plain fun c member amp => by simpa [amp, isSpecial] using plain c member,
              ih rest]
          · exact ih rest

theorem Placed.append {m'' : Mode} (first : Placed m ps m') (second : Placed m' qs m'') :
    Placed m (ps ++ qs) m'' := by
  induction ps generalizing m with
  | nil =>
      cases first
      exact second
  | cons p ps ih =>
      cases p with
      | literal s =>
          obtain ⟨next, leading, rest⟩ := first
          exact ⟨next, leading, ih rest⟩
      | escaped v => exact ⟨first.1, ih first.2⟩
      | raw v => exact ⟨first.1, first.2.1, ih first.2.2⟩

theorem whole_flatMap {xs : List α} {f : α → List Piece} (each : ∀ x ∈ xs, Whole (f x)) :
    Whole (xs.flatMap f) := by
  induction xs with
  | nil => rfl
  | cons x xs ih =>
      obtain ⟨first, others⟩ := List.forall_mem_cons.mp each
      exact Placed.append first (ih others)

end

end Markup
