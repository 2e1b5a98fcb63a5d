import WiseOrder.Foundation.JsonScanner
import WiseOrder.Foundation.Patterns
import WiseOrder.Python

/-! What is read from the answer of the language model: the braces inside a code fence,
else the stretch from the first brace to the last, decoded as JSON. -/
namespace WiseOrder.Extraction
open Json Patterns

def ticks : List Char := ['`', '`', '`']

def word : List Char := ['j', 's', 'o', 'n']

/-- `\s*` and the end of a fence. -/
def endsFence (rest : List Char) : Bool := ticks.isPrefixOf (rest.dropWhile Python.isspace)

/-- `.*?\}`, up to the first brace that the end of a fence follows. -/
def closing : List Char → Option (List Char)
  | [] => none
  | c :: rest => if c = '}' && endsFence rest then some ['}'] else (closing rest).map (c :: ·)

/-- The group of the fenced pattern, `\{.*?\}`. -/
def group : List Char → Option (List Char)
  | '{' :: rest => (closing rest).map ('{' :: ·)
  | _ => none

/-- `(?:json)?`. Where the word stands, the pattern matches after it or not at all. -/
def pastWord (cs : List Char) : List Char := if word.isPrefixOf cs then cs.drop 4 else cs

def fenceAt (cs : List Char) : Option (List Char) :=
  if ticks.isPrefixOf cs then group ((pastWord (cs.drop 3)).dropWhile Python.isspace) else none

/-- `re.search` of the fenced pattern. -/
def fenced (content : List Char) : Option (List Char) := search fenceAt content

/-- `re.search` of `\{.*\}`. -/
def braces (content : List Char) : Option (List Char) := between (· == '{') (· == '}') content

def extract (content : List Char) : List Char :=
  match fenced content with
  | some found => found
  | none => (braces content).getD content

/-- The record for an answer that is no JSON. -/
def unparsed (content : List Char) : List (String × Json) := [
  ("summary", .str (String.ofList (content.take 500))),
  ("changed_files", .arr []),
  ("changelog", .str ""),
  ("risk_level", .str "low")]

/-- The decoder's errors that are no `JSONDecodeError`, with the interpreter's texts for them. -/
def raised (wording : Scanner.Failure → String) (e : Scanner.Failure) : PyException :=
  match e with
  | .malformed => ⟨.jsonDecodeError, wording e⟩
  | .digits => .valueError (wording e)
  | .depth => ⟨.other "RecursionError", wording e⟩

def parseJson (wording : Scanner.Failure → String) (limits : Scanner.Limits) (content : List Char) :
    Except PyException Json :=
  match Scanner.decode limits (extract content) with
  | .ok v => .ok v
  | .error .malformed => .ok (.obj (unparsed (extract content)))
  | .error e => .error (raised wording e)

/-! ### Fences -/

theorem endsFence_append {q : List Char} (clean : ∀ c ∈ q, c ≠ '`') (rest : List Char) :
    endsFence (rest ++ q) = endsFence rest := by
  have outside : ∀ c ∈ q, c ∉ ticks := by
    intro c member tick
    exact clean c member (by simpa [ticks] using tick)
  unfold endsFence
  rw [List.dropWhile_append]
  split
  · rename_i blank
    rw [List.isEmpty_iff.mp blank]
    exact isPrefixOf_append (fun c member => outside c (List.dropWhile_subset _ member)) []
  · exact isPrefixOf_append outside _

/-- A brace hides what follows it. -/
theorem endsFence_stop (inner rest : List Char) : endsFence (inner ++ '}' :: rest) =
      endsFence (inner ++ ['}']) := by
  have outside : '}' ∉ ticks := by decide
  have visible (xs : List Char) : ('}' :: xs).dropWhile Python.isspace = '}' :: xs :=
    List.dropWhile_cons_of_neg (by decide)
  unfold endsFence
  rw [List.dropWhile_append, List.dropWhile_append, visible, visible]
  split
  · rfl
  · rw [isPrefixOf_stop outside, isPrefixOf_stop outside]

theorem closing_append {q : List Char} (clean : ∀ c ∈ q, c ≠ '`' ∧ c ≠ '}') (xs : List Char) :
    closing (xs ++ q) = closing xs := by
  induction xs with
  | nil =>
      induction q with
      | nil => rfl
      | cons c q ih =>
          have rest := ih fun d member => clean d (List.mem_cons_of_mem c member)
          have other := (clean c List.mem_cons_self).2
          simp_all [closing]
  | cons c xs ih =>
      have ends := endsFence_append (fun d member => (clean d member).1) xs
      simp only [List.cons_append, closing, ends, ih]

/-- The brace that the end of a fence follows closes the group, unless one closes it before. -/
theorem closing_here {inner rest : List Char} (ends : endsFence rest = true) :
    closing (inner ++ '}' :: rest) = some ((closing (inner ++ ['}'])).getD (inner ++ ['}'])) := by
  induction inner with
  | nil =>
      have last : endsFence [] = false := rfl
      simp [closing, ends, last]
  | cons c inner ih =>
      simp only [List.cons_append, closing, endsFence_stop inner rest, ih]
      split
      · rfl
      · cases closing (inner ++ ['}']) <;> rfl

theorem group_none {xs : List Char} (no_brace : '{' ∉ xs) : group xs = none := by
  unfold group
  split
  · exact absurd List.mem_cons_self no_brace
  · rfl

/-- Text without backticks and braces. -/
def Prose (p : List Char) : Prop := ∀ c ∈ p, c ≠ '`' ∧ c ≠ '{' ∧ c ≠ '}'

variable {q : List Char}

theorem group_append (prose : Prose q) (xs : List Char) : group (xs ++ q) = group xs := by
  have clean : ∀ c ∈ q, c ≠ '`' ∧ c ≠ '}' :=
    fun c member => ⟨(prose c member).1, (prose c member).2.2⟩
  cases xs with
  | nil => exact group_none fun member => (prose _ member).2.1 rfl
  | cons c xs =>
      by_cases brace : c = '{'
      · subst brace
        exact congrArg (Option.map ('{' :: ·)) (closing_append clean xs)
      · rw [List.cons_append, group, group] <;> exact fun rest same => brace (List.cons.inj same).1

theorem group_blanks (prose : Prose q) (xs : List Char) :
    group ((xs ++ q).dropWhile Python.isspace) = group (xs.dropWhile Python.isspace) := by
  rw [List.dropWhile_append]
  split
  · rename_i blank
    rw [List.isEmpty_iff.mp blank]
    exact group_none fun member => (prose _ (List.dropWhile_subset _ member)).2.1 rfl
  · exact group_append prose _

/-- What follows changes nothing in the fenced pattern, though it may complete the word before the
group. -/
theorem group_word (prose : Prose q) (xs : List Char) :
    group ((pastWord (xs ++ q)).dropWhile Python.isspace) = group
    ((pastWord xs).dropWhile Python.isspace) := by
  by_cases here : word.isPrefixOf xs = true
  · obtain ⟨rest, rfl⟩ := List.isPrefixOf_iff_prefix.mp here
    have longer : word.isPrefixOf (word ++ rest ++ q) = true := by
      rw [List.append_assoc]
      exact List.isPrefixOf_iff_prefix.mpr (List.prefix_append _ _)
    simp only [pastWord, if_pos here, if_pos longer]
    exact group_blanks prose rest
  · by_cases longer : word.isPrefixOf (xs ++ q) = true
    · -- the word begins at the end of `xs`, where no brace is left
      have within : xs <+: word := by
        rcases List.prefix_or_prefix_of_prefix (List.isPrefixOf_iff_prefix.mp longer)
          (List.prefix_append xs q) with inside | inside
        · exact absurd (List.isPrefixOf_iff_prefix.mpr inside) here
        · exact inside
      have no_brace : '{' ∉ xs := fun member => absurd (within.subset member) (by decide)
      have no_brace_after : '{' ∉ xs ++ q :=
        fun member => (List.mem_append.mp member).elim no_brace fun there => (prose _ there).2.1 rfl
      simp only [pastWord, if_neg here, if_pos longer]
      rw [group_none fun member => no_brace (List.dropWhile_subset _ member),
        group_none fun member =>
          no_brace_after (List.drop_subset _ _ (List.dropWhile_subset _ member))]
    · simp only [pastWord, if_neg here, if_neg longer]
      exact group_blanks prose xs

theorem fenceAt_append (prose : Prose q) (xs : List Char) : fenceAt (xs ++ q) = fenceAt xs := by
  have outside : ∀ c ∈ q, c ∉ ticks := by
    intro c member tick
    exact (prose c member).1 (by simpa [ticks] using tick)
  unfold fenceAt
  rw [isPrefixOf_append outside]
  split
  · rename_i opens
    have long : 3 ≤ xs.length := (List.isPrefixOf_iff_prefix.mp opens).length_le
    rw [List.drop_append_of_le_length long]
    exact group_word prose _
  · rfl

theorem fenceAt_prose {c : Char} (other : c ≠ '`') (rest : List Char) :
    fenceAt (c :: rest) = none :=
  if_neg (by simp [ticks, List.isPrefixOf, Ne.symm other])

/-- Prose around a text adds no fence to those of the text. -/
theorem fenced_prose {p : List Char} (before : Prose p) (after : Prose q) (s : List Char) :
    fenced (p ++ s ++ q) = fenced s := by
  have nowhere {p : List Char} (prose : Prose p) : ∀ c ∈ p, ∀ rest, fenceAt (c :: rest) = none :=
      fun c member =>
    fenceAt_prose (prose c member).1
  unfold fenced
  rw [List.append_assoc, search_skip (nowhere before)]
  exact search_append (fenceAt_append after) (search_none (nowhere after) rfl) s

/-! ### The text of an object -/

/-- The text is JSON of an object, whatever limits its reader has. -/
def TextOf (s : List Char) (fields : List (String × Json)) : Prop :=
  ∃ limits, Scanner.decode limits s = .ok (.obj fields)

/-- A braced text between blanks. -/
structure Braced where
  lead : List Char
  inner : List Char
  trail : List Char
  leading : ∀ c ∈ lead, isBlank c = true
  trailing : ∀ c ∈ trail, isBlank c = true

namespace Braced

def body (b : Braced) : List Char := '{' :: (b.inner ++ ['}'])

def text (b : Braced) : List Char := b.lead ++ b.body ++ b.trail

end Braced

/-- What the fenced pattern takes of a text that has been put into a fence, where it stops short of
the last brace. -/
def cut (s : List Char) : Option (List Char) := group (s.dropWhile (· ≠ '{'))

def inFence (s : List Char) : List Char := ticks ++ word ++ '\n' :: s ++ '\n' :: ticks

theorem blank_plain {c : Char} (blank : isBlank c = true) : c ≠ '`' ∧ c ≠ '{' ∧ c ≠ '}' := by
  refine ⟨?_, ?_, ?_⟩ <;>
  · rintro rfl
    cases blank

theorem blank_space {c : Char} (blank : isBlank c = true) : Python.isspace c = true := by
  simp only [isBlank, Bool.or_eq_true, decide_eq_true_eq] at blank
  rcases blank with ((rfl | rfl) | rfl) | rfl <;> rfl

variable (b : Braced) {p : List Char}

/-- The stretch from the first brace to the last. -/
theorem braces_text (before : Prose p) (after : Prose q) :
    braces (p ++ b.text ++ q) = some b.body := by
  have text : p ++ b.text ++ q = (p ++ b.lead) ++ '{' ::
    (b.inner ++ '}' :: (b.trail ++ q)) := by simp [Braced.text, Braced.body]
  rw [text]
  refine between_span ?_ rfl rfl ?_
  · intro c member
    rcases List.mem_append.mp member with there | there
    · simpa using (before c there).2.1
    · simpa using (blank_plain (b.leading c there)).2.1
  · intro c member
    rcases List.mem_append.mp member with there | there
    · simpa using (blank_plain (b.trailing c there)).2.2
    · simpa using (after c there).2.2

theorem cut_text : cut b.text = (closing (b.inner ++ ['}'])).map ('{' :: ·) := by
  have begun : b.text.dropWhile (· ≠ '{') = '{' :: ((b.inner ++ ['}']) ++ b.trail) := by
    rw [Braced.text, List.append_assoc, List.dropWhile_append_of_pos fun c member => by
      simpa using (blank_plain (b.leading c member)).2.1]
    rfl
  have clean : ∀ c ∈ b.trail, c ≠ '`' ∧ c ≠ '}' := fun c member =>
    ⟨(blank_plain (b.trailing c member)).1, (blank_plain (b.trailing c member)).2.2⟩
  rw [cut, begun, group, closing_append clean]

/-- In a fence the braced text is found whole, unless it is cut. -/
theorem fenced_text (before : Prose p) (q : List Char) :
    fenced (p ++ inFence b.text ++ q) = some ((cut b.text).getD b.body) := by
  have text : inFence b.text ++ q =
      ticks ++ (word ++ '\n' ::
          (b.lead ++ '{' :: (b.inner ++ '}' :: (b.trail ++ '\n' :: (ticks ++ q))))) := by
    simp [inFence, Braced.text, Braced.body]
  have opened (xs : List Char) : (pastWord (word ++ '\n' :: (b.lead ++ '{' :: xs))).dropWhile
      Python.isspace = '{' :: xs := by
    have past : pastWord (word ++ '\n' :: (b.lead ++ '{' :: xs)) = '\n' :: (b.lead ++ '{' :: xs) :=
      rfl
    rw [past, List.dropWhile_cons_of_pos (by decide), List.dropWhile_append_of_pos fun c member =>
      blank_space (b.leading c member)]
    rfl
  have ends : endsFence (b.trail ++ '\n' :: (ticks ++ q)) = true := by
    rw [endsFence, List.dropWhile_append_of_pos fun c member => blank_space (b.trailing c member)]
    rfl
  have found : fenceAt (inFence b.text ++ q) = some ((cut b.text).getD b.body) := by
    have three (xs : List Char) : (ticks ++ xs).drop 3 = xs := rfl
    have opens : ticks.isPrefixOf (inFence b.text ++ q) = true := rfl
    rw [fenceAt, if_pos opens, text, three, opened, group, closing_here ends, cut_text, Braced.body]
    cases closing (b.inner ++ ['}']) <;> rfl
  rw [fenced, List.append_assoc, search_skip fun c member => fenceAt_prose (before c member).1]
  exact search_here found

/-- A piece reads as a value: as its JSON, or, being no JSON, as the record that stands in for
it. -/
def ReadsAs (limits : Scanner.Limits) (piece : List Char) (v : Json) : Prop :=
  Scanner.decode limits piece = .ok v ∨ Scanner.decode limits piece = .error .malformed ∧
    v = .obj (unparsed piece)

/-- The text has no fence within it, and no brace that the end of a fence follows, but for pieces
that happen to read as the value of the whole; and where nothing is cut out it keeps the limits of
the reader. -/
structure Whole (limits : Scanner.Limits) (s : List Char) (v : Json) : Prop where
  within : ∀ piece, fenced s = some piece → ReadsAs limits piece v
  short : ∀ piece, cut s = some piece → ReadsAs limits piece v
  limits : fenced s = none ∨ cut s = none → Scanner.decode limits s = .ok v

variable {wording : Scanner.Failure → String} {limits : Scanner.Limits} {v : Json}
    {fields : List (String × Json)} {s : List Char}

theorem parse_iff {content : List Char} : parseJson wording limits content = .ok v ↔
    ReadsAs limits (extract content) v := by
  unfold parseJson ReadsAs
  cases read : Scanner.decode limits (extract content) with
  | ok value => simp
  | error e => cases e <;> simp [eq_comm]

theorem extract_prose {p : List Char} (before : Prose p) (after : Prose q) :
    extract (p ++ b.text ++ q) = (fenced b.text).getD b.body := by
  rw [extract, fenced_prose before after, braces_text b before after]
  cases fenced b.text <;> rfl

theorem extract_fence {p : List Char} (before : Prose p) (q : List Char) :
    extract (p ++ inFence b.text ++ q) = (cut b.text).getD b.body := by
  rw [extract, fenced_text b before]

theorem prose_nil : Prose [] := fun _ member => nomatch member

theorem braced_object (read : Scanner.decode limits s = .ok (.obj fields)) :
    ∃ b : Braced, s = b.text ∧ Scanner.decode limits b.body = .ok (.obj fields) := by
  obtain ⟨lead, inner, trail, text, leading, trailing, body⟩ := Scanner.decode_object read
  exact ⟨⟨lead, inner, trail, leading, trailing⟩, text, body⟩

/-- The braces of an object's text read as the object exactly where the text does. -/
theorem reads_body {b : Braced} (text : TextOf b.body fields) :
    ReadsAs limits b.body (.obj fields) ↔ Scanner.decode limits b.text = .ok (.obj fields) := by
  constructor
  · rintro (read | ⟨malformed, -⟩)
    · exact Scanner.decode_blanks b.leading b.trailing read
    · obtain ⟨wide, read⟩ := text
      rcases Scanner.unless_decode _ _ read with same | same | same
        <;> cases malformed.symm.trans same
  · intro read
    obtain ⟨other, same, body⟩ := braced_object read
    have found := braces_text b prose_nil prose_nil
    have bodies : b.body = other.body := by
      rw [same] at found
      exact Option.some.inj (found.symm.trans (braces_text other prose_nil prose_nil))
    exact .inl (bodies ▸ body)

theorem whole_iff {b : Braced} (text : TextOf b.body fields) : Whole limits b.text (.obj fields) ↔
    ReadsAs limits ((fenced b.text).getD b.body) (.obj fields) ∧ ReadsAs limits
    ((cut b.text).getD b.body) (.obj fields) := by
  constructor
  · intro whole
    constructor
    · cases found : fenced b.text with
      | none => exact (reads_body text).mpr (whole.limits (.inl found))
      | some piece => exact whole.within piece found
    · cases found : cut b.text with
      | none => exact (reads_body text).mpr (whole.limits (.inr found))
      | some piece => exact whole.short piece found
  · rintro ⟨within, short⟩
    refine ⟨fun piece found => ?_, fun piece found => ?_, ?_⟩
    · simpa [found] using within
    · simpa [found] using short
    · rintro (found | found)
      · exact (reads_body text).mp (by simpa [found] using within)
      · exact (reads_body text).mp (by simpa [found] using short)

/-- An object is recovered from its text alone, within prose and within a fence, exactly where its
text is cut nowhere. -/
theorem object_recovered (text : TextOf s fields) :
    (parseJson wording limits s = .ok (.obj fields) ∧ ∀ p q, Prose p → Prose q →
      parseJson wording limits (p ++ s ++ q) = .ok (.obj fields) ∧
      parseJson wording limits (p ++ inFence s ++ q) = .ok (.obj fields)) ↔
    Whole limits s (.obj fields) := by
  obtain ⟨wide, read⟩ := text
  obtain ⟨b, rfl, body⟩ := braced_object read
  rw [whole_iff ⟨wide, body⟩]
  constructor
  · rintro ⟨-, around⟩
    obtain ⟨plain, fence⟩ := around [] [] prose_nil prose_nil
    rw [parse_iff, extract_prose b prose_nil prose_nil] at plain
    rw [parse_iff, extract_fence b prose_nil] at fence
    exact ⟨plain, fence⟩
  · rintro ⟨plain, fence⟩
    have around {p q : List Char} (before : Prose p) (after : Prose q) :
        parseJson wording limits (p ++ b.text ++ q) = .ok (.obj fields) := by
      rw [parse_iff, extract_prose b before after]
      exact plain
    refine ⟨by simpa using around prose_nil prose_nil, fun p q before after =>
      ⟨around before after, ?_⟩⟩
    rw [parse_iff, extract_fence b before]
    exact fence

/-- The limits of the interpreter as it is delivered. -/
def interpreter : Scanner.Limits := ⟨4300, 1000⟩

/-- `{"a": {"}": "`"}}` -/
def nestedText : List Char :=
  ['{', '"', 'a', '"', ':', ' ', '{', '"', '}', '"', ':', ' ', '"', '`', '"', '}', '}']

def nested : List (String × Json) := [("a", .obj [("\x7d", .str "`")])]

theorem object_recovered_nested :
    parseJson (fun _ => "") interpreter nestedText = .ok (.obj nested) ∧
    ∀ p q, Prose p → Prose q → parseJson (fun _ => "") interpreter (p ++ nestedText ++ q) = .ok
    (.obj nested) ∧
      parseJson (fun _ => "") interpreter (p ++ inFence nestedText ++ q) = .ok (.obj nested) :=
  (object_recovered ⟨interpreter, rfl⟩).mpr ⟨fun _ found => (nomatch found), fun _ found =>
    (nomatch found), fun _ => rfl⟩

/-- `{"a":"```{}```"}` -/
def quotedFence : List Char := ['{', '"', 'a', '"', ':', '"'] ++ ticks ++ ['{', '}'] ++ ticks ++
    ['"', '}']

theorem fence_mistaken : ¬ ∀ s fields, TextOf s fields →
    parseJson (fun _ => "") interpreter s = .ok (.obj fields) ∧ ∀ p q, Prose p → Prose q →
      parseJson (fun _ => "") interpreter (p ++ s ++ q) = .ok (.obj fields) ∧
      parseJson (fun _ => "") interpreter (p ++ inFence s ++ q) = .ok (.obj fields) := by
  intro recovered
  have text : TextOf quotedFence [("a", .str "```\x7b\x7d```")] := ⟨interpreter, rfl⟩
  have alone : parseJson (fun _ => "") interpreter quotedFence = .ok (.obj []) := rfl
  cases alone.symm.trans (recovered _ _ text).1

end WiseOrder.Extraction
