import WiseOrder.Foundation.JsonScanner

/-! Reading what was written gives the value back, for every value whose objects have
distinct keys and that is within the limits of the reader. -/
namespace Json.Scanner
variable {limits : Limits} {st st' : State} {stack : List Frame} {isKey : Bool}
    {units : List Nat} {rest : List Char}

theorem scan_step {c : Char} (stepped : step limits st c = .ok st') :
    scan limits st (c :: rest) = scan limits st' rest := by
  simp only [scan, stepped]
  rfl

/-! ### Strings -/

theorem hexValue_hexDigit : ∀ n < 16, hexValue (hexDigit n) = some n := by decide

theorem char_lt (c : Char) : c.toNat < 0x110000 := by
  have valid : c.toNat < 0xD800 ∨ 0xDFFF < c.toNat ∧ c.toNat < 0x110000 := c.valid
  omega

theorem char_not_surrogate (c : Char) : ¬ (0xD800 ≤ c.toNat ∧ c.toNat ≤ 0xDFFF) := by
  have valid : c.toNat < 0xD800 ∨ 0xDFFF < c.toNat ∧ c.toNat < 0x110000 := c.valid
  omega

theorem codeUnits_lt {c : Char} {u : Nat} (member : u ∈ codeUnits c) : u < 0x10000 := by
  have := char_lt c
  unfold codeUnits at member
  split at member
  · rw [List.mem_singleton.mp member]
    assumption
  · simp only [List.mem_cons, List.not_mem_nil, or_false] at member
    omega

/-- One digit of an escape. -/
theorem step_hex {code owed n : Nat} (more : ¬ owed ≤ 1) (small : n < 16) :
    step limits (.open stack (.hex isKey units code owed)) (hexDigit n) =
      .ok (.open stack (.hex isKey units (code * 16 + n) (owed - 1))) := by
  simp only [step, hexChar, hexValue_hexDigit n small, if_neg more]

theorem step_hex_last {code n : Nat} (small : n < 16) :
    step limits (.open stack (.hex isKey units code 1)) (hexDigit n) =
      .ok (.open stack (.string isKey ((code * 16 + n) :: units))) := by
  simp only [step, hexChar, hexValue_hexDigit n small, Nat.le_refl, if_true]

theorem scan_unicode {u : Nat} (small : u < 0x10000) :
    scan limits (.open stack (.string isKey units)) (unicodeEscape u ++ rest) =
      scan limits (.open stack (.string isKey (u :: units))) rest := by
  have slash : step limits (.open stack (.string isKey units)) '\\' =
    .ok (.open stack (.escape isKey units)) := rfl
  have letter : step limits (.open stack (.escape isKey units)) 'u' =
    .ok (.open stack (.hex isKey units 0 4)) := rfl
  have digit (n : Nat) : n % 16 < 16 := Nat.mod_lt _ (by decide)
  rw [unicodeEscape, List.cons_append, scan_step slash, List.cons_append, scan_step letter]
  simp only [List.cons_append, List.nil_append]
  rw [scan_step (step_hex (by decide) (digit _)), scan_step (step_hex (by decide) (digit _)),
    scan_step (step_hex (by decide) (digit _)), scan_step (step_hex_last (digit _))]
  have whole : ((((0 * 16 + u / 4096 % 16) * 16 + u / 256 % 16) * 16 + u / 16 % 16) * 16 + u % 16) =
    u := by omega
  rw [whole]

theorem scan_units {added : List Nat} (small : ∀ u ∈ added, u < 0x10000) :
    scan limits (.open stack (.string isKey units)) (added.flatMap unicodeEscape ++ rest) =
      scan limits (.open stack (.string isKey (added.reverse ++ units))) rest := by
  induction added generalizing units with
  | nil => rfl
  | cons u added ih =>
      obtain ⟨first, others⟩ := List.forall_mem_cons.mp small
      rw [List.flatMap_cons, List.append_assoc, scan_unicode first, ih others,
        List.reverse_cons, List.append_assoc,
        List.singleton_append]

theorem scan_escape (c : Char) :
    scan limits (.open stack (.string isKey units)) (escape c ++ rest) =
      scan limits (.open stack (.string isKey ((codeUnits c).reverse ++ units))) rest := by
  -- an escape of one letter stands for one unit
  have named (d : Char) (u : Nat) (letter : d ≠ 'u')
    (unit : unescape d = some u) (is : codeUnits c = [u]) :
      scan limits (.open stack (.string isKey units)) (['\\', d] ++ rest) =
        scan limits (.open stack (.string isKey ((codeUnits c).reverse ++ units))) rest := by
    have slash : step limits (.open stack (.string isKey units)) '\\' =
      .ok (.open stack (.escape isKey units)) := rfl
    have after : step limits (.open stack (.escape isKey units)) d =
        .ok (.open stack (.string isKey (u :: units))) := by
      simp only [step, escapeChar, if_neg letter, unit]
    rw [List.cons_append, scan_step slash, List.cons_append, scan_step after, is]
    rfl
  unfold escape
  split
  · rename_i same; subst same; exact named '"' 34 (by decide) rfl (by decide)
  split
  · rename_i same; subst same; exact named '\\' 92 (by decide) rfl (by decide)
  split
  · rename_i same; subst same; exact named 'n' 10 (by decide) rfl (by decide)
  split
  · rename_i same; subst same; exact named 'r' 13 (by decide) rfl (by decide)
  split
  · rename_i same; subst same; exact named 't' 9 (by decide) rfl (by decide)
  split
  · rename_i same; exact named 'f' 12 (by decide) rfl (by simp [codeUnits, same])
  split
  · rename_i same; exact named 'b' 8 (by decide) rfl (by simp [codeUnits, same])
  split
  · rename_i quote slash _ _ _ _ _ printable
    have plain : step limits (.open stack (.string isKey units)) c =
        .ok (.open stack (.string isKey (c.toNat :: units))) := by
      simp only [step, stringChar, if_neg quote, if_neg slash]
      rw [if_neg (by omega)]
    have unit : codeUnits c = [c.toNat] := by simp [codeUnits, show c.toNat < 0x10000 by omega]
    rw [List.singleton_append, scan_step plain, unit]
    rfl
  · exact scan_units fun _ member => codeUnits_lt member

theorem scan_escaped (cs : List Char) :
    scan limits (.open stack (.string isKey units)) (cs.flatMap escape ++ rest) =
      scan limits (.open stack (.string isKey ((cs.flatMap codeUnits).reverse ++ units))) rest := by
  induction cs generalizing units with
  | nil => rfl
  | cons c cs ih =>
      rw [List.flatMap_cons, List.append_assoc, scan_escape, ih, List.flatMap_cons,
        List.reverse_append, List.append_assoc]

theorem chars_codeUnits (c : Char) (units : List Nat) :
    chars (codeUnits c ++ units) = c :: chars units := by
  have below := char_lt c
  have plain := char_not_surrogate c
  have alone : loneUnit c.toNat = c := by rw [loneUnit, if_neg plain, Char.ofNat_toNat]
  unfold codeUnits
  split
  · cases units with
    | nil => simp only [List.append_nil, chars, alone]
    | cons v rest => rw [List.singleton_append, chars, if_neg (by omega), alone]
  · simp only [List.cons_append, List.nil_append, chars]
    rw [if_pos (by omega), show 0x10000 + (0xD800 + (c.toNat - 0x10000) / 0x400 - 0xD800) * 0x400 +
      (0xDC00 + (c.toNat - 0x10000) % 0x400 - 0xDC00) = c.toNat by omega, Char.ofNat_toNat]

theorem chars_flatMap (cs : List Char) : chars (cs.flatMap codeUnits) = cs := by
  induction cs with
  | nil => rfl
  | cons c cs ih => rw [List.flatMap_cons, chars_codeUnits, ih]

/-- A string is read up to its closing quote. -/
theorem scan_string (s : String) :
    scan limits (.open stack (.string isKey [])) (s.toList.flatMap escape ++ '"' :: rest) =
      scan limits (if isKey then .open stack (.colon s) else complete stack (.str s)) rest := by
  rw [scan_escaped, List.append_nil]
  refine scan_step ?_
  simp only [step, stringChar, if_true, List.reverse_reverse, chars_flatMap, String.ofList_toList]
  split <;> rfl

theorem scan_value (mayEnd : Bool) (s : String) :
    scan limits (.open stack (.value mayEnd)) (writeString s ++ rest) = scan limits
    (complete stack (.str s)) rest := by
  have quote : step limits (.open stack (.value mayEnd)) '"' =
      .ok (.open stack (.string false [])) := by
    cases mayEnd <;> rfl
  rw [writeString, List.cons_append, List.cons_append, scan_step quote, List.append_assoc]
  exact scan_string s

theorem scan_key (mayEnd : Bool) (s : String) :
    scan limits (.open stack (.key mayEnd)) (writeString s ++ rest) = scan limits
    (.open stack (.colon s)) rest := by
  have quote : step limits (.open stack (.key mayEnd)) '"' =
      .ok (.open stack (.string true [])) := by
    cases mayEnd <;> rfl
  rw [writeString, List.cons_append, List.cons_append, scan_step quote, List.append_assoc]
  exact scan_string s

/-! ### Numbers -/

def beginNumber (c : Char) : Option NumberPart := if c = '0' then some .zero
      else if c.isDigit then some .whole else none

/-- How far characters take a number. -/
def advance : NumberPart → List Char → Option NumberPart
  | part, [] => some part
  | part, c :: cs => (continueNumber part c).bind fun part => advance part cs

/-- How far a number is read without its sign. -/
def unsigned : List Char → Option NumberPart
  | [] => none
  | c :: cs => (beginNumber c).bind fun part => advance part cs

section
variable {part part' : NumberPart} {text ds : List Char} {c : Char}

theorem advance_append (part : NumberPart) (xs ys : List Char) :
    advance part (xs ++ ys) = (advance part xs).bind fun part => advance part ys := by
  induction xs generalizing part with
  | nil => rfl
  | cons c xs ih =>
      simp only [List.cons_append, advance]
      cases continueNumber part c with
      | none => rfl
      | some part => exact ih part

theorem scan_advance {cs : List Char} (advances : advance part cs = some part') (text : List Char) :
    scan limits (.open stack (.number part text)) (cs ++ rest) = scan limits
    (.open stack (.number part' (cs.reverse ++ text))) rest := by
  induction cs generalizing part text with
  | nil =>
      cases Option.some.inj advances
      rfl
  | cons c cs ih =>
      simp only [advance, Option.bind_eq_some_iff] at advances
      obtain ⟨middle, first, others⟩ := advances
      have stepped : step limits (.open stack (.number part text)) c =
          .ok (.open stack (.number middle (c :: text))) := by
        simp only [step, numberChar, first]
      rw [List.cons_append, scan_step stepped, ih others, List.reverse_cons,
        List.append_assoc, List.singleton_append]

theorem isDigit_ne (digit : c.isDigit = true) {d : Char} (other : d.isDigit = false) : c ≠ d := by
  rintro rfl
  rw [digit] at other
  contradiction

theorem beginNumber_digit (begins : beginNumber c = some part) : c.isDigit = true := by
  unfold beginNumber at begins
  split at begins
  · subst c
    rfl
  · split at begins
    · assumption
    · contradiction

theorem isBlank_digit (digit : c.isDigit = true) : isBlank c = false := by
  simp [isBlank, isDigit_ne digit (show ' '.isDigit = false from rfl),
    isDigit_ne digit (show '\t'.isDigit = false from rfl),
    isDigit_ne digit (show '\n'.isDigit = false from rfl),
      isDigit_ne digit (show '\r'.isDigit = false from rfl)]

theorem step_begins (mayEnd : Bool) (begins : beginNumber c = some part) :
    step limits (.open stack (.value mayEnd)) c = .ok (.open stack (.number part [c])) := by
  have digit := beginNumber_digit begins
  have other {d : Char} (none : d.isDigit = false) : c ≠ d := isDigit_ne digit none
  have opens : opening c = some (.number part [c]) := by
    rw [beginNumber] at begins
    simp only [opening, if_neg (other (d := '"') rfl), if_neg (other (d := 'n') rfl),
      if_neg (other (d := 't') rfl),
      if_neg (other (d := 'f') rfl), if_neg (other (d := 'N') rfl), if_neg (other (d := 'I') rfl),
        if_neg (other (d := '-') rfl)]
    by_cases zero : c = '0'
    · rw [if_pos zero] at begins
      cases begins
      subst c
      rfl
    · rw [if_neg zero, if_pos digit] at begins
      cases begins
      rw [if_neg zero, if_pos digit]
  simp only [step, isBlank_digit digit, Bool.false_eq_true, if_false, other (d := ']') rfl,
    decide_false, Bool.and_false,
    beginValue, if_neg (other (d := '{') rfl), if_neg (other (d := '[') rfl), opens]

theorem continue_minus (begins : beginNumber c = some part) :
    continueNumber .minus c = some part := begins

/-- A number is read as far as it goes. -/
theorem scan_unsigned (mayEnd : Bool) (reads : unsigned text = some part) :
    scan limits (.open stack (.value mayEnd)) text = .ok
    (.open stack (.number part text.reverse)) := by
  cases text with
  | nil => contradiction
  | cons c cs =>
      simp only [unsigned, Option.bind_eq_some_iff] at reads
      obtain ⟨first, begins, others⟩ := reads
      rw [scan_step (step_begins mayEnd begins), ← List.append_nil cs, scan_advance others]
      simp only [List.append_nil, List.reverse_cons]
      rfl

theorem scan_signed (mayEnd : Bool) (reads : unsigned text = some part) :
    scan limits (.open stack (.value mayEnd)) ('-' :: text) = .ok
    (.open stack (.number part ('-' :: text).reverse)) := by
  have minus : step limits (.open stack (.value mayEnd)) '-' =
      .ok (.open stack (.number .minus ['-'])) := by
    cases mayEnd <;> rfl
  cases text with
  | nil => contradiction
  | cons c cs =>
      simp only [unsigned, Option.bind_eq_some_iff] at reads
      obtain ⟨first, begins, others⟩ := reads
      have advances : advance .minus (c :: cs) = some part := by
        rw [advance, continue_minus begins]
        exact others
      rw [scan_step minus, ← List.append_nil (c :: cs), scan_advance advances]
      simp only [List.append_nil, List.reverse_cons, List.append_assoc]
      rfl

/-! ### Digits -/

/-- Parts of a number that go on with any digit. -/
def Going (part : NumberPart) : Prop := part = .whole ∨ part = .fraction ∨ part = .power

theorem advance_digits (going : Going part) (digits : ∀ d ∈ ds, d.isDigit = true) :
    advance part ds = some part := by
  induction ds with
  | nil => rfl
  | cons d ds ih =>
      obtain ⟨first, others⟩ := List.forall_mem_cons.mp digits
      have stays : continueNumber part d = some part := by
        rcases going with rfl | rfl | rfl <;> simp [continueNumber, first]
      rw [advance, stays]
      exact ih others

theorem isDigit_toDigits (n : Nat) : ∀ d ∈ Nat.toDigits 10 n, d.isDigit = true := fun _ member =>
  Nat.isDigit_of_mem_toDigits (by decide) (by decide) member

/-- Digits without a leading zero. -/
structure Natural (ds : List Char) : Prop where
  some : ds ≠ []
  digits : ∀ d ∈ ds, d.isDigit = true
  head : ds.head? ≠ Option.some '0'

theorem natural_toDigits {n : Nat} (positive : 0 < n) : Natural (Nat.toDigits 10 n) := by
  refine ⟨Nat.toDigits_ne_nil, isDigit_toDigits n, ?_⟩
  induction n using Nat.strongRecOn with
  | ind n ih =>
      by_cases small : n < 10
      · rw [Nat.toDigits_of_lt_base small]
        revert positive small
        have : ∀ m < 10, 0 < m → [m.digitChar].head? ≠ Option.some '0' := by decide
        intro positive small
        exact this n small positive
      · have higher := ih (n / 10) (by omega) (by omega)
        rw [Nat.toDigits_of_base_le (by decide) (by omega)]
        rwa [List.head?_append_of_ne_nil _ Nat.toDigits_ne_nil]

theorem Natural.unsigned (natural : Natural ds) : unsigned ds = .some .whole := by
  cases ds with
  | nil => exact absurd rfl natural.some
  | cons d ds =>
      obtain ⟨digit, others⟩ := List.forall_mem_cons.mp natural.digits
      have nonzero : d ≠ '0' := fun same => natural.head (by rw [same]; rfl)
      rw [Scanner.unsigned, beginNumber, if_neg nonzero, if_pos digit]
      exact advance_digits (.inl rfl) others

theorem unsigned_toDigits (n : Nat) : unsigned (Nat.toDigits 10 n) =
      some (if n = 0 then .zero else .whole) := by
  split
  · subst n
    rfl
  · exact (natural_toDigits (by omega)).unsigned

/-! ### Floating point numbers -/

theorem ofDigitChars_zero (ds : List Char) : Nat.ofDigitChars 10 ('0' :: ds) 0 =
      Nat.ofDigitChars 10 ds 0 := rfl

theorem ofDigitChars_zeros (n : Nat) (ds : List Char) :
    Nat.ofDigitChars 10 (List.replicate n '0' ++ ds) 0 = Nat.ofDigitChars 10 ds 0 := by
  rw [Nat.ofDigitChars_append, Nat.ofDigitChars_replicate_zero, Nat.mul_zero]

theorem exponentValue_write (n : Int) : exponentValue (writeExponent n) = n := by
  have padded : Nat.ofDigitChars 10 (if (Nat.toDigits 10 n.natAbs).length <
    2 then '0' :: Nat.toDigits 10 n.natAbs
      else Nat.toDigits 10 n.natAbs) 0 = n.natAbs := by
    split
    · rw [ofDigitChars_zero, Nat.ofDigitChars_ten_toDigits]
    · exact Nat.ofDigitChars_ten_toDigits
  unfold writeExponent
  split
  · simp only [exponentValue, padded]
    omega
  · simp only [exponentValue, padded]
    omega

theorem isExp_digit (digit : c.isDigit = true) : isExp c = false := by
  simp [isExp, isDigit_ne digit (show 'e'.isDigit = false from rfl),
    isDigit_ne digit (show 'E'.isDigit = false from rfl)]

/-- A literal is taken apart into what stands before its point, after it, and in its exponent. -/
theorem magnitudeValue_parts (negative : Bool) (whole tail : List Char) {middle : List Char}
    (digits : ∀ d ∈ whole, d.isDigit = true) (point : ∀ d ∈ middle.head?, d.isDigit = false)
    (plain : ∀ d ∈ middle, isExp d = false) (ends : ∀ d ∈ tail.head?, isExp d = true) :
    magnitudeValue negative (whole ++ middle ++ tail) = .rounded negative
    (Binary64.ofDecimal negative
      (Nat.ofDigitChars 10 (whole ++ middle.drop 1) 0)
      (exponentValue tail - (middle.drop 1).length)) := by
  have mantissa : ∀ d ∈ whole ++ middle, (!isExp d) = true := by
    intro d member
    rcases List.mem_append.mp member with inside | inside
    · rw [isExp_digit (digits d inside)]
      rfl
    · rw [plain d inside]
      rfl
  have before : (whole ++ middle ++ tail).takeWhile (fun d => !isExp d) = whole ++ middle := by
    rw [List.takeWhile_append_of_pos mantissa]
    cases tail with
    | nil => simp
    | cons d tail => simp [ends d rfl]
  have after : (whole ++ middle ++ tail).dropWhile (fun d => !isExp d) = tail := by
    rw [List.dropWhile_append_of_pos mantissa]
    cases tail with
    | nil => simp
    | cons d tail => simp [ends d rfl]
  have taken : (whole ++ middle).takeWhile Char.isDigit = whole := by
    rw [List.takeWhile_append_of_pos digits]
    cases middle with
    | nil => simp
    | cons d middle => simp [point d rfl]
  have left : (whole ++ middle).dropWhile Char.isDigit = middle := by
    rw [List.dropWhile_append_of_pos digits]
    cases middle with
    | nil => simp
    | cons d middle => simp [point d rfl]
  simp only [magnitudeValue, before, after, taken, left]

/-- What is laid out has the value of its digits, with the decimal point where it was asked for. -/
theorem magnitudeValue_layout (negative : Bool) (some : ds ≠ [])
    (digits : ∀ d ∈ ds, d.isDigit = true) (point : Int) :
    magnitudeValue negative (layout ds point) =
      .rounded negative
      (Binary64.ofDecimal negative (Nat.ofDigitChars 10 ds 0) (point - ds.length)) := by
  have length : 0 < ds.length := List.length_pos_iff.mpr some
  have pointed {fraction : List Char} (digits : ∀ d ∈ fraction, d.isDigit = true) :
      (∀ d ∈ ('.' :: fraction).head?, d.isDigit = false) ∧ ∀ d ∈ '.' :: fraction, isExp d =
          false := by
    refine ⟨by simp, List.forall_mem_cons.mpr ⟨rfl, fun d member => isExp_digit (digits d member)⟩⟩
  have zeros (n : Nat) : ∀ d ∈ List.replicate n '0', d.isDigit = true := by
    intro d member
    rw [List.eq_of_mem_replicate member]
    rfl
  unfold layout
  split
  · split
    · -- zeros come between the point and the digits
      have fraction : ∀ d ∈ List.replicate (-point).toNat '0' ++ ds, d.isDigit = true := by
        intro d member
        exact (List.mem_append.mp member).elim (zeros _ d) (digits d)
      obtain ⟨head, plain⟩ := pointed fraction
      have value := magnitudeValue_parts negative ['0'] [] (by simp) head plain (by simp)
      rw [List.append_nil] at value
      refine value.trans ?_
      have exponent : exponentValue [] - (('.' :: (List.replicate (-point).toNat '0' ++ ds)).drop
          1).length = point - ds.length := by
        simp [exponentValue]
        omega
      rw [exponent, List.drop_one, List.tail_cons, List.singleton_append,
        ofDigitChars_zero, ofDigitChars_zeros]
    · split
      · -- the point is among the digits
        rename_i above inside
        have fraction : ∀ d ∈ ds.drop point.toNat, d.isDigit = true :=
          fun d member => digits d (List.mem_of_mem_drop member)
        obtain ⟨head, plain⟩ := pointed fraction
        have value := magnitudeValue_parts negative (ds.take point.toNat) []
          (fun d member => digits d (List.mem_of_mem_take member)) head plain (by simp)
        rw [List.append_nil] at value
        refine value.trans ?_
        have exponent : exponentValue [] - (('.' :: ds.drop point.toNat).drop 1).length =
            point - ds.length := by
          simp [exponentValue]
          omega
        rw [exponent, List.drop_one, List.tail_cons, List.take_append_drop]
      · -- zeros fill up to the point
        rename_i above beyond
        obtain ⟨fill, filled⟩ : ∃ fill, point.toNat - ds.length = fill := ⟨_, rfl⟩
        rw [filled]
        have whole : ∀ d ∈ ds ++ List.replicate fill '0', d.isDigit = true := by
          intro d member
          exact (List.mem_append.mp member).elim (digits d) (zeros _ d)
        obtain ⟨head, plain⟩ := pointed (show ∀ d ∈ ['0'], d.isDigit = true by simp)
        have value := magnitudeValue_parts negative _ [] whole head plain (by simp)
        rw [List.append_nil] at value
        refine value.trans ?_
        have number : Nat.ofDigitChars 10 (ds ++ List.replicate fill '0' ++ ['0']) 0 =
            Nat.ofDigitChars 10 ds 0 * 10 ^ (fill + 1) := by
          rw [List.append_assoc, ← List.replicate_succ', Nat.ofDigitChars_append,
            Nat.ofDigitChars_replicate_zero, Nat.mul_comm]
        have exponent : point - ds.length = fill := by omega
        rw [List.drop_one, List.tail_cons, number, exponent]
        exact congrArg (Float.rounded negative) (Binary64.ofDecimal_point negative _ fill)
  · -- one digit before the point, and an exponent
    have whole : ∀ d ∈ ds.take 1, d.isDigit = true :=
      fun d member => digits d (List.mem_of_mem_take member)
    have rest : ∀ d ∈ ds.drop 1, d.isDigit = true :=
      fun d member => digits d (List.mem_of_mem_drop member)
    have ends : ∀ d ∈ (writeExponent (point - 1)).head?, isExp d =
      true := by simp [writeExponent, isExp]
    have middle : (∀ d ∈ (if ds.length ≤ 1 then [] else '.' :: ds.drop 1).head?,
      d.isDigit = false) ∧
        ∀ d ∈ (if ds.length ≤ 1 then [] else '.' :: ds.drop 1), isExp d = false := by
      split
      · simp
      · exact pointed rest
    have after : (if ds.length ≤ 1 then [] else '.' :: ds.drop 1).drop 1 = ds.drop 1 := by
      split
      · rename_i short
        rw [List.drop_eq_nil_of_le short]
        rfl
      · rfl
    refine (magnitudeValue_parts negative _ _ whole middle.1 middle.2 ends).trans ?_
    rw [after, List.take_append_drop, exponentValue_write, List.length_drop]
    have exponent : point - 1 - (ds.length - 1 : Nat) = point - ds.length := by omega
    rw [exponent]

/-- Parts of a number with a point or an exponent that may end. -/
def Floating (part : NumberPart) : Prop := part = .fraction ∨ part = .power

theorem advance_fraction {fraction : List Char} (some : fraction ≠ [])
    (digits : ∀ d ∈ fraction, d.isDigit = true) (starts : part = .zero ∨ part = .whole) :
    advance part ('.' :: fraction) = .some .fraction := by
  cases fraction with
  | nil => exact absurd rfl some
  | cons d fraction =>
      obtain ⟨first, others⟩ := List.forall_mem_cons.mp digits
      have point : continueNumber part '.' = .some .point := by rcases starts with rfl | rfl <;> rfl
      have digit : continueNumber .point d = .some .fraction := by simp [continueNumber, first]
      rw [advance, point, Option.bind_some, advance, digit]
      exact advance_digits (.inr (.inl rfl)) others

theorem advance_exponent (n : Int) (starts : part = .whole ∨ part = .fraction) :
    advance part (writeExponent n) = .some .power := by
  have letter : continueNumber part 'e' = .some .exponent := by rcases starts with rfl | rfl <;> rfl
  have sign : continueNumber .exponent (if n < 0 then '-' else '+') =
    .some .sign := by split <;> rfl
  have digits : ∀ d ∈ (if (Nat.toDigits 10 n.natAbs).length < 2 then '0' :: Nat.toDigits 10 n.natAbs
      else Nat.toDigits 10 n.natAbs), d.isDigit = true := by
    split
    · exact List.forall_mem_cons.mpr ⟨rfl, isDigit_toDigits _⟩
    · exact isDigit_toDigits _
  simp only [writeExponent, advance, letter, sign, Option.bind_some]
  cases power : (if (Nat.toDigits 10 n.natAbs).length < 2 then '0' :: Nat.toDigits 10 n.natAbs
      else Nat.toDigits 10 n.natAbs) with
  | nil =>
      split at power
      · contradiction
      · exact absurd power Nat.toDigits_ne_nil
  | cons d ds =>
      rw [power] at digits
      obtain ⟨first, others⟩ := List.forall_mem_cons.mp digits
      have digit : continueNumber .sign d = .some .power := by simp [continueNumber, first]
      rw [advance, digit]
      exact advance_digits (.inr (.inr rfl)) others

theorem unsigned_append {xs ys : List Char} (reads : unsigned xs = some part) :
    unsigned (xs ++ ys) = advance part ys := by
  cases xs with
  | nil => contradiction
  | cons c xs =>
      simp only [List.cons_append, unsigned, Option.bind_eq_some_iff] at reads ⊢
      obtain ⟨first, begins, others⟩ := reads
      rw [begins, Option.bind_some, advance_append, others]
      rfl

theorem Natural.take (natural : Natural ds) {n : Nat} (some : 0 < n) : Natural (ds.take n) := by
  obtain ⟨d, ds, rfl⟩ := List.exists_cons_of_ne_nil natural.some
  obtain ⟨n, rfl⟩ := Nat.exists_eq_add_one.mpr some
  exact ⟨by simp, fun c member => natural.digits c (List.mem_of_mem_take member), natural.head⟩

/-- What is laid out is a number with a point or an exponent. -/
theorem unsigned_layout (natural : Natural ds) (point : Int) : ∃ part, unsigned (layout ds point) =
      some part ∧ Floating part := by
  have zeros (n : Nat) : ∀ d ∈ List.replicate n '0', d.isDigit = true := by
    intro d member
    rw [List.eq_of_mem_replicate member]
    rfl
  have first := (natural.take (n := 1) (by decide)).unsigned
  unfold layout
  split
  · refine ⟨.fraction, ?_, .inl rfl⟩
    split
    · refine advance_fraction ?_ ?_ (.inl rfl)
      · exact fun empty => natural.some (List.append_eq_nil_iff.mp empty).2
      · intro d member
        exact (List.mem_append.mp member).elim (zeros _ d) (natural.digits d)
    · split
      · rename_i above inside
        rw [unsigned_append (natural.take (n := point.toNat) (by omega)).unsigned]
        refine advance_fraction ?_ (fun d member => natural.digits d (List.mem_of_mem_drop member))
          (.inr rfl)
        intro empty
        have := congrArg List.length empty
        simp only [List.length_drop, List.length_nil] at this
        omega
      · rw [List.append_assoc, unsigned_append natural.unsigned, advance_append,
          advance_digits (.inl rfl) (zeros _),
          Option.bind_some]
        exact advance_fraction (by simp) (by simp) (.inr rfl)
  · refine ⟨.power, ?_, .inr rfl⟩
    rw [List.append_assoc, unsigned_append first, advance_append]
    split
    · exact advance_exponent _ (.inl rfl)
    · rename_i several
      have fraction : ds.drop 1 ≠ [] := by
        intro empty
        have := congrArg List.length empty
        simp only [List.length_drop, List.length_nil] at this
        omega
      rw [advance_fraction fraction (fun d member => natural.digits d (List.mem_of_mem_drop member))
        (.inr rfl),
        Option.bind_some]
      exact advance_exponent _ (.inr rfl)

/-- A floating point number is written as a number that has its value. -/
theorem magnitude_written (x : Binary64) :
    (∃ part, unsigned (writeMagnitude x) = some part ∧ Floating part) ∧
    magnitudeValue x.negative (writeMagnitude x) = .finite x := by
  have value : magnitudeValue x.negative (writeMagnitude x) = .finite x := by
    have exponent (n : Nat) : (n : Int) + x.shortest.2 - n = x.shortest.2 := by omega
    rw [writeMagnitude, magnitudeValue_layout x.negative Nat.toDigits_ne_nil (isDigit_toDigits _),
      Nat.ofDigitChars_ten_toDigits, exponent, x.ofDecimal_shortest]
    rfl
  refine ⟨?_, value⟩
  by_cases zero : x.shortest.1 = 0
  · rw [writeMagnitude, x.shortest_zero zero]
    exact ⟨.fraction, rfl, .inl rfl⟩
  · exact unsigned_layout (natural_toDigits (Nat.pos_of_ne_zero zero)) _

end

/-! ### Values -/

/-- What ends a value inside of a container. -/
def Ends (c : Char) : Prop := c = ',' ∨ c = ']' ∨ c = '}'

/-- The value has been read, but for a number that only what follows ends. -/
def Ready (limits : Limits) (stack : List Frame) (v : Json) (st : State) : Prop :=
  st = complete stack v ∨ ∃ part text, st = .open stack (.number part text) ∧
    endNumber limits part text.reverse = .ok v

section
variable {v : Json} {text : List Char}

theorem step_complete (stack : List Frame) (v : Json) (c : Char) :
    step limits (complete stack v) c = resume (complete stack v) c := by
  match stack with
  | [] => rfl
  | .arr items :: rest => rfl
  | .obj fields key :: rest => rfl

theorem scan_ready {c : Char} (ready : Ready limits stack v st) (ends : Ends c) :
    scan limits st (c :: rest) = scan limits (complete stack v) (c :: rest) := by
  rcases ready with rfl | ⟨part, text, rfl, value⟩
  · rfl
  · have stops : continueNumber part c = none := by
      rcases ends with rfl | rfl | rfl <;> cases part <;> rfl
    have other : ¬ (part = .minus ∧ c = 'I') := by
      rcases ends with rfl | rfl | rfl <;> simp
    have same : step limits (.open stack (.number part text)) c =
        step limits (complete stack v) c := by
      rw [step_complete]
      simp only [step, numberChar, stops, if_neg other, value]
      rfl
    simp only [scan, same]

theorem ready_number {part : NumberPart} (value : endNumber limits part text = .ok v) :
    Ready limits stack v (.open stack (.number part text.reverse)) :=
  .inr ⟨part, text.reverse, rfl, by rwa [List.reverse_reverse]⟩

theorem filter_digits {ds : List Char} (digits : ∀ d ∈ ds, d.isDigit = true) :
    ds.filter Char.isDigit = ds :=
  List.filter_eq_self.mpr digits

theorem integerValue_unsigned {cs : List Char} (other : cs.head? ≠ some '-') :
    integerValue cs = Nat.ofDigitChars 10 cs 0 := by
  rw [integerValue.eq_def]
  split
  · exact absurd rfl other
  · rfl

theorem toDigits_unsigned (n : Nat) : (Nat.toDigits 10 n).head? ≠ some '-' := by
  intro same
  have digit := isDigit_toDigits n '-' (List.mem_of_mem_head? same)
  contradiction

theorem scan_int (mayEnd : Bool) (n : Int) (short : digitsOf n ≤ limits.digits) :
    ∃ st, scan limits (.open stack (.value mayEnd)) (writeInt n) = .ok st ∧ Ready limits stack
    (.int n) st := by
  have digits := isDigit_toDigits n.natAbs
  have whole (text : List Char) (written : text.filter Char.isDigit = Nat.toDigits 10 n.natAbs)
    (value : integerValue text = n) :
      wholeNumber limits text = .ok (.int n) := by
    rw [wholeNumber, written, value]
    exact if_neg (Nat.not_lt.mpr short)
  have ends (text : List Char) (counted : wholeNumber limits text = .ok (.int n)) :
      endNumber limits (if n.natAbs = 0 then .zero else .whole) text = .ok (.int n) := by
    split <;> exact counted
  unfold writeInt
  split
  · refine ⟨_, scan_signed mayEnd (unsigned_toDigits _), ready_number (ends _ (whole _ ?_ ?_))⟩
    · rw [List.filter_cons_of_neg (by decide), filter_digits digits]
    · simp only [integerValue, Nat.ofDigitChars_ten_toDigits]
      omega
  · refine ⟨_, scan_unsigned mayEnd (unsigned_toDigits _),
      ready_number (ends _ (whole _ (filter_digits digits) ?_))⟩
    rw [integerValue_unsigned (toDigits_unsigned _), Nat.ofDigitChars_ten_toDigits]
    omega

theorem unsigned_head {part : NumberPart} (reads : unsigned text = some part) :
    text.head? ≠ some '-' := by
  rintro same
  cases text with
  | nil => contradiction
  | cons c text =>
      cases Option.some.inj same
      contradiction

theorem floatValue_unsigned (other : text.head? ≠ some '-') :
    floatValue text = magnitudeValue false text := by
  rw [floatValue.eq_def]
  split
  · exact absurd rfl other
  · rfl

theorem scan_float (mayEnd : Bool) (x : Float) :
    ∃ st, scan limits (.open stack (.value mayEnd)) (writeFloat x) = .ok st ∧ Ready limits stack
    (.float x) st := by
  cases x with
  | nan => exact ⟨_, by cases mayEnd <;> rfl, .inl rfl⟩
  | infinity => exact ⟨_, by cases mayEnd <;> rfl, .inl rfl⟩
  | minusInfinity => exact ⟨_, by cases mayEnd <;> rfl, .inl rfl⟩
  | finite x =>
      obtain ⟨⟨part, reads, floating⟩, value⟩ := magnitude_written x
      have ends (text : List Char) (value : floatValue text = .finite x) : endNumber limits part
          text = .ok (.float (.finite x)) := by
        rcases floating with rfl | rfl <;> simp only [endNumber, value]
      rw [writeFloat, writeFinite]
      split
      · rename_i sign
        refine ⟨_, scan_signed mayEnd reads, ready_number (ends _ ?_)⟩
        rw [sign] at value
        exact value
      · rename_i sign
        refine ⟨_, scan_unsigned mayEnd reads, ready_number (ends _ ?_)⟩
        rw [Bool.not_eq_true] at sign
        rw [floatValue_unsigned (unsigned_head reads), ← sign]
        exact value

theorem writeItems_ends (items : List Json) : ∃ c cs, writeItems items = c :: cs ∧ Ends c := by
  cases items with
  | nil => exact ⟨_, _, by rw [writeItems], .inr (.inl rfl)⟩
  | cons x xs => exact ⟨_, _, by rw [writeItems, List.append_assoc, List.cons_append], .inl rfl⟩

theorem writeFields_ends (fields : List (String × Json)) :
    ∃ c cs, writeFields fields = c :: cs ∧ Ends c := by
  match fields with
  | [] => exact ⟨_, _, by rw [writeFields], .inr (.inr rfl)⟩
  | (k, v) :: fs =>
      exact ⟨_, _, by simp only [writeFields, List.append_assoc, List.cons_append]; rfl, .inl rfl⟩

theorem setKey_fresh {key : String} {value : Json} {made : List (String × Json)}
    (fresh : key ∉ made.map Prod.fst) : setKey key value made = made ++ [(key, value)] := by
  induction made with
  | nil => rfl
  | cons entry made ih =>
      simp only [List.map_cons, List.mem_cons, not_or] at fresh
      rw [setKey, if_neg (Ne.symm fresh.1), ih fresh.2, List.cons_append]

theorem dict_distinct {fields : List (String × Json)} (distinct : (fields.map Prod.fst).Nodup) :
    dict fields = fields := by
  have grows (fields made : List (String × Json)) (nodup : ((made ++ fields).map Prod.fst).Nodup) :
      fields.foldl (fun made field => setKey field.1 field.2 made) made = made ++ fields := by
    induction fields generalizing made with
    | nil => simp
    | cons entry fields ih =>
        obtain ⟨key, value⟩ := entry
        have fresh : key ∉ made.map Prod.fst := by
          simp only [List.map_append, List.map_cons, List.nodup_append, List.mem_cons] at nodup
          exact fun member => nodup.2.2 _ member _ (Or.inl rfl) rfl
        simp only [List.foldl_cons, setKey_fresh fresh]
        rw [ih _ (by simpa using nodup), List.append_assoc]
        rfl
  exact grows fields [] (by simpa using distinct)

/-- A value goes on to what follows it. -/
theorem scan_followed {next : Next} {c : Char} {cs : List Char}
    (read : ∃ st, scan limits (.open stack next) text = .ok st ∧ Ready limits stack v st)
    (ends : Ends c) : scan limits (.open stack next) (text ++ (c :: cs)) =
      scan limits (complete stack v) (c :: cs) := by
  obtain ⟨st, scanned, ready⟩ := read
  rw [scan_append, scanned]
  exact scan_ready ready ends

mutual
/-- What was written of a value is read as it. -/
theorem scan_write (stack : List Frame) (v : Json) (distinct : v.Distinct)
    (deep : stack.length + nesting v ≤ limits.depth) (short : longest v ≤ limits.digits)
    (mayEnd : Bool) : ∃ st, scan limits (.open stack (.value mayEnd)) (write v) = .ok st ∧
    Ready limits stack v st := by
  match v with
  | .null => exact ⟨_, by cases mayEnd <;> (rw [write]; rfl), .inl rfl⟩
  | .bool true => exact ⟨_, by cases mayEnd <;> (rw [write]; rfl), .inl rfl⟩
  | .bool false => exact ⟨_, by cases mayEnd <;> (rw [write]; rfl), .inl rfl⟩
  | .int n =>
      rw [write]
      exact scan_int mayEnd n short
  | .float x =>
      rw [write]
      exact scan_float mayEnd x
  | .str s =>
      refine ⟨_, ?_, .inl rfl⟩
      rw [write, ← List.append_nil (writeString s)]
      exact scan_value mayEnd s
  | .arr items =>
      simp only [nesting] at deep
      have opens : step limits (.open stack (.value mayEnd)) '[' =
          .ok (.open (.arr [] :: stack) (.value true)) := by
        have room : stack.length < limits.depth := by omega
        cases mayEnd <;> simp [step, isBlank, beginValue, enter, room]
      refine ⟨complete stack (.arr items), ?_, .inl rfl⟩
      match items with
      | [] =>
          rw [write, scan_step opens]
          exact scan_step rfl
      | x :: xs =>
          simp only [Distinct, DistinctItems] at distinct
          simp only [nestingItems] at deep
          simp only [longest, longestItems] at short
          obtain ⟨c, cs, same, ends⟩ := writeItems_ends xs
          have first :=
            scan_write (.arr [] :: stack) x distinct.1
              (by simp only [List.length_cons]; omega) (by omega) true
          have others := scan_items stack xs distinct.2 (by omega) (by omega) [x]
          rw [write, List.cons_append, scan_step opens, same, scan_followed first ends, ← same]
          exact others
  | .obj fields =>
      simp only [nesting] at deep
      have opens : step limits (.open stack (.value mayEnd)) '{' =
          .ok (.open (.obj [] none :: stack) (.key true)) := by
        have room : stack.length < limits.depth := by omega
        cases mayEnd <;> simp [step, isBlank, beginValue, enter, room]
      refine ⟨complete stack (.obj fields), ?_, .inl rfl⟩
      match fields with
      | [] =>
          rw [write, scan_step opens]
          exact scan_step rfl
      | (k, v) :: fs =>
          simp only [Distinct, DistinctFields] at distinct
          simp only [nestingFields] at deep
          simp only [longest, longestFields] at short
          have others := scan_fields stack fs distinct.2.2 (by omega) (by omega)
            [(k, v)] (by simpa using distinct.1)
          have first :=
            scan_write (.obj [] (some k) :: stack) v distinct.2.1
              (by simp only [List.length_cons]; omega) (by omega) false
          obtain ⟨c, cs, same, ends⟩ := writeFields_ends fs
          simp only [write, List.cons_append, List.append_assoc]
          rw [scan_step opens, scan_key, List.nil_append, scan_step (c := ':') rfl,
            scan_step (c := ' ') rfl, same,
            scan_followed first ends, ← same]
          exact others

theorem scan_items (stack : List Frame) (items : List Json) (distinct : DistinctItems items)
    (deep : stack.length + (nestingItems items + 1) ≤ limits.depth)
    (short : longestItems items ≤ limits.digits) (made : List Json) :
    scan limits (.open (.arr made :: stack) .comma) (writeItems items) = .ok
    (complete stack (.arr (made.reverse ++ items))) := by
  match items with
  | [] =>
      rw [writeItems, List.append_nil]
      exact scan_step rfl
  | x :: xs =>
      simp only [DistinctItems] at distinct
      simp only [nestingItems] at deep
      simp only [longestItems] at short
      obtain ⟨c, cs, same, ends⟩ := writeItems_ends xs
      have first :=
        scan_write (.arr made :: stack) x distinct.1
          (by simp only [List.length_cons]; omega) (by omega) false
      have others := scan_items stack xs distinct.2 (by omega) (by omega) (x :: made)
      rw [List.reverse_cons, List.append_assoc, List.singleton_append] at others
      simp only [writeItems, List.cons_append, List.nil_append]
      rw [scan_step (c := ',') rfl, scan_step (c := ' ') rfl, same,
        scan_followed first ends, ← same]
      exact others

theorem scan_fields (stack : List Frame) (fields : List (String × Json))
    (distinct : DistinctFields fields)
    (deep : stack.length + (nestingFields fields + 1) ≤ limits.depth)
    (short : longestFields fields ≤ limits.digits) (made : List (String × Json))
    (nodup : ((made.reverse ++ fields).map Prod.fst).Nodup) :
    scan limits (.open (.obj made none :: stack) .comma) (writeFields fields) =
      .ok (complete stack (.obj (made.reverse ++ fields))) := by
  match fields with
  | [] =>
      rw [List.append_nil] at nodup ⊢
      have closes : step limits (.open (.obj made none :: stack) .comma) '}' =
        .ok (complete stack (.obj (dict made.reverse))) := rfl
      rw [writeFields, scan_step closes, dict_distinct nodup]
      rfl
  | (k, v) :: fs =>
      simp only [DistinctFields] at distinct
      simp only [nestingFields] at deep
      simp only [longestFields] at short
      obtain ⟨c, cs, same, ends⟩ := writeFields_ends fs
      have first :=
        scan_write (.obj made (some k) :: stack) v distinct.1
          (by simp only [List.length_cons]; omega) (by omega) false
      have others := scan_fields stack fs distinct.2 (by omega) (by omega)
        ((k, v) :: made) (by simpa using nodup)
      rw [List.reverse_cons, List.append_assoc, List.singleton_append] at others
      simp only [writeFields, List.cons_append, List.nil_append, List.append_assoc]
      rw [scan_step (c := ',') rfl, scan_step (c := ' ') rfl, scan_key, scan_step (c := ':') rfl,
        scan_step (c := ' ') rfl, same,
        scan_followed first ends, ← same]
      exact others
end

/-- No text starts with a byte order mark. -/
theorem write_head (v : Json) : (write v).head? ≠ some (Char.ofNat 0xFEFF) := by
  have sign (text : List Char) (c : Char) (other : c ≠ Char.ofNat 0xFEFF) : (c :: text).head? ≠
      some (Char.ofNat 0xFEFF) :=
    fun same => other (Option.some.inj same)
  have number {part : NumberPart} (text : List Char) (reads : unsigned text = some part) :
      text.head? ≠ some (Char.ofNat 0xFEFF) := by
    cases text with
    | nil => contradiction
    | cons c text =>
        simp only [unsigned, Option.bind_eq_some_iff] at reads
        obtain ⟨first, begins, -⟩ := reads
        exact sign text c (isDigit_ne (beginNumber_digit begins) (by decide))
  match v with
  | .null | .bool true | .bool false => simp only [write]; exact sign _ _ (by decide)
  | .int n =>
      rw [write, writeInt]
      split
      · exact sign _ _ (by decide)
      · exact number _ (unsigned_toDigits _)
  | .float .nan | .float .infinity | .float .minusInfinity =>
      simp only [write, writeFloat]; exact sign _ _ (by decide)
  | .float (.finite x) =>
      obtain ⟨⟨part, reads, -⟩, -⟩ := magnitude_written x
      rw [write, writeFloat, writeFinite]
      split
      · exact sign _ _ (by decide)
      · exact number _ reads
  | .str s => rw [write, writeString, List.cons_append]; exact sign _ _ (by decide)
  | .arr [] => rw [write]; exact sign _ _ (by decide)
  | .arr (x :: xs) => rw [write, List.cons_append]; exact sign _ _ (by decide)
  | .obj [] => rw [write]; exact sign _ _ (by decide)
  | .obj ((k, v) :: fs) => simp only [write, List.cons_append]; exact sign _ _ (by decide)

/-- Reading back what was written gives the same value. -/
theorem decode_dumps (v : Json) (distinct : v.Distinct) (deep : nesting v ≤ limits.depth)
    (short : longest v ≤ limits.digits) : decode limits (dumps v).toList = .ok v := by
  obtain ⟨st, scanned, ready⟩ := scan_write [] v distinct (by simpa using deep) short false
  rw [dumps, String.toList_ofList, decode, if_neg (write_head v), start, scanned]
  rcases ready with rfl | ⟨part, text, rfl, value⟩
  · rfl
  · simp only [finish, value, bind, Except.bind]

theorem encode_within {text : String} (written : encode limits v = .ok text) :
    nesting v ≤ limits.depth ∧ longest v ≤ limits.digits := by
  unfold encode at written
  split at written
  · contradiction
  · split at written
    · contradiction
    · rename_i deep short
      exact ⟨Nat.not_lt.mp deep, Nat.not_lt.mp short⟩

theorem encode_ok (deep : nesting v ≤ limits.depth) (short : longest v ≤ limits.digits) :
    encode limits v = .ok (dumps v) := by
  rw [encode, if_neg (Nat.not_lt.mpr deep), if_neg (Nat.not_lt.mpr short)]

theorem encode_text {text : String} (written : encode limits v = .ok text) : text = dumps v := by
  obtain ⟨deep, short⟩ := encode_within written
  exact (Except.ok.inj ((encode_ok deep short).symm.trans written)).symm

theorem spells_dumps (v : Json) (distinct : v.Distinct) : Spells (dumps v) v :=
  ⟨⟨longest v, nesting v⟩, decode_dumps v distinct (Nat.le_refl _) (Nat.le_refl _)⟩

end

end Json.Scanner

namespace Json

/-! ### One line -/

theorem newline_hexDigit : ∀ n < 16, hexDigit n ≠ '\n' := by decide

theorem newline_unicodeEscape (u : Nat) : '\n' ∉ unicodeEscape u := by
  have digit (n : Nat) : '\n' ≠ hexDigit (n % 16) :=
    (newline_hexDigit _ (Nat.mod_lt _ (by decide))).symm
  simp [unicodeEscape, digit]

theorem newline_escape (c : Char) : '\n' ∉ escape c := by
  unfold escape
  split_ifs with quote slash newline
  all_goals try simp
  · exact Ne.symm newline
  · exact fun u _ => newline_unicodeEscape u

theorem newline_writeString (s : String) : '\n' ∉ writeString s := by
  have inside : '\n' ∉ s.toList.flatMap escape := by
    intro member
    obtain ⟨c, -, escaped⟩ := List.mem_flatMap.mp member
    exact newline_escape c escaped
  simp [writeString, inside]

theorem newline_toDigits (n : Nat) : '\n' ∉ Nat.toDigits 10 n := by
  intro member
  exact absurd (Scanner.isDigit_toDigits n _ member) (by decide)

theorem newline_writeInt (n : Int) : '\n' ∉ writeInt n := by
  unfold writeInt
  split
  · exact List.not_mem_cons_of_ne_of_not_mem (by decide) (newline_toDigits _)
  · exact newline_toDigits _

theorem newline_writeExponent (n : Int) : '\n' ∉ writeExponent n := by
  have padded : '\n' ∉ (if (Nat.toDigits 10 n.natAbs).length <
    2 then '0' :: Nat.toDigits 10 n.natAbs
      else Nat.toDigits 10 n.natAbs) := by
    split
    · exact List.not_mem_cons_of_ne_of_not_mem (by decide) (newline_toDigits _)
    · exact newline_toDigits _
  rw [writeExponent]
  refine List.not_mem_cons_of_ne_of_not_mem (by decide)
    (List.not_mem_cons_of_ne_of_not_mem ?_ padded)
  split <;> decide

theorem newline_layout {digits : List Char} (clean : '\n' ∉ digits) (point : Int) :
    '\n' ∉ layout digits point := by
  have taken (n : Nat) : '\n' ∉ digits.take n := fun member => clean (List.mem_of_mem_take member)
  have dropped (n : Nat) : '\n' ∉ digits.drop n := fun member => clean (List.mem_of_mem_drop member)
  have tail : '\n' ∉ digits.tail := List.drop_one (l := digits) ▸ dropped 1
  unfold layout
  split_ifs <;> simp [clean, taken, dropped, tail, newline_writeExponent, List.mem_replicate]

theorem newline_writeFloat (x : Float) : '\n' ∉ writeFloat x := by
  cases x with
  | finite x =>
      have magnitude : '\n' ∉ writeMagnitude x := newline_layout (newline_toDigits _) _
      rw [writeFloat, writeFinite]
      split
      · simp [magnitude]
      · exact magnitude
  | nan | infinity | minusInfinity => decide

mutual
/-- The text of a value is on one line. -/
theorem newline_write (j : Json) : '\n' ∉ write j := by
  cases j with
  | null => decide
  | bool b => cases b <;> decide
  | int n => exact newline_writeInt n
  | float x => exact newline_writeFloat x
  | str s => exact newline_writeString s
  | arr items =>
      cases items with
      | nil => decide
      | cons x xs => simp [write, newline_write x, newline_writeItems xs]
  | obj fields =>
      cases fields with
      | nil => decide
      | cons field fs =>
          obtain ⟨k, v⟩ := field
          simp [write, newline_writeString k, newline_write v, newline_writeFields fs]

theorem newline_writeItems (items : List Json) : '\n' ∉ writeItems items := by
  cases items with
  | nil => decide
  | cons x xs => simp [writeItems, newline_write x, newline_writeItems xs]

theorem newline_writeFields (fields : List (String × Json)) : '\n' ∉ writeFields fields := by
  cases fields with
  | nil => decide
  | cons field fs =>
      obtain ⟨k, v⟩ := field
      simp [writeFields, newline_writeString k, newline_write v, newline_writeFields fs]
end

end Json
