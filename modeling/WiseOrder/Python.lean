import WiseOrder.Foundation.JsonScanner
import WiseOrder.Foundation.Printable
import Mathlib.Data.List.Infix

/-! What the program uses of its language: exceptions, `str` and `repr` of the
values that JSON can carry, sorted keys, and the text of an instant. -/
namespace WiseOrder

inductive ExceptionClass where
  | valueError
  | keyError
  | typeError
  | attributeError
  | runtimeError
  | fileNotFoundError
  | calledProcessError
  | unicodeDecodeError
  | jsonDecodeError
  | noResultFound
  | cancelledError
  | systemExit
  | keyboardInterrupt
  | other (name : String)
  deriving DecidableEq

structure PyException where
  kind : ExceptionClass
  text : String
  deriving DecidableEq

namespace PyException

/-- Selected by `except Exception`. -/
def isException (e : PyException) : Bool :=
  match e.kind with
  | .cancelledError | .systemExit | .keyboardInterrupt => false
  | _ => true

def valueError (text : String) : PyException := ⟨.valueError, text⟩
def keyError (text : String) : PyException := ⟨.keyError, text⟩
def typeError (text : String) : PyException := ⟨.typeError, text⟩
def attributeError (text : String) : PyException := ⟨.attributeError, text⟩
def runtimeError (text : String) : PyException := ⟨.runtimeError, text⟩
def noResultFound : PyException := ⟨.noResultFound, "No row was found when one was required"⟩

end PyException

/-- Microseconds since the epoch, in UTC. -/
abbrev Time := Int

def second : Time := 1000000

/-- An integer of 64 bits, which is what the database and Redis take. -/
def isInt64 (n : Int) : Bool := -9223372036854775808 ≤ n && n ≤ 9223372036854775807

namespace Python

/-- What the interpreter reads of a text: how long an integer may be, and how deep containers may be
nested. -/
def decoding : Json.Scanner.Limits := ⟨4300, 9900⟩

/-- What it writes of a value that is copied first, which takes more of its stack. -/
def encoding : Json.Scanner.Limits := ⟨4300, 490⟩

/-- What it raises beyond these limits, or at a text that is no JSON. -/
def refusal : Json.Scanner.Failure → PyException
  | .malformed => ⟨.jsonDecodeError, "invalid JSON"⟩
  | .digits => .valueError "Exceeds the limit (4300 digits) for integer string conversion"
  | .depth => ⟨.other "RecursionError", "maximum recursion depth exceeded"⟩

def hex (width n : Nat) : String :=
  let digits := Nat.toDigits 16 n
  String.ofList (List.replicate (width - digits.length) '0' ++ digits)

/-- What is not printable is escaped. -/
def reprChar (quote c : Char) : String :=
  if c = '\\' || c = quote then String.ofList ['\\', c]
  else if c = '\n' then "\\n"
  else if c = '\r' then "\\r"
  else if c = '\t' then "\\t"
  else if Printable.isPrintable c then String.singleton c
  else if c.toNat < 0x100 then "\\x" ++ hex 2 c.toNat
  else if c.toNat < 0x10000 then "\\u" ++ hex 4 c.toNat
  else "\\U" ++ hex 8 c.toNat

def reprString (s : String) : String :=
  let quote := if s.toList.contains '\'' && !s.toList.contains '"' then '"' else '\''
  String.singleton quote ++ String.join (s.toList.map (reprChar quote)) ++ String.singleton quote

def reprFloat : Json.Float → String
  | .nan => "nan"
  | .infinity => "inf"
  | .minusInfinity => "-inf"
  | .finite x => String.ofList (Json.writeFinite x)

mutual
def repr : Json → String
  | .null => "None"
  | .bool true => "True"
  | .bool false => "False"
  | .int n => toString n
  | .float x => reprFloat x
  | .str s => reprString s
  | .arr items => "[" ++ ", ".intercalate (reprItems items) ++ "]"
  | .obj fields => "\x7b" ++ ", ".intercalate (reprFields fields) ++ "\x7d"

def reprItems : List Json → List String
  | [] => []
  | x :: xs => repr x :: reprItems xs

def reprFields : List (String × Json) → List String
  | [] => []
  | (k, v) :: fs => (reprString k ++ ": " ++ repr v) :: reprFields fs
end

def str : Json → String
  | .str s => s
  | j => repr j

/-- `f"{j}"`, which integers can be too long for. -/
def format (j : Json) : Except PyException String :=
  if decoding.digits < j.longest then .error (refusal .digits) else .ok (str j)

def typeName : Json → String
  | .null => "NoneType"
  | .bool _ => "bool"
  | .int _ => "int"
  | .float _ => "float"
  | .str _ => "str"
  | .arr _ => "list"
  | .obj _ => "dict"

/-- Truth of a value in a condition. -/
def truthy : Json → Bool
  | .null => false
  | .bool b => b
  | .int n => n ≠ 0
  | .float x => !x.isZero
  | .str s => s ≠ ""
  | .arr items => !items.isEmpty
  | .obj fields => !fields.isEmpty

/-- `data.get(key, default)` -/
def get (data : Json) (key : String) (default : Json) : Except PyException Json :=
  match data with
  | .obj fields => .ok ((Json.lookup key fields).getD default)
  | other => .error (.attributeError ("'" ++ typeName other ++ "' object has no attribute 'get'"))

/-- What `for x in value` goes through. -/
def iterate : Json → Except PyException (List Json)
  | .arr items => .ok items
  | .str s => .ok (s.toList.map fun c => .str (String.singleton c))
  | .obj fields => .ok (fields.map fun field => .str field.1)
  | other => .error (.typeError ("'" ++ typeName other ++ "' object is not iterable"))

def isIterable : Json → Bool
  | .arr _ | .str _ | .obj _ => true
  | _ => false

/-- `c.isspace()`, for what `strip` drops and `\s` matches. -/
def isspace (c : Char) : Bool :=
  let n := c.toNat
  9 ≤ n && n ≤ 13 || 28 ≤ n && n ≤ 32 || n = 133 || n = 160 || n = 5760 || 8192 ≤ n && n ≤ 8202 ||
    n = 8232 || n = 8233 || n = 8239 || n = 8287 || n = 12288

/-- `s.strip()` -/
def strip (s : String) : String :=
  String.ofList (((s.toList.dropWhile isspace).reverse.dropWhile isspace).reverse)

/-- `s.rstrip()` -/
def rstrip (s : String) : String := String.ofList (s.toList.reverse.dropWhile isspace).reverse

/-- `s.lower()`, of the letters of ASCII. -/
def lower (s : String) : String := String.ofList (s.toList.map Char.toLower)

def splitLines : List Char → List Char → List String
  | [], [] => []
  | [], line => [String.ofList line.reverse]
  | '\r' :: '\n' :: cs, line => String.ofList line.reverse :: splitLines cs []
  | c :: cs, line =>
      if [10, 11, 12, 13, 28, 29, 30, 133, 8232, 8233].contains c.toNat then String.ofList
        line.reverse :: splitLines cs []
      else splitLines cs (c :: line)

/-- `s.splitlines()` -/
def splitlines (s : String) : List String := splitLines s.toList []

/-- `items[:n]` -/
def upTo (n : Int) (items : List α) : List α :=
  if n < 0 then items.take (items.length - n.natAbs) else items.take n.toNat

/-- `items[-n:]`, for a positive `n`. -/
def lastOnes (n : Nat) (items : List α) : List α := items.drop (items.length - n)

/-- `s[:n]` -/
def take (n : Nat) (s : String) : String := String.ofList (s.toList.take n)

/-- `s.split(sep)`, by one character. -/
def split (sep : Char) (s : String) : List String := (s.toList.splitOn sep).map String.ofList

/-- `s.isdigit()`, of ASCII digits. -/
def isdigit (s : String) : Bool := !s.toList.isEmpty && s.toList.all Char.isDigit

/-- `int(s)` of a string of digits. -/
def int (s : String) : Nat := Nat.ofDigitChars 10 s.toList 0

theorem isdigit_toString (n : Nat) : isdigit (toString n) = true := by
  have digits (c) (member : c ∈ Nat.toDigits 10 n) : c.isDigit = true :=
    Nat.isDigit_of_mem_toDigits (by decide) (by decide) member
  simpa [isdigit, Nat.toString_eq_repr, Nat.toList_repr, Nat.toDigits_ne_nil] using digits

theorem int_toString (n : Nat) : int (toString n) = n := by
  simp only [int, Nat.toString_eq_repr, Nat.toList_repr, Nat.ofDigitChars_ten_toDigits]

theorem newline_digits (n : Nat) : '\n' ∉ Nat.toDigits 10 n := by
  intro member
  exact absurd (Nat.isDigit_of_mem_toDigits (by decide) (by decide) member) (by decide)

theorem split_append (sep : Char) (s t : String) : split sep (s ++ String.singleton sep ++ t) =
      split sep s ++ split sep t := by
  simp only [split, String.toList_append, String.toList_singleton,
    List.append_assoc, List.singleton_append,
    List.splitOn_append_cons_self, List.map_append]

theorem split_snoc (sep : Char) (s : String) :
    split sep (s ++ String.singleton sep) = split sep s ++ [""] := by
  have none : split sep "" = [""] := rfl
  rw [← none, ← split_append, String.append_empty]

theorem split_intercalate {sep : Char} {lines : List String} (some : lines ≠ [])
    (clean : ∀ line ∈ lines, sep ∉ line.toList) :
    split sep ((String.singleton sep).intercalate lines) = lines := by
  have whole : ∀ cs ∈ lines.map String.toList, sep ∉ cs := by simpa using clean
  rw [split, String.toList_intercalate, String.toList_singleton,
    List.splitOn_intercalate sep whole (by simpa using some),
    List.map_map]
  simp [Function.comp_def]

/-- A text that ends in no blank is left as it is. -/
theorem rstrip_solid {s : String} {c : Char} (solid : isspace c = false) :
    rstrip (s ++ String.singleton c) = s ++ String.singleton c := by
  rw [rstrip, String.toList_append, String.toList_singleton, List.reverse_append,
    List.reverse_singleton,
    List.singleton_append, List.dropWhile_cons_of_neg (by simp [solid]),
      List.reverse_cons, List.reverse_reverse]
  apply String.toList_injective
  simp

/-- Lines that each end in a newline are what the text splits into, before an empty rest. -/
theorem split_lines {bodies : List String} (clean : ∀ body ∈ bodies, '\n' ∉ body.toList) :
    split '\n' (String.join (bodies.map (· ++ "\n"))) = bodies ++ [""] := by
  induction bodies with
  | nil => rfl
  | cons body rest ih =>
      have later := ih fun b member => clean b (List.mem_cons_of_mem _ member)
      have here : ∀ c ∈ body.toList, (c == '\n') = false := by
        intro c member
        refine beq_eq_false_iff_ne.mpr fun same => ?_
        exact clean body List.mem_cons_self (same ▸ member)
      have text : (String.join ((body :: rest).map (· ++ "\n"))).toList =
          body.toList ++ '\n' :: (String.join (rest.map (· ++ "\n"))).toList := by
        simp [String.toList_join]
      simp only [split, List.splitOn_eq_splitOnP] at later ⊢
      rw [text, List.splitOnP_append_cons_of_forall_mem here '\n' rfl, List.map_cons,
        later, String.ofList_toList,
        List.cons_append]

/-- The digits of `n` in groups of three, as the format `,` gives them. -/
def withCommas (n : Nat) : String :=
  let rec groups : Nat → List Char → List Char
    | _, [] => []
    | seen, c :: cs => if seen ≠ 0 && seen % 3 = 0 then ',' :: c :: groups (seen + 1) cs
        else c :: groups (seen + 1) cs
  String.ofList (groups 0 (Nat.toDigits 10 n).reverse).reverse

/-- A character that has begun: how many bytes it still needs, the bounds of the next one, and its
code so far. -/
structure Begun where
  owed : Nat
  low : Nat
  high : Nat
  code : Nat

/-- What a byte is where a character may begin: a character, the first byte of one, or neither. -/
def beginChar (b : Nat) : List (Option Char) × Option Begun :=
  if b < 0x80 then ([some (Char.ofNat b)], none)
  else if b < 0xC2 then ([none], none)
  else if b < 0xE0 then ([], some ⟨1, 0x80, 0xBF, b - 0xC0⟩)
  else if b < 0xF0 then
    ([], some ⟨2, if b = 0xE0 then 0xA0 else 0x80, if b = 0xED then 0x9F else 0xBF, b - 0xE0⟩)
  else if b < 0xF5 then
    ([], some ⟨3, if b = 0xF0 then 0x90 else 0x80, if b = 0xF4 then 0x8F else 0xBF, b - 0xF0⟩)
  else ([none], none)

/-- The characters of UTF-8 text, with `none` for each piece that is none. -/
def decodeFrom : Option Begun → List UInt8 → List (Option Char)
  | none, [] => []
  | some _, [] => [none]
  | none, b :: bs =>
      let (chars, begun) := beginChar b.toNat
      chars ++ decodeFrom begun bs
  | some ⟨owed, low, high, code⟩, b :: bs =>
      if low ≤ b.toNat ∧ b.toNat ≤ high then
        let code := code * 64 + (b.toNat - 0x80)
        if owed = 1 then some (Char.ofNat code) :: decodeFrom none bs
        else decodeFrom (some ⟨owed - 1, 0x80, 0xBF, code⟩) bs
      else
        let (chars, begun) := beginChar b.toNat
        none :: chars ++ decodeFrom begun bs

/-- `bytes.decode()` -/
def decode (bytes : List UInt8) : Except PyException String :=
  match (decodeFrom none bytes).mapM fun c => c with
  | some chars => .ok (String.ofList chars)
  | none => .error ⟨.unicodeDecodeError, "'utf-8' codec can't decode bytes"⟩

/-- `bytes.decode(errors="replace")` -/
def decodeReplace (bytes : List UInt8) : String :=
  String.ofList ((decodeFrom none bytes).map fun c => c.getD (Char.ofNat 0xFFFD))

example : (decode [0xE2, 0x82, 0xAC, 0x31]).toOption = some "€1" := by decide

example : decodeReplace [0xE2, 0x82, 0x31, 0xC0] = "\uFFFD1\uFFFD" := by decide

/-- `sub in text` -/
def isIn (sub text : String) : Bool := decide (sub.toList <:+: text.toList)

/-- The components of a path, the root first. -/
def pathParts (path : String) : List String :=
  (if path.toList.head? = some '/' then ["/"] else []) ++ (split '/' path).filter fun part =>
    part ≠ "" && part ≠ "."

/-- The path as it is written back. -/
def pathText (path : String) : String :=
  match pathParts path with
  | [] => "."
  | "/" :: parts => "/" ++ "/".intercalate parts
  | parts => "/".intercalate parts

/-- The last component of a path. -/
def pathName (path : String) : String :=
  match (pathParts path).getLast? with
  | some name => if name = "/" then "" else name
  | none => ""

def insertField (field : String × Json) : List (String × Json) → List (String × Json)
  | [] => [field]
  | other :: rest =>
      if field.1 ≤ other.1 then field :: other :: rest else other :: insertField field rest

mutual
/-- The value as `sort_keys=True` writes it. -/
def sortKeys : Json → Json
  | .arr items => .arr (sortKeysItems items)
  | .obj fields => .obj (sortKeysFields fields)
  | j => j

def sortKeysItems : List Json → List Json
  | [] => []
  | x :: xs => sortKeys x :: sortKeysItems xs

def sortKeysFields : List (String × Json) → List (String × Json)
  | [] => []
  | (k, v) :: fs => insertField (k, sortKeys v) (sortKeysFields fs)
end

def pad (width n : Nat) : String :=
  let digits := Nat.toDigits 10 n
  String.ofList (List.replicate (width - digits.length) '0' ++ digits)

/-- Year, month and day of a count of days since the epoch. -/
def civil (days : Int) : Int × Nat × Nat :=
  let z := days + 719468
  let era := z / 146097
  let doe := (z % 146097).toNat
  let yoe := (doe - doe / 1460 + doe / 36524 - doe / 146096) / 365
  let doy := doe - (365 * yoe + yoe / 4 - yoe / 100)
  let mp := (5 * doy + 2) / 153
  let month := if mp < 10 then mp + 3 else mp - 9
  let year := (yoe : Int) + era * 400 + (if month ≤ 2 then 1 else 0)
  (year, month, doy - (153 * mp + 2) / 5 + 1)

def clockText (t : Time) : String :=
  let (year, month, day) := civil (t / (86400 * second))
  let seconds := (t % (86400 * second) / second).toNat
  pad 4 year.toNat ++ "-" ++ pad 2 month ++ "-" ++ pad 2 day ++ "T" ++
    pad 2 (seconds / 3600) ++ ":" ++ pad 2 (seconds / 60 % 60) ++ ":" ++ pad 2 (seconds % 60)

/-- `isoformat()` of an aware UTC datetime. -/
def isoformat (t : Time) : String :=
  let micros := (t % second).toNat
  clockText t ++ (if micros = 0 then "" else "." ++ pad 6 micros) ++ "+00:00"

end Python

end WiseOrder
