import WiseOrder.Foundation.Binary64

/-! JSON values and their text. The writer puts out ASCII only, separates items by
a comma and a blank and keeps the order of an object's fields. Numbers with a point
or an exponent are floating point numbers, written with the fewest digits. -/
namespace Json

inductive Float where
  | nan
  | infinity
  | minusInfinity
  | finite (x : Binary64)
  deriving DecidableEq

/-- What is beyond all numbers is infinite. -/
def Float.rounded (negative : Bool) : Option Binary64 → Float
  | some x => .finite x
  | none => if negative then .minusInfinity else .infinity

/-- The decimal `digits * 10 ^ exponent`. -/
def Float.decimal (digits : Nat) (exponent : Int) : Float :=
  .rounded false (Binary64.ofDecimal false digits exponent)

def Float.isZero : Float → Bool
  | .finite x => x.isZero
  | _ => false

def Float.addOne : Float → Float
  | .finite x => .rounded false x.addOne
  | x => x

end Json

inductive Json where
  | null
  | bool (b : Bool)
  | int (n : Int)
  | float (x : Json.Float)
  | str (s : String)
  | arr (items : List Json)
  | obj (fields : List (String × Json))

namespace Json

instance : Inhabited Json := ⟨.null⟩

/-- The value under a key of an object. -/
def lookup (key : String) : List (String × Json) → Option Json
  | [] => none
  | (k, v) :: rest => if k = key then some v else lookup key rest

/-! ### Writing -/

def hexDigit (n : Nat) : Char := if n < 10 then Char.ofNat (48 + n) else Char.ofNat (87 + n)

def unicodeEscape (u : Nat) : List Char :=
  ['\\', 'u', hexDigit (u / 4096 % 16), hexDigit (u / 256 % 16), hexDigit (u / 16 % 16),
    hexDigit (u % 16)]

/-- The UTF-16 code units of a character. -/
def codeUnits (c : Char) : List Nat :=
  if c.toNat < 0x10000 then [c.toNat]
  else [0xD800 + (c.toNat - 0x10000) / 0x400, 0xDC00 + (c.toNat - 0x10000) % 0x400]

def escape (c : Char) : List Char :=
  if c = '"' then ['\\', '"']
  else if c = '\\' then ['\\', '\\']
  else if c = '\n' then ['\\', 'n']
  else if c = '\r' then ['\\', 'r']
  else if c = '\t' then ['\\', 't']
  else if c.toNat = 12 then ['\\', 'f']
  else if c.toNat = 8 then ['\\', 'b']
  else if 32 ≤ c.toNat ∧ c.toNat ≤ 126 then [c]
  else (codeUnits c).flatMap unicodeEscape

def writeString (s : String) : List Char := '"' :: s.toList.flatMap escape ++ ['"']

def writeInt (n : Int) : List Char :=
  if n < 0 then '-' :: Nat.toDigits 10 n.natAbs else Nat.toDigits 10 n.natAbs

def writeExponent (n : Int) : List Char :=
  let digits := Nat.toDigits 10 n.natAbs
  'e' :: (if n < 0 then '-' else '+') :: (if digits.length < 2 then '0' :: digits else digits)

/-- Digits with a decimal point after the first `point` of them, or with an exponent
where that is too far off. -/
def layout (digits : List Char) (point : Int) : List Char :=
  if -4 < point ∧ point ≤ 16 then
    if point ≤ 0 then '0' :: '.' :: (List.replicate (-point).toNat '0' ++ digits)
    else if point < digits.length then digits.take point.toNat ++ '.' :: digits.drop point.toNat
    else digits ++ List.replicate (point.toNat - digits.length) '0' ++ ['.', '0']
  else
    digits.take 1 ++ (if digits.length ≤ 1 then [] else '.' :: digits.drop 1) ++
      writeExponent (point - 1)

def writeMagnitude (x : Binary64) : List Char :=
  let digits := Nat.toDigits 10 x.shortest.1
  layout digits (digits.length + x.shortest.2)

def writeFinite (x : Binary64) : List Char := if x.negative then '-' :: writeMagnitude x
      else writeMagnitude x

def writeFloat : Float → List Char
  | .nan => ['N', 'a', 'N']
  | .infinity => ['I', 'n', 'f', 'i', 'n', 'i', 't', 'y']
  | .minusInfinity => ['-', 'I', 'n', 'f', 'i', 'n', 'i', 't', 'y']
  | .finite x => writeFinite x

mutual
def write : Json → List Char
  | .null => ['n', 'u', 'l', 'l']
  | .bool true => ['t', 'r', 'u', 'e']
  | .bool false => ['f', 'a', 'l', 's', 'e']
  | .int n => writeInt n
  | .float x => writeFloat x
  | .str s => writeString s
  | .arr [] => ['[', ']']
  | .arr (x :: xs) => '[' :: write x ++ writeItems xs
  | .obj [] => ['{', '}']
  | .obj ((k, v) :: fs) => '{' :: writeString k ++ [':', ' '] ++ write v ++ writeFields fs

def writeItems : List Json → List Char
  | [] => [']']
  | x :: xs => [',', ' '] ++ write x ++ writeItems xs

def writeFields : List (String × Json) → List Char
  | [] => ['}']
  | (k, v) :: fs => [',', ' '] ++ writeString k ++ [':', ' '] ++ write v ++ writeFields fs
end

def dumps (j : Json) : String := String.ofList (write j)

/-! ### Reading -/

def isBlank (c : Char) : Bool := c = ' ' || c = '\t' || c = '\n' || c = '\r'

def hexValue (c : Char) : Option Nat :=
  if c.isDigit then some (c.toNat - 48)
  else if 97 ≤ c.toNat ∧ c.toNat ≤ 102 then some (c.toNat - 87)
  else if 65 ≤ c.toNat ∧ c.toNat ≤ 70 then some (c.toNat - 55)
  else none

def unescape : Char → Option Nat
  | '"' => some 34
  | '\\' => some 92
  | '/' => some 47
  | 'b' => some 8
  | 'f' => some 12
  | 'n' => some 10
  | 'r' => some 13
  | 't' => some 9
  | _ => none

def integerValue : List Char → Int
  | '-' :: cs => -(Nat.ofDigitChars 10 cs 0 : Int)
  | cs => Nat.ofDigitChars 10 cs 0

def isExp (c : Char) : Bool := c = 'e' || c = 'E'

/-- What follows the `e` of a literal. -/
def exponentValue : List Char → Int
  | _ :: '-' :: cs => -(Nat.ofDigitChars 10 cs 0 : Int)
  | _ :: '+' :: cs => Nat.ofDigitChars 10 cs 0
  | _ :: cs => Nat.ofDigitChars 10 cs 0
  | [] => 0

/-- The number nearest to a literal without its sign. -/
def magnitudeValue (negative : Bool) (cs : List Char) : Float :=
  let mantissa := cs.takeWhile fun c => !isExp c
  let whole := mantissa.takeWhile Char.isDigit
  let fraction := (mantissa.dropWhile Char.isDigit).drop 1
  let exponent := exponentValue (cs.dropWhile fun c => !isExp c)
  .rounded negative (Binary64.ofDecimal negative (Nat.ofDigitChars 10 (whole ++ fraction) 0)
    (exponent - fraction.length))

def floatValue : List Char → Float
  | '-' :: cs => magnitudeValue true cs
  | cs => magnitudeValue false cs

/-- Set a key of an object, in its old place when it has one. -/
def setKey (key : String) (value : Json) : List (String × Json) → List (String × Json)
  | [] => [(key, value)]
  | (k, v) :: rest => if k = key then (k, value) :: rest else (k, v) :: setKey key value rest

def dict (fields : List (String × Json)) : List (String × Json) :=
  fields.foldl (fun made (key, value) => setKey key value made) []

mutual
/-- No object within has a key twice, as a dictionary never has. -/
def Distinct : Json → Prop
  | .arr items => DistinctItems items
  | .obj fields => (fields.map Prod.fst).Nodup ∧ DistinctFields fields
  | _ => True

def DistinctItems : List Json → Prop
  | [] => True
  | x :: xs => Distinct x ∧ DistinctItems xs

def DistinctFields : List (String × Json) → Prop
  | [] => True
  | (_, v) :: fs => Distinct v ∧ DistinctFields fs
end

/-! ### What limits apply to -/

mutual
/-- How many containers are open at once. -/
def nesting : Json → Nat
  | .arr items => nestingItems items + 1
  | .obj fields => nestingFields fields + 1
  | _ => 0

def nestingItems : List Json → Nat
  | [] => 0
  | x :: xs => max (nesting x) (nestingItems xs)

def nestingFields : List (String × Json) → Nat
  | [] => 0
  | (_, v) :: fs => max (nesting v) (nestingFields fs)
end

def digitsOf (n : Int) : Nat := (Nat.toDigits 10 n.natAbs).length

mutual
/-- The digits of the longest whole number. -/
def longest : Json → Nat
  | .int n => digitsOf n
  | .arr items => longestItems items
  | .obj fields => longestFields fields
  | _ => 0

def longestItems : List Json → Nat
  | [] => 0
  | x :: xs => max (longest x) (longestItems xs)

def longestFields : List (String × Json) → Nat
  | [] => 0
  | (_, v) :: fs => max (longest v) (longestFields fs)
end

end Json
