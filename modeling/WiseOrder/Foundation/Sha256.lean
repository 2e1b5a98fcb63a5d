import Mathlib.Algebra.Group.Nat.Defs

/-! The SHA-256 digest of a byte string, as hexadecimal text. -/
namespace Sha256

def roundConstants : List UInt32 := [
  0x428a2f98, 0x71374491, 0xb5c0fbcf, 0xe9b5dba5, 0x3956c25b, 0x59f111f1, 0x923f82a4, 0xab1c5ed5,
  0xd807aa98, 0x12835b01, 0x243185be, 0x550c7dc3, 0x72be5d74, 0x80deb1fe, 0x9bdc06a7, 0xc19bf174,
  0xe49b69c1, 0xefbe4786, 0x0fc19dc6, 0x240ca1cc, 0x2de92c6f, 0x4a7484aa, 0x5cb0a9dc, 0x76f988da,
  0x983e5152, 0xa831c66d, 0xb00327c8, 0xbf597fc7, 0xc6e00bf3, 0xd5a79147, 0x06ca6351, 0x14292967,
  0x27b70a85, 0x2e1b2138, 0x4d2c6dfc, 0x53380d13, 0x650a7354, 0x766a0abb, 0x81c2c92e, 0x92722c85,
  0xa2bfe8a1, 0xa81a664b, 0xc24b8b70, 0xc76c51a3, 0xd192e819, 0xd6990624, 0xf40e3585, 0x106aa070,
  0x19a4c116, 0x1e376c08, 0x2748774c, 0x34b0bcb5, 0x391c0cb3, 0x4ed8aa4a, 0x5b9cca4f, 0x682e6ff3,
  0x748f82ee, 0x78a5636f, 0x84c87814, 0x8cc70208, 0x90befffa, 0xa4506ceb, 0xbef9a3f7, 0xc67178f2]

structure State where
  (a b c d e f g h : UInt32)

def initial : State :=
  ⟨0x6a09e667, 0xbb67ae85, 0x3c6ef372, 0xa54ff53a, 0x510e527f, 0x9b05688c, 0x1f83d9ab, 0x5be0cd19⟩

def rotr (x : UInt32) (n : UInt32) : UInt32 := (x >>> n) ||| (x <<< (32 - n))

/-- The message, a one bit, zeros, and the length in bits, in whole blocks. -/
def padded (message : List UInt8) : List UInt8 :=
  let zeros := (119 - message.length % 64) % 64
  let bits := message.length * 8
  message ++ 0x80 :: List.replicate zeros 0 ++
    (List.range 8).map fun i => UInt8.ofNat (bits / 256 ^ (7 - i))

def words : List UInt8 → List UInt32
  | a :: b :: c :: d :: rest =>
      ((a.toUInt32 <<< 24) ||| (b.toUInt32 <<< 16) ||| (c.toUInt32 <<< 8) ||| d.toUInt32) ::
        words rest
  | _ => []

/-- The message schedule, the latest word first. -/
def schedule : Nat → List UInt32 → List UInt32
  | 0, ws => ws
  | n + 1, ws =>
      let w (k : Nat) := ws.getD (k - 1) 0
      let s0 := rotr (w 15) 7 ^^^ rotr (w 15) 18 ^^^ (w 15 >>> 3)
      let s1 := rotr (w 2) 17 ^^^ rotr (w 2) 19 ^^^ (w 2 >>> 10)
      schedule n ((w 16 + s0 + w 7 + s1) :: ws)

def round (s : State) (kw : UInt32 × UInt32) : State :=
  let s1 := rotr s.e 6 ^^^ rotr s.e 11 ^^^ rotr s.e 25
  let ch := (s.e &&& s.f) ^^^ ((~~~ s.e) &&& s.g)
  let t1 := s.h + s1 + ch + kw.1 + kw.2
  let s0 := rotr s.a 2 ^^^ rotr s.a 13 ^^^ rotr s.a 22
  let maj := (s.a &&& s.b) ^^^ (s.a &&& s.c) ^^^ (s.b &&& s.c)
  ⟨t1 + s0 + maj, s.a, s.b, s.c, s.d + t1, s.e, s.f, s.g⟩

def compress (s : State) (block : List UInt32) : State :=
  let t := (roundConstants.zip (schedule 48 block.reverse).reverse).foldl round s
  ⟨s.a + t.a, s.b + t.b, s.c + t.c, s.d + t.d, s.e + t.e, s.f + t.f, s.g + t.g, s.h + t.h⟩

def blocks (s : State) : Nat → List UInt32 → State
  | 0, _ => s
  | n + 1, ws => blocks (compress s (ws.take 16)) n (ws.drop 16)

def hexWord (w : UInt32) : String :=
  let digits := Nat.toDigits 16 w.toNat
  String.ofList (List.replicate (8 - digits.length) '0' ++ digits)

def hexdigest (message : List UInt8) : String :=
  let ws := words (padded message)
  let s := blocks initial (ws.length / 16) ws
  String.join ([s.a, s.b, s.c, s.d, s.e, s.f, s.g, s.h].map hexWord)

end Sha256
