import FileGate.Bytes

/-! UTF-8. A byte string falls into characters and faults, a fault being a maximal part that no
well-formed text could continue; what is done about a fault is left to the reader of the pieces. -/
namespace FileGate.Utf8

def encodeChar (c : Char) : Bytes :=
  let n := c.toNat
  if n < 0x80 then [UInt8.ofNat n]
  else if n < 0x800 then [UInt8.ofNat (0xC0 + n / 64), UInt8.ofNat (0x80 + n % 64)]
  else if n < 0x10000 then
    [UInt8.ofNat (0xE0 + n / 4096), UInt8.ofNat (0x80 + n / 64 % 64), UInt8.ofNat (0x80 + n % 64)]
  else
    [UInt8.ofNat (0xF0 + n / 262144), UInt8.ofNat (0x80 + n / 4096 % 64),
      UInt8.ofNat (0x80 + n / 64 % 64), UInt8.ofNat (0x80 + n % 64)]

def encode (s : List Char) : Bytes := s.flatMap encodeChar

/-- What a first byte announces: further bytes, its own share of the code point, and the range of
the second byte. -/
structure Lead where
  more : Nat
  share : Nat
  low : Nat
  high : Nat

def lead? (b : UInt8) : Option Lead :=
  let n := b.toNat
  if n < 0x80 then some ⟨0, n, 0x80, 0xBF⟩
  else if n < 0xC2 then none
  else if n < 0xE0 then some ⟨1, n - 0xC0, 0x80, 0xBF⟩
  else if n = 0xE0 then some ⟨2, 0, 0xA0, 0xBF⟩
  else if n = 0xED then some ⟨2, 0xD, 0x80, 0x9F⟩
  else if n < 0xF0 then some ⟨2, n - 0xE0, 0x80, 0xBF⟩
  else if n = 0xF0 then some ⟨3, 0, 0x90, 0xBF⟩
  else if n < 0xF4 then some ⟨3, n - 0xF0, 0x80, 0xBF⟩
  else if n = 0xF4 then some ⟨3, 4, 0x80, 0x8F⟩
  else none

/-- Reads up to `more` continuation bytes, the first of them between `low` and `high`. Gives the
number of bytes that fit, and the code point if all were there. -/
def continuation (more value low high : Nat) : Bytes → Nat × Option Nat
  | [] => if more = 0 then (0, some value) else (0, none)
  | b :: r =>
    match more with
    | 0 => (0, some value)
    | m + 1 =>
      if low ≤ b.toNat ∧ b.toNat ≤ high then
        let (k, v) := continuation m (value * 64 + (b.toNat - 0x80)) 0x80 0xBF r
        (k + 1, v)
      else (0, none)

def scan (b : UInt8) (r : Bytes) : Nat × Option Char :=
  match lead? b with
  | none => (0, none)
  | some l =>
    let (k, v) := continuation l.more l.share l.low l.high r
    (k, v.map Char.ofNat)

def pieces : Bytes → List (Bytes ⊕ Char)
  | [] => []
  | b :: r =>
    let (k, c) := scan b r
    (match c with
      | some c => .inr c
      | none => .inl (b :: r.take k)) :: pieces (r.drop k)
termination_by b => b.length
decreasing_by simp only [List.length_drop, List.length_cons]; omega

def decode? (b : Bytes) : Option (List Char) :=
  (pieces b).mapM fun
    | .inl _ => none
    | .inr c => some c

def decodeLossy (b : Bytes) : List Char :=
  (pieces b).map fun
    | .inl _ => Char.ofNat 0xFFFD
    | .inr c => c

end FileGate.Utf8

namespace FileGate.Bytes

def ofString (s : String) : Bytes := Utf8.encode s.toList

end FileGate.Bytes
