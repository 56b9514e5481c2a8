import FileGate.Bytes

/-! Base64. Writing pads to groups of four characters. Reading is strict, where any other character
is a fault, or lenient, where such characters count for nothing; both let the bits go that a last
group has over. -/
namespace FileGate.Base64

def digit (n : Nat) : Char :=
  if n < 26 then Char.ofNat (65 + n)
  else if n < 52 then Char.ofNat (71 + n)
  else if n < 62 then Char.ofNat (n - 4)
  else if n = 62 then '+' else '/'

def value? (c : Char) : Option Nat :=
  let n := c.toNat
  if 65 ≤ n && n ≤ 90 then some (n - 65)
  else if 97 ≤ n && n ≤ 122 then some (n - 71)
  else if 48 ≤ n && n ≤ 57 then some (n + 4)
  else if n = 43 then some 62
  else if n = 47 then some 63
  else none

theorem value?_digit : ∀ n < 64, value? (digit n) = some n := by decide
theorem digit_ne_pad : ∀ n < 64, digit n ≠ '=' := by decide

def encode : Bytes → List Char
  | [] => []
  | [a] => [digit (a.toNat / 4), digit (a.toNat % 4 * 16), '=', '=']
  | [a, b] =>
    [digit (a.toNat / 4), digit (a.toNat % 4 * 16 + b.toNat / 16), digit (b.toNat % 16 * 4), '=']
  | a :: b :: c :: r =>
    digit (a.toNat / 4) :: digit (a.toNat % 4 * 16 + b.toNat / 16) ::
      digit (b.toNat % 16 * 4 + c.toNat / 64) :: digit (c.toNat % 64) :: encode r

/-- Where a reader stands: the digits of the group so far, the bits kept from the last one, the
padding since then, and whether there was any padding at all. -/
structure Place where
  filled : Nat
  kept : Nat
  pads : Nat
  padded : Bool

def start : Place := ⟨0, 0, 0, false⟩

def Place.take (p : Place) (v : Nat) : Place × Bytes :=
  match p.filled with
  | 0 => (⟨1, v, 0, p.padded⟩, [])
  | 1 => (⟨2, v % 16, 0, p.padded⟩, [UInt8.ofNat (p.kept * 4 + v / 16)])
  | 2 => (⟨3, v % 4, 0, p.padded⟩, [UInt8.ofNat (p.kept * 16 + v / 4)])
  | _ => (⟨0, 0, 0, p.padded⟩, [UInt8.ofNat (p.kept * 64 + v)])

def decodeFrom (strict : Bool) (p : Place) : List Char → Option Bytes
  | [] => if p.filled = 0 then some [] else none
  | c :: s =>
    if c == '=' then
      if 2 ≤ p.filled && 4 ≤ p.filled + p.pads + 1 then
        if strict && !s.isEmpty then none else some []
      else
        decodeFrom strict ⟨p.filled, p.kept, p.pads + (if 2 ≤ p.filled then 1 else 0), true⟩ s
    else
      match value? c with
      | none => if strict then none else decodeFrom strict p s
      | some v =>
        if strict && p.padded then none
        else
          let (p, out) := p.take v
          (decodeFrom strict p s).map (out ++ ·)

def decodeStrict? (s : List Char) : Option Bytes :=
  if s.head? = some '=' then none else decodeFrom true start s

/-- Reads what digits there are up to the first complete padding. -/
def decodeLenient? (s : List Char) : Option Bytes := decodeFrom false start s

def toUrlSafe (c : Char) : Char := if c == '+' then '-' else if c == '/' then '_' else c
def ofUrlSafe (c : Char) : Char := if c == '-' then '+' else if c == '_' then '/' else c

def encodeUrlSafe (b : Bytes) : List Char := (encode b).map toUrlSafe
def decodeUrlSafe? (s : List Char) : Option Bytes := decodeLenient? (s.map ofUrlSafe)

end FileGate.Base64
