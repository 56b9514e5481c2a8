import FileGate.Text.Utf8

namespace FileGate.Percent

def isUnreserved (c : Char) : Bool :=
  let n := c.toNat
  (65 ≤ n && n ≤ 90) || (97 ≤ n && n ≤ 122) || (48 ≤ n && n ≤ 57) ||
    c == '_' || c == '.' || c == '-' || c == '~'

def escapeByte (b : UInt8) : List Char :=
  ['%', Bytes.upperHexDigit (b.toNat / 16), Bytes.upperHexDigit (b.toNat % 16)]

/-- Characters of `safe`, which is ASCII, stay as they are besides the unreserved ones. -/
def encodeChar (safe : List Char) (c : Char) : List Char :=
  if isUnreserved c || safe.contains c then [c] else (Utf8.encodeChar c).flatMap escapeByte

def encode (safe s : List Char) : List Char := s.flatMap (encodeChar safe)

def bytes : List Char → Bytes
  | [] => []
  | '%' :: a :: b :: s =>
    match Bytes.hexValue? a, Bytes.hexValue? b with
    | some x, some y => UInt8.ofNat (16 * x + y) :: bytes s
    | _, _ => 37 :: bytes (a :: b :: s)
  | c :: s => Utf8.encodeChar c ++ bytes s
termination_by s => s.length

def decode (s : List Char) : List Char := Utf8.decodeLossy (bytes s)

/-- Ill-formed UTF-8 stays escaped. -/
def decodeKeeping (s : List Char) : List Char :=
  (Utf8.pieces (bytes s)).flatMap fun
    | .inl b => b.flatMap escapeByte
    | .inr c => [c]

end FileGate.Percent
