import FileGate.Text.Utf8

/-! Character sets by name, and the text that bytes spell in them. Reading is lossy: what spells no
character is replaced. Strict reading is lossy reading without a loss. -/
namespace FileGate

inductive ByteOrder where
  | little
  | big
  deriving DecidableEq, Repr

inductive Charset where
  | ascii
  | latin1
  | windows1252
  | utf8
  /-- With a mark at the beginning that is no part of the text. -/
  | utf8Marked
  /-- Without a given order, a mark at the beginning tells it, or it is little-endian. -/
  | utf16 (order : Option ByteOrder)
  | utf32 (order : Option ByteOrder)
  deriving DecidableEq, Repr

namespace Charset

def plainName (s : List Char) : List Char :=
  let step (c : Char) (r : List Char) : List Char :=
    if c.isAlphanum || c == '.' then c.toLower :: r
    else match r with
      | '_' :: _ => r
      | _ => '_' :: r
  (s.foldr step []).dropWhile (· == '_')

def names : List (Charset × List String) :=
  [(ascii, ["ascii", "us_ascii", "us", "646", "ansi_x3.4_1968", "ansi_x3_4_1968",
      "ansi_x3.4_1986", "cp367", "csascii", "ibm367", "iso646_us", "iso_646.irv_1991", "iso_ir_6"]),
    (latin1, ["latin_1", "iso_8859_1", "latin1", "latin", "l1", "8859", "cp819", "csisolatin1",
      "ibm819", "iso8859", "iso8859_1", "iso_8859_1_1987", "iso_ir_100"]),
    (windows1252, ["cp1252", "windows_1252", "1252"]),
    (utf8, ["utf_8", "utf8", "u8", "utf", "utf8_ucs2", "utf8_ucs4", "cp65001"]),
    (utf8Marked, ["utf_8_sig"]),
    (utf16 none, ["utf_16", "utf16", "u16"]),
    (utf16 (some .little), ["utf_16_le", "utf_16le", "unicodelittleunmarked"]),
    (utf16 (some .big), ["utf_16_be", "utf_16be", "unicodebigunmarked"]),
    (utf32 none, ["utf_32", "utf32", "u32"]),
    (utf32 (some .little), ["utf_32_le", "utf_32le"]),
    (utf32 (some .big), ["utf_32_be", "utf_32be"])]

def ofName? (s : String) : Option Charset :=
  let n := String.ofList (plainName s.toList)
  (names.find? fun (_, l) => l.contains n).map (·.1)

def replacement : Char := Char.ofNat 0xFFFD

abbrev Spelled := List (Option Char)

/-- Characters of the bytes 128 to 159; five of them are none. -/
def windowsTable : Array Nat := #[
  0x20AC, 0, 0x201A, 0x192, 0x201E, 0x2026, 0x2020, 0x2021, 0x2C6, 0x2030, 0x160, 0x2039, 0x152, 0,
  0x17D, 0, 0, 0x2018, 0x2019, 0x201C, 0x201D, 0x2022, 0x2013, 0x2014, 0x2DC, 0x2122, 0x161, 0x203A,
  0x153, 0, 0x17E, 0x178]

def windowsChar (b : UInt8) : Option Char :=
  let n := b.toNat
  if 128 ≤ n && n < 160 then
    match windowsTable[n - 128]? with
    | some 0 => none
    | some m => some (Char.ofNat m)
    | none => none
  else some (Char.ofNat n)

def unit16 (o : ByteOrder) (a b : UInt8) : Nat :=
  match o with
  | .little => a.toNat + 256 * b.toNat
  | .big => 256 * a.toNat + b.toNat

def isHigh (n : Nat) : Bool := 0xD800 ≤ n && n < 0xDC00
def isLow (n : Nat) : Bool := 0xDC00 ≤ n && n < 0xE000

/-- Half of a pair by itself is a loss, and so is a byte that is left over. -/
def read16 (o : ByteOrder) : Bytes → Spelled
  | [] => []
  | [_] => [none]
  | [a, b] =>
    let n := unit16 o a b
    [if isHigh n || isLow n then none else some (Char.ofNat n)]
  | [a, b, _] =>
    let n := unit16 o a b
    if isHigh n then [none]
    else [if isLow n then none else some (Char.ofNat n), none]
  | a :: b :: c :: d :: r =>
    let n := unit16 o a b
    let m := unit16 o c d
    if isHigh n && isLow m then
      some (Char.ofNat (0x10000 + (n - 0xD800) * 0x400 + (m - 0xDC00))) :: read16 o r
    else (if isHigh n || isLow n then none else some (Char.ofNat n)) :: read16 o (c :: d :: r)
termination_by b => b.length

def unit32 (o : ByteOrder) (a b c d : UInt8) : Nat :=
  match o with
  | .little => a.toNat + 256 * (b.toNat + 256 * (c.toNat + 256 * d.toNat))
  | .big => d.toNat + 256 * (c.toNat + 256 * (b.toNat + 256 * a.toNat))

def read32 (o : ByteOrder) : Bytes → Spelled
  | [] => []
  | a :: b :: c :: d :: r =>
    let n := unit32 o a b c d
    (if n < 0x110000 && !isHigh n && !isLow n then some (Char.ofNat n) else none) :: read32 o r
  | _ => [none]

def readUtf8 (b : Bytes) : Spelled :=
  (Utf8.pieces b).map fun
    | .inl _ => none
    | .inr c => some c

def spell : Charset → Bytes → Spelled
  | ascii, b => b.map fun x => if x < 128 then some (Char.ofNat x.toNat) else none
  | latin1, b => b.map fun x => some (Char.ofNat x.toNat)
  | windows1252, b => b.map windowsChar
  | utf8, b => readUtf8 b
  | utf8Marked, 0xEF :: 0xBB :: 0xBF :: b => readUtf8 b
  | utf8Marked, b => readUtf8 b
  | utf16 none, 0xFF :: 0xFE :: b => read16 .little b
  | utf16 none, 0xFE :: 0xFF :: b => read16 .big b
  | utf16 o, b => read16 (o.getD .little) b
  | utf32 none, 0xFF :: 0xFE :: 0 :: 0 :: b => read32 .little b
  | utf32 none, 0 :: 0 :: 0xFE :: 0xFF :: b => read32 .big b
  | utf32 o, b => read32 (o.getD .little) b

def decode (k : Charset) (b : Bytes) : List Char := (k.spell b).map (·.getD replacement)
def decodeStrict? (k : Charset) (b : Bytes) : Option (List Char) := (k.spell b).mapM id

/-- The character set of JSON that begins with these bytes: by its mark, or by where the zeros are
among the first four bytes, as JSON begins with ASCII. -/
def ofJson? : Bytes → Option Charset
  | 0xFF :: 0xFE :: 0 :: 0 :: _ => some (utf32 none)
  | 0 :: 0 :: 0xFE :: 0xFF :: _ => some (utf32 none)
  | 0xEF :: 0xBB :: 0xBF :: _ => some utf8Marked
  | 0xFF :: 0xFE :: _ => some (utf16 none)
  | 0xFE :: 0xFF :: _ => some (utf16 none)
  | a :: b :: c :: d :: _ =>
    match a == 0, b == 0, c == 0, d == 0 with
    | false, false, false, false => some utf8
    | true, false, true, false => some (utf16 (some .big))
    | false, true, false, true => some (utf16 (some .little))
    | true, true, true, false => some (utf32 (some .big))
    | false, true, true, true => some (utf32 (some .little))
    | _, _, _, _ => none
  | _ => none

end Charset
end FileGate
