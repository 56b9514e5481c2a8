import FileGate.Value

/-! Writing of JSON in ASCII. Whatever is not printable ASCII is escaped by its UTF-16 units. -/
namespace FileGate.Json

structure Layout where
  comma : List Char
  colon : List Char

def spaced : Layout := ⟨", ".toList, ": ".toList⟩

def compact : Layout := ⟨[','], [':']⟩

def floatStyle : Decimal.Style := ⟨-4, 16, "Infinity", "NaN"⟩

def unitEscape (n : Nat) : List Char :=
  ['\\', 'u', Bytes.hexDigit (n / 4096 % 16), Bytes.hexDigit (n / 256 % 16),
    Bytes.hexDigit (n / 16 % 16), Bytes.hexDigit (n % 16)]

def escapeChar (c : Char) : List Char :=
  let n := c.toNat
  if c == '"' then ['\\', '"']
  else if c == '\\' then ['\\', '\\']
  else if 32 ≤ n && n < 127 then [c]
  else if c == '\n' then ['\\', 'n']
  else if c == '\r' then ['\\', 'r']
  else if c == '\t' then ['\\', 't']
  else if n == 8 then ['\\', 'b']
  else if n == 12 then ['\\', 'f']
  else if n < 0x10000 then unitEscape n
  else unitEscape (0xD800 + (n - 0x10000) / 0x400) ++ unitEscape (0xDC00 + (n - 0x10000) % 0x400)

/-- A half of a pair is a unit by itself. -/
def escape : Point → List Char
  | .char c => escapeChar c
  | p => unitEscape p.code

def writeString (s : Points) : List Char := '"' :: s.flatMap escape ++ ['"']

def keyText : Value → Points
  | .text s => s
  | .broken t => t.points
  | .null => "null"
  | .bool true => "true"
  | .bool false => "false"
  | .float x => (floatStyle.write x).map .char
  | v => v.display.map .char

mutual

def write (l : Layout) : Value → List Char
  | .null => "null".toList
  | .bool true => "true".toList
  | .bool false => "false".toList
  | .int n => (toString n).toList
  | .float x => floatStyle.write x
  | .text s => writeString s
  | .broken t => writeString t.points
  | .list items => '[' :: writeItems l items ++ [']']
  | .map entries => '\x7b' :: writeEntries l entries ++ ['\x7d']
  | .set items => '[' :: writeItems l items ++ [']']
  | v => writeString (v.display.map .char)

def writeItems (l : Layout) : List Value → List Char
  | [] => []
  | [v] => write l v
  | v :: items => write l v ++ l.comma ++ writeItems l items

def writeEntries (l : Layout) : List (Value × Value) → List Char
  | [] => []
  | [(k, v)] => writeString (keyText k) ++ l.colon ++ write l v
  | (k, v) :: m => writeString (keyText k) ++ l.colon ++ write l v ++ l.comma ++ writeEntries l m

end

end FileGate.Json
