import FileGate.Assoc
import FileGate.Text.Blank
import FileGate.Yaml.Moment

namespace FileGate.Yaml

inductive Tag where
  | null
  | bool
  | int
  | float
  | binary
  | timestamp
  | omap
  | pairs
  | set
  | str
  | seq
  | map
  /-- A key whose value's entries are taken over. -/
  | merge
  /-- A key whose value stands for the whole mapping where a scalar is wanted. -/
  | value
  | unknown
  deriving DecidableEq, Repr

namespace Tag

def words : List (String × Tag) :=
  [("null", null), ("bool", bool), ("int", int), ("float", float), ("binary", binary),
    ("timestamp", timestamp), ("omap", omap), ("pairs", pairs), ("set", set), ("str", str),
    ("seq", seq), ("map", map), ("merge", merge), ("value", value)]

def root : List Char := "tag:yaml.org,2002:".toList

def ofText (s : List Char) : Tag :=
  if root.isPrefixOf s then
    (Assoc.get? (String.ofList (s.drop root.length)) words).getD unknown
  else unknown

/-! ### Plain scalars -/

def isWord (word : String) (s : List Char) : Bool :=
  let w := word.toList
  s == w || s == w.map Char.toUpper || s == (w.head?.map Char.toUpper).toList ++ w.tail

def truths : List (String × Bool) :=
  [("yes", true), ("no", false), ("true", true), ("false", false), ("on", true), ("off", false)]

def isTruth (s : List Char) : Bool := truths.any fun (w, _) => isWord w s

def isNull (s : List Char) : Bool := s.isEmpty || s == ['~'] || isWord "null" s

def isDigitOrGap (c : Char) : Bool := c.isDigit || c == '_'

def isDigits : List Char → Bool
  | [] => false
  | c :: s => c.isDigit && s.all isDigitOrGap

/-- A place of a number to the base of sixty, other than its first. -/
def isSixtieth : List Char → Bool
  | [a] => a.isDigit
  | [a, b] => '0' ≤ a && a ≤ '5' && b.isDigit
  | _ => false

def unsigned (s : List Char) : List Char :=
  match s with
  | '+' :: r => r
  | '-' :: r => r
  | s => s

def isInt (s : List Char) : Bool :=
  match unsigned s with
  | ['0'] => true
  | '0' :: 'b' :: r => !r.isEmpty && r.all fun c => c == '0' || c == '1' || c == '_'
  | '0' :: 'x' :: r => !r.isEmpty && r.all fun c => (Bytes.hexValue? c).isSome || c == '_'
  | '0' :: r => r.all fun c => ('0' ≤ c && c ≤ '7') || c == '_'
  | s =>
    match Text.splitAll ':' s with
    | [] => false
    | whole :: places => isDigits whole && places.all isSixtieth

def isExponent : List Char → Bool
  | [] => true
  | e :: sign :: ds =>
    (e == 'e' || e == 'E') && (sign == '+' || sign == '-') && !ds.isEmpty && ds.all Char.isDigit
  | _ => false

def isFloat (s : List Char) : Bool :=
  match Text.cut? '.' (unsigned s) with
  | none => false
  | some (whole, part) =>
    let fraction := part.takeWhile isDigitOrGap
    let exponent := part.dropWhile isDigitOrGap
    if whole.isEmpty then
      let bare := unsigned s == s
      let isNan := part == "nan".toList || part == "NaN".toList || part == "NAN".toList
      isWord "inf" part || (bare && isNan) ||
        (bare && isDigits fraction && isExponent exponent)
    else
      match Text.splitAll ':' whole with
      | [] => false
      | [n] => isDigits n && isExponent exponent
      | n :: places => isDigits n && places.all isSixtieth && exponent.isEmpty

def ofPlain (s : List Char) : Tag :=
  if isTruth s then bool
  else if isFloat s then float
  else if isInt s then int
  else if s == "<<".toList then merge
  else if isNull s then null
  else if Moment.isWritten s then timestamp
  else if s == ['='] then value
  else str

end Tag
end FileGate.Yaml
