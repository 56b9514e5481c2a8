import FileGate.Decimal.Binary
import FileGate.Decimal.Shortest
import FileGate.Text.Point
import FileGate.Text.Printable
import FileGate.Bytes

namespace FileGate

inductive Value where
  | null
  | bool (b : Bool)
  | int (n : Int)
  | float (x : Float)
  | text (s : String)
  /-- A text that is not made of characters alone. -/
  | broken (t : BrokenText)
  | blob (b : Bytes)
  | date (year month day : Nat)
  | moment (written : String)
  | list (items : List Value)
  | map (entries : List (Value × Value))
  | set (items : List Value)
  deriving Inhabited

namespace Value

def kind : Value → String
  | null => "NoneType"
  | bool _ => "bool"
  | int _ => "int"
  | float _ => "float"
  | text _ => "str"
  | broken _ => "str"
  | blob _ => "bytes"
  | date _ _ _ => "date"
  | moment _ => "datetime"
  | list _ => "list"
  | map _ => "dict"
  | set _ => "set"

def truthy : Value → Bool
  | null => false
  | bool b => b
  | int n => n ≠ 0
  | float x => !(x == 0.0)
  | text s => s ≠ ""
  | broken _ => true
  | blob b => !b.isEmpty
  | date _ _ _ => true
  | moment _ => true
  | list l => !l.isEmpty
  | map m => !m.isEmpty
  | set l => !l.isEmpty

def numeral? : Value → Option (Int ⊕ Float)
  | bool b => some (.inl (if b then 1 else 0))
  | int n => some (.inl n)
  | float x =>
    match Decimal.truncate? x with
    | some n => if Decimal.ofInt? n == some x then some (.inl n) else some (.inr x)
    | none => some (.inr x)
  | _ => none

/-- Two keys are one key: numbers by their value, other scalars by kind and content. What is no
number is one key. -/
def sameKey (a b : Value) : Bool :=
  match a.numeral?, b.numeral? with
  | some (.inl x), some (.inl y) => x == y
  | some (.inr x), some (.inr y) => x == y || (x.isNaN && y.isNaN)
  | none, none =>
    match a, b with
    | null, null => true
    | text x, text y => x == y
    | broken x, broken y => x == y
    | blob x, blob y => x == y
    | date y m d, date y' m' d' => y == y' && m == m' && d == d'
    | moment x, moment y => x == y
    | _, _ => false
  | _, _ => false

def keyable : Value → Bool
  | list _ => false
  | map _ => false
  | set _ => false
  | _ => true

/-! ### Texts -/

def ofPoints (t : Points) : Value :=
  if h : t.any Point.isHalf = true then broken ⟨t, h⟩ else text (String.ofList (t.map Point.shown))

def points? : Value → Option Points
  | text s => some s
  | broken t => some t.points
  | _ => none

/-! ### Entries -/

def lookup? (k : Points) : List (Value × Value) → Option Value
  | [] => none
  | (a, v) :: m => if a.points? == some k then some v else lookup? k m

/-- Replaces the entry of an equal key in its place, or adds one at the end. -/
def putEntry (k v : Value) : List (Value × Value) → List (Value × Value)
  | [] => [(k, v)]
  | (a, w) :: m => if sameKey a k then (a, v) :: m else (a, w) :: putEntry k v m

def mergeEntries (l : List (Value × Value)) : List (Value × Value) :=
  l.foldl (fun m (k, v) => putEntry k v m) []

def removeEntry (k : Points) (m : List (Value × Value)) : List (Value × Value) :=
  m.filter fun e => e.1.points? != some k

def distinct (l : List Value) : List Value :=
  (l.foldl (fun m v => putEntry v null m) []).map (·.1)

def ofFields (l : List (String × Value)) : Value := map (l.map fun (k, v) => (text k, v))

/-! ### Display form -/

def floatStyle : Decimal.Style := ⟨-4, 16, "inf", "nan"⟩

def padded (width n : Nat) : List Char :=
  let ds := Nat.toDigits 10 n
  List.replicate (width - ds.length) '0' ++ ds

def dateText (year month day : Nat) : String :=
  String.ofList (padded 4 year ++ '-' :: padded 2 month ++ '-' :: padded 2 day)

def quotedChar (quote c : Char) : List Char :=
  let n := c.toNat
  let hex (width : Nat) : List Char :=
    let ds := (Nat.toDigits 16 n)
    List.replicate (width - ds.length) '0' ++ ds
  if c == quote || c == '\\' then ['\\', c]
  else if c == '\n' then ['\\', 'n']
  else if c == '\r' then ['\\', 'r']
  else if c == '\t' then ['\\', 't']
  else if Text.isPrintable c then [c]
  else if n < 0x100 then '\\' :: 'x' :: hex 2
  else if n < 0x10000 then '\\' :: 'u' :: hex 4
  else '\\' :: 'U' :: hex 8

def quotedPoint (quote : Char) : Point → List Char
  | .char c => quotedChar quote c
  | p => '\\' :: 'u' :: Nat.toDigits 16 p.code

/-- A text in single quotes, or in double ones where that spares escapes. -/
def quoted (s : Points) : List Char :=
  let quote := if s.contains (.char '\'') && !s.contains (.char '"') then '"' else '\''
  quote :: s.flatMap (quotedPoint quote) ++ [quote]

def quotedBytes (b : Bytes) : List Char :=
  let s := b.map fun x => Char.ofNat x.toNat
  let quote := if s.contains '\'' && !s.contains '"' then '"' else '\''
  let one (c : Char) : List Char :=
    if c.toNat < 127 then quotedChar quote c
    else ['\\', 'x', Bytes.hexDigit (c.toNat / 16), Bytes.hexDigit (c.toNat % 16)]
  'b' :: quote :: s.flatMap one ++ [quote]

mutual

def inner : Value → List Char
  | null => "None".toList
  | bool true => "True".toList
  | bool false => "False".toList
  | int n => (toString n).toList
  | float x => floatStyle.write x
  | text s => quoted s
  | broken t => quoted t.points
  | blob b => quotedBytes b
  | date y m d => s!"datetime.date({y}, {m}, {d})".toList
  | moment w => w.toList
  | list l => '[' :: innerItems l ++ [']']
  | map m => '\x7b' :: innerEntries m ++ ['\x7d']
  | set [] => "set()".toList
  | set l => '\x7b' :: innerItems l ++ ['\x7d']

def innerItems : List Value → List Char
  | [] => []
  | [v] => inner v
  | v :: l => inner v ++ ',' :: ' ' :: innerItems l

def innerEntries : List (Value × Value) → List Char
  | [] => []
  | [(k, v)] => inner k ++ ':' :: ' ' :: inner v
  | (k, v) :: m => inner k ++ ':' :: ' ' :: inner v ++ ',' :: ' ' :: innerEntries m

end

def display : Value → List Char
  | text s => s.toList
  | broken t => t.points.map Point.shown
  | date y m d => (dateText y m d).toList
  | v => inner v

end Value
end FileGate
