import FileGate.Decimal.Numeral
import FileGate.Value

/-! Reading of JSON. Besides the standard's values, `NaN`, `Infinity` and `-Infinity` are numbers. A
member that comes twice keeps its first place and its last value. A byte order mark is a fault, and
so is an unescaped control character in a string. A whole number that is too long to be read is a
fault of its own; of several faults the first one counts. -/
namespace FileGate.Json

abbrev Rest := List Char

inductive Fault where
  | malformed
  /-- A whole number has more digits than are read. -/
  | tooLong
  deriving DecidableEq, Repr

def orMalformed {α : Type} : Option α → Except Fault α
  | some a => .ok a
  | none => .error .malformed

def isBlank (c : Char) : Bool := c == ' ' || c == '\t' || c == '\n' || c == '\r'

def skip (s : Rest) : Rest := s.dropWhile isBlank

def isDigit (c : Char) : Bool := '0' ≤ c && c ≤ '9'

def natOf (ds : List Char) : Nat := ds.foldl (fun n c => n * 10 + (c.toNat - 48)) 0

def hex4? (a b c d : Char) : Option Nat := do
  let w ← Bytes.hexValue? a
  let x ← Bytes.hexValue? b
  let y ← Bytes.hexValue? c
  let z ← Bytes.hexValue? d
  return ((w * 16 + x) * 16 + y) * 16 + z

def isHigh (n : Nat) : Bool := 0xD800 ≤ n && n < 0xDC00
def isLow (n : Nat) : Bool := 0xDC00 ≤ n && n < 0xE000

def pairChar (hi lo : Nat) : Char := Char.ofNat (0x10000 + (hi - 0xD800) * 0x400 + (lo - 0xDC00))

def simpleEscape? : Char → Option Char
  | '"' => some '"'
  | '\\' => some '\\'
  | '/' => some '/'
  | 'b' => some '\x08'
  | 'f' => some '\x0c'
  | 'n' => some '\n'
  | 'r' => some '\r'
  | 't' => some '\t'
  | _ => none

/-- The text up to the closing quotation mark. Escapes of two halves that make a pair are one
character; any other half stands for itself. -/
def string? : Rest → Option (Points × Rest)
  | [] => none
  | '"' :: s => some ([], s)
  | '\\' :: 'u' :: a :: b :: c :: d :: '\\' :: 'u' :: e :: f :: g :: h :: s =>
    match hex4? a b c d with
    | none => none
    | some x =>
      let next := hex4? e f g h
      if isHigh x && (next.map isLow).getD false then
        (string? s).map fun (t, r) => (.char (pairChar x (next.getD 0)) :: t, r)
      else (string? ('\\' :: 'u' :: e :: f :: g :: h :: s)).map fun (t, r) =>
        (.ofUnit x :: t, r)
  | '\\' :: 'u' :: a :: b :: c :: d :: s =>
    match hex4? a b c d with
    | none => none
    | some x => (string? s).map fun (t, r) => (.ofUnit x :: t, r)
  | '\\' :: c :: s =>
    match simpleEscape? c with
    | none => none
    | some x => (string? s).map fun (t, r) => (.char x :: t, r)
  | c :: s => if c.toNat < 32 then none else (string? s).map fun (t, r) => (.char c :: t, r)
termination_by s => s.length

def number (s : Rest) : Except Fault (Value × Rest) :=
  let (negative, s) := match s with
    | '-' :: s => (true, s)
    | s => (false, s)
  match s with
  | [] => .error .malformed
  | c :: s' =>
    if !isDigit c then .error .malformed
    else
      let (whole, s) := if c == '0' then ([c], s') else (s.takeWhile isDigit, s.dropWhile isDigit)
      let (frac, s) := match s with
        | '.' :: r => if (r.head?.map isDigit).getD false
            then (r.takeWhile isDigit, r.dropWhile isDigit) else ([], s)
        | _ => ([], s)
      let (exponent, s) := match s with
        | e :: r =>
          if e == 'e' || e == 'E' then
            let (sign, r) := match r with
              | '-' :: r => (true, r)
              | '+' :: r => (false, r)
              | r => (false, r)
            if (r.head?.map isDigit).getD false then
              let n : Int := natOf (r.takeWhile isDigit)
              (some (if sign then -n else n), r.dropWhile isDigit)
            else (none, s)
          else (none, s)
        | [] => (none, s)
      if frac.isEmpty && exponent.isNone then
        let n : Int := natOf whole
        if whole.length ≤ Decimal.digitLimit then .ok (.int (if negative then -n else n), s)
        else .error .tooLong
      else
        let x := Decimal.toFloat (natOf (whole ++ frac)) (exponent.getD 0 - frac.length)
        .ok (.float (Decimal.signed negative x), s)

def word? (w : List Char) (s : Rest) : Option Rest :=
  if w.isPrefixOf s then some (s.drop w.length) else none

def constants : List (List Char × Value) :=
  [("null".toList, .null), ("true".toList, .bool true), ("false".toList, .bool false),
    ("NaN".toList, .float (0.0 / 0.0)), ("Infinity".toList, .float (1.0 / 0.0)),
    ("-Infinity".toList, .float (-1.0 / 0.0))]

def constant? (s : Rest) : Option (Value × Rest) :=
  constants.findSome? fun (w, v) => (word? w s).map fun r => (v, r)

mutual

/-- A value at the front of the text; `fuel` bounds the nesting and the number of parts. -/
def value (fuel : Nat) (s : Rest) : Except Fault (Value × Rest) :=
  match fuel with
  | 0 => .error .malformed
  | fuel + 1 =>
    match s with
    | '"' :: s => (orMalformed (string? s)).map fun (t, r) => (.ofPoints t, r)
    | '[' :: s =>
      match skip s with
      | ']' :: r => .ok (.list [], r)
      | s => (items fuel s).map fun (l, r) => (.list l, r)
    | '\x7b' :: s =>
      match skip s with
      | '\x7d' :: r => .ok (.map [], r)
      | s => (entries fuel s).map fun (m, r) => (.map (Value.mergeEntries m), r)
    | s =>
      match constant? s with
      | some p => .ok p
      | none => number s

def items (fuel : Nat) (s : Rest) : Except Fault (List Value × Rest) :=
  match fuel with
  | 0 => .error .malformed
  | fuel + 1 => do
    let (v, s) ← value fuel s
    match skip s with
    | ']' :: r => .ok ([v], r)
    | ',' :: r =>
      let (l, r) ← items fuel (skip r)
      .ok (v :: l, r)
    | _ => .error .malformed

def entries (fuel : Nat) (s : Rest) : Except Fault (List (Value × Value) × Rest) :=
  match fuel with
  | 0 => .error .malformed
  | fuel + 1 =>
    match s with
    | '"' :: s => do
      let (k, s) ← orMalformed (string? s)
      match skip s with
      | ':' :: s =>
        let (v, s) ← value fuel (skip s)
        let e := (Value.ofPoints k, v)
        match skip s with
        | '\x7d' :: r => .ok ([e], r)
        | ',' :: r =>
          let (m, r) ← entries fuel (skip r)
          .ok (e :: m, r)
        | _ => .error .malformed
      | _ => .error .malformed
    | _ => .error .malformed

end

def read (s : List Char) : Except Fault Value := do
  let (v, r) ← value (s.length + 1) (skip s)
  if (skip r).isEmpty then .ok v else .error .malformed

def read? (s : List Char) : Option Value := (read s).toOption

end FileGate.Json
