import FileGate.Decimal.Binary
import FileGate.Text.Blank
import FileGate.Text.Digit

namespace FileGate.Decimal

/-- Longest run of digits that is read as an integer. -/
def digitLimit : Nat := 4300

def splitSign : List Char → Bool × List Char
  | '-' :: s => (true, s)
  | '+' :: s => (false, s)
  | s => (false, s)

/-- Digits at the front, low lines between two digits left out; nothing if there is no digit. -/
def digits? : List Char → Option (List Nat × List Char)
  | [] => none
  | c :: s =>
    match Text.digitValue? c with
    | none => none
    | some d =>
      match s with
      | '_' :: r =>
        match digits? r with
        | some (ds, r') => some (d :: ds, r')
        | none => some ([d], s)
      | r =>
        match digits? r with
        | some (ds, r') => some (d :: ds, r')
        | none => some ([d], r)

def natOf (ds : List Nat) : Nat := ds.foldl (fun n d => n * 10 + d) 0

def integer? (s : List Char) : Option Int :=
  let (negative, s) := splitSign (Text.trim s)
  match digits? s with
  | some (ds, []) =>
    if ds.length ≤ digitLimit then some (if negative then -(natOf ds : Int) else natOf ds) else none
  | _ => none

def exponent? : List Char → Option Int
  | [] => some 0
  | c :: s =>
    if c == 'e' || c == 'E' then
      let (negative, s) := splitSign s
      match digits? s with
      | some (ds, []) => some (if negative then -(natOf ds : Int) else natOf ds)
      | _ => none
    else none

def unsigned? (s : List Char) : Option Float :=
  let whole := digits? s
  let (ds, rest) := whole.getD ([], s)
  match rest with
  | '.' :: r =>
    let (fs, r) := (digits? r).getD ([], r)
    if ds.isEmpty && fs.isEmpty then none
    else (exponent? r).map fun e => toFloat (natOf (ds ++ fs)) (e - fs.length)
  | r => if ds.isEmpty then none else (exponent? r).map fun e => toFloat (natOf ds) e

def float? (s : List Char) : Option Float :=
  let (negative, s) := splitSign (Text.trim s)
  let word := String.ofList (s.map Char.toLower)
  let x := if word == "inf" || word == "infinity" then some (1.0 / 0.0)
    else if word == "nan" then some (0.0 / 0.0)
    else unsigned? s
  x.map (signed negative)

end FileGate.Decimal
