import FileGate.Decimal.Numeral
import FileGate.Text.Blank
import FileGate.Yaml.Source

namespace FileGate.Yaml.Number

def senseless {α : Type} (f : Failure) : Except Fault α := .error (.senseless f)

def orBad {α : Type} : Option α → Except Fault α
  | some a => .ok a
  | none => senseless .badValue

def digit? (base : Nat) (c : Char) : Option Nat :=
  match (Text.digitValue? c).orElse fun _ => Bytes.hexValue? c with
  | some d => if d < base then some d else none
  | none => none

/-- A whole number to a base, which may be told again by a zero and a letter. -/
def wholeIn (base : Nat) (letter : Char) (s : List Char) : Except Fault Int :=
  let (negative, s) := Decimal.splitSign (Text.trim s)
  let digits := match s with
    | '0' :: c :: r => if c.toLower == letter then r else s
    | s => s
  orBad do
    if digits.isEmpty then none
    let ds ← digits.mapM (digit? base)
    let n : Int := (ds.foldl (fun n d => n * base + d) 0 : Nat)
    return if negative then -n else n

def sign (s : List Char) : Except Fault (Bool × List Char) :=
  let s := s.filter (· != '_')
  if s.isEmpty then senseless .noIndex else .ok (Decimal.splitSign s)

def sixties (places : List Int) : Int := places.foldl (fun n d => n * 60 + d) 0

def unsignedInt (s : List Char) : Except Fault Int :=
  match s with
  | [] => senseless .noIndex
  | ['0'] => .ok 0
  | '0' :: 'b' :: r => wholeIn 2 'b' r
  | '0' :: 'x' :: r => wholeIn 16 'x' r
  | '0' :: r => wholeIn 8 'o' ('0' :: r)
  | s => do return sixties (← (Text.splitAll ':' s).mapM fun p => orBad (Decimal.integer? p))

def int (s : List Char) : Except Fault Int := do
  let (negative, s) ← sign s
  let n ← unsignedInt s
  return if negative then -n else n

/-- Sum of places, the last one first, of which the first counts `base`. -/
def sixtiesFrom (base : Int) (sum : Float) : List Float → Except Fault Float
  | [] => .ok sum
  | x :: xs =>
    match Decimal.ofInt? base with
    | some b => sixtiesFrom (base * 60) (sum + x * b) xs
    | none => senseless .tooLarge

def unsignedFloat (s : List Char) : Except Fault Float :=
  let word := s.map Char.toLower
  if word == ".inf".toList then .ok (1.0 / 0.0)
  else if word == ".nan".toList then .ok (0.0 / 0.0)
  else if s.contains ':' then do
    let places ← (Text.splitAll ':' s).mapM fun p => orBad (Decimal.float? p)
    sixtiesFrom 1 0.0 places.reverse
  else orBad (Decimal.float? s)

def float (s : List Char) : Except Fault Float := do
  let (negative, s) ← sign s
  return Decimal.signed negative (← unsignedFloat s)

end FileGate.Yaml.Number
