import FileGate.Yaml.Source

namespace FileGate.Yaml

structure Zone where
  behind : Bool
  minutes : Nat
  deriving DecidableEq, Repr

structure Clock where
  hour : Nat
  minute : Nat
  second : Nat
  /-- Digits of the fraction of a second. -/
  fraction : List Char
  zone : Option Zone
  deriving DecidableEq, Repr

structure Moment where
  year : Nat
  month : Nat
  day : Nat
  clock : Option Clock
  deriving DecidableEq, Repr

def Zone.written (z : Zone) : List Char :=
  (if z.behind && z.minutes != 0 then '-' else '+') ::
    Value.padded 2 (z.minutes / 60) ++ ':' :: Value.padded 2 (z.minutes % 60)

namespace Clock

def isValid (c : Clock) : Bool :=
  c.hour < 24 && c.minute < 60 && c.second < 60 && c.zone.all (·.minutes < 1440)

def written (c : Clock) : List Char :=
  let two (n : Nat) := Value.padded 2 n
  let micro := (c.fraction ++ List.replicate 6 '0').take 6
  two c.hour ++ ':' :: two c.minute ++ ':' :: two c.second ++
    (if micro.all (· == '0') then [] else '.' :: micro) ++ ((c.zone.map Zone.written).getD [])

end Clock

namespace Moment

def number (least most : Nat) (s : List Char) : Option (Nat × List Char) :=
  let ds := (s.take most).takeWhile Char.isDigit
  if ds.length < least then none
  else some (ds.foldl (fun n c => n * 10 + (c.toNat - 48)) 0, s.drop ds.length)

def sign (c : Char) (s : List Char) : Option (List Char) :=
  if s.head? = some c then some s.tail else none

def readZone? (s : List Char) : Option (Option Zone) :=
  match s.dropWhile isBlank with
  | [] => if s.isEmpty then some none else none
  | ['Z'] => some (some ⟨false, 0⟩)
  | c :: s => do
    if c != '+' && c != '-' then none
    let (hours, s) ← number 1 2 s
    let (minutes, s) ← if s.isEmpty then some (0, s) else (sign ':' s).bind (number 2 2)
    if s.isEmpty then some (some ⟨c == '-', 60 * hours + minutes⟩) else none

def afterDate? (s : List Char) : Option (List Char) :=
  match s with
  | 'T' :: r => some r
  | 't' :: r => some r
  | c :: _ => if isBlank c then some (s.dropWhile isBlank) else none
  | [] => none

def readClock? (s : List Char) : Option Clock := do
  let (hour, s) ← number 1 2 (← afterDate? s)
  let (minute, s) ← number 2 2 (← sign ':' s)
  let (second, s) ← number 2 2 (← sign ':' s)
  let (fraction, s) := match sign '.' s with
    | some s => (s.takeWhile Char.isDigit, s.dropWhile Char.isDigit)
    | none => ([], s)
  return { hour, minute, second, fraction, zone := ← readZone? s }

def read? (s : List Char) : Option Moment := do
  let (year, s) ← number 4 4 s
  let (month, s) ← number 1 2 (← sign '-' s)
  let (day, s) ← number 1 2 (← sign '-' s)
  if s.isEmpty then return { year, month, day, clock := none }
  return { year, month, day, clock := some (← readClock? s) }

/-- Whether a plain scalar is a moment; a date alone has all of its digits. -/
def isWritten (s : List Char) : Bool :=
  match read? s with
  | some m => m.clock.isSome || s.length == 10
  | none => false

def isLeap (year : Nat) : Bool := (year % 4 == 0 && year % 100 != 0) || year % 400 == 0

def daysOf (year month : Nat) : Nat :=
  if month = 2 then (if isLeap year then 29 else 28)
  else if month = 4 || month = 6 || month = 9 || month = 11 then 30 else 31

def isValid (m : Moment) : Bool :=
  1 ≤ m.year && 1 ≤ m.month && m.month ≤ 12 && 1 ≤ m.day && m.day ≤ daysOf m.year m.month &&
    m.clock.all Clock.isValid

def value (m : Moment) : Except Fault Value :=
  if !m.isValid then .error (.senseless .badValue)
  else match m.clock with
    | none => .ok (.date m.year m.month m.day)
    | some c =>
      .ok (.moment (Value.dateText m.year m.month m.day ++ " " ++ String.ofList c.written))

end Moment
end FileGate.Yaml
