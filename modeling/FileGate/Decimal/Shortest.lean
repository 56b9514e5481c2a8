/-! The decimal of fewest digits that reads back as a given double, and of those the nearest. -/
namespace FileGate.Decimal

/-- A positive double as `m * 2 ^ q`, with the flag that its lower neighbour is half as far away as
its upper one. -/
structure Binary where
  m : Nat
  q : Int
  narrow : Bool

def Binary.ofBits (bits : Nat) : Binary :=
  let field : Nat := (bits >>> 52) % (1 <<< 11)
  let frac : Nat := bits % (1 <<< 52)
  if field = 0 then ⟨frac, -1074, false⟩
  else ⟨frac + (1 <<< 52), (field : Int) - 1075, frac = 0 && field ≠ 1⟩

/-- The value and both ends of the interval that rounds to it, as numerators over `den`. -/
structure Interval where
  low : Nat
  value : Nat
  high : Nat
  den : Nat
  closed : Bool

def Binary.interval (b : Binary) : Interval :=
  let up : Nat := if 0 ≤ b.q then 1 <<< b.q.toNat else 1
  let den : Nat := 4 * (if 0 ≤ b.q then 1 else 1 <<< (-b.q).toNat)
  ⟨(4 * b.m - if b.narrow then 1 else 2) * up, 4 * b.m * up, (4 * b.m + 2) * up, den, b.m % 2 = 0⟩

def Interval.holds (i : Interval) (num den : Nat) : Bool :=
  let x := num * i.den
  if i.closed then i.low * den ≤ x && x ≤ i.high * den else i.low * den < x && x < i.high * den

def Interval.point? (i : Interval) (e : Int) : Option Nat :=
  let scale : Nat := Nat.pow 10 e.natAbs
  let (num, den) := if 0 ≤ e then (i.value, i.den * scale) else (i.value * scale, i.den)
  let below := num / den
  let above := below + 1
  let fits (n : Nat) : Bool := if 0 ≤ e then i.holds (n * scale) 1 else i.holds n scale
  let middle := (below + above) * den
  let nearBelow := 2 * num < middle || (2 * num = middle && below % 2 = 0)
  match fits below && 0 < below, fits above with
  | true, true => some (if nearBelow then below else above)
  | true, false => some below
  | false, true => some above
  | false, false => none

def Interval.search (i : Interval) : Nat → Int → Nat × Int
  | 0, e => (i.value / i.den, e)
  | n + 1, e =>
    match i.point? e with
    | some d => (d, e)
    | none => i.search n (e - 1)

def shortest (x : Float) : Nat × Int :=
  let i := (Binary.ofBits x.toBits.toNat).interval
  i.search 800 309

/-- How a double is written: positional from `smallest` up to below `largest` as powers of ten, and
what stands for the values that are no numbers. -/
structure Style where
  smallest : Int
  largest : Int
  infinity : String
  notANumber : String

def digitChars (n : Nat) : List Char := Nat.toDigits 10 n

def Style.write (s : Style) (x : Float) : List Char :=
  if x.isNaN then s.notANumber.toList
  else
    let sign := if x.toBits.toNat >>> 63 = 1 then ['-'] else []
    if x.isInf then sign ++ s.infinity.toList
    else if x == 0.0 then sign ++ "0.0".toList
    else
      let (d, e) := shortest x.abs
      let ds := digitChars d
      let point : Int := ds.length + e
      sign ++
        if s.smallest < point && point ≤ s.largest then
          if point ≤ 0 then "0.".toList ++ List.replicate (-point).toNat '0' ++ ds
          else if 0 ≤ e then ds ++ List.replicate e.toNat '0' ++ ".0".toList
          else ds.take point.toNat ++ '.' :: ds.drop point.toNat
        else
          let ex := point - 1
          let es := digitChars ex.natAbs
          ds.take 1 ++ (if ds.length = 1 then [] else '.' :: ds.drop 1) ++
            ['e', if ex < 0 then '-' else '+'] ++ (if es.length < 2 then '0' :: es else es)

end FileGate.Decimal
