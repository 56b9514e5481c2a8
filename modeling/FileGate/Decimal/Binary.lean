namespace FileGate.Decimal

def digitCount (n : Nat) : Nat := if n = 0 then 0 else (Nat.toDigits 10 n).length

/-- The double nearest to `m * 10 ^ e`. Beyond 310 digits before the point all is infinite, and
with 330 zeros after it all is zero. -/
def toFloat (m : Nat) (e : Int) : Float :=
  let d : Int := digitCount m + e
  if m = 0 then 0.0
  else if 310 < d then 1.0 / 0.0
  else if d < -330 then 0.0
  else if 0 ≤ e then Float.ofScientific m false e.toNat
  else Float.ofScientific m true (-e).toNat

def signed (negative : Bool) (x : Float) : Float := if negative then -x else x

def ofInt? (n : Int) : Option Float :=
  let x := signed (n < 0) (toFloat n.natAbs 0)
  if x.isFinite then some x else none

def truncate? (x : Float) : Option Int :=
  if !x.isFinite then none
  else
    let bits : Nat := x.toBits.toNat
    let field : Nat := (bits >>> 52) % (1 <<< 11)
    let frac : Nat := bits % (1 <<< 52)
    let m : Nat := if field = 0 then frac else frac + (1 <<< 52)
    let q : Int := (if field = 0 then 1 else (field : Int)) - 1075
    let n : Nat := if 0 ≤ q then m <<< q.toNat else m >>> (-q).toNat
    some (if bits >>> 63 = 1 then -(n : Int) else n)

end FileGate.Decimal
