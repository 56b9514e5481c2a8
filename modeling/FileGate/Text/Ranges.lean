namespace FileGate.Text

def searchRanges (table : Array (Nat × Nat)) (n lo hi : Nat) : Bool :=
  if _h : lo < hi then
    let mid := (lo + hi) / 2
    match table[mid]? with
    | none => false
    | some (a, b) =>
      if n < a then searchRanges table n lo mid
      else if b < n then searchRanges table n (mid + 1) hi
      else true
  else false
termination_by hi - lo

def inRanges (table : Array (Nat × Nat)) (n : Nat) : Bool :=
  searchRanges table n 0 table.size

end FileGate.Text
