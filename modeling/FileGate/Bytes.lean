namespace FileGate

abbrev Bytes := List UInt8

/-- Consecutive blocks of `n` elements, the last one possibly shorter. -/
def blocks {α : Type} (n : Nat) (l : List α) : List (List α) :=
  if _h : n = 0 ∨ l = [] then []
  else l.take n :: blocks n (l.drop n)
termination_by l.length
decreasing_by
  have := List.length_pos_iff.mpr (not_or.mp _h).2
  simp only [List.length_drop]
  omega

section
variable {α : Type} {n : Nat}

theorem flatten_blocks (some_ : 0 < n) (l : List α) : (blocks n l).flatten = l := by
  fun_induction blocks n l with
  | case1 l empty =>
    have bare : l = [] := empty.resolve_left (by omega)
    rw [bare, List.flatten_nil]
  | case2 l more ih => rw [List.flatten_cons, ih, List.take_append_drop]

theorem blocks_of_ne_nil (some_ : 0 < n) {l : List α} (more : l ≠ []) :
    blocks n l = l.take n :: blocks n (l.drop n) := by
  rw [blocks, dif_neg]
  rintro (none_ | bare)
  · omega
  · exact more bare

theorem blocks_nil : blocks n ([] : List α) = [] := by rw [blocks, dif_pos (.inr rfl)]

theorem blocks_append (some_ : 0 < n) {b : List α} (whole : b.length = n) (rest : List α) :
    blocks n (b ++ rest) = b :: blocks n rest := by
  have more : b ++ rest ≠ [] := by
    intro none_
    rw [(List.append_eq_nil_iff.mp none_).1, List.length_nil] at whole
    omega
  rw [blocks_of_ne_nil some_ more, List.take_left' whole, List.drop_left' whole]

theorem blocks_of_length (some_ : 0 < n) {m : Nat} {l : List α} (h : l.length = n * m) :
    (blocks n l).length = m ∧ ∀ b ∈ blocks n l, b.length = n := by
  induction m generalizing l with
  | zero =>
    rw [List.length_eq_zero_iff.mp h, blocks_nil]
    exact ⟨rfl, fun _ there => (List.not_mem_nil there).elim⟩
  | succ m ih =>
    rw [Nat.mul_succ] at h
    have first : (l.take n).length = n := List.length_take_of_le (by omega)
    have rest : (l.drop n).length = n * m := by
      rw [List.length_drop]
      omega
    obtain ⟨count, lengths⟩ := ih rest
    rw [← List.take_append_drop n l, blocks_append some_ first]
    exact ⟨congrArg (· + 1) count, List.forall_mem_cons.mpr ⟨first, lengths⟩⟩

theorem flatten_take_blocks (some_ : 0 < n) (k : Nat) (l : List α) :
    ((blocks n l).take k).flatten = l.take (k * n) := by
  induction k generalizing l with
  | zero => rw [Nat.zero_mul, List.take_zero, List.take_zero, List.flatten_nil]
  | succ k ih =>
    by_cases more : l = []
    · rw [more, blocks_nil, List.take_nil, List.take_nil, List.flatten_nil]
    · rw [blocks_of_ne_nil some_ more, List.take_succ_cons, List.flatten_cons, ih, Nat.succ_mul,
        Nat.add_comm, List.take_add]

theorem getElem?_blocks (some_ : 0 < n) (k : Nat) (l : List α) :
    (blocks n l)[k]? = if k * n < l.length then some ((l.drop (k * n)).take n) else none := by
  induction k generalizing l with
  | zero =>
    by_cases more : l = []
    · rw [more, blocks_nil, if_neg (by simp)]
      rfl
    · have := List.length_pos_iff.mpr more
      rw [blocks_of_ne_nil some_ more, if_pos (by omega), Nat.zero_mul, List.drop_zero]
      rfl
  | succ k ih =>
    have next : (k + 1) * n = n + k * n := by rw [Nat.succ_mul, Nat.add_comm]
    by_cases more : l = []
    · rw [more, blocks_nil, if_neg (by simp)]
      rfl
    · rw [blocks_of_ne_nil some_ more, List.getElem?_cons_succ, ih, next, List.length_drop,
        List.drop_drop]
      by_cases there : n + k * n < l.length
      · rw [if_pos there, if_pos (by omega)]
      · rw [if_neg there, if_neg (by omega)]

end

namespace Bytes

def hexDigit (n : Nat) : Char := if n < 10 then Char.ofNat (48 + n) else Char.ofNat (87 + n)
def upperHexDigit (n : Nat) : Char := if n < 10 then Char.ofNat (48 + n) else Char.ofNat (55 + n)

def hexValue? (c : Char) : Option Nat :=
  let n := c.toNat
  if 48 ≤ n && n ≤ 57 then some (n - 48)
  else if 97 ≤ n && n ≤ 102 then some (n - 87)
  else if 65 ≤ n && n ≤ 70 then some (n - 55)
  else none

theorem hexValue?_hexDigit : ∀ n < 16, hexValue? (hexDigit n) = some n := by decide
theorem hexValue?_upperHexDigit : ∀ n < 16, hexValue? (upperHexDigit n) = some n := by decide

def toHex (b : Bytes) : List Char :=
  b.flatMap fun x => [hexDigit (x.toNat / 16), hexDigit (x.toNat % 16)]

def ofHex? : List Char → Option Bytes
  | [] => some []
  | [_] => none
  | a :: b :: s => do
    let x ← hexValue? a
    let y ← hexValue? b
    let r ← ofHex? s
    return UInt8.ofNat (16 * x + y) :: r

theorem ofHex?_toHex (b : Bytes) : ofHex? (toHex b) = some b := by
  induction b with
  | nil => rfl
  | cons x b ih =>
    have hx : x.toNat < 256 := x.toNat_lt
    have h1 := hexValue?_hexDigit (x.toNat / 16) (by omega)
    have h2 := hexValue?_hexDigit (x.toNat % 16) (by omega)
    have h3 : 16 * (x.toNat / 16) + x.toNat % 16 = x.toNat := by omega
    have ih' : ofHex? (b.flatMap fun x => [hexDigit (x.toNat / 16), hexDigit (x.toNat % 16)]) =
        some b := ih
    simp only [toHex, List.flatMap_cons, List.cons_append, List.nil_append, ofHex?, h1, h2, ih',
      Option.bind_eq_bind, Option.bind_some, h3, UInt8.ofNat_toNat]
    rfl

def times (b : Bytes) (n : Nat) : Bytes := (List.replicate n b).flatten

def toNat (b : Bytes) : Nat := b.foldl (fun n x => n * 256 + x.toNat) 0

def ofNat : Nat → Nat → Bytes
  | 0, _ => []
  | width + 1, n => ofNat width (n / 256) ++ [UInt8.ofNat (n % 256)]

theorem length_ofNat (width n : Nat) : (ofNat width n).length = width := by
  induction width generalizing n with
  | zero => rfl
  | succ width ih => rw [ofNat, List.length_append, ih, List.length_singleton]

end Bytes
end FileGate
