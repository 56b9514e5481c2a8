import Mathlib.Data.List.Iterate
import Mathlib.Data.Nat.Bitwise
import FileGate.Cipher.Aes

/-! The field of 256 elements: sums are bitwise, and products are bilinear and associative, so that
a power with exponent 254 is an inverse. -/
namespace FileGate.Aes

/-! ### Sums of bytes by their bits -/

def pick (m a b : UInt8) : UInt8 := if b &&& m == 0 then 0 else a

theorem double_eq (a : UInt8) : double a = (a <<< 1) ^^^ pick 0x80 0x1b a := rfl

theorem mulBits_succ (n : Nat) (a b : UInt8) :
    mulBits (n + 1) a b = pick 1 a b ^^^ mulBits n (double a) (b >>> 1) := rfl

def IsBit (m : UInt8) : Prop := m ≠ 0 ∧ ∀ b : UInt8, b &&& m = 0 ∨ b &&& m = m

theorem isBit_of_toNat {m : UInt8} {i : Nat} (h : m.toNat = 2 ^ i) : IsBit m := by
  constructor
  · rintro rfl
    have positive := Nat.two_pow_pos i
    rw [← h] at positive
    exact absurd positive (by decide)
  · intro b
    have masked : (b &&& m).toNat = (b.toNat.testBit i).toNat * 2 ^ i := by
      rw [UInt8.toNat_and, h, Nat.and_two_pow]
    cases bit : b.toNat.testBit i with
    | false =>
      left
      rw [← UInt8.toNat_inj, masked, bit]
      simp
    | true =>
      right
      rw [← UInt8.toNat_inj, masked, bit, h]
      simp

theorem isBit_low : IsBit 1 := isBit_of_toNat (i := 0) rfl
theorem isBit_high : IsBit 0x80 := isBit_of_toNat (i := 7) rfl

theorem and_xor (a b m : UInt8) : (a ^^^ b) &&& m = (a &&& m) ^^^ (b &&& m) := by
  rw [← UInt8.toNat_inj]
  simp only [UInt8.toNat_and, UInt8.toNat_xor, Nat.and_xor_distrib_right]

theorem xor_swap (a b c d : UInt8) : a ^^^ b ^^^ (c ^^^ d) = a ^^^ c ^^^ (b ^^^ d) := by
  ac_rfl

theorem pick_xor {m : UInt8} (bit : IsBit m) (a b c : UInt8) :
    pick m a (b ^^^ c) = pick m a b ^^^ pick m a c := by
  obtain ⟨hm, values⟩ := bit
  simp only [pick, and_xor]
  rcases values b with hb | hb <;> rcases values c with hc | hc <;> simp [hb, hc, hm]

theorem pick_xor_left (m a b c : UInt8) : pick m (a ^^^ b) c = pick m a c ^^^ pick m b c := by
  unfold pick
  split <;> simp

theorem map_pick {f : UInt8 → UInt8} (zero : f 0 = 0) (m a b : UInt8) :
    f (pick m a b) = pick m (f a) b := by
  unfold pick
  split
  · exact zero
  · rfl

theorem bits_induction {P : UInt8 → Prop} (sum : ∀ a b, P a → P b → P (a ^^^ b)) (zero : P 0)
    (bits : ∀ i < 8, P (UInt8.ofNat (2 ^ i))) (a : UInt8) : P a := by
  have picked (i : Nat) (hi : i < 8) (m : UInt8) : P (pick m (UInt8.ofNat (2 ^ i)) a) := by
    unfold pick
    split
    · exact zero
    · exact bits i hi
  have whole : ∀ n < 256, UInt8.ofNat n = (List.range 8).foldr
      (fun i s => pick (UInt8.ofNat (2 ^ i)) (UInt8.ofNat (2 ^ i)) (UInt8.ofNat n) ^^^ s) 0 := by
    decide +kernel
  have split := whole a.toNat a.toNat_lt
  rw [UInt8.ofNat_toNat] at split
  rw [split]
  simp only [List.range_succ, List.range_zero, List.nil_append, List.cons_append, List.foldr_cons,
    List.foldr_nil]
  repeat' apply sum
  all_goals first | exact zero | exact picked _ (by decide) _

/-! ### Products -/

@[simp] theorem double_zero : double 0 = 0 := by decide

theorem double_xor (a b : UInt8) : double (a ^^^ b) = double a ^^^ double b := by
  rw [double_eq, double_eq, double_eq, UInt8.shiftLeft_xor, pick_xor isBit_high, xor_swap]

theorem mulBits_zero (n : Nat) (b : UInt8) : mulBits n 0 b = 0 := by
  induction n generalizing b with
  | zero => rfl
  | succ n ih => simp [mulBits_succ, ih, pick]

theorem mulBits_xor_left (n : Nat) (a b c : UInt8) :
    mulBits n (a ^^^ b) c = mulBits n a c ^^^ mulBits n b c := by
  induction n generalizing a b c with
  | zero => simp [mulBits]
  | succ n ih =>
    rw [mulBits_succ, mulBits_succ, mulBits_succ, double_xor, ih, pick_xor_left, xor_swap]

theorem mulBits_xor (n : Nat) (a b c : UInt8) :
    mulBits n a (b ^^^ c) = mulBits n a b ^^^ mulBits n a c := by
  induction n generalizing a b c with
  | zero => simp [mulBits]
  | succ n ih =>
    rw [mulBits_succ, mulBits_succ, mulBits_succ, UInt8.shiftRight_xor, ih, pick_xor isBit_low,
      xor_swap]

theorem mulBits_double (n : Nat) (a b : UInt8) :
    mulBits n (double a) b = double (mulBits n a b) := by
  induction n generalizing a b with
  | zero => exact double_zero.symm
  | succ n ih => rw [mulBits_succ, mulBits_succ, ih, double_xor, map_pick double_zero]

theorem zero_mul (b : UInt8) : mul 0 b = 0 := mulBits_zero 8 b

theorem mul_xor (a b c : UInt8) : mul a (b ^^^ c) = mul a b ^^^ mul a c := mulBits_xor 8 a b c

theorem xor_mul (a b c : UInt8) : mul (a ^^^ b) c = mul a c ^^^ mul b c := mulBits_xor_left 8 a b c

theorem double_mul (a b : UInt8) : mul (double a) b = double (mul a b) := mulBits_double 8 a b

theorem mul_zero (a : UInt8) : mul a 0 = 0 := by
  have twice := mul_xor a 0 0
  rwa [UInt8.xor_self, UInt8.xor_self] at twice

theorem one_mul (a : UInt8) : mul 1 a = a := by
  have sum (a b : UInt8) (ha : mul 1 a = a) (hb : mul 1 b = b) : mul 1 (a ^^^ b) = a ^^^ b := by
    rw [mul_xor, ha, hb]
  exact bits_induction sum (by decide) (by decide) a

theorem mul_one (a : UInt8) : mul a 1 = a := by
  have sum (a b : UInt8) (ha : mul a 1 = a) (hb : mul b 1 = b) : mul (a ^^^ b) 1 = a ^^^ b := by
    rw [xor_mul, ha, hb]
  exact bits_induction sum (by decide) (by decide) a

theorem mul_double (a b : UInt8) : mul a (double b) = double (mul a b) := by
  -- Both sides are sums over the bits of either factor, so that 64 products are left.
  have right (a b c : UInt8) (hb : mul a (double b) = double (mul a b))
      (hc : mul a (double c) = double (mul a c)) :
      mul a (double (b ^^^ c)) = double (mul a (b ^^^ c)) := by
    rw [double_xor, mul_xor, mul_xor, double_xor, hb, hc]
  have left (b a c : UInt8) (ha : mul a (double b) = double (mul a b))
      (hc : mul c (double b) = double (mul c b)) :
      mul (a ^^^ c) (double b) = double (mul (a ^^^ c) b) := by
    rw [xor_mul, xor_mul, double_xor, ha, hc]
  have bits : ∀ i < 8, ∀ j < 8, mul (UInt8.ofNat (2 ^ j)) (double (UInt8.ofNat (2 ^ i))) =
      double (mul (UInt8.ofNat (2 ^ j)) (UInt8.ofNat (2 ^ i))) := by decide
  refine bits_induction (right a) ?_ (fun i hi => ?_) b
  · rw [double_zero, mul_zero, double_zero]
  · refine bits_induction (left _) ?_ (fun j hj => bits i hi j hj) a
    rw [zero_mul, zero_mul, double_zero]

theorem mul_mulBits (n : Nat) (a b c : UInt8) :
    mul a (mulBits n b c) = mulBits n (mul a b) c := by
  induction n generalizing b c with
  | zero => exact mul_zero a
  | succ n ih => rw [mulBits_succ, mulBits_succ, mul_xor, ih, map_pick (mul_zero a), mul_double]

theorem mul_assoc (a b c : UInt8) : mul (mul a b) c = mul a (mul b c) := (mul_mulBits 8 a b c).symm

/-! ### Powers -/

theorem power_succ (a : UInt8) (n : Nat) : power a (n + 1) = mul a (power a n) := rfl

theorem power_add (a : UInt8) (m n : Nat) :
    mul (power a m) (power a n) = power a (m + n) := by
  induction m with
  | zero => rw [Nat.zero_add, power, one_mul]
  | succ m ih => rw [power_succ, mul_assoc, ih, Nat.succ_add, power_succ]

theorem power_one (a : UInt8) : power a 1 = a := mul_one a

theorem one_power (n : Nat) : power 1 n = 1 := by
  induction n with
  | zero => rfl
  | succ n ih => rw [power_succ, ih, mul_one]

theorem power_power (a : UInt8) (m n : Nat) : power (power a m) n = power a (m * n) := by
  induction n with
  | zero => rfl
  | succ n ih => rw [power_succ, ih, power_add, Nat.mul_succ, Nat.add_comm]

def turn (a : UInt8) : UInt8 := double a ^^^ a

theorem power_three (n : Nat) : power 3 n = turn^[n] 1 := by
  have three (a : UInt8) : mul 3 a = turn a := by
    have parts : (3 : UInt8) = double 1 ^^^ 1 := by decide
    rw [parts, xor_mul, double_mul, one_mul]
    rfl
  induction n with
  | zero => rfl
  | succ n ih => rw [power_succ, ih, three, Function.iterate_succ_apply']

/-- The numbers of a list as the bits of one number. -/
def bitSet (l : List Nat) : Nat := l.foldr (fun n s => 2 ^ n ||| s) 0

theorem mem_of_testBit_bitSet {l : List Nat} {n : Nat} (h : (bitSet l).testBit n = true) :
    n ∈ l := by
  induction l with
  | nil => simp [bitSet] at h
  | cons m l ih =>
    have parts : bitSet (m :: l) = 2 ^ m ||| bitSet l := rfl
    rw [parts, Nat.testBit_or, Bool.or_eq_true, Nat.testBit_two_pow, decide_eq_true_eq] at h
    rcases h with rfl | h
    · exact List.mem_cons_self
    · exact List.mem_cons_of_mem _ (ih h)

/-- As bits of one number, the powers can be compared with the elements all at once: they go round
through all but zero. -/
theorem powers_go_round : turn^[255] 1 = 1 ∧
    bitSet ((List.iterate turn 1 255).map UInt8.toNat) = 2 ^ 256 - (1 + 1) := by
  decide +kernel

theorem exists_power {a : UInt8} (h : a ≠ 0) : ∃ n, a = power 3 n := by
  have notZero : a.toNat ≠ 0 := fun zero => h (UInt8.toNat_inj.mp zero)
  have bit : (2 ^ 256 - (1 + 1)).testBit a.toNat = true := by
    rw [Nat.testBit_two_pow_sub_succ (by decide), decide_eq_true a.toNat_lt, Bool.true_and,
      Bool.not_eq_true', Bool.eq_false_iff, ne_eq, Nat.testBit_one_eq_true_iff_self_eq_zero]
    exact notZero
  rw [← powers_go_round.2] at bit
  obtain ⟨b, there, same⟩ := List.mem_map.mp (mem_of_testBit_bitSet bit)
  obtain ⟨n, _, power⟩ := List.mem_iterate.mp there
  refine ⟨n, ?_⟩
  rw [power_three, ← power]
  exact UInt8.toNat_inj.mp same.symm

theorem power_255 {a : UInt8} (h : a ≠ 0) : power a 255 = 1 := by
  obtain ⟨n, rfl⟩ := exists_power h
  rw [power_power, Nat.mul_comm, ← power_power, power_three 255, powers_go_round.1, one_power]

theorem inverse_injective {a b : UInt8} (same : power a 254 = power b 254) : a = b := by
  have right {c : UInt8} (h : c ≠ 0) : mul c (power c 254) = 1 := power_255 h
  have left {c : UInt8} (h : c ≠ 0) : mul (power c 254) c = 1 := by
    have product := power_add c 254 1
    rwa [power_one, power_255 h] at product
  have zero : power 0 254 = 0 := zero_mul _
  have absorbs {c : UInt8} (h : c ≠ 0) : power c 254 ≠ 0 := by
    intro hz
    have one := right h
    rw [hz, mul_zero] at one
    exact absurd one (by decide)
  by_cases ha : a = 0
  · by_cases hb : b = 0
    · rw [ha, hb]
    · rw [ha, zero] at same
      exact absurd same.symm (absorbs hb)
  · by_cases hb : b = 0
    · rw [hb, zero] at same
      exact absurd same (absorbs ha)
    · calc
        a = mul (mul b (power b 254)) a := by rw [right hb, one_mul]
        _ = mul b (mul (power a 254) a) := by rw [mul_assoc, same]
        _ = b := by rw [left ha, mul_one]

end FileGate.Aes
