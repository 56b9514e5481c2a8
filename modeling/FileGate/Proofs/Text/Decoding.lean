import Mathlib.Tactic.SplitIfs
import FileGate.Percent

namespace FileGate.Utf8

theorem toNat_byte {n : Nat} (h : n < 256) : (UInt8.ofNat n).toNat = n := by
  rw [UInt8.toNat_ofNat']
  exact Nat.mod_eq_of_lt h

theorem continuation_zero (v low high : Nat) (y : Bytes) :
    continuation 0 v low high y = (0, some v) := by
  cases y with
  | nil => rfl
  | cons b y => rfl

theorem continuation_succ {more v low high n k : Nat} {code : Option Nat} {y : Bytes}
    (range : low ≤ n ∧ n ≤ high) (small : n < 256)
    (rest : continuation more (v * 64 + (n - 0x80)) 0x80 0xBF y = (k, code)) :
    continuation (more + 1) v low high (UInt8.ofNat n :: y) = (k + 1, code) := by
  rw [continuation, toNat_byte small, if_pos range, rest]

theorem scan_eq {b : UInt8} {l : Lead} {c : Char} {k : Nat} {y : Bytes} (lead : lead? b = some l)
    (rest : continuation l.more l.share l.low l.high y = (k, some c.toNat)) :
    scan b y = (k, some c) := by
  rw [scan, lead]
  simp only [rest, Option.map_some, Char.ofNat_toNat]

theorem lead?_two {n : Nat} (low : 0x80 ≤ n) (high : n < 0x800) :
    lead? (UInt8.ofNat (0xC0 + n / 64)) = some ⟨1, n / 64, 0x80, 0xBF⟩ := by
  unfold lead?
  rw [toNat_byte (by omega)]
  dsimp only
  rw [if_neg (by omega), if_neg (by omega), if_pos (by omega), Nat.add_sub_cancel_left]

theorem lead?_three {n : Nat} (low : 0x800 ≤ n) (high : n < 0x10000)
    (valid : n < 0xD800 ∨ 0xDFFF < n) :
    ∃ l, lead? (UInt8.ofNat (0xE0 + n / 4096)) = some l ∧ l.more = 2 ∧ l.share = n / 4096 ∧
      l.low ≤ 0x80 + n / 64 % 64 ∧ 0x80 + n / 64 % 64 ≤ l.high := by
  unfold lead?
  rw [toNat_byte (by omega)]
  dsimp only
  rw [if_neg (by omega), if_neg (by omega), if_neg (by omega)]
  by_cases first : 0xE0 + n / 4096 = 0xE0
  · rw [if_pos first]
    exact ⟨_, rfl, rfl, by simp only; omega, by simp only; omega, by simp only; omega⟩
  · rw [if_neg first]
    by_cases surrogate : 0xE0 + n / 4096 = 0xED
    · rw [if_pos surrogate]
      exact ⟨_, rfl, rfl, by simp only; omega, by simp only; omega, by simp only; omega⟩
    · rw [if_neg surrogate, if_pos (by omega)]
      exact ⟨_, rfl, rfl, by simp only; omega, by simp only; omega, by simp only; omega⟩

theorem lead?_four {n : Nat} (low : 0x10000 ≤ n) (high : n < 0x110000) :
    ∃ l, lead? (UInt8.ofNat (0xF0 + n / 262144)) = some l ∧ l.more = 3 ∧ l.share = n / 262144 ∧
      l.low ≤ 0x80 + n / 4096 % 64 ∧ 0x80 + n / 4096 % 64 ≤ l.high := by
  unfold lead?
  rw [toNat_byte (by omega)]
  dsimp only
  rw [if_neg (by omega), if_neg (by omega), if_neg (by omega), if_neg (by omega),
    if_neg (by omega), if_neg (by omega)]
  by_cases first : 0xF0 + n / 262144 = 0xF0
  · rw [if_pos first]
    exact ⟨_, rfl, rfl, by simp only; omega, by simp only; omega, by simp only; omega⟩
  · rw [if_neg first]
    by_cases middle : 0xF0 + n / 262144 < 0xF4
    · rw [if_pos middle]
      exact ⟨_, rfl, rfl, by simp only; omega, by simp only; omega, by simp only; omega⟩
    · rw [if_neg middle, if_pos (by omega)]
      exact ⟨_, rfl, rfl, by simp only; omega, by simp only; omega, by simp only; omega⟩

section
variable {c : Char}

theorem scan_one (high : c.toNat < 0x80) (y : Bytes) : scan (.ofNat c.toNat) y = (0, some c) := by
  have lead : lead? (UInt8.ofNat c.toNat) = some ⟨0, c.toNat, 0x80, 0xBF⟩ := by
    unfold lead?
    rw [toNat_byte (by omega)]
    exact if_pos high
  exact scan_eq lead (continuation_zero _ _ _ _)

theorem scan_two (low : 0x80 ≤ c.toNat) (high : c.toNat < 0x800) (y : Bytes) :
    scan (.ofNat (0xC0 + c.toNat / 64)) (.ofNat (0x80 + c.toNat % 64) :: y) = (1, some c) := by
  have whole : c.toNat / 64 * 64 + (0x80 + c.toNat % 64 - 0x80) = c.toNat := by omega
  refine scan_eq (lead?_two low high) ?_
  apply continuation_succ ⟨by simp only; omega, by simp only; omega⟩ (by omega)
  rw [continuation_zero, whole]

theorem scan_three (low : 0x800 ≤ c.toNat) (high : c.toNat < 0x10000)
    (valid : c.toNat < 0xD800 ∨ 0xDFFF < c.toNat) (y : Bytes) :
    scan (.ofNat (0xE0 + c.toNat / 4096))
      (.ofNat (0x80 + c.toNat / 64 % 64) :: .ofNat (0x80 + c.toNat % 64) :: y) = (2, some c) := by
  have whole : (c.toNat / 4096 * 64 + (0x80 + c.toNat / 64 % 64 - 0x80)) * 64 +
      (0x80 + c.toNat % 64 - 0x80) = c.toNat := by omega
  obtain ⟨⟨more, share, least, most⟩, lead, rfl, rfl, above, below⟩ := lead?_three low high valid
  refine scan_eq lead ?_
  apply continuation_succ ⟨above, below⟩ (by omega)
  apply continuation_succ ⟨by omega, by omega⟩ (by omega)
  rw [continuation_zero, whole]

theorem scan_four (low : 0x10000 ≤ c.toNat) (high : c.toNat < 0x110000) (y : Bytes) :
    scan (.ofNat (0xF0 + c.toNat / 262144))
      (.ofNat (0x80 + c.toNat / 4096 % 64) :: .ofNat (0x80 + c.toNat / 64 % 64) ::
        .ofNat (0x80 + c.toNat % 64) :: y) = (3, some c) := by
  have whole : ((c.toNat / 262144 * 64 + (0x80 + c.toNat / 4096 % 64 - 0x80)) * 64 +
      (0x80 + c.toNat / 64 % 64 - 0x80)) * 64 + (0x80 + c.toNat % 64 - 0x80) = c.toNat := by omega
  obtain ⟨⟨more, share, least, most⟩, lead, rfl, rfl, above, below⟩ := lead?_four low high
  refine scan_eq lead ?_
  apply continuation_succ ⟨above, below⟩ (by omega)
  apply continuation_succ ⟨by omega, by omega⟩ (by omega)
  apply continuation_succ ⟨by omega, by omega⟩ (by omega)
  rw [continuation_zero, whole]

end

theorem scan_encodeChar (c : Char) :
    ∃ b rest, encodeChar c = b :: rest ∧ ∀ y, scan b (rest ++ y) = (rest.length, some c) := by
  have valid : c.toNat < 0xD800 ∨ 0xDFFF < c.toNat ∧ c.toNat < 0x110000 := c.valid
  unfold encodeChar
  dsimp only
  by_cases one : c.toNat < 0x80
  · rw [if_pos one]
    exact ⟨_, _, rfl, scan_one one⟩
  rw [if_neg one]
  by_cases two : c.toNat < 0x800
  · rw [if_pos two]
    exact ⟨_, _, rfl, scan_two (by omega) two⟩
  rw [if_neg two]
  by_cases three : c.toNat < 0x10000
  · rw [if_pos three]
    exact ⟨_, _, rfl, scan_three (by omega) three (by omega)⟩
  · rw [if_neg three]
    exact ⟨_, _, rfl, scan_four (by omega) (by omega)⟩

theorem pieces_encodeChar (c : Char) (y : Bytes) :
    pieces (encodeChar c ++ y) = .inr c :: pieces y := by
  obtain ⟨b, rest, bytes, scanned⟩ := scan_encodeChar c
  rw [bytes, List.cons_append, pieces, scanned]
  simp only [List.drop_left]

theorem pieces_encode (s : List Char) (y : Bytes) :
    pieces (encode s ++ y) = s.map .inr ++ pieces y := by
  induction s with
  | nil => rfl
  | cons c s ih =>
    have bytes : encode (c :: s) ++ y = encodeChar c ++ (encode s ++ y) := by simp [encode]
    rw [bytes, pieces_encodeChar, ih]
    rfl

theorem decodeLossy_encode_append (s : List Char) (y : Bytes) :
    decodeLossy (encode s ++ y) = s ++ decodeLossy y := by
  simp [decodeLossy, pieces_encode, Function.comp_def]

theorem decode?_encode (s : List Char) : decode? (encode s) = some s := by
  have whole : pieces (encode s) = s.map .inr := by
    have read := pieces_encode s []
    rw [List.append_nil] at read
    rw [read, pieces, List.append_nil]
  have kept (s : List Char) : s.mapM (fun c => some c) = some s := by
    induction s with
    | nil => rfl
    | cons c s ih => rw [List.mapM_cons, ih]; rfl
  rw [decode?, whole, List.mapM_map]
  exact kept s

/-! ### What is read was written -/

theorem toNat_ofNat {n : Nat} (valid : n.isValidChar) : (Char.ofNat n).toNat = n := by
  rw [Char.ofNat, dif_pos valid]
  rfl

section
variable {b : UInt8} {y : Bytes} {more v low high k n : Nat}

theorem ofNat_byte (h : n = b.toNat) : UInt8.ofNat n = b := by
  rw [h, UInt8.ofNat_toNat]

theorem lead?_eq_some {l : Lead} (lead : lead? b = some l) :
    (l.more = 0 ∧ l.share = b.toNat ∧ b.toNat < 0x80) ∨
    (l.more = 1 ∧ l.share + 0xC0 = b.toNat ∧ 2 ≤ l.share ∧ l.share < 32 ∧
      l.low = 0x80 ∧ l.high = 0xBF) ∨
    (l.more = 2 ∧ l.share + 0xE0 = b.toNat ∧ l.share < 16 ∧ 0x80 ≤ l.low ∧ l.high ≤ 0xBF ∧
      (l.share = 0 → l.low = 0xA0) ∧ (l.share = 0xD → l.high = 0x9F)) ∨
    (l.more = 3 ∧ l.share + 0xF0 = b.toNat ∧ l.share ≤ 4 ∧ 0x80 ≤ l.low ∧ l.high ≤ 0xBF ∧
      (l.share = 0 → l.low = 0x90) ∧ (l.share = 4 → l.high = 0x8F)) := by
  unfold lead? at lead
  dsimp only at lead
  split_ifs at lead <;> cases lead <;> dsimp only <;> omega

theorem continuation_eq_some {code : Nat}
    (read : continuation (more + 1) v low high y = (k, some code)) :
    ∃ b r m w, y = b :: r ∧ k = m + 1 ∧ low ≤ b.toNat ∧ b.toNat ≤ high ∧
      w = v * 64 + (b.toNat - 0x80) ∧ continuation more w 0x80 0xBF r = (m, some code) := by
  cases y with
  | nil => simp [continuation] at read
  | cons b r =>
    rw [continuation] at read
    split at read
    · rename_i range
      rcases rest : continuation more (v * 64 + (b.toNat - 0x80)) 0x80 0xBF r with ⟨m, c⟩
      rw [rest] at read
      cases read
      exact ⟨b, r, m, _, rfl, rfl, range.1, range.2, rfl, rest⟩
    · cases read

theorem continuation_zero_eq_some {code : Nat}
    (read : continuation 0 v low high y = (k, some code)) : k = 0 ∧ code = v := by
  rw [continuation_zero] at read
  cases read
  exact ⟨rfl, rfl⟩

theorem scan_eq_some {c : Char} (scanned : scan b y = (k, some c)) :
    ∃ l code, lead? b = some l ∧
      continuation l.more l.share l.low l.high y = (k, some code) ∧ c = Char.ofNat code := by
  unfold scan at scanned
  cases lead : lead? b with
  | none =>
    rw [lead] at scanned
    cases scanned
  | some l =>
    rw [lead] at scanned
    rcases rest : continuation l.more l.share l.low l.high y with ⟨m, _ | code⟩
    · simp only [rest, Option.map_none] at scanned
      cases scanned
    · simp only [rest, Option.map_some] at scanned
      cases scanned
      exact ⟨l, code, rfl, rest, rfl⟩

/-- A character is read from no bytes but its own: the ranges leave out what takes more bytes than
needed, and what is no character. -/
theorem eq_encodeChar_of_scan {c : Char} (scanned : scan b y = (k, some c)) :
    b :: y.take k = encodeChar c := by
  obtain ⟨l, code, lead, read, rfl⟩ := scan_eq_some scanned
  unfold encodeChar
  rcases lead?_eq_some lead with ⟨more, share, small⟩ | ⟨more, share, least, most, low, high⟩ |
    ⟨more, share, most, low, high, first, last⟩ | ⟨more, share, most, low, high, first, last⟩
  · rw [more] at read
    obtain ⟨rfl, rfl⟩ := continuation_zero_eq_some read
    rw [toNat_ofNat (.inl (by omega))]
    dsimp only
    rw [if_pos (by omega), ofNat_byte (by omega)]
    rfl
  · rw [more] at read
    obtain ⟨b₁, r, m, w₁, rfl, rfl, low₁, high₁, sum₁, read⟩ := continuation_eq_some read
    obtain ⟨rfl, rfl⟩ := continuation_zero_eq_some read
    rw [toNat_ofNat (.inl (by omega))]
    dsimp only
    rw [if_neg (by omega), if_pos (by omega), ofNat_byte (b := b) (by omega),
      ofNat_byte (b := b₁) (by omega)]
    rfl
  · rw [more] at read
    obtain ⟨b₁, r, m, w₁, rfl, rfl, low₁, high₁, sum₁, read⟩ := continuation_eq_some read
    obtain ⟨b₂, r, m, w₂, rfl, rfl, low₂, high₂, sum₂, read⟩ := continuation_eq_some read
    obtain ⟨rfl, rfl⟩ := continuation_zero_eq_some read
    have valid : code.isValidChar := by
      unfold Nat.isValidChar
      omega
    rw [toNat_ofNat valid]
    dsimp only
    rw [if_neg (by omega), if_neg (by omega), if_pos (by omega), ofNat_byte (b := b) (by omega),
      ofNat_byte (b := b₁) (by omega), ofNat_byte (b := b₂) (by omega)]
    rfl
  · rw [more] at read
    obtain ⟨b₁, r, m, w₁, rfl, rfl, low₁, high₁, sum₁, read⟩ := continuation_eq_some read
    obtain ⟨b₂, r, m, w₂, rfl, rfl, low₂, high₂, sum₂, read⟩ := continuation_eq_some read
    obtain ⟨b₃, r, m, w₃, rfl, rfl, low₃, high₃, sum₃, read⟩ := continuation_eq_some read
    obtain ⟨rfl, rfl⟩ := continuation_zero_eq_some read
    have valid : code.isValidChar := by
      unfold Nat.isValidChar
      omega
    rw [toNat_ofNat valid]
    dsimp only
    rw [if_neg (by omega), if_neg (by omega), if_neg (by omega), ofNat_byte (b := b) (by omega),
      ofNat_byte (b := b₁) (by omega), ofNat_byte (b := b₂) (by omega),
      ofNat_byte (b := b₃) (by omega)]
    rfl

end

theorem decode?_eq_some_iff {b : Bytes} {s : List Char} : decode? b = some s ↔ b = encode s := by
  constructor
  · intro read
    induction b using pieces.induct generalizing s with
    | case1 =>
      rw [decode?, pieces] at read
      cases read
      rfl
    | case2 b r k c scanned ih =>
      rw [decode?, pieces, scanned] at read
      cases c with
      | none => cases read
      | some c =>
        simp only [List.mapM_cons, Option.bind_eq_bind, Option.bind_some,
          Option.bind_eq_some_iff] at read
        obtain ⟨t, rest, same⟩ := read
        cases same
        rw [encode, List.flatMap_cons, ← eq_encodeChar_of_scan scanned, ← encode, ← ih rest,
          List.cons_append, List.take_append_drop]
  · rintro rfl
    exact decode?_encode s

end FileGate.Utf8

namespace FileGate.Percent

theorem bytes_append {s : List Char} (plain : '%' ∉ s) (t : List Char) :
    bytes (s ++ t) = Utf8.encode s ++ bytes t := by
  induction s with
  | nil => rfl
  | cons c s ih =>
    rw [List.mem_cons, not_or] at plain
    rw [List.cons_append, bytes, ih plain.2]
    · simp [Utf8.encode]
    · rintro a b r rfl
      exact absurd rfl plain.1

theorem decode_append {s : List Char} (plain : '%' ∉ s) (t : List Char) :
    decode (s ++ t) = s ++ decode t := by
  rw [decode, bytes_append plain, Utf8.decodeLossy_encode_append]
  rfl

theorem decode_nil : decode [] = [] := by
  simp [decode, bytes, Utf8.decodeLossy, Utf8.pieces]

end FileGate.Percent
