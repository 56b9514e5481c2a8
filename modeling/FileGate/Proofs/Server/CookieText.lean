import FileGate.Server.Cookie
import FileGate.Proofs.Server.TokenNames

namespace FileGate

/-! ### ASCII -/

theorem toNat_asciiByte {c : Char} (h : c.toNat < 128) : (UInt8.ofNat c.toNat).toNat = c.toNat := by
  rw [UInt8.toNat_ofNat']
  exact Nat.mod_eq_of_lt (by omega)

namespace Utf8

theorem scan_ascii {c : Char} (h : c.toNat < 128) (r : Bytes) :
    scan (UInt8.ofNat c.toNat) r = (0, some c) := by
  have lead : lead? (UInt8.ofNat c.toNat) = some ⟨0, c.toNat, 0x80, 0xBF⟩ := by
    simp only [lead?, toNat_asciiByte h]
    rw [if_pos h]
  have rest : continuation 0 c.toNat 0x80 0xBF r = (0, some c.toNat) := by
    cases r <;> rfl
  simp only [scan, lead, rest, Option.map_some, Char.ofNat_toNat]

theorem decodeLossy_ascii {s : List Char} (h : ∀ c ∈ s, c.toNat < 128) :
    decodeLossy (s.map fun c => UInt8.ofNat c.toNat) = s := by
  induction s with
  | nil => simp [decodeLossy, pieces]
  | cons c s ih =>
    have first := scan_ascii (h c List.mem_cons_self) (s.map fun c => UInt8.ofNat c.toNat)
    have rest := ih fun d hd => h d (List.mem_cons_of_mem c hd)
    rw [decodeLossy] at rest ⊢
    rw [List.map_cons, pieces, first]
    simp only [List.drop_zero, List.map_cons, rest]

end Utf8

namespace Cookie

def IsPlain (c : Char) : Prop :=
  c.toNat < 128 ∧ Text.isBlank c = false ∧ isBlank c = false ∧ c ≠ ';' ∧ c ≠ '=' ∧ c ≠ '"'

def ArePlain (s : List Char) : Prop := ∀ c ∈ s, IsPlain c

instance (c : Char) : Decidable (IsPlain c) :=
  inferInstanceAs (Decidable (c.toNat < 128 ∧ Text.isBlank c = false ∧ isBlank c = false ∧
    c ≠ ';' ∧ c ≠ '=' ∧ c ≠ '"'))

instance (s : List Char) : Decidable (ArePlain s) := List.decidableBAll IsPlain s

theorem headerText_ascii {s : List Char} (h : ∀ c ∈ s, c.toNat < 128) : headerText s = s := by
  have bytes : (s.all fun c => decide (c.toNat < 256)) = true := by
    rw [List.all_eq_true]
    intro c hc
    have small := h c hc
    rw [decide_eq_true_eq]
    omega
  rw [headerText, if_pos bytes, Utf8.decodeLossy_ascii h]

theorem dropWhile_of_head {p : Char → Bool} {s : List Char} (h : ∀ c, s.head? = some c → p c = false) :
    s.dropWhile p = s := by
  cases s with
  | nil => rfl
  | cons c s => rw [List.dropWhile_cons, h c rfl]; rfl

end Cookie

theorem Text.trim_of_not_blank {s : List Char} (h : ∀ c ∈ s, isBlank c = false) : trim s = s := by
  have left : trimLeft s = s := by
    apply Cookie.dropWhile_of_head
    intro c hc
    exact h c (List.mem_of_mem_head? hc)
  have right : s.reverse.dropWhile isBlank = s.reverse := by
    apply Cookie.dropWhile_of_head
    intro c hc
    exact h c (List.mem_reverse.mp (List.mem_of_mem_head? hc))
  rw [trim, left, trimRight, right, List.reverse_reverse]

namespace Cookie

theorem ArePlain.trim {s : List Char} (h : ArePlain s) : Text.trim s = s :=
  Text.trim_of_not_blank fun c hc => (h c hc).2.1

theorem ArePlain.unquote {s : List Char} (h : ArePlain s) : Cookie.unquote s = s := by
  cases s with
  | nil => rfl
  | cons c s =>
    have noQuote : c ≠ '"' := (h c List.mem_cons_self).2.2.2.2.2
    unfold Cookie.unquote
    split
    · rename_i heq
      exact absurd (List.cons.inj heq).1 noQuote
    · rfl

theorem ArePlain.ne_semicolon {s : List Char} (h : ArePlain s) :
    ∀ c ∈ s, (c != ';') = true := by
  intro c hc
  rw [bne_iff_ne]
  exact (h c hc).2.2.2.1

theorem takeValue_of_head {s : List Char} (h : s.head? ≠ some '"') :
    takeValue s = (s.takeWhile (· != ';'), (s.dropWhile (· != ';')).drop 1) := by
  unfold takeValue
  split
  · exact absurd rfl h
  · rfl

theorem takeValue_plain {v : List Char} (h : ArePlain v) (rest : List Char) :
    takeValue (v ++ ';' :: rest) = (v, rest) := by
  have head : (v ++ ';' :: rest).head? ≠ some '"' := by
    cases v with
    | nil => simp
    | cons c v =>
      intro first
      exact (h c List.mem_cons_self).2.2.2.2.2 (Option.some.inj first)
  rw [takeValue_of_head head, List.takeWhile_append_of_pos h.ne_semicolon,
    List.dropWhile_append_of_pos h.ne_semicolon]
  simp

theorem takeValue_last {v : List Char} (h : ArePlain v) : takeValue v = (v, []) := by
  have head : v.head? ≠ some '"' := by
    intro first
    exact (h _ (List.mem_of_mem_head? first)).2.2.2.2.2 rfl
  have taken := @List.takeWhile_append_of_pos Char (· != ';') v [] h.ne_semicolon
  have dropped := @List.dropWhile_append_of_pos Char (· != ';') v [] h.ne_semicolon
  rw [List.append_nil] at taken dropped
  rw [takeValue_of_head head, taken, dropped]
  simp

theorem pairs_name {name : List Char} (h : ArePlain name) (fuel : Nat) (r : List Char) :
    pairs (fuel + 1) (name ++ '=' :: r) =
      (name, unquote (Text.trim (takeValue (r.dropWhile isBlank)).1)) ::
        pairs fuel ((takeValue (r.dropWhile isBlank)).2.dropWhile isBlank) := by
  have inside : ∀ c ∈ name, (c != '=' && c != ';') = true := by
    intro c hc
    rw [Bool.and_eq_true, bne_iff_ne, bne_iff_ne]
    exact ⟨(h c hc).2.2.2.2.1, (h c hc).2.2.2.1⟩
  have some_ : (name ++ '=' :: r).isEmpty = false := by
    cases name <;> rfl
  rw [pairs, some_, List.takeWhile_append_of_pos inside, List.dropWhile_append_of_pos inside]
  simp [h.trim]

theorem not_blank {v : List Char} (h : ArePlain v) (rest : List Char) :
    (v ++ ';' :: rest).dropWhile isBlank = v ++ ';' :: rest := by
  apply dropWhile_of_head
  intro c hc
  cases v with
  | nil =>
    cases hc
    decide
  | cons d v =>
    cases hc
    exact (h c List.mem_cons_self).2.2.1

theorem not_blank_last {v : List Char} (h : ArePlain v) : v.dropWhile isBlank = v := by
  apply dropWhile_of_head
  intro c hc
  exact (h c (List.mem_of_mem_head? hc)).2.2.1

theorem pairs_two {m n v w : List Char} (hm : ArePlain m) (hn : ArePlain n) (hv : ArePlain v)
    (hw : ArePlain w) (some_ : n ≠ []) (fuel : Nat) :
    pairs (fuel + 3) (m ++ '=' :: (v ++ ';' :: ' ' :: (n ++ '=' :: w))) = [(m, v), (n, w)] := by
  have next : (' ' :: (n ++ '=' :: w)).dropWhile isBlank = n ++ '=' :: w := by
    have blank : isBlank ' ' = true := by decide
    rw [List.dropWhile_cons, blank, if_pos rfl]
    apply dropWhile_of_head
    intro c hc
    cases n with
    | nil => exact absurd rfl some_
    | cons d n =>
      cases hc
      exact (hn c List.mem_cons_self).2.2.1
  rw [pairs_name hm, not_blank hv, takeValue_plain hv, hv.trim, hv.unquote, next, pairs_name hn,
    not_blank_last hw, takeValue_last hw, hw.trim, hw.unquote]
  simp [pairs]

end Cookie

/-! ### Tokens -/

namespace Server

theorem IsTokenName.plain {t : String} (h : IsTokenName t) : Cookie.ArePlain t.toList := by
  obtain ⟨n, rfl⟩ := h
  rw [tokenName_toList]
  have digit : ∀ c : Char, c.isDigit = true → Cookie.IsPlain c := by
    intro c hc
    have range : 48 ≤ c.toNat ∧ c.toNat ≤ 57 := by
      simpa [Char.isDigit, UInt32.le_iff_toNat_le] using hc
    have other (d : Char) (out : d.toNat < 48 ∨ 57 < d.toNat) : c ≠ d := by
      rintro rfl
      omega
    refine ⟨by omega, ?_, ?_, other _ (by decide), other _ (by decide), other _ (by decide)⟩
    · simp only [Text.isBlank, Bool.or_eq_false_iff, Bool.and_eq_false_iff, decide_eq_false_iff_not,
        beq_eq_false_iff_ne]
      omega
    · simp only [Cookie.isBlank, Bool.or_eq_false_iff, Bool.and_eq_false_iff,
        decide_eq_false_iff_not, beq_eq_false_iff_ne]
      exact ⟨other _ (by decide), by omega⟩
  intro c hc
  rcases List.mem_cons.mp hc with rfl | hc
  · decide
  · have repr : (toString n).toList = Nat.toDigits 10 n := Nat.toList_repr
    rw [repr] at hc
    exact digit c (Nat.isDigit_of_mem_toDigits (by decide) (by decide) hc)

end Server
end FileGate
