import FileGate.Credential
import FileGate.Proofs.Text.Decoding

namespace FileGate

namespace Base64

theorem decodeFrom_digit {n : Nat} (h : n < 64) (strict : Bool) {p : Place}
    (unpadded : p.padded = false) (s : List Char) :
    decodeFrom strict p (digit n :: s) =
      (decodeFrom strict (p.take n).1 s).map ((p.take n).2 ++ ·) := by
  have plain : (digit n == '=') = false := by simpa using digit_ne_pad n h
  rw [decodeFrom, plain, value?_digit n h]
  simp [unpadded]

theorem decodeFrom_two (strict : Bool) (a : UInt8) {v : Nat} (h : v < 16) (s : List Char) :
    decodeFrom strict start (digit (a.toNat / 4) :: digit (a.toNat % 4 * 16 + v) :: s) =
      (decodeFrom strict ⟨2, v, 0, false⟩ s).map (a :: ·) := by
  have small := a.toNat_lt
  have kept : (a.toNat % 4 * 16 + v) % 16 = v := by omega
  have byte : UInt8.ofNat (a.toNat / 4 * 4 + (a.toNat % 4 * 16 + v) / 16) = a :=
    Utf8.ofNat_byte (by omega)
  rw [start, decodeFrom_digit (by omega) strict rfl, decodeFrom_digit (by omega) strict rfl]
  simp [Place.take, kept, byte, Function.comp_def]

theorem decodeFrom_three (strict : Bool) (b : UInt8) {v : Nat} (h : v < 4) (s : List Char) :
    decodeFrom strict ⟨2, b.toNat / 16, 0, false⟩ (digit (b.toNat % 16 * 4 + v) :: s) =
      (decodeFrom strict ⟨3, v, 0, false⟩ s).map (b :: ·) := by
  have small := b.toNat_lt
  have kept : (b.toNat % 16 * 4 + v) % 4 = v := by omega
  have byte : UInt8.ofNat (b.toNat / 16 * 16 + (b.toNat % 16 * 4 + v) / 4) = b :=
    Utf8.ofNat_byte (by omega)
  rw [decodeFrom_digit (by omega) strict rfl]
  simp [Place.take, kept, byte]

theorem decodeFrom_four (strict : Bool) (c : UInt8) (s : List Char) :
    decodeFrom strict ⟨3, c.toNat / 64, 0, false⟩ (digit (c.toNat % 64) :: s) =
      (decodeFrom strict start s).map (c :: ·) := by
  have byte : UInt8.ofNat (c.toNat / 64 * 64 + c.toNat % 64) = c := Utf8.ofNat_byte (by omega)
  rw [decodeFrom_digit (by omega) strict rfl]
  simp [Place.take, byte, start]

theorem decodeFrom_encode (strict : Bool) (b : Bytes) :
    decodeFrom strict start (encode b) = some b := by
  -- Groups of three bytes, as the encoder takes them. At the end of a shorter group no bits are left.
  induction b using encode.induct with
  | case1 => rfl
  | case2 a =>
    have group := decodeFrom_two strict a (v := 0) (by decide) ['=', '=']
    rw [Nat.add_zero] at group
    rw [encode, group]
    simp [decodeFrom]
  | case3 a b =>
    have small := b.toNat_lt
    have group := decodeFrom_three strict b (v := 0) (by decide) ['=']
    rw [Nat.add_zero] at group
    rw [encode, decodeFrom_two strict a (by omega), group]
    simp [decodeFrom]
  | case4 a b c r ih =>
    have first := b.toNat_lt
    have second := c.toNat_lt
    rw [encode, decodeFrom_two strict a (by omega), decodeFrom_three strict b (by omega),
      decodeFrom_four strict c, ih]
    rfl

theorem mem_encode {b : Bytes} {c : Char} (h : c ∈ encode b) :
    c = '=' ∨ ∃ n < 64, c = digit n := by
  induction b using encode.induct with
  | case1 => cases h
  | case2 a =>
    have small := a.toNat_lt
    simp only [encode, List.mem_cons, List.not_mem_nil, or_false] at h
    rcases h with rfl | rfl | rfl | rfl
    · exact .inr ⟨_, by omega, rfl⟩
    · exact .inr ⟨_, by omega, rfl⟩
    · exact .inl rfl
    · exact .inl rfl
  | case3 a b =>
    have small := a.toNat_lt
    have small' := b.toNat_lt
    simp only [encode, List.mem_cons, List.not_mem_nil, or_false] at h
    rcases h with rfl | rfl | rfl | rfl
    · exact .inr ⟨_, by omega, rfl⟩
    · exact .inr ⟨_, by omega, rfl⟩
    · exact .inr ⟨_, by omega, rfl⟩
    · exact .inl rfl
  | case4 a b c r ih =>
    have small := a.toNat_lt
    have small' := b.toNat_lt
    have small'' := c.toNat_lt
    simp only [encode, List.mem_cons] at h
    rcases h with rfl | rfl | rfl | rfl | h
    · exact .inr ⟨_, by omega, rfl⟩
    · exact .inr ⟨_, by omega, rfl⟩
    · exact .inr ⟨_, by omega, rfl⟩
    · exact .inr ⟨_, by omega, rfl⟩
    · exact ih h

theorem digit_not_blank : ∀ n < 64, Text.isBlank (digit n) = false := by decide

theorem encode_not_blank {b : Bytes} {c : Char} (h : c ∈ encode b) : Text.isBlank c = false := by
  rcases mem_encode h with rfl | ⟨n, small, rfl⟩
  · decide
  · exact digit_not_blank n small

theorem head?_encode_ne (b : Bytes) : (encode b).head? ≠ some '=' := by
  have plain (a : UInt8) : digit (a.toNat / 4) ≠ '=' := by
    have small := a.toNat_lt
    exact digit_ne_pad _ (by omega)
  match b with
  | [] => simp [encode]
  | [a] => simpa [encode] using plain a
  | [a, _] => simpa [encode] using plain a
  | a :: _ :: _ :: _ => simpa [encode] using plain a

theorem decodeStrict?_encode (b : Bytes) : decodeStrict? (encode b) = some b := by
  rw [decodeStrict?, if_neg (head?_encode_ne b), decodeFrom_encode]

theorem encode_ne_nil {b : Bytes} (h : b ≠ []) : encode b ≠ [] := by
  match b with
  | [] => exact absurd rfl h
  | [_] => simp [encode]
  | [_, _] => simp [encode]
  | _ :: _ :: _ :: _ => simp [encode]

end Base64

namespace Text

theorem wordsFrom_of_plain {w : List Char} (plain : ∀ c ∈ w, isBlank c = false)
    (word s : List Char) : wordsFrom word (w ++ s) = wordsFrom (w.reverse ++ word) s := by
  induction w generalizing word with
  | nil => rfl
  | cons c w ih =>
    have first := plain c List.mem_cons_self
    have rest := ih (fun c hc => plain c (List.mem_cons_of_mem _ hc)) (c :: word)
    rw [List.cons_append, wordsFrom, first, if_neg Bool.false_ne_true, rest]
    simp

theorem words_two {a b : List Char} (first : ∀ c ∈ a, isBlank c = false)
    (second : ∀ c ∈ b, isBlank c = false) (ha : a ≠ []) (hb : b ≠ []) :
    words (a ++ ' ' :: b) = [a, b] := by
  have between : isBlank ' ' = true := by decide
  have last := wordsFrom_of_plain second [] []
  rw [List.append_nil] at last
  rw [words, wordsFrom_of_plain first, wordsFrom, if_pos between, last]
  simp [wordsFrom, ha, hb]

end Text

namespace Authorization

variable {user : String}

theorem parse_basic (user password : String) :
    parse (some (basic user password)) = ("Basic", String.ofList
      (Base64.encode (Utf8.encode (user.toList ++ ':' :: password.toList)))) := by
  have account : Utf8.encode (user.toList ++ ':' :: password.toList) ≠ [] := by
    simp [Utf8.encode, Utf8.encodeChar]
  have scheme : "Basic ".toList = "Basic".toList ++ [' '] := by decide
  have plain : ∀ c ∈ "Basic".toList, Text.isBlank c = false := by
    have all : "Basic".toList.all (fun c => !Text.isBlank c) = true := by decide
    intro c there
    simpa using List.all_eq_true.mp all c there
  unfold basic
  generalize Utf8.encode (user.toList ++ ':' :: password.toList) = b at account
  have words : Text.words ("Basic".toList ++ ' ' :: Base64.encode b) =
      ["Basic".toList, Base64.encode b] :=
    Text.words_two plain (fun c hc => Base64.encode_not_blank hc) (by decide)
      (Base64.encode_ne_nil account)
  rw [parse, Option.getD_some, String.toList_ofList, scheme, List.append_assoc,
    List.singleton_append, words]
  rfl

/-- What is read are just the bytes that the pair is written in, be the digits for them written as
they should be or not. -/
theorem decodeBasic?_eq_some_iff {credentials password : String} :
    decodeBasic? credentials = some (user, password) ↔
      Base64.decodeStrict? credentials.toList =
        some (Utf8.encode (user.toList ++ ':' :: password.toList)) ∧ ':' ∉ user.toList := by
  simp only [decodeBasic?, Option.bind_eq_bind, Option.bind_eq_some_iff, Utf8.decode?_eq_some_iff]
  constructor
  · rintro ⟨_, digits, s, rfl, ⟨a, b⟩, cut, same⟩
    cases same
    obtain ⟨rfl, plain⟩ := Text.cut?_eq_some_iff.mp cut
    rw [String.toList_ofList, String.toList_ofList]
    exact ⟨digits, plain⟩
  · rintro ⟨digits, plain⟩
    refine ⟨_, digits, _, rfl, _, Text.cut?_append plain _, ?_⟩
    simp

theorem decodeBasic?_encode (plain : ':' ∉ user.toList) (password : String) :
    decodeBasic? (String.ofList
      (Base64.encode (Utf8.encode (user.toList ++ ':' :: password.toList)))) =
      some (user, password) := by
  rw [decodeBasic?_eq_some_iff, String.toList_ofList, Base64.decodeStrict?_encode]
  exact ⟨rfl, plain⟩

/-- A pair comes back from the header that is made of it exactly if its user has no colon. All that
can be read are such pairs, each of them from those texts alone that stand for the same bytes as the
header's. -/
theorem basic_codec :
    (∀ user password, (parse (some (basic user password))).1 = "Basic" ∧
      (decodeBasic? (parse (some (basic user password))).2 = some (user, password) ↔
        ':' ∉ user.toList)) ∧
    (∀ credentials user password, decodeBasic? credentials = some (user, password) →
      ':' ∉ user.toList ∧
        decodeBasic? (parse (some (basic user password))).2 = some (user, password)) ∧
    ∀ credentials user password, decodeBasic? credentials = some (user, password) ↔
      ':' ∉ user.toList ∧ Base64.decodeStrict? credentials.toList =
        Base64.decodeStrict? (parse (some (basic user password))).2.toList := by
  have read (user password : String) : Base64.decodeStrict?
      (parse (some (basic user password))).2.toList =
        some (Utf8.encode (user.toList ++ ':' :: password.toList)) := by
    rw [parse_basic, String.toList_ofList, Base64.decodeStrict?_encode]
  refine ⟨fun user password => ⟨?_, ?_⟩, fun credentials user password found => ?_,
    fun credentials user password => ?_⟩
  · rw [parse_basic]
  · rw [decodeBasic?_eq_some_iff, read]
    exact and_iff_right rfl
  · have plain := (decodeBasic?_eq_some_iff.mp found).2
    exact ⟨plain, decodeBasic?_eq_some_iff.mpr ⟨read user password, plain⟩⟩
  · rw [decodeBasic?_eq_some_iff, read, and_comm]

theorem basic_codec_spareBits :
    decodeBasic? "dTq=" = some ("u", "") ∧ (parse (some (basic "u" ""))).2 ≠ "dTq=" ∧
      decodeBasic? (parse (some (basic "u" ""))).2 = some ("u", "") := by
  obtain ⟨_, recovered, bytes⟩ := basic_codec
  have written : parse (some (basic "u" "")) = ("Basic", "dTo=") := by decide +kernel
  have found : decodeBasic? "dTq=" = some ("u", "") :=
    (bytes "dTq=" "u" "").mpr ⟨by decide, by rw [written]; decide⟩
  exact ⟨found, by rw [written]; decide, (recovered "dTq=" "u" "" found).2⟩

end Authorization
end FileGate
