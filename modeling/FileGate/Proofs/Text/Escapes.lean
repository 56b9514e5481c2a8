import FileGate.Proofs.Text.Decoding

namespace FileGate.Percent

theorem isUnreserved_upperHexDigit : ∀ n < 16, isUnreserved (Bytes.upperHexDigit n) = true := by
  decide

theorem bytes_escapeByte_append (b : UInt8) (t : List Char) :
    bytes (escapeByte b ++ t) = b :: bytes t := by
  have size : b.toNat < 256 := b.toNat_lt
  have high := Bytes.hexValue?_upperHexDigit (b.toNat / 16) (by omega)
  have low := Bytes.hexValue?_upperHexDigit (b.toNat % 16) (by omega)
  have whole : 16 * (b.toNat / 16) + b.toNat % 16 = b.toNat := by omega
  rw [escapeByte, List.cons_append, List.cons_append, List.cons_append, List.nil_append, bytes]
  simp only [high, low, whole, UInt8.ofNat_toNat]

theorem bytes_escapes_append (bs : Bytes) (t : List Char) :
    bytes (bs.flatMap escapeByte ++ t) = bs ++ bytes t := by
  induction bs with
  | nil => rfl
  | cons b bs ih =>
    rw [List.flatMap_cons, List.append_assoc, bytes_escapeByte_append, ih, List.cons_append]

variable {safe : List Char}

theorem bytes_encodeChar_append (plain : '%' ∉ safe) (c : Char) (t : List Char) :
    bytes (encodeChar safe c ++ t) = Utf8.encodeChar c ++ bytes t := by
  rw [encodeChar]
  split
  · rename_i kept
    have other : '%' ∉ [c] := by
      intro same
      rw [← List.mem_singleton.mp same, Bool.or_eq_true, List.contains_iff_mem] at kept
      exact kept.elim (by decide) plain
    rw [bytes_append other, Utf8.encode, List.flatMap_singleton]
  · exact bytes_escapes_append (Utf8.encodeChar c) t

theorem bytes_encode_append (plain : '%' ∉ safe) (s t : List Char) :
    bytes (encode safe s ++ t) = Utf8.encode s ++ bytes t := by
  induction s with
  | nil => rfl
  | cons c s ih =>
    have first : encode safe (c :: s) = encodeChar safe c ++ encode safe s := rfl
    have bytes_ : Utf8.encode (c :: s) = Utf8.encodeChar c ++ Utf8.encode s := rfl
    rw [first, bytes_, List.append_assoc, bytes_encodeChar_append plain, ih, List.append_assoc]

theorem decode_encode_append (plain : '%' ∉ safe) (s t : List Char) :
    decode (encode safe s ++ t) = s ++ decode t := by
  rw [decode, bytes_encode_append plain, Utf8.decodeLossy_encode_append, decode]

theorem decode_encode (plain : '%' ∉ safe) (s : List Char) : decode (encode safe s) = s := by
  have whole := decode_encode_append plain s []
  rwa [decode_nil, List.append_nil, List.append_nil] at whole

theorem mem_escapeByte {b : UInt8} {c : Char} (there : c ∈ escapeByte b) :
    isUnreserved c = true ∨ c = '%' := by
  have size : b.toNat < 256 := b.toNat_lt
  simp only [escapeByte, List.mem_cons, List.not_mem_nil, or_false] at there
  rcases there with rfl | rfl | rfl
  · exact .inr rfl
  · exact .inl (isUnreserved_upperHexDigit _ (by omega))
  · exact .inl (isUnreserved_upperHexDigit _ (by omega))

theorem mem_encode {s : List Char} {c : Char} (there : c ∈ encode safe s) :
    isUnreserved c = true ∨ c ∈ safe ∨ c = '%' := by
  obtain ⟨d, _, there⟩ := List.mem_flatMap.mp there
  rw [encodeChar] at there
  split at there
  · rename_i kept
    rw [List.mem_singleton.mp there]
    rw [Bool.or_eq_true, List.contains_iff_mem] at kept
    exact kept.imp_right .inl
  · obtain ⟨b, _, there⟩ := List.mem_flatMap.mp there
    exact (mem_escapeByte there).imp_right .inr

theorem not_mem_encode {c : Char} (reserved : isUnreserved c = false) (unsafe_ : c ∉ safe)
    (other : c ≠ '%') (s : List Char) : c ∉ encode safe s := by
  intro there
  rcases mem_encode there with kept | kept | same
  · rw [reserved] at kept
    cases kept
  · exact unsafe_ kept
  · exact other same

end FileGate.Percent
