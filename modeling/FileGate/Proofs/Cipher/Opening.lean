import FileGate.Cipher.Seal
import FileGate.Proofs.Cipher.Rounds
import FileGate.Proofs.Text.Credentials

namespace FileGate

theorem Sha256.length_digest (b : Bytes) : (Sha256.digest b).length = 32 := by
  simp [Sha256.digest, Sha256.State.bytes, Bytes.length_ofNat]

theorem Utf8.map_encode {s : List Char} (ascii : ∀ c ∈ s, c.toNat < 0x80) :
    (Utf8.encode s).map (fun b => Char.ofNat b.toNat) = s := by
  induction s with
  | nil => rfl
  | cons c s ih =>
    rw [List.forall_mem_cons] at ascii
    have small : c.toNat < 256 := Nat.lt_trans ascii.1 (by decide)
    have one : Utf8.encodeChar c = [UInt8.ofNat c.toNat] := by
      rw [Utf8.encodeChar, if_pos ascii.1]
    have parts : Utf8.encode (c :: s) = Utf8.encodeChar c ++ Utf8.encode s := rfl
    rw [parts, List.map_append, ih ascii.2, one, List.map_singleton, Utf8.toNat_byte small,
      Char.ofNat_toNat, List.singleton_append]

namespace Base64

theorem urlSafe_digit : ∀ n < 64, ofUrlSafe (toUrlSafe (digit n)) = digit n ∧
    (toUrlSafe (digit n)).toNat < 0x80 := by decide

theorem urlSafe_of_mem_encode {b : Bytes} {c : Char} (h : c ∈ encode b) :
    ofUrlSafe (toUrlSafe c) = c ∧ (toUrlSafe c).toNat < 0x80 := by
  rcases mem_encode h with rfl | ⟨n, small, rfl⟩
  · decide
  · exact urlSafe_digit n small

theorem decodeUrlSafe?_encodeUrlSafe (b : Bytes) : decodeUrlSafe? (encodeUrlSafe b) = some b := by
  have back : ((encode b).map toUrlSafe).map ofUrlSafe = encode b := by
    rw [List.map_map]
    refine (List.map_congr_left fun c there => ?_).trans (List.map_id _)
    exact (urlSafe_of_mem_encode there).1
  rw [decodeUrlSafe?, encodeUrlSafe, back]
  exact decodeFrom_encode false b

theorem encodeUrlSafe_ascii (b : Bytes) : ∀ c ∈ encodeUrlSafe b, c.toNat < 0x80 := by
  intro c there
  obtain ⟨d, digit, rfl⟩ := List.mem_map.mp there
  exact (urlSafe_of_mem_encode digit).2

end Base64

namespace Seal

theorem length_pad (b : Bytes) : (pad b).length = 16 * (b.length / 16 + 1) := by
  simp only [pad, List.length_append, List.length_replicate]
  omega

theorem unpad?_pad (b : Bytes) : unpad? (pad b) = some b := by
  obtain ⟨n, hn, fill⟩ : ∃ n, 16 - b.length % 16 = n + 1 ∧ n ≤ 15 :=
    ⟨15 - b.length % 16, by omega, by omega⟩
  have last : (pad b).getLast? = some (UInt8.ofNat (n + 1)) := by
    simp [pad, hn, List.replicate_succ']
  have count : (UInt8.ofNat (n + 1)).toNat = n + 1 := Utf8.toNat_byte (by omega)
  have keep : (pad b).length - (n + 1) = b.length := by
    rw [length_pad]
    omega
  have whole : (pad b).length % 16 = 0 := by
    rw [length_pad]
    omega
  have parts : pad b = b ++ List.replicate (n + 1) (UInt8.ofNat (n + 1)) := by rw [pad, hn]
  unfold unpad?
  rw [last]
  simp only [count, keep, whole]
  rw [parts, List.drop_left, List.take_left]
  simp only [Nat.zero_lt_succ, Nat.reduceLeDiff, fill, decide_true, Bool.and_self,
    beq_self_eq_true, if_true]

variable {k : Keys} {start head : Bytes}

theorem openWith?_signed (first : head.head? = some version) (long : 25 ≤ head.length)
    (form : head.length % 16 = 9) :
    openWith? k (Utf8.encode (Base64.encodeUrlSafe (head ++ Sha256.keyed k.sign head))) =
      unpad? (Aes.decrypt k.encrypt ((head.drop 9).take 16) (head.drop 25)) := by
  have digest : (Sha256.keyed k.sign head).length = 32 := Sha256.length_digest _
  have size : (head ++ Sha256.keyed k.sign head).length - 32 = head.length := by
    rw [List.length_append, digest, Nat.add_sub_cancel]
  have versioned : ((head ++ Sha256.keyed k.sign head).head? != some version ||
      decide ((head ++ Sha256.keyed k.sign head).length < 9)) = false := by
    have enough : ¬ (head ++ Sha256.keyed k.sign head).length < 9 := by
      rw [List.length_append]
      omega
    rw [List.head?_append, first, Option.some_or, bne_self_eq_false, decide_eq_false enough]
    rfl
  have formed : (decide (head.length < 25) || head.length % 16 != 9) = false := by
    simpa [form] using long
  unfold openWith?
  rw [Utf8.map_encode (Base64.encodeUrlSafe_ascii _), Base64.decodeUrlSafe?_encodeUrlSafe]
  dsimp only [Option.bind_eq_bind, Option.bind_some]
  rw [size, List.take_left, List.drop_left, versioned, bne_self_eq_false, formed]
  rfl

/-- A message is what comes out when it is sealed and opened. -/
theorem openWith?_closeAt (hk : k.encrypt.length = 16) (hs : start.length = 16) (time : Nat)
    (message : Bytes) : openWith? k (closeAt k time start message) = some message := by
  have padded := length_pad message
  have lead : (version :: Bytes.ofNat 8 time).length = 9 := by
    rw [List.length_cons, Bytes.length_ofNat]
  have before : (version :: Bytes.ofNat 8 time ++ start).length = 25 := by
    rw [List.length_append, lead, hs]
  have size : (version :: Bytes.ofNat 8 time ++ start ++
      Aes.encrypt k.encrypt start (pad message)).length =
        25 + 16 * (message.length / 16 + 1) := by
    rw [List.length_append, before, Aes.length_encrypt hk hs padded]
  rw [closeAt, openWith?_signed rfl (by omega) (by omega), List.drop_left' before,
    List.append_assoc, List.drop_left' lead, List.take_left' hs, Aes.decrypt_encrypt hk hs padded,
    unpad?_pad]

theorem Keys.length_encrypt (secret : String) : (Keys.ofSecret secret).encrypt.length = 16 := by
  rw [Keys.ofSecret, List.length_drop, Sha256.length_digest]

end Seal
end FileGate
