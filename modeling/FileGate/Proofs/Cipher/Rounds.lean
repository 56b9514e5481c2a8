import FileGate.Proofs.Cipher.Field

/-! Each step of a round is undone by a step of its own, so rounds are undone in the order from the
last to the first, and a chain of blocks block by block. -/
namespace FileGate.Aes

/-! ### Substitution -/

def affine (b : UInt8) : UInt8 :=
  b ^^^ rotate b 1 ^^^ rotate b 2 ^^^ rotate b 3 ^^^ rotate b 4 ^^^ 0x63

def unaffine (b : UInt8) : UInt8 := rotate b 1 ^^^ rotate b 3 ^^^ rotate b 6 ^^^ 0x05

theorem unaffine_affine (b : UInt8) : unaffine (affine b) = b := by
  have all : ∀ n < 256, unaffine (affine (UInt8.ofNat n)) = UInt8.ofNat n := by decide +kernel
  have here := all b.toNat b.toNat_lt
  rwa [UInt8.ofNat_toNat] at here

theorem substitute_injective {a b : UInt8} (same : substitute a = substitute b) : a = b := by
  have inverses : affine (power a 254) = affine (power b 254) := same
  have undone := congrArg unaffine inverses
  rw [unaffine_affine, unaffine_affine] at undone
  exact inverse_injective undone

theorem mem_allBytes (a : UInt8) : a ∈ allBytes :=
  List.mem_map.mpr ⟨a.toNat, List.mem_range.mpr a.toNat_lt, UInt8.ofNat_toNat⟩

theorem sub_eq (a : UInt8) : sub a = substitute a := by
  have small := a.toNat_lt
  simp [sub, box, allBytes, Array.getD, small]

theorem getD_foldl_set {place : UInt8 → Nat} (apart : ∀ a b, place a = place b → a = b)
    {l : List UInt8} {t : Array UInt8} {a : UInt8} (room : place a < t.size)
    (there : t.getD (place a) 0 = a ∨ a ∈ l) :
    (l.foldl (fun t a => t.setIfInBounds (place a) a) t).getD (place a) 0 = a := by
  induction l generalizing t with
  | nil => exact there.resolve_right List.not_mem_nil
  | cons b l ih =>
    rw [List.foldl_cons]
    refine ih (by simpa using room) ?_
    by_cases same : b = a
    · left
      subst same
      simp [Array.getD, room]
    · have other : place b ≠ place a := fun h => same (apart b a h)
      have kept : (t.setIfInBounds (place b) b).getD (place a) 0 = t.getD (place a) 0 := by
        simp [Array.getD, room, other]
      rcases there with there | there
      · exact .inl (kept.trans there)
      · exact .inr ((List.mem_cons.mp there).resolve_left (Ne.symm same))

theorem unsub_sub (a : UInt8) : unsub (sub a) = a := by
  have apart (a b : UInt8) (same : (substitute a).toNat = (substitute b).toNat) : a = b :=
    substitute_injective (UInt8.toNat_inj.mp same)
  have room : (substitute a).toNat < (Array.replicate 256 (0 : UInt8)).size :=
    Nat.lt_of_lt_of_eq (UInt8.toNat_lt _) Array.size_replicate.symm
  rw [sub_eq, unsub, inverseBox]
  exact getD_foldl_set apart room (.inr (mem_allBytes a))

theorem map_unsub_map_sub (b : Bytes) : (b.map sub).map unsub = b := by
  simp only [List.map_map, Function.comp_def, unsub_sub, List.map_id_fun', id_eq]

/-! ### Rows and columns -/

theorem unshiftRows_shiftRows (b : Bytes) : unshiftRows (shiftRows b) = b := by
  unfold shiftRows
  split
  · rfl
  · rename_i other
    unfold unshiftRows
    split
    · exact absurd rfl (other _ _ _ _ _ _ _ _ _ _ _ _ _ _ _ _)
    · rfl

theorem length_shiftRows (b : Bytes) : (shiftRows b).length = b.length := by
  unfold shiftRows
  split <;> rfl

def row (p q r s a b c d : UInt8) : UInt8 := mul p a ^^^ mul q b ^^^ mul r c ^^^ mul s d

theorem mixColumns_cons (p q r s a b c d : UInt8) (rest : Bytes) :
    mixColumns p q r s (a :: b :: c :: d :: rest) =
      row p q r s a b c d :: row s p q r a b c d :: row r s p q a b c d :: row q r s p a b c d ::
        mixColumns p q r s rest := rfl

theorem row_row (p q r s p' q' r' s' a b c d : UInt8) :
    row p q r s (row p' q' r' s' a b c d) (row s' p' q' r' a b c d) (row r' s' p' q' a b c d)
        (row q' r' s' p' a b c d) =
      row (row p q r s p' s' r' q') (row p q r s q' p' s' r') (row p q r s r' q' p' s')
        (row p q r s s' r' q' p') a b c d := by
  simp only [row, mul_xor, xor_mul, mul_assoc]
  ac_rfl

theorem row_unit (a b c d : UInt8) :
    row 1 0 0 0 a b c d = a ∧ row 0 1 0 0 a b c d = b ∧ row 0 0 1 0 a b c d = c ∧
      row 0 0 0 1 a b c d = d := by
  simp [row, one_mul, zero_mul]

theorem row_products : row 14 11 13 9 2 1 1 3 = 1 ∧ row 14 11 13 9 3 2 1 1 = 0 ∧
    row 14 11 13 9 1 3 2 1 = 0 ∧ row 14 11 13 9 1 1 3 2 = 0 := by decide

theorem row_turn (p q r s a b c d : UInt8) : row s p q r d a b c = row p q r s a b c d := by
  simp only [row]
  ac_rfl

theorem unmix_mix {n : Nat} {b : Bytes} (h : b.length = 4 * n) : unmix (mix b) = b := by
  induction n generalizing b with
  | zero =>
    rw [List.length_eq_zero_iff.mp h]
    rfl
  | succ n ih =>
    match b with
    | a :: b :: c :: d :: rest =>
      have whole : rest.length = 4 * n := by
        simp only [List.length_cons] at h
        omega
      obtain ⟨e0, e1, e2, e3⟩ := row_products
      have second := row_turn 14 11 13 9
      have third (p q r s : UInt8) : row 13 9 14 11 p q r s = row 14 11 13 9 r s p q := by
        rw [row_turn, row_turn]
      have fourth (p q r s : UInt8) : row 11 13 9 14 p q r s = row 14 11 13 9 s p q r := by
        rw [row_turn, row_turn, row_turn]
      rw [unmix, mix, mixColumns_cons, mixColumns_cons]
      simp only [row_row, second, third, fourth, e0, e1, e2, e3, row_unit]
      rw [← unmix, ← mix, ih whole]

theorem length_mixColumns {n : Nat} {b : Bytes} (h : b.length = 4 * n) (p q r s : UInt8) :
    (mixColumns p q r s b).length = b.length := by
  induction n generalizing b with
  | zero =>
    rw [List.length_eq_zero_iff.mp h]
    rfl
  | succ n ih =>
    match b with
    | a :: b :: c :: d :: rest =>
      have whole : rest.length = 4 * n := by
        simp only [List.length_cons] at h
        omega
      rw [mixColumns_cons]
      simp only [List.length_cons, ih whole]

/-! ### Rounds -/

theorem length_xor {n : Nat} {a b : Bytes} (ha : a.length = n) (hb : b.length = n) :
    (xor a b).length = n := by
  rw [xor, List.length_zipWith, ha, hb, Nat.min_self]

theorem xor_xor {a b : Bytes} (h : a.length = b.length) : xor (xor a b) b = a := by
  induction a generalizing b with
  | nil => rfl
  | cons x a ih =>
    match b with
    | y :: b =>
      have rest : xor (xor a b) b = a := ih (Nat.succ_inj.mp h)
      have cancel : x ^^^ y ^^^ y = x := by rw [UInt8.xor_assoc, UInt8.xor_self, UInt8.xor_zero]
      simpa [xor, cancel] using rest

def inner (b k : Bytes) : Bytes := xor (mix (shiftRows (b.map sub))) k

theorem rounds_append (b : Bytes) (ks : List Bytes) (last : Bytes) :
    rounds b (ks ++ [last]) = xor (shiftRows ((ks.foldl inner b).map sub)) last := by
  induction ks generalizing b with
  | nil => rfl
  | cons k ks ih =>
    have more : rounds b (k :: (ks ++ [last])) = rounds (inner b k) (ks ++ [last]) := by
      obtain ⟨l, ls, same⟩ := List.exists_cons_of_ne_nil (List.append_ne_nil_of_right_ne_nil ks
        (List.cons_ne_nil last []))
      rw [same]
      rfl
    rw [List.cons_append, more, ih, List.foldl_cons]

variable {b k key : Bytes}

theorem length_shifted (hb : b.length = 16) : (shiftRows (b.map sub)).length = 16 := by
  rw [length_shiftRows, List.length_map, hb]

theorem length_inner (hb : b.length = 16) (hk : k.length = 16) : (inner b k).length = 16 := by
  have shifted : (shiftRows (b.map sub)).length = 4 * 4 := length_shifted hb
  have mixed : (mix (shiftRows (b.map sub))).length = 16 := by
    rw [mix, length_mixColumns shifted, shifted]
  exact length_xor mixed hk

theorem unround_inner (hb : b.length = 16) (hk : k.length = 16) : unround (inner b k) k = b := by
  have shifted : (shiftRows (b.map sub)).length = 4 * 4 := length_shifted hb
  have mixed : (mix (shiftRows (b.map sub))).length = k.length := by
    rw [mix, length_mixColumns shifted, shifted, hk]
  rw [unround, inner, xor_xor mixed, unmix_mix shifted, unshiftRows_shiftRows, map_unsub_map_sub]

theorem length_foldl_inner {ks : List Bytes} (hb : b.length = 16)
    (hk : ∀ k ∈ ks, k.length = 16) : (ks.foldl inner b).length = 16 := by
  induction ks generalizing b with
  | nil => exact hb
  | cons k ks ih =>
    rw [List.forall_mem_cons] at hk
    exact ih (length_inner hb hk.1) hk.2

theorem foldl_unround {ks : List Bytes} (hb : b.length = 16) (hk : ∀ k ∈ ks, k.length = 16) :
    ks.reverse.foldl unround (ks.foldl inner b) = b := by
  induction ks generalizing b with
  | nil => rfl
  | cons k ks ih =>
    rw [List.forall_mem_cons] at hk
    rw [List.foldl_cons, List.reverse_cons, List.foldl_append, ih (length_inner hb hk.1) hk.2]
    exact unround_inner hb hk.1

/-! ### Blocks -/

theorem length_nextKey (constant : UInt8) (key : Bytes) :
    (nextKey constant key).length = key.length := by
  unfold nextKey
  split <;> rfl

theorem length_keysFrom (n : Nat) (constant : UInt8) (key : Bytes) :
    (keysFrom n constant key).length = n ∧
      ∀ k ∈ keysFrom n constant key, k.length = key.length := by
  induction n generalizing constant key with
  | zero => exact ⟨rfl, fun _ there => (List.not_mem_nil there).elim⟩
  | succ n ih =>
    obtain ⟨count, rest⟩ := ih (double constant) (nextKey constant key)
    refine ⟨congrArg (· + 1) count, List.forall_mem_cons.mpr ⟨rfl, fun k there => ?_⟩⟩
    rw [rest k there, length_nextKey]

theorem exists_roundKeys (hk : key.length = 16) :
    ∃ first inner last, roundKeys key = first :: (inner ++ [last]) ∧ first.length = 16 ∧
      (∀ k ∈ inner, k.length = 16) ∧ last.length = 16 := by
  obtain ⟨count, lengths⟩ := length_keysFrom 10 (double 1) (nextKey 1 key)
  have split : roundKeys key = key :: keysFrom 10 (double 1) (nextKey 1 key) := rfl
  rw [length_nextKey, hk] at lengths
  rcases List.eq_nil_or_concat (keysFrom 10 (double 1) (nextKey 1 key)) with
    none_ | ⟨ks, last, same⟩
  · rw [none_] at count
    cases count
  · rw [List.concat_eq_append] at same
    rw [same] at lengths split
    refine ⟨key, ks, last, split, hk, fun k there => lengths k ?_, lengths last ?_⟩
    · exact List.mem_append_left _ there
    · exact List.mem_append_right _ (List.mem_singleton_self last)

theorem encryptBlock_eq (first last : Bytes) (ks : List Bytes) (b : Bytes) :
    encryptBlock (first :: (ks ++ [last])) b =
      xor (shiftRows ((ks.foldl inner (xor b first)).map sub)) last := by
  rw [encryptBlock, List.headD_cons, List.drop_one, List.tail_cons, rounds_append]

theorem decryptBlock_eq (first last : Bytes) (ks : List Bytes) (c : Bytes) :
    decryptBlock (first :: (ks ++ [last])) c =
      xor (ks.reverse.foldl unround ((unshiftRows (xor c last)).map unsub)) first := by
  have order : (first :: (ks ++ [last])).reverse = last :: (ks.reverse ++ [first]) := by simp
  simp only [decryptBlock, order, List.dropLast_concat, List.getLastD_concat]

theorem decryptBlock_encryptBlock (hk : key.length = 16) (hb : b.length = 16) :
    decryptBlock (roundKeys key) (encryptBlock (roundKeys key) b) = b := by
  obtain ⟨first, ks, last, split, hf, hks, hl⟩ := exists_roundKeys hk
  have start : (xor b first).length = 16 := length_xor hb hf
  have shifted : (shiftRows ((ks.foldl inner (xor b first)).map sub)).length = last.length := by
    rw [length_shifted (length_foldl_inner start hks), hl]
  rw [split, encryptBlock_eq, decryptBlock_eq, xor_xor shifted, unshiftRows_shiftRows,
    map_unsub_map_sub, foldl_unround start hks, xor_xor (hb.trans hf.symm)]

theorem length_encryptBlock (hk : key.length = 16) (hb : b.length = 16) :
    (encryptBlock (roundKeys key) b).length = 16 := by
  obtain ⟨first, ks, last, split, hf, hks, hl⟩ := exists_roundKeys hk
  rw [split, encryptBlock_eq]
  exact length_xor (length_shifted (length_foldl_inner (length_xor hb hf) hks)) hl

/-! ### Chains of blocks -/

theorem length_encryptChain (hk : key.length = 16) {before : Bytes} (hbefore : before.length = 16)
    {bs : List Bytes} (hbs : ∀ b ∈ bs, b.length = 16) :
    (encryptChain (roundKeys key) before bs).length = 16 * bs.length := by
  induction bs generalizing before with
  | nil => rfl
  | cons b bs ih =>
    rw [List.forall_mem_cons] at hbs
    have block := length_encryptBlock hk (length_xor hbs.1 hbefore)
    simp only [encryptChain, List.length_append, block, ih block hbs.2, List.length_cons]
    omega

theorem decryptChain_encryptChain (hk : key.length = 16) {before : Bytes}
    (hbefore : before.length = 16) {bs : List Bytes} (hbs : ∀ b ∈ bs, b.length = 16) :
    decryptChain (roundKeys key) before (blocks 16 (encryptChain (roundKeys key) before bs)) =
      bs.flatten := by
  induction bs generalizing before with
  | nil => simp [encryptChain, blocks, decryptChain]
  | cons b bs ih =>
    rw [List.forall_mem_cons] at hbs
    have mixed := length_xor hbs.1 hbefore
    have block := length_encryptBlock hk mixed
    rw [encryptChain, blocks_append (by decide) block, decryptChain,
      decryptBlock_encryptBlock hk mixed, xor_xor (hbs.1.trans hbefore.symm), ih block hbs.2,
      List.flatten_cons]

variable {start message : Bytes} {n : Nat}

theorem length_encrypt (hk : key.length = 16) (hs : start.length = 16)
    (hm : message.length = 16 * n) : (encrypt key start message).length = 16 * n := by
  obtain ⟨count, lengths⟩ := blocks_of_length (by decide) hm
  rw [encrypt, length_encryptChain hk hs lengths, count]

theorem decrypt_encrypt (hk : key.length = 16) (hs : start.length = 16)
    (hm : message.length = 16 * n) : decrypt key start (encrypt key start message) = message := by
  obtain ⟨_, lengths⟩ := blocks_of_length (by decide) hm
  rw [decrypt, encrypt, decryptChain_encryptChain hk hs lengths, flatten_blocks (by decide)]

end FileGate.Aes
