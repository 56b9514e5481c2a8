import FileGate.Assoc
import FileGate.Json.Reader
import FileGate.Json.Writer
import Mathlib.Data.List.Chain

/-! What is written of an object of texts is read back as this object: every point of a text comes
out of its escape, every text out of its quotes and every entry out of the entries. Only two halves
that make a pair come back as one character. -/
namespace FileGate

namespace Value

theorem ofPoints_cases (t : Points) :
    (∃ s : String, ofPoints t = .text s ∧ (s : Points) = t) ∨
      ∃ b : BrokenText, ofPoints t = .broken b ∧ b.points = t := by
  by_cases halved : t.any Point.isHalf = true
  · exact .inr ⟨⟨t, halved⟩, by rw [ofPoints, dif_pos halved], rfl⟩
  · refine .inl ⟨_, by rw [ofPoints, dif_neg halved], ?_⟩
    have same (p : Point) (there : p ∈ t) : Point.char p.shown = p := by
      cases p with
      | char c => rfl
      | _ => exact absurd (List.any_eq_true.mpr ⟨_, there, rfl⟩) halved
    rw [String.toList_ofList, List.map_map]
    exact (List.map_congr_left same).trans (List.map_id t)

theorem points?_ofPoints (t : Points) : (ofPoints t).points? = some t := by
  rcases ofPoints_cases t with ⟨s, built, rfl⟩ | ⟨b, built, rfl⟩ <;> rw [built] <;> rfl

theorem ofPoints_injective {s t : Points} (same : ofPoints s = ofPoints t) : s = t :=
  Option.some.inj ((points?_ofPoints s).symm.trans (same ▸ points?_ofPoints t))

theorem ofPoints_string (s : String) : ofPoints s = .text s := by
  have whole : ¬ (s : Points).any Point.isHalf = true := by simp [Point.isHalf]
  have shown : (s : Points).map Point.shown = s.toList := by
    rw [List.map_map]
    exact List.map_id s.toList
  rw [ofPoints, dif_neg whole, shown, String.ofList_toList]

theorem sameKey_ofPoints (s t : Points) : sameKey (ofPoints s) (ofPoints t) = (s == t) := by
  have same : sameKey (ofPoints s) (ofPoints t) = true ↔ ofPoints s = ofPoints t := by
    unfold ofPoints
    split
    · split
      · simp [sameKey, numeral?]
      · simp [sameKey, numeral?]
    · split
      · simp [sameKey, numeral?]
      · simp [sameKey, numeral?]
  rw [Bool.eq_iff_iff, same, beq_iff_eq]
  exact ⟨ofPoints_injective, congrArg ofPoints⟩

end Value

namespace Json

/-! ### Points -/

def prepend (c : Point) (p : Points × Rest) : Points × Rest := (c :: p.1, p.2)

theorem hex4?_unit {n : Nat} (small : n < 0x10000) :
    hex4? (Bytes.hexDigit (n / 4096 % 16)) (Bytes.hexDigit (n / 256 % 16))
      (Bytes.hexDigit (n / 16 % 16)) (Bytes.hexDigit (n % 16)) = some n := by
  have digits : ((n / 4096 % 16 * 16 + n / 256 % 16) * 16 + n / 16 % 16) * 16 + n % 16 = n := by
    omega
  have read (m : Nat) : Bytes.hexValue? (Bytes.hexDigit (m % 16)) = some (m % 16) :=
    Bytes.hexValue?_hexDigit _ (Nat.mod_lt _ (by decide))
  simp only [hex4?, read, Option.bind_eq_bind, Option.bind_some, digits]
  rfl

theorem string?_simple {c x : Char} (simple : simpleEscape? c = some x) (s : Rest) :
    string? ('\\' :: c :: s) = (string? s).map (prepend (.char x)) := by
  have other : c ≠ 'u' := by
    rintro rfl
    cases simple
  rw [string?.eq_5 c s (fun _ _ _ _ _ _ _ _ _ h => absurd h other)
    (fun _ _ _ _ _ h => absurd h other), simple]
  rfl

theorem string?_plain {c : Char} (quote : c ≠ '"') (escape : c ≠ '\\') (high : 32 ≤ c.toNat)
    (s : Rest) : string? (c :: s) = (string? s).map (prepend (.char c)) := by
  rw [string?.eq_6 c s quote (fun _ _ _ _ _ _ _ _ _ h => absurd h escape)
    (fun _ _ _ _ _ h => absurd h escape) (fun _ _ h => absurd h escape),
    if_neg (Nat.not_lt.mpr high)]
  rfl

theorem isHigh_iff {n : Nat} : isHigh n = true ↔ 0xD800 ≤ n ∧ n < 0xDC00 := by
  rw [isHigh, Bool.and_eq_true, decide_eq_true_eq, decide_eq_true_eq]

theorem isLow_iff {n : Nat} : isLow n = true ↔ 0xDC00 ≤ n ∧ n < 0xE000 := by
  rw [isLow, Bool.and_eq_true, decide_eq_true_eq, decide_eq_true_eq]

/-- The text begins with the escape of a low half. -/
def StartsLow (s : Rest) : Prop :=
  ∃ e f g h t n, s = '\\' :: 'u' :: e :: f :: g :: h :: t ∧ hex4? e f g h = some n ∧ isLow n = true

theorem string?_unit {n : Nat} (small : n < 0x10000) {s : Rest}
    (alone : isHigh n = true → ¬ StartsLow s) :
    string? (unitEscape n ++ s) = (string? s).map (prepend (.ofUnit n)) := by
  have text : unitEscape n ++ s =
      '\\' :: 'u' :: Bytes.hexDigit (n / 4096 % 16) :: Bytes.hexDigit (n / 256 % 16) ::
        Bytes.hexDigit (n / 16 % 16) :: Bytes.hexDigit (n % 16) :: s := rfl
  rw [text]
  by_cases more : ∃ e f g h t, s = '\\' :: 'u' :: e :: f :: g :: h :: t
  · obtain ⟨e, f, g, h, t, rfl⟩ := more
    have unpaired : (isHigh n && ((hex4? e f g h).map isLow).getD false) = false := by
      cases high : isHigh n with
      | false => rfl
      | true =>
        cases next : hex4? e f g h with
        | none => rfl
        | some m =>
          have other := alone high
          simp only [Option.map_some, Option.getD_some, Bool.true_and, Bool.eq_false_iff]
          exact fun low => other ⟨e, f, g, h, t, m, rfl, next, low⟩
    rw [string?.eq_3, hex4?_unit small]
    dsimp only
    rw [unpaired]
    rfl
  · have alone (e f g h : Char) (t : List Char) (same : s = '\\' :: 'u' :: e :: f :: g :: h :: t) :
        False := more ⟨e, f, g, h, t, same⟩
    rw [string?.eq_4 _ _ _ _ _ alone, hex4?_unit small]
    rfl

theorem string?_pair {hi lo : Nat} (high : isHigh hi = true) (low : isLow lo = true) (s : Rest) :
    string? (unitEscape hi ++ unitEscape lo ++ s) =
      (string? s).map (prepend (.char (pairChar hi lo))) := by
  have smallHi : hi < 0x10000 := Nat.lt_trans (isHigh_iff.mp high).2 (by decide)
  have smallLo : lo < 0x10000 := Nat.lt_trans (isLow_iff.mp low).2 (by decide)
  have text : unitEscape hi ++ unitEscape lo ++ s =
      '\\' :: 'u' :: Bytes.hexDigit (hi / 4096 % 16) :: Bytes.hexDigit (hi / 256 % 16) ::
        Bytes.hexDigit (hi / 16 % 16) :: Bytes.hexDigit (hi % 16) ::
        '\\' :: 'u' :: Bytes.hexDigit (lo / 4096 % 16) :: Bytes.hexDigit (lo / 256 % 16) ::
        Bytes.hexDigit (lo / 16 % 16) :: Bytes.hexDigit (lo % 16) :: s := rfl
  rw [text, string?.eq_3, hex4?_unit smallHi, hex4?_unit smallLo]
  simp only [high, low, Option.map_some, Option.getD_some, Bool.and_self, if_true]
  rfl

theorem not_half (c : Char) : isHigh c.toNat = false ∧ isLow c.toNat = false := by
  have valid := c.valid
  simp only [UInt32.isValidChar, Nat.isValidChar] at valid
  change (decide (0xD800 ≤ c.val.toNat) && decide (c.val.toNat < 0xDC00)) = false ∧
    (decide (0xDC00 ≤ c.val.toNat) && decide (c.val.toNat < 0xE000)) = false
  simp only [Bool.and_eq_false_iff, decide_eq_false_iff_not]
  omega

theorem ofUnit_code (p : Point) : Point.ofUnit p.code = p := by
  cases p with
  | char c =>
    obtain ⟨high, low⟩ := not_half c
    simp only [isHigh, isLow, ← Bool.decide_and, decide_eq_false_iff_not] at high low
    have code : (Point.char c).code = c.toNat := rfl
    rw [code, Point.ofUnit, dif_neg high, dif_neg low, Char.ofNat_toNat]
  | high b =>
    have range : 0xD800 ≤ 0xD800 + (b : Nat) ∧ 0xD800 + (b : Nat) < 0xDC00 := by omega
    have code : (Point.high b).code = 0xD800 + b := rfl
    rw [code, Point.ofUnit, dif_pos range]
    exact congrArg Point.high (Fin.ext (Nat.add_sub_cancel_left ..))
  | low b =>
    have above : ¬ (0xD800 ≤ 0xDC00 + (b : Nat) ∧ 0xDC00 + (b : Nat) < 0xDC00) := by omega
    have range : 0xDC00 ≤ 0xDC00 + (b : Nat) ∧ 0xDC00 + (b : Nat) < 0xE000 := by omega
    have code : (Point.low b).code = 0xDC00 + b := rfl
    rw [code, Point.ofUnit, dif_neg above, dif_pos range]
    exact congrArg Point.low (Fin.ext (Nat.add_sub_cancel_left ..))

theorem pairChar_toNat {c : Char} (wide : 0x10000 ≤ c.toNat) :
    isHigh (0xD800 + (c.toNat - 0x10000) / 0x400) = true ∧
      isLow (0xDC00 + (c.toNat - 0x10000) % 0x400) = true ∧
      pairChar (0xD800 + (c.toNat - 0x10000) / 0x400)
        (0xDC00 + (c.toNat - 0x10000) % 0x400) = c := by
  have valid := c.valid
  simp only [UInt32.isValidChar, Nat.isValidChar] at valid
  have bound : c.toNat < 0x110000 := by
    change c.val.toNat < 0x110000
    omega
  have sum : 0x10000 + (0xD800 + (c.toNat - 0x10000) / 0x400 - 0xD800) * 0x400 +
      (0xDC00 + (c.toNat - 0x10000) % 0x400 - 0xDC00) = c.toNat := by omega
  refine ⟨isHigh_iff.mpr (by omega), isLow_iff.mpr (by omega), ?_⟩
  rw [pairChar, sum, Char.ofNat_toNat]

theorem eq_of_toNat {c : Char} {n : Nat} (h : c.toNat = n) : c = Char.ofNat n := by
  rw [← h, Char.ofNat_toNat]

/-- What an escape can be: a letter for the character, itself, or its one or two units. -/
theorem escapeChar_cases (c : Char) :
    (∃ e, simpleEscape? e = some c ∧ escapeChar c = ['\\', e]) ∨
    (c ≠ '"' ∧ c ≠ '\\' ∧ 32 ≤ c.toNat ∧ escapeChar c = [c]) ∨
    (c.toNat < 0x10000 ∧ escapeChar c = unitEscape c.toNat) ∨
    (0x10000 ≤ c.toNat ∧ escapeChar c = unitEscape (0xD800 + (c.toNat - 0x10000) / 0x400) ++
      unitEscape (0xDC00 + (c.toNat - 0x10000) % 0x400)) := by
  unfold escapeChar
  dsimp only
  split
  next quote => exact .inl ⟨'"', congrArg some (eq_of_beq quote).symm, rfl⟩
  next quote =>
  split
  next slash => exact .inl ⟨'\\', congrArg some (eq_of_beq slash).symm, rfl⟩
  next slash =>
  split
  next shown =>
    simp only [Bool.and_eq_true, decide_eq_true_eq] at shown
    exact .inr (.inl ⟨by simpa using quote, by simpa using slash, shown.1, rfl⟩)
  split
  next named => exact .inl ⟨'n', congrArg some (eq_of_beq named).symm, rfl⟩
  split
  next named => exact .inl ⟨'r', congrArg some (eq_of_beq named).symm, rfl⟩
  split
  next named => exact .inl ⟨'t', congrArg some (eq_of_beq named).symm, rfl⟩
  split
  next named => exact .inl ⟨'b', congrArg some (eq_of_toNat (eq_of_beq named)).symm, rfl⟩
  split
  next named => exact .inl ⟨'f', congrArg some (eq_of_toNat (eq_of_beq named)).symm, rfl⟩
  split
  next small => exact .inr (.inr (.inl ⟨small, rfl⟩))
  next wide => exact .inr (.inr (.inr ⟨Nat.le_of_not_lt wide, rfl⟩))

theorem string?_escapeChar (c : Char) (s : Rest) :
    string? (escapeChar c ++ s) = (string? s).map (prepend (.char c)) := by
  rcases escapeChar_cases c with ⟨e, simple, same⟩ | ⟨quote, slash, shown, same⟩ | ⟨small, same⟩ |
    ⟨wide, same⟩ <;> rw [same]
  · exact string?_simple simple s
  · exact string?_plain quote slash shown s
  · have whole : Point.ofUnit c.toNat = .char c := ofUnit_code (.char c)
    rw [string?_unit small (fun high => by simp [not_half c] at high), whole]
  · obtain ⟨high, low, whole⟩ := pairChar_toNat wide
    rw [string?_pair high low, whole]

theorem hex4?_of_unitEscape {n : Nat} (small : n < 0x10000) {e f g h : Char} {s t : Rest}
    (same : unitEscape n ++ s = '\\' :: 'u' :: e :: f :: g :: h :: t) : hex4? e f g h = some n := by
  cases same
  exact hex4?_unit small

theorem not_startsLow_escape {p : Point} (other : ∀ b, p ≠ .low b) (s : Rest) :
    ¬ StartsLow (escape p ++ s) := by
  rintro ⟨e, f, g, h, t, n, same, unit, low⟩
  cases p with
  | char c =>
    have same : escapeChar c ++ s = _ := same
    rcases escapeChar_cases c with ⟨e', simple, built⟩ | ⟨quote, slash, shown, built⟩ |
      ⟨small, built⟩ | ⟨wide, built⟩ <;> rw [built] at same
    · cases same
      cases simple
    · exact slash (List.cons.inj same).1
    · cases unit.symm.trans (hex4?_of_unitEscape small same)
      rw [(not_half c).2] at low
      cases low
    · obtain ⟨high, -, -⟩ := pairChar_toNat wide
      rw [isHigh_iff] at high
      rw [List.append_assoc] at same
      cases unit.symm.trans (hex4?_of_unitEscape (by omega) same)
      rw [isLow_iff] at low
      omega
  | high b =>
    have same : unitEscape (0xD800 + b) ++ s = _ := same
    cases unit.symm.trans (hex4?_of_unitEscape (by omega) same)
    rw [isLow_iff] at low
    omega
  | low b => exact other b rfl

/-! ### Texts and entries -/

/-- A text in which halves that make a pair have become one character. -/
def joined : Points → Points
  | .high a :: .low b :: t => .char (pairChar (Point.high a).code (Point.low b).code) :: joined t
  | p :: t => p :: joined t
  | [] => []

/-- What follows a point does not make a pair with it. -/
def Apart : Point → Point → Prop
  | .high _, .low _ => False
  | _, _ => True

/-- No high half stands right before a low one. -/
def Unpaired (t : Points) : Prop := t.IsChain Apart

theorem joined_of_unpaired {t : Points} (unpaired : Unpaired t) : joined t = t := by
  induction t using joined.induct with
  | case1 a b t ih => exact (List.isChain_cons_cons.mp unpaired).1.elim
  | case2 p t other ih => rw [joined.eq_2 p t other, ih unpaired.tail]
  | case3 => rfl

theorem head?_joined {t : Points} {b : Fin 1024} (low : (joined t).head? = some (.low b)) :
    t.head? = some (.low b) := by
  induction t using joined.induct with
  | case1 a b t ih => cases low
  | case2 p t other ih =>
    rw [joined.eq_2 p t other] at low
    exact low
  | case3 => cases low

theorem unpaired_joined (t : Points) : Unpaired (joined t) := by
  induction t using joined.induct with
  | case1 a b t ih => exact List.isChain_cons.mpr ⟨fun _ _ => trivial, ih⟩
  | case2 p t other ih =>
    rw [joined.eq_2 p t other]
    refine List.isChain_cons.mpr ⟨fun q there => ?_, ih⟩
    cases p with
    | high a =>
      cases q with
      | low b =>
        obtain ⟨rest, rfl⟩ := List.head?_eq_some_iff.mp (head?_joined there)
        exact (other a b rest rfl rfl).elim
      | _ => trivial
    | _ => trivial
  | case3 => exact .nil

theorem joined_joined (t : Points) : joined (joined t) = joined t :=
  joined_of_unpaired (unpaired_joined t)

theorem isHigh_high (a : Fin 1024) : isHigh (Point.high a).code = true := by
  have code : (Point.high a).code = 0xD800 + a := rfl
  rw [code]
  exact isHigh_iff.mpr (by omega)

theorem isLow_low (b : Fin 1024) : isLow (Point.low b).code = true := by
  have code : (Point.low b).code = 0xDC00 + b := rfl
  rw [code]
  exact isLow_iff.mpr (by omega)

theorem string?_high {s : Rest} (alone : ¬ StartsLow s) (a : Fin 1024) :
    string? (escape (.high a) ++ s) = (string? s).map (prepend (.high a)) := by
  have unit : Point.ofUnit (0xD800 + a) = .high a := ofUnit_code (.high a)
  have written : escape (.high a) = unitEscape (0xD800 + a) := rfl
  rw [written, string?_unit (by omega) (fun _ => alone), unit]

theorem string?_low (b : Fin 1024) (s : Rest) :
    string? (escape (.low b) ++ s) = (string? s).map (prepend (.low b)) := by
  have unit : Point.ofUnit (0xDC00 + b) = .low b := ofUnit_code (.low b)
  have written : escape (.low b) = unitEscape (0xDC00 + b) := rfl
  have notHigh : isHigh (0xDC00 + b) = true → ¬ StartsLow s := by
    rw [isHigh_iff]
    omega
  rw [written, string?_unit (by omega) notHigh, unit]

theorem not_startsLow_rest {t : Points} (other : ∀ b t', t ≠ .low b :: t') (r : Rest) :
    ¬ StartsLow (t.flatMap escape ++ '"' :: r) := by
  cases t with
  | nil =>
    rintro ⟨_, _, _, _, _, _, same, _⟩
    cases (List.cons.inj same).1
  | cons q t =>
    rw [List.flatMap_cons, List.append_assoc]
    refine not_startsLow_escape (fun b low => ?_) _
    exact other b t (congrArg (· :: t) low)

theorem string?_flatMap (t : Points) (r : Rest) :
    string? (t.flatMap escape ++ '"' :: r) = some (joined t, r) := by
  induction t using joined.induct with
  | case1 a b t ih =>
    have written : (Point.high a :: .low b :: t).flatMap escape ++ '"' :: r =
        unitEscape (Point.high a).code ++ unitEscape (Point.low b).code ++
          (t.flatMap escape ++ '"' :: r) := by
      simp [List.flatMap_cons, escape]
    rw [written, string?_pair (isHigh_high a) (isLow_low b), ih]
    rfl
  | case2 p t other ih =>
    have read : string? (escape p ++ (t.flatMap escape ++ '"' :: r)) =
        (string? (t.flatMap escape ++ '"' :: r)).map (prepend p) := by
      cases p with
      | char c => exact string?_escapeChar c _
      | high a =>
        exact string?_high (not_startsLow_rest (fun b t' same => other a b t' rfl same) r) a
      | low b => exact string?_low b _
    rw [List.flatMap_cons, List.append_assoc, joined.eq_2 p t other, read, ih]
    rfl
  | case3 => exact string?.eq_2 r

theorem value_text (fuel : Nat) (t : Points) (r : Rest) :
    value (fuel + 1) (writeString t ++ r) = .ok (.ofPoints (joined t), r) := by
  have text : writeString t ++ r = '"' :: (t.flatMap escape ++ '"' :: r) := by
    simp [writeString]
  rw [text, value, string?_flatMap, orMalformed]
  rfl

theorem keyText_ofPoints (t : Points) : keyText (.ofPoints t) = t := by
  rcases Value.ofPoints_cases t with ⟨s, built, rfl⟩ | ⟨b, built, rfl⟩ <;> rw [built] <;> rfl

theorem write_ofPoints (l : Layout) (t : Points) : write l (.ofPoints t) = writeString t := by
  rcases Value.ofPoints_cases t with ⟨s, built, rfl⟩ | ⟨b, built, rfl⟩ <;> rw [built, write]

def named (m : List (Points × Value)) : List (Value × Value) :=
  m.map fun e => (.ofPoints e.1, e.2)

def Texts (m : List (Points × Value)) : Prop := ∀ e ∈ m, ∃ t, e.2 = .ofPoints t

def joinedEntries (m : List (Points × Value)) : List (Points × Value) :=
  m.map fun e => (joined e.1, (e.2.points?.map fun t => .ofPoints (joined t)).getD e.2)

theorem joinedEntries_cons (k t : Points) (m : List (Points × Value)) :
    joinedEntries ((k, .ofPoints t) :: m) =
      (joined k, .ofPoints (joined t)) :: joinedEntries m := by
  simp [joinedEntries, Value.points?_ofPoints]

theorem skip_quote (s : Rest) : skip ('"' :: s) = '"' :: s := rfl
theorem skip_blank (s : Rest) : skip (' ' :: '"' :: s) = '"' :: s := rfl

theorem writeString_append (t : Points) (s : Rest) :
    writeString t ++ s = '"' :: (t.flatMap escape ++ '"' :: s) := by
  simp [writeString]

def more (fuel : Nat) (e : Value × Value) (s : Rest) :
    Except Fault (List (Value × Value) × Rest) :=
  match skip s with
  | '\x7d' :: r => .ok ([e], r)
  | ',' :: r => (entries fuel (skip r)).bind fun p => .ok (e :: p.1, p.2)
  | _ => .error .malformed

theorem entries_entry (fuel : Nat) (k t : Points) (s : Rest) :
    entries (fuel + 2) (writeString k ++ (spaced.colon ++ (writeString t ++ s))) =
      more (fuel + 1) (.ofPoints (joined k), .ofPoints (joined t)) s := by
  have colon (x : Rest) : skip (spaced.colon ++ '"' :: x) = ':' :: ' ' :: '"' :: x := rfl
  have value := value_text fuel t s
  rw [writeString_append] at value
  rw [writeString_append, writeString_append, entries, string?_flatMap, orMalformed]
  dsimp only [bind, Except.bind]
  rw [colon]
  simp only [skip_blank, value]
  rfl

theorem writeEntries_cons (k t : Points) (m : List (Points × Value)) :
    writeEntries spaced (named ((k, .ofPoints t) :: m)) =
      writeString k ++ (spaced.colon ++ (writeString t ++
        if m.isEmpty then [] else spaced.comma ++ writeEntries spaced (named m))) := by
  cases m with
  | nil =>
    simp only [named, List.map_cons, List.map_nil, writeEntries, keyText_ofPoints, write_ofPoints,
      List.isEmpty_nil, if_true, List.append_nil, List.append_assoc]
  | cons e m =>
    simp only [named, List.map_cons, writeEntries, keyText_ofPoints, write_ofPoints,
      List.isEmpty_cons, Bool.false_eq_true, if_false, List.append_assoc]

theorem exists_writeEntries_eq {e : Points × Value} {m : List (Points × Value)}
    (texts : Texts (e :: m)) : ∃ s, writeEntries spaced (named (e :: m)) = '"' :: s := by
  obtain ⟨k, v⟩ := e
  obtain ⟨t, same⟩ := texts _ List.mem_cons_self
  obtain rfl : v = .ofPoints t := same
  exact ⟨_, (writeEntries_cons k t m).trans (writeString_append _ _)⟩

theorem entries_write {m : List (Points × Value)} (texts : Texts m) (some_ : m ≠ [])
    {fuel : Nat} (enough : m.length < fuel) (r : Rest) :
    entries fuel (writeEntries spaced (named m) ++ '\x7d' :: r) =
      .ok (named (joinedEntries m), r) := by
  induction m generalizing fuel with
  | nil => exact absurd rfl some_
  | cons e m ih =>
    obtain ⟨k, v⟩ := e
    obtain ⟨⟨t, same⟩, rest⟩ := List.forall_mem_cons.mp texts
    obtain rfl : v = .ofPoints t := same
    rw [List.length_cons] at enough
    obtain ⟨fuel, rfl⟩ : ∃ n, fuel = n + 2 := ⟨fuel - 2, by omega⟩
    simp only [writeEntries_cons, joinedEntries_cons, List.append_assoc]
    rw [entries_entry]
    cases m with
    | nil => rfl
    | cons e m =>
      obtain ⟨s, first⟩ := exists_writeEntries_eq rest
      have after := ih rest (List.cons_ne_nil e m) (Nat.lt_of_succ_lt_succ enough)
      have comma (x : Rest) : skip (spaced.comma ++ '"' :: x) = ',' :: ' ' :: '"' :: x := rfl
      simp only [first, List.cons_append] at after
      simp only [more, List.isEmpty_cons, Bool.false_eq_true, if_false, List.append_assoc, first,
        List.cons_append, comma, skip_blank, after, Except.bind]
      rfl

/-! ### Objects -/

theorem putEntry_named (k : Points) (v : Value) (m : List (Points × Value)) :
    Value.putEntry (.ofPoints k) v (named m) = named (Assoc.put k v m) := by
  induction m with
  | nil => rfl
  | cons e m ih =>
    obtain ⟨a, w⟩ := e
    have parts : named ((a, w) :: m) = (.ofPoints a, w) :: named m := rfl
    rw [parts, Value.putEntry, Value.sameKey_ofPoints, ih, Assoc.put]
    split <;> rfl

theorem mergeEntries_named (m : List (Points × Value)) :
    Value.mergeEntries (named m) = named (Assoc.ofList m) := by
  have all (new old : List (Points × Value)) :
      (named new).foldl (fun m e => Value.putEntry e.1 e.2 m) (named old) =
        named (Assoc.putAll old new) := by
    induction new generalizing old with
    | nil => rfl
    | cons e new ih =>
      have step := ih (Assoc.put e.1 e.2 old)
      rw [← putEntry_named] at step
      exact step
  exact all m []

theorem value_object {m : List (Points × Value)} (texts : Texts m) {fuel : Nat}
    (enough : m.length < fuel) (r : Rest) :
    value (fuel + 1) (write spaced (.map (named m)) ++ r) =
      .ok (.map (named (Assoc.ofList (joinedEntries m))), r) := by
  have braces : write spaced (.map (named m)) ++ r =
      '\x7b' :: (writeEntries spaced (named m) ++ '\x7d' :: r) := by
    rw [write, List.cons_append, List.cons_append, List.append_assoc, List.singleton_append]
  rw [braces]
  cases m with
  | nil => rfl
  | cons e m =>
    obtain ⟨s, first⟩ := exists_writeEntries_eq texts
    have read := entries_write texts (List.cons_ne_nil e m) enough r
    rw [first, List.cons_append] at read
    rw [first, List.cons_append, value, skip_quote]
    split
    next same => exact absurd (List.cons.inj same).1 (by decide)
    next => simp only [read, Except.map, mergeEntries_named]

theorem length_le_writeEntries {m : List (Points × Value)} (texts : Texts m) :
    m.length ≤ (writeEntries spaced (named m)).length := by
  induction m with
  | nil => exact Nat.zero_le _
  | cons e m ih =>
    obtain ⟨k, v⟩ := e
    obtain ⟨⟨t, same⟩, rest⟩ := List.forall_mem_cons.mp texts
    obtain rfl : v = .ofPoints t := same
    have later := ih rest
    rw [writeEntries_cons, writeString_append]
    cases m with
    | nil => simp
    | cons e m =>
      simp only [List.isEmpty_cons, Bool.false_eq_true, if_false, List.length_cons,
        List.length_append] at later ⊢
      omega

/-- An object of texts is read of what is written of it as one whose texts are joined. -/
theorem read_write {m : List (Points × Value)} (texts : Texts m) :
    read (write spaced (.map (named m))) =
      .ok (.map (named (Assoc.ofList (joinedEntries m)))) := by
  have text : write spaced (.map (named m)) =
      '\x7b' :: (writeEntries spaced (named m) ++ ['\x7d']) := by
    rw [write, List.cons_append]
  have start : skip (write spaced (.map (named m))) = write spaced (.map (named m)) := by
    rw [text]
    rfl
  have enough : m.length < (write spaced (.map (named m))).length := by
    have entries := length_le_writeEntries texts
    rw [text, List.length_cons, List.length_append]
    omega
  have whole := value_object texts enough []
  rw [List.append_nil] at whole
  rw [read, start, whole]
  rfl

end Json
end FileGate
