/-! Finite maps as lists of pairs, oldest key first. A key that is put again keeps its place, so the
order of a list is the order in which its keys came in. -/
namespace FileGate.Assoc

variable {κ : Type u} {ν : Type v} [BEq κ]

def get? (k : κ) : List (κ × ν) → Option ν
  | [] => none
  | (a, v) :: m => if a == k then some v else get? k m

def put (k : κ) (v : ν) : List (κ × ν) → List (κ × ν)
  | [] => [(k, v)]
  | (a, w) :: m => if a == k then (a, v) :: m else (a, w) :: put k v m

def erase (k : κ) : List (κ × ν) → List (κ × ν)
  | [] => []
  | (a, w) :: m => if a == k then erase k m else (a, w) :: erase k m

def contains (k : κ) (m : List (κ × ν)) : Bool := (get? k m).isSome

def keys (m : List (κ × ν)) : List κ := m.map (·.1)

def putAll (m new : List (κ × ν)) : List (κ × ν) := new.foldl (fun m e => put e.1 e.2 m) m

def ofList (l : List (κ × ν)) : List (κ × ν) := putAll [] l

variable [LawfulBEq κ]

theorem get?_put_self (k : κ) (v : ν) (m : List (κ × ν)) : get? k (put k v m) = some v := by
  induction m with
  | nil => simp [put, get?]
  | cons e m ih =>
    obtain ⟨a, w⟩ := e
    by_cases h : a == k
    · simp [put, get?, h]
    · simp [put, get?, h, ih]

theorem get?_put_of_ne {k j : κ} (h : k ≠ j) (v : ν) (m : List (κ × ν)) :
    get? j (put k v m) = get? j m := by
  induction m with
  | nil => simp [put, get?, h]
  | cons e m ih =>
    obtain ⟨a, w⟩ := e
    by_cases ha : a == k
    · have : a = k := eq_of_beq ha
      subst this
      simp [put, get?, h]
    · simp [put, get?, ha, ih]

omit [LawfulBEq κ] in
theorem get?_erase_self (k : κ) (m : List (κ × ν)) : get? k (erase k m) = none := by
  induction m with
  | nil => rfl
  | cons e m ih =>
    obtain ⟨a, w⟩ := e
    by_cases h : a == k
    · simp [erase, h, ih]
    · simp [erase, get?, h, ih]

theorem get?_erase_of_ne {k j : κ} (h : k ≠ j) (m : List (κ × ν)) :
    get? j (erase k m) = get? j m := by
  induction m with
  | nil => rfl
  | cons e m ih =>
    obtain ⟨a, w⟩ := e
    by_cases ha : a == k
    · have : a = k := eq_of_beq ha
      subst this
      simp [erase, get?, h, ih]
    · simp [erase, get?, ha, ih]

theorem get?_put_eq_some {k j : κ} {v w : ν} {m : List (κ × ν)} :
    get? j (put k v m) = some w ↔ j = k ∧ w = v ∨ j ≠ k ∧ get? j m = some w := by
  by_cases h : j = k
  · subst h
    simp [get?_put_self, eq_comm]
  · simp [get?_put_of_ne (Ne.symm h), h]

theorem get?_erase_eq_some {k j : κ} {w : ν} {m : List (κ × ν)} :
    get? j (erase k m) = some w ↔ j ≠ k ∧ get? j m = some w := by
  by_cases h : j = k
  · subst h
    simp [get?_erase_self]
  · simp [get?_erase_of_ne (Ne.symm h), h]

omit [BEq κ] [LawfulBEq κ] in
@[simp] theorem keys_cons (e : κ × ν) (m : List (κ × ν)) : keys (e :: m) = e.1 :: keys m := rfl

theorem contains_iff {k : κ} {m : List (κ × ν)} : contains k m = true ↔ k ∈ keys m := by
  induction m with
  | nil => simp [contains, get?, keys]
  | cons e m ih =>
    obtain ⟨a, v⟩ := e
    by_cases h : a = k
    · simp [contains, get?, h]
    · simpa [contains, get?, h, Ne.symm h] using ih

theorem mem_keys_iff {k : κ} {m : List (κ × ν)} : k ∈ keys m ↔ ∃ v, get? k m = some v := by
  rw [← contains_iff, contains, Option.isSome_iff_exists]

theorem mem_keys_put {k j : κ} {v : ν} {m : List (κ × ν)} :
    j ∈ keys (put k v m) ↔ j = k ∨ j ∈ keys m := by
  by_cases h : j = k
  · subst h
    simp [← contains_iff, contains, get?_put_self]
  · simp [← contains_iff, contains, get?_put_of_ne (Ne.symm h), h]

theorem mem_keys_erase {k j : κ} {m : List (κ × ν)} :
    j ∈ keys (erase k m) ↔ j ≠ k ∧ j ∈ keys m := by
  by_cases h : j = k
  · subst h
    simp [← contains_iff, contains, get?_erase_self]
  · simp [← contains_iff, contains, get?_erase_of_ne (Ne.symm h), h]

theorem mem_keys_putAll {j : κ} {m new : List (κ × ν)} :
    j ∈ keys (putAll m new) ↔ j ∈ keys m ∨ j ∈ keys new := by
  induction new generalizing m with
  | nil => simp [putAll, keys]
  | cons e new ih =>
    have step : putAll m (e :: new) = putAll (put e.1 e.2 m) new := rfl
    rw [step, ih, mem_keys_put, keys_cons, List.mem_cons]
    constructor
    · rintro ((h | h) | h)
      · exact .inr (.inl h)
      · exact .inl h
      · exact .inr (.inr h)
    · rintro (h | h | h)
      · exact .inl (.inr h)
      · exact .inl (.inl h)
      · exact .inr h

theorem mem_keys_ofList {j : κ} {l : List (κ × ν)} : j ∈ keys (ofList l) ↔ j ∈ keys l := by
  rw [ofList, mem_keys_putAll]
  simp [keys]

theorem get?_filter (keep : κ → Bool) (k : κ) (m : List (κ × ν)) :
    get? k (m.filter fun e => keep e.1) = if keep k then get? k m else none := by
  induction m with
  | nil => simp [get?]
  | cons e m ih =>
    obtain ⟨a, w⟩ := e
    by_cases same : a = k
    · subst same
      cases kept : keep a with
      | true => simp [kept, get?]
      | false => simpa [kept] using ih
    · cases kept : keep a with
      | true => simpa [kept, get?, same] using ih
      | false => simpa [kept, get?, same] using ih

omit [LawfulBEq κ] in
theorem erase_eq_filter (k : κ) (m : List (κ × ν)) : erase k m = m.filter fun e => !(e.1 == k) := by
  induction m with
  | nil => rfl
  | cons e m ih =>
    obtain ⟨a, w⟩ := e
    cases same : a == k with
    | true => simp [erase, same, ih]
    | false => simp [erase, same, ih]

/-! ### Maps in which no key comes twice -/

theorem mem_of_get? {k : κ} {v : ν} {m : List (κ × ν)} (h : get? k m = some v) : (k, v) ∈ m := by
  induction m with
  | nil => cases h
  | cons e m ih =>
    obtain ⟨a, w⟩ := e
    by_cases ha : a = k
    · have hw : w = v := by simpa [get?, ha] using h
      simp [ha, hw]
    · have rest : get? k m = some v := by simpa [get?, ha] using h
      exact List.mem_cons_of_mem _ (ih rest)

theorem mem_of_mem_put {k : κ} {v : ν} {e : κ × ν} {m : List (κ × ν)} (h : e ∈ put k v m) :
    e = (k, v) ∨ e ∈ m := by
  induction m with
  | nil => exact .inl (List.mem_singleton.mp h)
  | cons f m ih =>
    obtain ⟨a, w⟩ := f
    by_cases ha : a = k
    · have parts : e = (k, v) ∨ e ∈ m := by simpa [put, ha] using h
      exact parts.imp_right (List.mem_cons_of_mem _)
    · have parts : e = (a, w) ∨ e ∈ put k v m := by simpa [put, ha] using h
      rcases parts with rfl | later
      · exact .inr List.mem_cons_self
      · exact (ih later).imp_right (List.mem_cons_of_mem _)

omit [LawfulBEq κ] in
theorem mem_of_mem_erase {k : κ} {e : κ × ν} {m : List (κ × ν)} (h : e ∈ erase k m) : e ∈ m := by
  induction m with
  | nil => exact h
  | cons f m ih =>
    obtain ⟨a, w⟩ := f
    rw [erase] at h
    split at h
    · exact List.mem_cons_of_mem _ (ih h)
    · rcases List.mem_cons.mp h with rfl | h
      · exact List.mem_cons_self
      · exact List.mem_cons_of_mem _ (ih h)

theorem get?_eq_some_iff {k : κ} {v : ν} {m : List (κ × ν)} (distinct : (keys m).Nodup) :
    get? k m = some v ↔ (k, v) ∈ m := by
  constructor
  · exact mem_of_get?
  intro h
  induction m with
  | nil => cases h
  | cons e m ih =>
    obtain ⟨a, w⟩ := e
    rw [keys_cons, List.nodup_cons] at distinct
    rcases List.mem_cons.mp h with same | h
    · cases same
      simp [get?]
    · have other : a ≠ k := by
        rintro rfl
        have there : a ∈ keys m := List.mem_map_of_mem h
        exact distinct.1 there
      simpa [get?, other] using ih distinct.2 h

theorem get?_eq_none_iff {k : κ} {m : List (κ × ν)} : get? k m = none ↔ k ∉ keys m := by
  rw [← contains_iff, contains, Bool.not_eq_true, Option.isSome_eq_false_iff,
    Option.isNone_iff_eq_none]

theorem erase_of_not_mem {k : κ} {m : List (κ × ν)} (absent : k ∉ keys m) : erase k m = m := by
  induction m with
  | nil => rfl
  | cons e m ih =>
    obtain ⟨a, w⟩ := e
    rw [keys_cons, List.mem_cons, not_or] at absent
    simp [erase, Ne.symm absent.1, ih absent.2]

theorem nodup_keys_put {k : κ} (v : ν) {m : List (κ × ν)} (distinct : (keys m).Nodup) :
    (keys (put k v m)).Nodup := by
  induction m with
  | nil => simp [put, keys]
  | cons e m ih =>
    obtain ⟨a, w⟩ := e
    obtain ⟨new, rest⟩ := List.nodup_cons.mp distinct
    by_cases ha : a = k
    · simpa [put, ha] using distinct
    · have unused : a ∉ keys (put k v m) := fun h => (mem_keys_put.mp h).elim ha new
      simpa [put, ha] using ⟨unused, ih rest⟩

theorem nodup_keys_erase (k : κ) {m : List (κ × ν)} (distinct : (keys m).Nodup) :
    (keys (erase k m)).Nodup := by
  induction m with
  | nil => exact List.nodup_nil
  | cons e m ih =>
    obtain ⟨a, w⟩ := e
    obtain ⟨new, rest⟩ := List.nodup_cons.mp distinct
    by_cases ha : a = k
    · simpa [erase, ha] using ih rest
    · have unused : a ∉ keys (erase k m) := fun h => new (mem_keys_erase.mp h).2
      simpa [erase, ha] using ⟨unused, ih rest⟩

theorem nodup_keys_ofList (l : List (κ × ν)) : (keys (ofList l)).Nodup := by
  have all : ∀ (new m : List (κ × ν)), (keys m).Nodup → (keys (putAll m new)).Nodup := by
    intro new
    induction new with
    | nil => exact fun m distinct => distinct
    | cons e new ih => exact fun m distinct => ih (put e.1 e.2 m) (nodup_keys_put e.2 distinct)
  exact all l [] List.nodup_nil

theorem put_of_not_mem {k : κ} {m : List (κ × ν)} (new : k ∉ keys m) (v : ν) :
    put k v m = m ++ [(k, v)] := by
  induction m with
  | nil => rfl
  | cons e m ih =>
    obtain ⟨a, w⟩ := e
    rw [keys_cons, List.mem_cons, not_or] at new
    simp [put, Ne.symm new.1, ih new.2]

theorem putAll_of_nodup {m new : List (κ × ν)} (distinct : (keys (m ++ new)).Nodup) :
    putAll m new = m ++ new := by
  induction new generalizing m with
  | nil => simp [putAll]
  | cons e new ih =>
    have first : e.1 ∉ keys m := by
      intro there
      rw [keys, List.map_append, List.nodup_append] at distinct
      exact distinct.2.2 e.1 there e.1 (by simp) rfl
    have step : putAll m (e :: new) = putAll (put e.1 e.2 m) new := rfl
    rw [step, put_of_not_mem first, ih (by simpa using distinct)]
    simp

theorem ofList_of_nodup {l : List (κ × ν)} (distinct : (keys l).Nodup) : ofList l = l :=
  putAll_of_nodup distinct

theorem mem_of_mem_ofList {e : κ × ν} {l : List (κ × ν)} (h : e ∈ ofList l) : e ∈ l := by
  have all (new m : List (κ × ν)) (there : e ∈ putAll m new) : e ∈ m ∨ e ∈ new := by
    induction new generalizing m with
    | nil => exact .inl there
    | cons f new ih =>
      rcases ih _ there with old | later
      · rcases mem_of_mem_put old with rfl | older
        · exact .inr List.mem_cons_self
        · exact .inl older
      · exact .inr (List.mem_cons_of_mem f later)
  exact (all l [] h).resolve_left List.not_mem_nil

theorem perm_cons_erase {k : κ} {v : ν} {m : List (κ × ν)} (distinct : (keys m).Nodup)
    (there : get? k m = some v) : m.Perm ((k, v) :: erase k m) := by
  induction m with
  | nil => cases there
  | cons e m ih =>
    obtain ⟨a, w⟩ := e
    obtain ⟨new, rest⟩ := List.nodup_cons.mp distinct
    by_cases same : a = k
    · subst same
      have value : w = v := by simpa [get?] using there
      simp [erase, erase_of_not_mem new, value]
    · have later : get? k m = some v := by simpa [get?, same] using there
      have kept : erase k ((a, w) :: m) = (a, w) :: erase k m := by simp [erase, same]
      rw [kept]
      exact ((ih rest later).cons _).trans (.swap _ _ _)

end FileGate.Assoc
