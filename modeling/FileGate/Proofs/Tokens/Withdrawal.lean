import FileGate.Server.TokenStore

namespace FileGate.TokenStore

variable {τ : Type} {s : TokenStore τ} {now : τ} {a r x : String} {g : Grant τ}

/-- Refresh tokens are the tokens that have a partner. No token is empty, and none comes twice. -/
structure Coherent (s : TokenStore τ) : Prop where
  access : (Assoc.keys s.access).Nodup
  refresh : (Assoc.keys s.refresh).Nodup
  paired : ∀ r, r ∈ Assoc.keys s.pairs ↔ r ∈ Assoc.keys s.refresh
  nonempty : "" ∉ Assoc.keys s.refresh
  partner : ∀ r, Assoc.get? r s.pairs ≠ some ""

theorem empty_coherent : Coherent ({} : TokenStore τ) where
  access := List.nodup_nil
  refresh := List.nodup_nil
  paired _ := Iff.rfl
  nonempty := List.not_mem_nil
  partner _ h := by cases h

/-! ### One refresh token is withdrawn -/

theorem Coherent.dropRefresh_eq (c : s.Coherent) (x : String) :
    s.dropRefresh x =
      ⟨match Assoc.get? x s.pairs with
        | some a => Assoc.erase a s.access
        | none => s.access,
        Assoc.erase x s.refresh, Assoc.erase x s.pairs⟩ := by
  unfold dropRefresh
  by_cases there : x ∈ Assoc.keys s.refresh
  · rw [Assoc.contains_iff.mpr there]
    cases partner : Assoc.get? x s.pairs with
    | none => rfl
    | some a =>
      have nonempty : a.isEmpty = false := by
        have := c.partner x
        rw [partner] at this
        simpa using this
      simp only [nonempty, Bool.not_true, Bool.false_eq_true, if_false]
  · have absent : Assoc.contains x s.refresh = false := by
      rw [← Bool.not_eq_true, Assoc.contains_iff]
      exact there
    have alone : x ∉ Assoc.keys s.pairs := fun h => there ((c.paired x).mp h)
    rw [absent, Assoc.get?_eq_none_iff.mpr alone, Assoc.erase_of_not_mem there,
      Assoc.erase_of_not_mem alone]
    rfl

theorem Coherent.get?_refresh_dropRefresh (c : s.Coherent) :
    Assoc.get? r (s.dropRefresh x).refresh = some g ↔ r ≠ x ∧ Assoc.get? r s.refresh = some g := by
  rw [c.dropRefresh_eq]
  exact Assoc.get?_erase_eq_some

theorem Coherent.get?_pairs_dropRefresh (c : s.Coherent) :
    Assoc.get? r (s.dropRefresh x).pairs = some a ↔ r ≠ x ∧ Assoc.get? r s.pairs = some a := by
  rw [c.dropRefresh_eq]
  exact Assoc.get?_erase_eq_some

theorem Coherent.get?_access_dropRefresh (c : s.Coherent) :
    Assoc.get? a (s.dropRefresh x).access = some g ↔
      Assoc.get? x s.pairs ≠ some a ∧ Assoc.get? a s.access = some g := by
  rw [c.dropRefresh_eq]
  cases partner : Assoc.get? x s.pairs with
  | none => simp
  | some b =>
    have same : some b ≠ some a ↔ a ≠ b := by simp [eq_comm]
    rw [same]
    exact Assoc.get?_erase_eq_some

theorem Coherent.dropRefresh (c : s.Coherent) (x : String) : (s.dropRefresh x).Coherent := by
  rw [c.dropRefresh_eq]
  refine ⟨?_, Assoc.nodup_keys_erase x c.refresh, fun r => ?_, fun h => ?_, fun r h => ?_⟩
  · cases partner : Assoc.get? x s.pairs with
    | none => exact c.access
    | some b => exact Assoc.nodup_keys_erase b c.access
  · rw [Assoc.mem_keys_erase, Assoc.mem_keys_erase, c.paired]
  · exact c.nonempty (Assoc.mem_keys_erase.mp h).2
  · exact c.partner r (Assoc.get?_erase_eq_some.mp h).2

/-! ### Access tokens are withdrawn -/

theorem Coherent.revokeAccess (c : s.Coherent) (x : String) : (s.revokeAccess x).2.Coherent :=
  { c with access := Assoc.nodup_keys_erase x c.access }

theorem keys_expireAccess [OfNat τ 0] (s : TokenStore τ) :
    Assoc.keys s.expireAccess.access = Assoc.keys s.access := by
  simp [TokenStore.expireAccess, Assoc.keys, List.map_map, Function.comp_def]

theorem Coherent.expireAccess [OfNat τ 0] (c : s.Coherent) : s.expireAccess.Coherent :=
  { c with access := keys_expireAccess s ▸ c.access }

/-! ### Several are withdrawn -/

def eraseAll {ν : Type} (ts : List String) (m : List (String × ν)) : List (String × ν) :=
  ts.foldl (fun m t => Assoc.erase t m) m

theorem get?_eraseAll {ν : Type} {ts : List String} {m : List (String × ν)} {v : ν} :
    Assoc.get? a (eraseAll ts m) = some v ↔ a ∉ ts ∧ Assoc.get? a m = some v := by
  induction ts generalizing m with
  | nil => simp [eraseAll]
  | cons t ts ih =>
    have step : eraseAll (t :: ts) m = eraseAll ts (Assoc.erase t m) := rfl
    rw [step, ih, Assoc.get?_erase_eq_some, List.mem_cons, not_or]
    constructor
    · rintro ⟨h, ht, hv⟩
      exact ⟨⟨ht, h⟩, hv⟩
    · rintro ⟨⟨ht, h⟩, hv⟩
      exact ⟨h, ht, hv⟩

theorem nodup_keys_eraseAll {ν : Type} (ts : List String) {m : List (String × ν)}
    (distinct : (Assoc.keys m).Nodup) : (Assoc.keys (eraseAll ts m)).Nodup := by
  induction ts generalizing m with
  | nil => exact distinct
  | cons t ts ih => exact ih (Assoc.nodup_keys_erase t distinct)

def dropAll (ts : List String) (s : TokenStore τ) : TokenStore τ :=
  ts.foldl (fun s t => s.dropRefresh t) s

theorem Coherent.dropAll (c : s.Coherent) (ts : List String) : (s.dropAll ts).Coherent := by
  induction ts generalizing s with
  | nil => exact c
  | cons t ts ih => exact ih (c.dropRefresh t)

theorem Coherent.dropAll_maps (c : s.Coherent) (ts : List String) :
    (s.dropAll ts).refresh = eraseAll ts s.refresh ∧
      (s.dropAll ts).pairs = eraseAll ts s.pairs := by
  induction ts generalizing s with
  | nil => exact ⟨rfl, rfl⟩
  | cons t ts ih =>
    have refresh : (s.dropRefresh t).refresh = Assoc.erase t s.refresh := by rw [c.dropRefresh_eq]
    have pairs : (s.dropRefresh t).pairs = Assoc.erase t s.pairs := by rw [c.dropRefresh_eq]
    have rest := ih (c.dropRefresh t)
    rw [refresh, pairs] at rest
    exact rest

theorem Coherent.get?_access_dropAll (c : s.Coherent) {ts : List String} :
    Assoc.get? a (s.dropAll ts).access = some g ↔
      (∀ t ∈ ts, Assoc.get? t s.pairs ≠ some a) ∧ Assoc.get? a s.access = some g := by
  induction ts generalizing s with
  | nil => simp [TokenStore.dropAll]
  | cons t ts ih =>
    have step : s.dropAll (t :: ts) = (s.dropRefresh t).dropAll ts := rfl
    rw [step, ih (c.dropRefresh t), c.get?_access_dropRefresh]
    simp only [ne_eq, c.get?_pairs_dropRefresh, not_and, List.forall_mem_cons]
    constructor
    · rintro ⟨rest, first, there⟩
      refine ⟨⟨first, fun u hu same => ?_⟩, there⟩
      by_cases e : u = t
      · exact first (e ▸ same)
      · exact rest u hu e same
    · rintro ⟨⟨first, rest⟩, there⟩
      exact ⟨fun u hu _ => rest u hu, first, there⟩

section
variable [LE τ] [DecidableLE τ]

/-! ### What is good -/

theorem valid?_of_not_mem {grants : List (String × Grant τ)} {token : String} (now : τ)
    (h : token ∉ Assoc.keys grants) : valid? grants now token = none := by
  simp [valid?, Assoc.get?_eq_none_iff.mpr h]

theorem valid?_iff {grants : List (String × Grant τ)} {token user : String} :
    valid? grants now token = some user ↔
      token ≠ "" ∧ ∃ ends, Assoc.get? token grants = some ⟨user, ends⟩ ∧ ¬ ends ≤ now := by
  unfold valid?
  constructor
  · intro good
    split at good
    · cases good
    · rename_i named
      split at good
      · cases good
      · rename_i g there
        split at good
        · cases good
        · rename_i lasting
          cases good
          exact ⟨by simpa using named, g.expires, there, lasting⟩
  · rintro ⟨named, ends, there, lasting⟩
    rw [if_neg (by simpa using named), there]
    exact if_neg lasting

/-! ### What has expired is removed -/

theorem mem_expired {grants : List (String × Grant τ)} (distinct : (Assoc.keys grants).Nodup) :
    x ∈ expired now grants ↔ ∃ g, Assoc.get? x grants = some g ∧ g.expires ≤ now := by
  simp only [expired, List.mem_map, List.mem_filter, decide_eq_true_eq]
  constructor
  · rintro ⟨⟨_, g⟩, ⟨there, past⟩, rfl⟩
    exact ⟨g, (Assoc.get?_eq_some_iff distinct).mpr there, past⟩
  · rintro ⟨g, there, past⟩
    exact ⟨(x, g), ⟨(Assoc.get?_eq_some_iff distinct).mp there, past⟩, rfl⟩

theorem not_mem_expired {grants : List (String × Grant τ)} (distinct : (Assoc.keys grants).Nodup)
    (there : Assoc.get? x grants = some g) : x ∉ expired now grants ↔ ¬ g.expires ≤ now := by
  rw [mem_expired distinct, there]
  simp

theorem prune_eq (now : τ) (s : TokenStore τ) :
    s.prune now =
      { s.dropAll (expired now s.refresh) with
        access := eraseAll (expired now (s.dropAll (expired now s.refresh)).access)
          (s.dropAll (expired now s.refresh)).access } := rfl

theorem Coherent.get?_refresh_prune (c : s.Coherent) :
    Assoc.get? r (s.prune now).refresh = some g ↔
      Assoc.get? r s.refresh = some g ∧ ¬ g.expires ≤ now := by
  rw [prune_eq, (c.dropAll_maps _).1, get?_eraseAll, and_comm]
  exact and_congr_right fun there => not_mem_expired c.refresh there

theorem Coherent.get?_pairs_prune (c : s.Coherent) :
    Assoc.get? r (s.prune now).pairs = some a ↔
      Assoc.get? r s.pairs = some a ∧ ∀ g, Assoc.get? r s.refresh = some g → ¬ g.expires ≤ now := by
  rw [prune_eq, (c.dropAll_maps _).2, get?_eraseAll, mem_expired c.refresh, and_comm]
  simp only [not_exists, not_and]

theorem Coherent.get?_access_prune (c : s.Coherent) :
    Assoc.get? a (s.prune now).access = some g ↔
      Assoc.get? a s.access = some g ∧ ¬ g.expires ≤ now ∧
        ∀ r x, Assoc.get? r s.pairs = some a → Assoc.get? r s.refresh = some x →
          ¬ x.expires ≤ now := by
  rw [prune_eq, get?_eraseAll, and_comm,
    and_congr_right (not_mem_expired (c.dropAll _).access), c.get?_access_dropAll]
  constructor
  · rintro ⟨⟨kept, there⟩, lasting⟩
    refine ⟨there, lasting, fun r x pair grant past => ?_⟩
    exact kept r ((mem_expired c.refresh).mpr ⟨x, grant, past⟩) pair
  · rintro ⟨there, lasting, kept⟩
    refine ⟨⟨fun r hr pair => ?_, there⟩, lasting⟩
    obtain ⟨x, grant, past⟩ := (mem_expired c.refresh).mp hr
    exact kept r x pair grant past

theorem Coherent.prune (c : s.Coherent) (now : τ) : (s.prune now).Coherent := by
  have dropped := c.dropAll (expired now s.refresh)
  exact ⟨nodup_keys_eraseAll _ dropped.access, dropped.refresh, dropped.paired, dropped.nonempty,
    dropped.partner⟩

/-! ### A new pair -/

def retire (previous : Option String) (s : TokenStore τ) : TokenStore τ :=
  match previous with
  | some p => if p.isEmpty then s else s.dropRefresh p
  | none => s

omit [LE τ] [DecidableLE τ] in
theorem Coherent.retire_some (c : s.Coherent) (p : String) :
    s.retire (some p) = s.dropRefresh p := by
  by_cases empty : p = ""
  · have absent : Assoc.contains "" s.refresh = false := by
      rw [← Bool.not_eq_true, Assoc.contains_iff]
      exact c.nonempty
    rw [empty, TokenStore.dropRefresh, absent]
    rfl
  · rw [retire, if_neg (by simpa using empty)]

section
omit [LE τ] [DecidableLE τ]
variable {previous : Option String}

theorem Coherent.retire (c : s.Coherent) (previous : Option String) :
    (s.retire previous).Coherent := by
  cases previous with
  | none => exact c
  | some p =>
    rw [c.retire_some]
    exact c.dropRefresh p

theorem Coherent.get?_refresh_retire (c : s.Coherent) :
    Assoc.get? r (s.retire previous).refresh = some g ↔
      previous ≠ some r ∧ Assoc.get? r s.refresh = some g := by
  cases previous with
  | none => simp [TokenStore.retire]
  | some p =>
    rw [c.retire_some, c.get?_refresh_dropRefresh, ne_eq, ne_eq, Option.some.injEq, eq_comm]

theorem Coherent.get?_pairs_retire (c : s.Coherent) :
    Assoc.get? r (s.retire previous).pairs = some a ↔
      previous ≠ some r ∧ Assoc.get? r s.pairs = some a := by
  cases previous with
  | none => simp [TokenStore.retire]
  | some p =>
    rw [c.retire_some, c.get?_pairs_dropRefresh, ne_eq, ne_eq, Option.some.injEq, eq_comm]

theorem Coherent.get?_access_retire (c : s.Coherent) :
    Assoc.get? a (s.retire previous).access = some g ↔
      (∀ r, Assoc.get? r s.pairs = some a → previous ≠ some r) ∧
        Assoc.get? a s.access = some g := by
  cases previous with
  | none => simp [TokenStore.retire]
  | some p =>
    rw [c.retire_some, c.get?_access_dropRefresh]
    refine and_congr_left fun _ => ⟨fun other r pair same => ?_, fun other pair => ?_⟩
    · cases same
      exact other pair
    · exact other p pair rfl

end

variable [Add τ] {life : Lifetimes τ} {user refresh access : String} {previous : Option String}

theorem issue_eq (s : TokenStore τ) :
    s.issue life now user previous access refresh =
      ⟨Assoc.put access ⟨user, now + life.access⟩ ((s.prune now).retire previous).access,
        Assoc.put refresh ⟨user, now + life.refresh⟩ ((s.prune now).retire previous).refresh,
        Assoc.put refresh access ((s.prune now).retire previous).pairs⟩ := rfl

theorem Coherent.issue (c : s.Coherent) (ha : access ≠ "") (hr : refresh ≠ "") :
    (s.issue life now user previous access refresh).Coherent := by
  have rest := (c.prune now).retire previous
  rw [issue_eq]
  refine ⟨Assoc.nodup_keys_put _ rest.access, Assoc.nodup_keys_put _ rest.refresh, fun r => ?_,
    fun h => ?_, fun r h => ?_⟩
  · rw [Assoc.mem_keys_put, Assoc.mem_keys_put, rest.paired]
  · exact (Assoc.mem_keys_put.mp h).elim (fun e => hr e.symm) rest.nonempty
  · rcases Assoc.get?_put_eq_some.mp h with ⟨_, e⟩ | ⟨_, h⟩
    · exact ha e.symm
    · exact rest.partner r h

theorem Coherent.get?_refresh_issue (c : s.Coherent) :
    Assoc.get? r (s.issue life now user previous access refresh).refresh = some g ↔
      r = refresh ∧ g = ⟨user, now + life.refresh⟩ ∨
      r ≠ refresh ∧ previous ≠ some r ∧ Assoc.get? r s.refresh = some g ∧ ¬ g.expires ≤ now := by
  rw [issue_eq, Assoc.get?_put_eq_some, (c.prune now).get?_refresh_retire, c.get?_refresh_prune]

theorem Coherent.get?_pairs_issue (c : s.Coherent) :
    Assoc.get? r (s.issue life now user previous access refresh).pairs = some a ↔
      r = refresh ∧ a = access ∨
      r ≠ refresh ∧ previous ≠ some r ∧ Assoc.get? r s.pairs = some a ∧
        ∀ g, Assoc.get? r s.refresh = some g → ¬ g.expires ≤ now := by
  rw [issue_eq, Assoc.get?_put_eq_some, (c.prune now).get?_pairs_retire, c.get?_pairs_prune]

theorem Coherent.get?_access_issue (c : s.Coherent) :
    Assoc.get? a (s.issue life now user previous access refresh).access = some g ↔
      a = access ∧ g = ⟨user, now + life.access⟩ ∨
      a ≠ access ∧ Assoc.get? a s.access = some g ∧ ¬ g.expires ≤ now ∧
        ∀ r x, Assoc.get? r s.pairs = some a → Assoc.get? r s.refresh = some x →
          previous ≠ some r ∧ ¬ x.expires ≤ now := by
  rw [issue_eq, Assoc.get?_put_eq_some, (c.prune now).get?_access_retire, c.get?_access_prune]
  refine or_congr Iff.rfl (and_congr_right fun _ => ?_)
  simp only [c.get?_pairs_prune]
  constructor
  · rintro ⟨other, there, lasting, kept⟩
    refine ⟨there, lasting, fun r x pair grant => ⟨?_, kept r x pair grant⟩⟩
    exact other r ⟨pair, fun y grant => kept r y pair grant⟩
  · rintro ⟨there, lasting, both⟩
    refine ⟨fun r pair => ?_, there, lasting, fun r x pair grant => (both r x pair grant).2⟩
    have key := (c.paired r).mp (Assoc.mem_keys_iff.mpr ⟨a, pair.1⟩)
    obtain ⟨x, grant⟩ := Assoc.mem_keys_iff.mp key
    exact (both r x pair.1 grant).1

end

end FileGate.TokenStore
