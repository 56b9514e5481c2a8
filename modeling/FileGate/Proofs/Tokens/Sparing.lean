import Mathlib.Algebra.Order.Group.Int
import FileGate.Proofs.Tokens.Validity

/-! What an issue takes from the sessions of others. It removes what has expired, and with a refresh
token the access token that goes with it, be it good or not. -/
namespace FileGate.TokenStore

variable {τ : Type} {h h' : List (Event τ)} {e : Event τ} {s s' : TokenStore τ}
variable {now : τ} {life : Lifetimes τ} {a r u user access refresh : String}
variable {previous : Option String}

/-- A run in which every token that is issued is new, whatever the clock shows. -/
structure Minted (h : List (Event τ)) : Prop where
  new : h.Pairwise Event.Apart
  nonempty : ∀ e ∈ h, ∀ p ∈ e.operation.pair?, p.1 ≠ "" ∧ p.2 ≠ ""

theorem Minted.of_append (minted : Minted (h ++ h')) : Minted h where
  new := (List.pairwise_append.mp minted.new).1
  nonempty e he := minted.nonempty e (List.mem_append_left _ he)

theorem Proper.minted [LE τ] [OfNat τ 0] (proper : Proper h now) : Minted h :=
  ⟨proper.new, proper.nonempty⟩

/-! ### Where the tokens of a store come from -/

structure Stems (h : List (Event τ)) (s : TokenStore τ) : Prop where
  coherent : s.Coherent
  access : ∀ a ∈ Assoc.keys s.access, ∃ e ∈ h, ∃ p ∈ e.operation.pair?, p.1 = a
  refresh : ∀ r ∈ Assoc.keys s.refresh, ∃ e ∈ h, ∃ p ∈ e.operation.pair?, p.2 = r

theorem empty_stems : Stems [] ({} : TokenStore τ) where
  coherent := empty_coherent
  access _ there := (List.not_mem_nil there).elim
  refresh _ there := (List.not_mem_nil there).elim

theorem Stems.of_subset (stems : Stems h s) (coherent : s'.Coherent)
    (fewerAccess : Assoc.keys s'.access ⊆ Assoc.keys s.access)
    (fewerRefresh : Assoc.keys s'.refresh ⊆ Assoc.keys s.refresh) : Stems (h ++ [e]) s' where
  coherent := coherent
  access a there := by
    obtain ⟨f, hf, made⟩ := stems.access a (fewerAccess there)
    exact ⟨f, List.mem_append_left _ hf, made⟩
  refresh r there := by
    obtain ⟨f, hf, made⟩ := stems.refresh r (fewerRefresh there)
    exact ⟨f, List.mem_append_left _ hf, made⟩

theorem Stems.dropRefresh (stems : Stems h s) (x : String) :
    Stems (h ++ [e]) (s.dropRefresh x) := by
  have c := stems.coherent
  refine stems.of_subset (c.dropRefresh x) (fun a there => ?_) (fun r there => ?_)
  · obtain ⟨g, hg⟩ := Assoc.mem_keys_iff.mp there
    exact Assoc.mem_keys_iff.mpr ⟨g, (c.get?_access_dropRefresh.mp hg).2⟩
  · obtain ⟨g, hg⟩ := Assoc.mem_keys_iff.mp there
    exact Assoc.mem_keys_iff.mpr ⟨g, (c.get?_refresh_dropRefresh.mp hg).2⟩

theorem Stems.revokeAccess (stems : Stems h s) (x : String) :
    Stems (h ++ [e]) (s.revokeAccess x).2 :=
  stems.of_subset (stems.coherent.revokeAccess x) (fun _ there => (Assoc.mem_keys_erase.mp there).2)
    (List.Subset.refl _)

theorem Stems.expireAccess [OfNat τ 0] (stems : Stems h s) : Stems (h ++ [e]) s.expireAccess := by
  refine stems.of_subset stems.coherent.expireAccess (fun a there => ?_) (List.Subset.refl _)
  rwa [keys_expireAccess] at there

section
variable [LE τ] [DecidableLE τ] [Add τ]

theorem Stems.issue (stems : Stems h s)
    (minted : Minted (h ++ [⟨now, .issue user previous access refresh⟩])) :
    Stems (h ++ [⟨now, .issue user previous access refresh⟩])
      (s.issue life now user previous access refresh) := by
  have c := stems.coherent
  obtain ⟨ha, hr⟩ := minted.nonempty _ (List.mem_append_right _ (List.mem_singleton_self _)) _ rfl
  refine ⟨c.issue ha hr, fun a there => ?_, fun r there => ?_⟩
  · obtain ⟨g, hg⟩ := Assoc.mem_keys_iff.mp there
    rcases c.get?_access_issue.mp hg with ⟨rfl, _⟩ | ⟨_, old, _⟩
    · exact ⟨_, List.mem_append_right _ (List.mem_singleton_self _), _, rfl, rfl⟩
    · obtain ⟨f, hf, made⟩ := stems.access a (Assoc.mem_keys_iff.mpr ⟨g, old⟩)
      exact ⟨f, List.mem_append_left _ hf, made⟩
  · obtain ⟨g, hg⟩ := Assoc.mem_keys_iff.mp there
    rcases c.get?_refresh_issue.mp hg with ⟨rfl, _⟩ | ⟨_, _, old, _⟩
    · exact ⟨_, List.mem_append_right _ (List.mem_singleton_self _), _, rfl, rfl⟩
    · obtain ⟨f, hf, made⟩ := stems.refresh r (Assoc.mem_keys_iff.mpr ⟨g, old⟩)
      exact ⟨f, List.mem_append_left _ hf, made⟩

theorem Stems.step [OfNat τ 0] (stems : Stems h s) (minted : Minted (h ++ [e])) :
    Stems (h ++ [e]) (e.apply life s) := by
  have same : Stems (h ++ [e]) s :=
    stems.of_subset stems.coherent (List.Subset.refl _) (List.Subset.refl _)
  obtain ⟨t, op⟩ := e
  cases op with
  | issue user previous access refresh => exact stems.issue minted
  | checkAccess token => exact same
  | checkRefresh token => exact same
  | revokeAccess token => exact stems.revokeAccess token
  | revokeRefresh token => exact stems.dropRefresh token
  | expireAccess => exact stems.expireAccess

theorem after_stems [OfNat τ 0] (life : Lifetimes τ) (minted : Minted h) :
    Stems h (after life h) := by
  induction h using List.reverseRecOn with
  | nil => exact empty_stems
  | append_singleton h e ih =>
    rw [after_snoc]
    exact (ih minted.of_append).step minted

omit [LE τ] [DecidableLE τ] [Add τ] in
theorem Stems.new (stems : Stems h s)
    (minted : Minted (h ++ [⟨now, .issue user previous access refresh⟩])) :
    access ∉ Assoc.keys s.access ∧ refresh ∉ Assoc.keys s.refresh := by
  have apart := (List.pairwise_append.mp minted.new).2.2
  constructor
  · intro there
    obtain ⟨f, hf, p, hp, same⟩ := stems.access _ there
    exact (apart f hf _ (List.mem_singleton_self _) p hp _ rfl).1 same
  · intro there
    obtain ⟨f, hf, p, hp, same⟩ := stems.refresh _ there
    exact (apart f hf _ (List.mem_singleton_self _) p hp _ rfl).2 same

end

/-! ### What an issue spares -/

section
variable [LE τ] [DecidableLE τ] [Add τ]

theorem Coherent.checkRefresh_issue (c : s.Coherent) (new : refresh ∉ Assoc.keys s.refresh)
    (good : s.checkRefresh now r = some u) :
    (s.issue life now user previous access refresh).checkRefresh now r = some u ↔
      previous ≠ some r := by
  obtain ⟨nonempty, ends, there, lasting⟩ := valid?_iff.mp good
  have other : r ≠ refresh := by
    rintro rfl
    exact new (Assoc.mem_keys_iff.mpr ⟨_, there⟩)
  rw [checkRefresh, valid?_iff]
  constructor
  · rintro ⟨_, _, kept, _⟩
    rcases c.get?_refresh_issue.mp kept with ⟨same, _⟩ | ⟨_, apart, _⟩
    · exact absurd same other
    · exact apart
  · intro apart
    exact ⟨nonempty, ends, c.get?_refresh_issue.mpr (.inr ⟨other, apart, there, lasting⟩), lasting⟩

theorem Coherent.checkAccess_issue (c : s.Coherent) (new : access ∉ Assoc.keys s.access)
    (good : s.checkAccess now a = some u) :
    (s.issue life now user previous access refresh).checkAccess now a = some u ↔
      ∀ r, Assoc.get? r s.pairs = some a →
        previous ≠ some r ∧ ∃ v, s.checkRefresh now r = some v := by
  obtain ⟨nonempty, ends, there, lasting⟩ := valid?_iff.mp good
  have other : a ≠ access := by
    rintro rfl
    exact new (Assoc.mem_keys_iff.mpr ⟨_, there⟩)
  rw [checkAccess, valid?_iff]
  constructor
  · rintro ⟨_, _, kept, _⟩ r pair
    rcases c.get?_access_issue.mp kept with ⟨same, _⟩ | ⟨_, _, _, partners⟩
    · exact absurd same other
    -- Coherence gives the partner a grant; the law of the look-up says what is true of it.
    have key : r ∈ Assoc.keys s.refresh := (c.paired r).mp (Assoc.mem_keys_iff.mpr ⟨a, pair⟩)
    obtain ⟨⟨owner, until_⟩, grant⟩ := Assoc.mem_keys_iff.mp key
    obtain ⟨apart, outlasts⟩ := partners r _ pair grant
    have named : r ≠ "" := fun empty => c.nonempty (empty ▸ key)
    exact ⟨apart, owner, valid?_iff.mpr ⟨named, until_, grant, outlasts⟩⟩
  · intro partners
    refine ⟨nonempty, ends, c.get?_access_issue.mpr (.inr ⟨other, there, lasting, ?_⟩), lasting⟩
    intro r g pair grant
    obtain ⟨apart, v, accepted⟩ := partners r pair
    obtain ⟨_, until_, grant', outlasts⟩ := valid?_iff.mp accepted
    rw [grant] at grant'
    cases grant'
    exact ⟨apart, outlasts⟩

end

section
variable [LinearOrder τ] [Add τ]

/-- What was good before an issue is good after it, but for the refresh token that the new pair
comes in place of and the access token that goes with it. -/
structure Spares (now : τ) (previous : Option String) (s s' : TokenStore τ) : Prop where
  refresh : ∀ r u, s.checkRefresh now r = some u → previous ≠ some r →
    s'.checkRefresh now r = some u
  access : ∀ a u, s.checkAccess now a = some u →
    (∀ r, Assoc.get? r s.pairs = some a → previous ≠ some r) → s'.checkAccess now a = some u

end

section
variable [AddZeroClass τ] [LinearOrder τ] [AddLeftMono τ]

/-- An access token that is good has a good refresh token, where none outlives its refresh token. -/
theorem Recorded.partner_good (recorded : Recorded life h s) (proper : Proper h now)
    (short : life.access ≤ life.refresh ∨ life.access ≤ 0) (good : s.checkAccess now a = some u)
    (pair : Assoc.get? r s.pairs = some a) : s.checkRefresh now r = some u := by
  obtain ⟨_, ends, there, lasting⟩ := valid?_eq_some_iff.mp good
  have past := fun e (he : e ∈ h) => proper.time_le he
  obtain ⟨t, x, rfl, kept⟩ := (recorded.access now proper.zero_le past a u ends lasting).mp there
  obtain rfl := (recorded.paired proper kept r).mp pair
  have grant := recorded.get?_refresh kept
  obtain ⟨_, made⟩ := kept.keepsRefresh.exists_mem
  have outlasts : now < t + life.refresh := by
    rcases short with short | never
    · exact lt_of_lt_of_le lasting (add_le_add_right short t)
    · have early : t + life.access ≤ t := by simpa using add_le_add_right never t
      exact absurd lasting (not_lt.mpr (le_trans early (past _ made)))
  exact valid?_eq_some_iff.mpr ⟨(proper.nonempty _ made _ rfl).2, _, grant, outlasts⟩

theorem issue_spares_of_short (short : life.access ≤ life.refresh ∨ life.access ≤ 0)
    (proper : Proper (h ++ [⟨now, .issue user previous access refresh⟩]) now) :
    Spares now previous (after life h)
      (after life (h ++ [⟨now, .issue user previous access refresh⟩])) := by
  have before : Proper h now := proper.of_append
  have stems := after_stems life before.minted
  obtain ⟨newAccess, newRefresh⟩ := stems.new proper.minted
  rw [after_snoc]
  refine ⟨fun r u good apart => ?_, fun a u good apart => ?_⟩
  · exact (stems.coherent.checkRefresh_issue newRefresh good).mpr apart
  · refine (stems.coherent.checkAccess_issue newAccess good).mpr fun r pair => ?_
    exact ⟨apart r pair, u, (after_recorded life before).partner_good before short good pair⟩

def firstLogin : Event τ := ⟨0, .issue "u" none "t1" "t2"⟩

def twoLogins (now : τ) : List (Event τ) := [firstLogin, ⟨now, .issue "v" none "t3" "t4"⟩]

omit [AddLeftMono τ] in
theorem twoLogins_proper (start : 0 ≤ now) : Proper (twoLogins now) now where
  clock := by simp [twoLogins, firstLogin, start]
  new := by simp [twoLogins, firstLogin, Event.Apart, Operation.pair?]
  nonempty := by simp [twoLogins, firstLogin, Operation.pair?]

omit [AddLeftMono τ] in
theorem twoLogins_takes (start : 0 ≤ now) (ended : life.refresh ≤ now) (good : now < life.access) :
    (after life [firstLogin]).checkAccess now "t1" = some "u" ∧
      (after life (twoLogins now)).checkAccess now "t1" ≠ some "u" := by
  have minted := (twoLogins_proper start).minted
  have stems := after_stems life (h := [firstLogin]) minted.of_append
  have first : after life [firstLogin] = ({} : TokenStore τ).issue life 0 "u" none "t1" "t2" := rfl
  have accepted : (after life [firstLogin]).checkAccess now "t1" = some "u" := by
    refine valid?_eq_some_iff.mpr ⟨by decide, 0 + life.access, ?_, by simpa using good⟩
    rw [first]
    exact empty_coherent.get?_access_issue.mpr (.inl ⟨rfl, rfl⟩)
  refine ⟨accepted, fun kept => ?_⟩
  have pair : Assoc.get? "t2" (after life [firstLogin]).pairs = some "t1" := by
    rw [first]
    exact empty_coherent.get?_pairs_issue.mpr (.inl ⟨rfl, rfl⟩)
  have split : twoLogins now = [firstLogin] ++ [⟨now, .issue "v" none "t3" "t4"⟩] := rfl
  rw [split, after_snoc] at kept
  have partners := (stems.coherent.checkAccess_issue (stems.new minted).1 accepted).mp kept
  obtain ⟨_, v, alive⟩ := partners "t2" pair
  obtain ⟨_, ends, grant, lasting⟩ := valid?_eq_some_iff.mp alive
  rw [first] at grant
  rcases empty_coherent.get?_refresh_issue.mp grant with ⟨_, same⟩ | ⟨other, _⟩
  · cases same
    exact absurd (by simpa using lasting) (not_lt.mpr ended)
  · exact other rfl

/-- By whatever clock, an issue spares every good refresh token but the one it comes in place of,
and of the good access tokens those whose refresh token it spares and is good as well. All sessions
but the one that is renewed are spared in every run exactly where no access token is good for longer
than its refresh token. -/
theorem issue_spares (life : Lifetimes τ) :
    (∀ h now user previous access refresh,
      Minted (h ++ [⟨now, .issue user previous access refresh⟩]) →
        let s := after life h
        let s' := after life (h ++ [⟨now, .issue user previous access refresh⟩])
        (∀ r u, s.checkRefresh now r = some u →
          (s'.checkRefresh now r = some u ↔ previous ≠ some r)) ∧
        (∀ a u, s.checkAccess now a = some u →
          (s'.checkAccess now a = some u ↔
            ∀ r, Assoc.get? r s.pairs = some a →
              previous ≠ some r ∧ ∃ v, s.checkRefresh now r = some v))) ∧
    ((∀ h now user previous access refresh,
      Proper (h ++ [⟨now, .issue user previous access refresh⟩]) now →
        Spares now previous (after life h)
          (after life (h ++ [⟨now, .issue user previous access refresh⟩]))) ↔
      life.access ≤ life.refresh ∨ life.access ≤ 0) := by
  constructor
  · intro h now user previous access refresh minted
    have stems := after_stems life minted.of_append
    obtain ⟨newAccess, newRefresh⟩ := stems.new minted
    rw [after_snoc]
    exact ⟨fun r u good => stems.coherent.checkRefresh_issue newRefresh good,
      fun a u good => stems.coherent.checkAccess_issue newAccess good⟩
  constructor
  · intro spares
    by_contra long
    obtain ⟨longer, positive⟩ := not_or.mp long
    -- The moment at which the refresh token of the first login has just come to its end.
    obtain ⟨good, taken⟩ := twoLogins_takes (le_max_right life.refresh 0)
      (le_max_left life.refresh 0) (max_lt (not_le.mp longer) (not_le.mp positive))
    have proper := twoLogins_proper (le_max_right life.refresh 0)
    have spared := spares [firstLogin] _ "v" none "t3" "t4" proper
    exact taken (spared.access "t1" "u" good fun r _ => nofun)
  · intro short h now user previous access refresh proper
    exact issue_spares_of_short short proper

theorem issue_spares_twoLogins :
    Proper (twoLogins (7 : Int)) 7 ∧
      Spares 7 none (after ⟨5, 10⟩ [firstLogin])
        (after (⟨5, 10⟩ : Lifetimes Int) (twoLogins 7)) ∧
      (after (⟨5, 10⟩ : Lifetimes Int) (twoLogins 7)).checkRefresh 7 "t2" = some "u" := by
  have proper := twoLogins_proper (by decide : (0 : Int) ≤ 7)
  obtain ⟨laws, always⟩ := issue_spares (⟨5, 10⟩ : Lifetimes Int)
  refine ⟨proper, always.mpr (.inl (by decide)) _ _ "v" none "t3" "t4" proper, ?_⟩
  have good : (after (⟨5, 10⟩ : Lifetimes Int) [firstLogin]).checkRefresh 7 "t2" = some "u" := by
    decide +kernel
  exact ((laws _ _ "v" none "t3" "t4" proper.minted).1 "t2" "u" good).mpr (by decide)

/-- Where access tokens live for 100 seconds and refresh tokens for 10, the login of one user ends
the session of another. -/
theorem login_ends_other_session :
    Proper (twoLogins (10 : Int)) 10 ∧
      (after (⟨100, 10⟩ : Lifetimes Int) [firstLogin]).checkAccess 10 "t1" = some "u" ∧
      (after (⟨100, 10⟩ : Lifetimes Int) (twoLogins 10)).checkAccess 10 "t1" = none ∧
      ¬ Spares 10 none (after ⟨100, 10⟩ [firstLogin])
        (after (⟨100, 10⟩ : Lifetimes Int) (twoLogins 10)) := by
  have start : (0 : Int) ≤ 10 := by decide
  have ended : (⟨100, 10⟩ : Lifetimes Int).refresh ≤ 10 := le_refl 10
  have lasting : 10 < (⟨100, 10⟩ : Lifetimes Int).access := by decide
  obtain ⟨good, taken⟩ := twoLogins_takes start ended lasting
  refine ⟨twoLogins_proper start, good, by decide +kernel, fun spares => taken ?_⟩
  exact spares.access "t1" "u" good fun r _ => nofun

end

end FileGate.TokenStore
