import FileGate.Proofs.Tokens.Sparing

/-! How the three maps of a store hang together. Whatever has happened, they hold nothing but pairs
that were issued together and whose refresh token has not been withdrawn since, and an issue leaves
no grant that has expired but perhaps its own. -/
namespace FileGate.TokenStore

variable {τ : Type} {h : List (Event τ)} {e f : Event τ} {s : TokenStore τ} {g : Grant τ}
variable {life : Lifetimes τ} {now : τ} {a r r' user access refresh : String}
variable {previous : Option String}

theorem Minted.eq_of_access {t t' : τ} {user' : String} {previous' : Option String}
    (minted : Minted h) (he : ⟨t, .issue user previous a r⟩ ∈ h)
    (hf : ⟨t', .issue user' previous' a r'⟩ ∈ h) : r = r' ∧ user = user' := by
  have same := Event.eq_of_not_apart minted.new he hf fun apart => (apart _ rfl _ rfl).1 rfl
  cases same
  exact ⟨rfl, rfl⟩

/-- The events after which an access token is not kept, neither with its refresh token nor alone. -/
def Event.Removes (a r : String) (e : Event τ) : Prop :=
  e.operation = .revokeAccess a ∨ e.WithdrawsRefresh r

theorem since_snoc_of_quiet {Kind : Event τ → Prop} (since : Since h e Kind) (quiet : ¬ Kind f) :
    Since (h ++ [f]) e Kind :=
  since_snoc.mpr (.inr ⟨since, quiet⟩)

theorem withdrawsRefresh_issue :
    Event.WithdrawsRefresh r (⟨now, .issue user previous access refresh⟩ : Event τ) ↔
      previous = some r := by
  simp [Event.WithdrawsRefresh]

theorem removes_issue :
    Event.Removes a r (⟨now, .issue user previous access refresh⟩ : Event τ) ↔
      previous = some r := by
  simp [Event.Removes, Event.WithdrawsRefresh]

/-- Partners have been issued together and the refresh token has not been withdrawn since, and every
access token is one of two partners. -/
structure Tied [Add τ] (life : Lifetimes τ) (h : List (Event τ)) (s : TokenStore τ) : Prop where
  stems : Stems h s
  pairs : ∀ r a, Assoc.get? r s.pairs = some a → ∃ t user previous,
    Since h ⟨t, .issue user previous a r⟩ (Event.WithdrawsRefresh r) ∧
      Assoc.get? r s.refresh = some ⟨user, t + life.refresh⟩
  access : ∀ a g, Assoc.get? a s.access = some g → ∃ r t previous,
    Assoc.get? r s.pairs = some a ∧ Since h ⟨t, .issue g.user previous a r⟩ (Event.Removes a r)

section
variable [Add τ]

theorem empty_tied : Tied life [] ({} : TokenStore τ) where
  stems := empty_stems
  pairs r a there := by cases there
  access a g there := by cases there

/-! ### One event more -/

theorem Tied.same (tied : Tied life h s) (stems : Stems (h ++ [e]) s)
    (quiet : ∀ a r, ¬ e.Removes a r) : Tied life (h ++ [e]) s where
  stems := stems
  pairs r a pair := by
    obtain ⟨t, user, previous, since, grant⟩ := tied.pairs r a pair
    exact ⟨t, user, previous, since_snoc_of_quiet since fun w => quiet a r (.inr w), grant⟩
  access a g there := by
    obtain ⟨r, t, previous, pair, since⟩ := tied.access a g there
    exact ⟨r, t, previous, pair, since_snoc_of_quiet since (quiet a r)⟩

theorem Tied.revokeAccess {t : τ} (tied : Tied life h s) (x : String) :
    Tied life (h ++ [⟨t, .revokeAccess x⟩]) (s.revokeAccess x).2 where
  stems := tied.stems.revokeAccess x
  pairs r a pair := by
    obtain ⟨t, user, previous, since, grant⟩ := tied.pairs r a pair
    refine ⟨t, user, previous, since_snoc_of_quiet since ?_, grant⟩
    simp [Event.WithdrawsRefresh]
  access a g there := by
    obtain ⟨apart, old⟩ := Assoc.get?_erase_eq_some.mp there
    obtain ⟨r, t, previous, pair, since⟩ := tied.access a g old
    refine ⟨r, t, previous, pair, since_snoc_of_quiet since ?_⟩
    simpa [Event.Removes, Event.WithdrawsRefresh, eq_comm] using apart

theorem Tied.revokeRefresh {t : τ} (tied : Tied life h s) (x : String) :
    Tied life (h ++ [⟨t, .revokeRefresh x⟩]) (s.revokeRefresh x).2 where
  stems := tied.stems.dropRefresh x
  pairs r a pair := by
    have c := tied.stems.coherent
    obtain ⟨apart, old⟩ := c.get?_pairs_dropRefresh.mp pair
    obtain ⟨t, user, previous, since, grant⟩ := tied.pairs r a old
    refine ⟨t, user, previous, since_snoc_of_quiet since ?_,
      c.get?_refresh_dropRefresh.mpr ⟨apart, grant⟩⟩
    simpa [Event.WithdrawsRefresh, eq_comm] using apart
  access a g there := by
    have c := tied.stems.coherent
    obtain ⟨other, old⟩ := c.get?_access_dropRefresh.mp there
    obtain ⟨r, t, previous, pair, since⟩ := tied.access a g old
    have apart : r ≠ x := fun same => other (same ▸ pair)
    refine ⟨r, t, previous, c.get?_pairs_dropRefresh.mpr ⟨apart, pair⟩,
      since_snoc_of_quiet since ?_⟩
    simpa [Event.Removes, Event.WithdrawsRefresh, eq_comm] using apart

theorem Tied.expireAccess [OfNat τ 0] {t : τ} (tied : Tied life h s) :
    Tied life (h ++ [⟨t, .expireAccess⟩]) s.expireAccess where
  stems := tied.stems.expireAccess
  pairs r a pair := by
    obtain ⟨t, user, previous, since, grant⟩ := tied.pairs r a pair
    refine ⟨t, user, previous, since_snoc_of_quiet since ?_, grant⟩
    simp [Event.WithdrawsRefresh]
  access a g there := by
    obtain ⟨⟨_, old⟩, listed, same⟩ := List.mem_map.mp (Assoc.mem_of_get? there)
    cases same
    have before := (Assoc.get?_eq_some_iff tied.stems.coherent.access).mpr listed
    obtain ⟨r, t, previous, pair, since⟩ := tied.access a old before
    refine ⟨r, t, previous, pair, since_snoc_of_quiet since ?_⟩
    simp [Event.Removes, Event.WithdrawsRefresh]

variable [LE τ] [DecidableLE τ]

theorem Tied.issue (tied : Tied life h s)
    (minted : Minted (h ++ [⟨now, .issue user previous access refresh⟩])) :
    Tied life (h ++ [⟨now, .issue user previous access refresh⟩])
      (s.issue life now user previous access refresh) where
  stems := tied.stems.issue minted
  pairs r a pair := by
    have c := tied.stems.coherent
    rcases c.get?_pairs_issue.mp pair with ⟨rfl, rfl⟩ | ⟨new, apart, old, lasting⟩
    · exact ⟨now, user, previous, since_snoc.mpr (.inl rfl),
        c.get?_refresh_issue.mpr (.inl ⟨rfl, rfl⟩)⟩
    · obtain ⟨t, owner, former, since, grant⟩ := tied.pairs r a old
      exact ⟨t, owner, former, since_snoc_of_quiet since (apart ∘ withdrawsRefresh_issue.mp),
        c.get?_refresh_issue.mpr (.inr ⟨new, apart, grant, lasting _ grant⟩)⟩
  access a g there := by
    have c := tied.stems.coherent
    rcases c.get?_access_issue.mp there with ⟨rfl, rfl⟩ | ⟨_, old, _, partner⟩
    · exact ⟨refresh, now, previous, c.get?_pairs_issue.mpr (.inl ⟨rfl, rfl⟩),
        since_snoc.mpr (.inl rfl)⟩
    · obtain ⟨r, t, former, pair, since⟩ := tied.access a g old
      obtain ⟨_, _, _, _, grant⟩ := tied.pairs r a pair
      obtain ⟨apart, lasting⟩ := partner r _ pair grant
      have new : r ≠ refresh := by
        rintro rfl
        exact (tied.stems.new minted).2 (Assoc.mem_keys_iff.mpr ⟨_, grant⟩)
      refine ⟨r, t, former, c.get?_pairs_issue.mpr (.inr ⟨new, apart, pair, fun x hx => ?_⟩),
        since_snoc_of_quiet since (apart ∘ removes_issue.mp)⟩
      rw [grant] at hx
      cases hx
      exact lasting

theorem Tied.step [OfNat τ 0] (tied : Tied life h s) (minted : Minted (h ++ [e])) :
    Tied life (h ++ [e]) (e.apply life s) := by
  have stems : Stems (h ++ [e]) (e.apply life s) := tied.stems.step minted
  obtain ⟨t, op⟩ := e
  cases op with
  | issue user previous access refresh => exact tied.issue minted
  | checkAccess token =>
    exact tied.same stems (by simp [Event.Removes, Event.WithdrawsRefresh])
  | checkRefresh token =>
    exact tied.same stems (by simp [Event.Removes, Event.WithdrawsRefresh])
  | revokeAccess token => exact tied.revokeAccess token
  | revokeRefresh token => exact tied.revokeRefresh token
  | expireAccess => exact tied.expireAccess

theorem after_tied [OfNat τ 0] (life : Lifetimes τ) (minted : Minted h) :
    Tied life h (after life h) := by
  induction h using List.reverseRecOn with
  | nil => exact empty_tied
  | append_singleton h e ih =>
    rw [after_snoc]
    exact (ih minted.of_append).step minted

theorem Coherent.lasting_issue (c : s.Coherent) :
    (∀ a g, Assoc.get? a (s.issue life now user previous access refresh).access = some g →
      a = access ∨ ¬ g.expires ≤ now) ∧
    (∀ r g, Assoc.get? r (s.issue life now user previous access refresh).refresh = some g →
      r = refresh ∨ ¬ g.expires ≤ now) := by
  constructor
  · intro a g there
    rcases c.get?_access_issue.mp there with ⟨same, _⟩ | ⟨_, _, lasting, _⟩
    · exact .inl same
    · exact .inr lasting
  · intro r g there
    rcases c.get?_refresh_issue.mp there with ⟨same, _⟩ | ⟨_, _, _, lasting⟩
    · exact .inl same
    · exact .inr lasting

end

/-- After every run refresh tokens are the tokens with a partner, no two have the same one, and
every access token is the partner of a refresh token of its user. What the maps hold was issued
together and not withdrawn since, and right after an issue every grant but those of the new pair
ends later. -/
theorem maps_tied [LinearOrder τ] [Add τ] [Zero τ] (life : Lifetimes τ) (minted : Minted h) :
    let s := after life h
    (∀ r, r ∈ Assoc.keys s.pairs ↔ r ∈ Assoc.keys s.refresh) ∧
    (∀ r r' a, Assoc.get? r s.pairs = some a → Assoc.get? r' s.pairs = some a → r = r') ∧
    (∀ a g, Assoc.get? a s.access = some g → ∃ r g',
      Assoc.get? r s.pairs = some a ∧ Assoc.get? r s.refresh = some g' ∧ g'.user = g.user) ∧
    (∀ r a, Assoc.get? r s.pairs = some a → ∃ t user previous,
      Since h ⟨t, .issue user previous a r⟩ (Event.WithdrawsRefresh r)) ∧
    (∀ a g, Assoc.get? a s.access = some g → ∃ t previous r,
      Since h ⟨t, .issue g.user previous a r⟩ (Event.Removes a r)) ∧
    (∀ before now user previous access refresh,
      h = before ++ [⟨now, .issue user previous access refresh⟩] →
        (∀ a g, Assoc.get? a s.access = some g → a ≠ access → now < g.expires) ∧
        (∀ r g, Assoc.get? r s.refresh = some g → r ≠ refresh → now < g.expires)) := by
  intro s
  have tied := after_tied life minted
  refine ⟨tied.stems.coherent.paired, ?_, ?_, ?_, ?_, ?_⟩
  · intro r r' a pair pair'
    obtain ⟨_, _, _, since, _⟩ := tied.pairs r a pair
    obtain ⟨_, _, _, since', _⟩ := tied.pairs r' a pair'
    exact (minted.eq_of_access since.mem since'.mem).1
  · intro a g there
    obtain ⟨r, _, _, pair, since⟩ := tied.access a g there
    obtain ⟨_, owner, _, since', grant⟩ := tied.pairs r a pair
    exact ⟨r, _, pair, grant, (minted.eq_of_access since'.mem since.mem).2⟩
  · intro r a pair
    obtain ⟨t, user, previous, since, _⟩ := tied.pairs r a pair
    exact ⟨t, user, previous, since⟩
  · intro a g there
    obtain ⟨r, t, previous, _, since⟩ := tied.access a g there
    exact ⟨t, previous, r, since⟩
  · rintro before now user previous access refresh rfl
    have c := (after_tied life minted.of_append).stems.coherent
    have left : s = (after life before).issue life now user previous access refresh :=
      after_snoc life before _
    rw [left]
    obtain ⟨lastingAccess, lastingRefresh⟩ := c.lasting_issue
    exact ⟨fun a g there other => not_le.mp ((lastingAccess a g there).resolve_left other),
      fun r g there other => not_le.mp ((lastingRefresh r g there).resolve_left other)⟩

def overtakenHistory : List (Event Int) :=
  [⟨0, .issue "u" none "a1" "r1"⟩, ⟨6, .issue "v" none "a2" "r2"⟩, ⟨7, .revokeAccess "a2"⟩,
    ⟨8, .issue "w" none "a3" "r3"⟩, ⟨12, .issue "v" (some "r2") "a4" "r4"⟩]

theorem maps_tied_overtakenHistory :
    Minted overtakenHistory ∧
      Assoc.keys (after (⟨5, 10⟩ : Lifetimes Int) overtakenHistory).refresh = ["r3", "r4"] ∧
      "r1" ∉ Assoc.keys (after (⟨5, 10⟩ : Lifetimes Int) overtakenHistory).pairs ∧
      ∀ g, Assoc.get? "a3" (after (⟨5, 10⟩ : Lifetimes Int) overtakenHistory).access = some g →
        12 < g.expires := by
  have minted : Minted overtakenHistory := ⟨by decide, by decide⟩
  have left : Assoc.keys (after (⟨5, 10⟩ : Lifetimes Int) overtakenHistory).refresh =
      ["r3", "r4"] := by decide +kernel
  obtain ⟨keys, _, _, _, _, lasting⟩ := maps_tied (⟨5, 10⟩ : Lifetimes Int) minted
  refine ⟨minted, left, fun there => ?_, fun g there => ?_⟩
  · have stored := (keys "r1").mp there
    rw [left] at stored
    exact absurd stored (by decide)
  · exact (lasting (overtakenHistory.take 4) 12 "v" (some "r2") "a4" "r4" rfl).1 "a3" g there
      (by decide)

end FileGate.TokenStore
