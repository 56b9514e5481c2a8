import Mathlib.Data.List.Nodup
import Mathlib.Data.List.Pairwise
import FileGate.Proofs.Tokens.Sparing

namespace FileGate.TokenStore

variable {τ : Type} {h : List (Event τ)} {e f : Event τ} {s : TokenStore τ}
variable {life : Lifetimes τ} {now : τ} {a a' b r r' x user access refresh : String}
variable {previous : Option String}

/-! ### Runs without repetition -/

def Event.tokens (e : Event τ) : List String :=
  match e.operation.pair? with
  | some (access, refresh) => [access, refresh]
  | none => []

theorem Event.mem_tokens : x ∈ e.tokens ↔ ∃ p ∈ e.operation.pair?, x = p.1 ∨ x = p.2 := by
  unfold Event.tokens
  cases e.operation.pair? with
  | none => simp
  | some p => simp

def issued (h : List (Event τ)) : List String := h.flatMap Event.tokens

theorem mem_issued (he : e ∈ h) (hx : x ∈ e.tokens) : x ∈ issued h :=
  List.mem_flatMap.mpr ⟨e, he, hx⟩

theorem issued_snoc : issued (h ++ [e]) = issued h ++ e.tokens := by
  simp [issued]

theorem issued_snoc_of_quiet (quiet : e.tokens = []) : issued (h ++ [e]) = issued h := by
  rw [issued_snoc, quiet, List.append_nil]

/-- A run that issues no token twice, not even as an access token and as a refresh token. -/
structure Unrepeated (h : List (Event τ)) : Prop where
  nodup : (issued h).Nodup
  nonempty : "" ∉ issued h

/-- Two tokens that were issued together. -/
def Partners (h : List (Event τ)) (a r : String) : Prop :=
  ∃ e ∈ h, e.operation.pair? = some (a, r)

theorem Unrepeated.eq_of_mem (unrepeated : Unrepeated h) (he : e ∈ h) (hf : f ∈ h)
    (first : x ∈ e.tokens) (second : x ∈ f.tokens) : e = f := by
  refine Classical.byContradiction fun other => ?_
  obtain ⟨_, apart⟩ := List.nodup_flatMap.mp unrepeated.nodup
  have : Std.Symm (Function.onFun List.Disjoint (Event.tokens (τ := τ))) :=
    ⟨fun _ _ disjoint x second first => disjoint first second⟩
  exact apart.forall he hf other first second

theorem Unrepeated.minted (unrepeated : Unrepeated h) : Minted h where
  new := by
    refine (List.nodup_flatMap.mp unrepeated.nodup).2.imp fun apart p hp q hq => ⟨?_, ?_⟩
    · intro same
      exact apart (Event.mem_tokens.mpr ⟨p, hp, .inl rfl⟩)
        (Event.mem_tokens.mpr ⟨q, hq, .inl same⟩)
    · intro same
      exact apart (Event.mem_tokens.mpr ⟨p, hp, .inr rfl⟩)
        (Event.mem_tokens.mpr ⟨q, hq, .inr same⟩)
  nonempty e he p hp := by
    constructor
    · intro empty
      exact unrepeated.nonempty (mem_issued he (Event.mem_tokens.mpr ⟨p, hp, .inl empty.symm⟩))
    · intro empty
      exact unrepeated.nonempty (mem_issued he (Event.mem_tokens.mpr ⟨p, hp, .inr empty.symm⟩))

theorem Unrepeated.partner_unique (unrepeated : Unrepeated h) (first : Partners h a r)
    (second : Partners h a' r) : a = a' := by
  obtain ⟨e, he, pair⟩ := first
  obtain ⟨f, hf, pair'⟩ := second
  obtain rfl := unrepeated.eq_of_mem he hf (Event.mem_tokens.mpr ⟨_, pair, .inr rfl⟩)
    (Event.mem_tokens.mpr ⟨_, pair', .inr rfl⟩)
  rw [pair] at pair'
  cases pair'
  rfl

theorem Unrepeated.ne (unrepeated : Unrepeated h) (first : Partners h a r')
    (second : Partners h a' r) : a ≠ r := by
  rintro rfl
  obtain ⟨e, he, pair⟩ := first
  obtain ⟨f, hf, pair'⟩ := second
  obtain rfl := unrepeated.eq_of_mem he hf (Event.mem_tokens.mpr ⟨_, pair, .inl rfl⟩)
    (Event.mem_tokens.mpr ⟨_, pair', .inr rfl⟩)
  rw [pair] at pair'
  cases pair'
  have within := (List.nodup_flatMap.mp unrepeated.nodup).1 e he
  rw [Event.tokens, pair] at within
  simp at within

theorem Unrepeated.snoc (unrepeated : Unrepeated h) (distinct : e.tokens.Nodup)
    (new : ∀ x ∈ e.tokens, x ∉ issued h ∧ x ≠ "") : Unrepeated (h ++ [e]) where
  nodup := by
    rw [issued_snoc, List.nodup_append]
    refine ⟨unrepeated.nodup, distinct, ?_⟩
    rintro x old y young rfl
    exact (new x young).1 old
  nonempty := by
    rw [issued_snoc, List.mem_append, not_or]
    exact ⟨unrepeated.nonempty, fun empty => (new "" empty).2 rfl⟩

/-! ### What a run leaves -/

section
variable [LE τ] [DecidableLE τ] [Add τ] [OfNat τ 0]

structure GrownBy (life : Lifetimes τ) (h : List (Event τ)) (s : TokenStore τ) : Prop where
  unrepeated : Unrepeated h
  left : s = after life h

theorem GrownBy.stems (grown : s.GrownBy life h) : Stems h s := by
  rw [grown.left]
  exact after_stems life grown.unrepeated.minted

theorem partners_after (minted : Minted h) (pair : Assoc.get? r (after life h).pairs = some a) :
    Partners h a r := by
  -- From the end of the run: only an issue adds a pair to the store, and that pair is its own.
  induction h using List.reverseRecOn with
  | nil => cases pair
  | append_singleton h e ih =>
    have c := (after_stems life minted.of_append).coherent
    have old (before : Assoc.get? r (after life h).pairs = some a) : Partners (h ++ [e]) a r := by
      obtain ⟨f, hf, made⟩ := ih minted.of_append before
      exact ⟨f, List.mem_append_left _ hf, made⟩
    rw [after_snoc] at pair
    obtain ⟨t, op⟩ := e
    cases op with
    | issue user previous access refresh =>
      rcases c.get?_pairs_issue.mp pair with ⟨rfl, rfl⟩ | ⟨_, _, before, _⟩
      · exact ⟨_, List.mem_append_right _ (List.mem_singleton_self _), rfl⟩
      · exact old before
    | checkAccess token => exact old pair
    | checkRefresh token => exact old pair
    | revokeAccess token => exact old pair
    | revokeRefresh token => exact old (c.get?_pairs_dropRefresh.mp pair).2
    | expireAccess => exact old pair

theorem GrownBy.get?_pairs (grown : s.GrownBy life h) (stored : r ∈ Assoc.keys s.refresh) :
    Assoc.get? r s.pairs = some a ↔ Partners h a r := by
  have issued {a : String} (pair : Assoc.get? r s.pairs = some a) : Partners h a r :=
    partners_after grown.unrepeated.minted (grown.left ▸ pair)
  refine ⟨issued, fun partners => ?_⟩
  -- The store has some partner for it, and a token was issued with one only.
  have key := (grown.stems.coherent.paired r).mpr stored
  obtain ⟨a', pair⟩ := Assoc.mem_keys_iff.mp key
  rw [grown.unrepeated.partner_unique partners (issued pair)]
  exact pair

theorem GrownBy.not_mem_access (grown : s.GrownBy life h) (stored : r ∈ Assoc.keys s.refresh) :
    r ∉ Assoc.keys s.access := by
  intro there
  obtain ⟨e, he, p, hp, rfl⟩ := grown.stems.access r there
  obtain ⟨f, hf, q, hq, same⟩ := grown.stems.refresh p.1 stored
  exact grown.unrepeated.ne ⟨e, he, hp⟩ ⟨f, hf, hq⟩ same.symm

theorem GrownBy.apply (grown : s.GrownBy life h) (unrepeated : Unrepeated (h ++ [e])) :
    (e.apply life s).GrownBy life (h ++ [e]) where
  unrepeated := unrepeated
  left := by rw [after_snoc, grown.left]

theorem GrownBy.apply_quiet (grown : s.GrownBy life h) (quiet : e.tokens = []) :
    (e.apply life s).GrownBy life (h ++ [e]) :=
  grown.apply (grown.unrepeated.snoc (by simp [quiet]) (by simp [quiet]))

end

/-! ### Revocation -/

def revoke (token : String) (s : TokenStore τ) : TokenStore τ :=
  if (s.revokeRefresh token).1 then (s.revokeRefresh token).2
  else ((s.revokeRefresh token).2.revokeAccess token).2

theorem revoke_of_mem (stored : b ∈ Assoc.keys s.refresh) : s.revoke b = s.dropRefresh b :=
  if_pos (Assoc.contains_iff.mpr stored)

theorem revoke_of_not_mem (absent : b ∉ Assoc.keys s.refresh) :
    s.revoke b = (s.revokeAccess b).2 := by
  have unknown : Assoc.contains b s.refresh = false := by
    rw [← Bool.not_eq_true, Assoc.contains_iff]
    exact absent
  have kept : s.dropRefresh b = s := by
    rw [dropRefresh, unknown]
    rfl
  rw [revoke, revokeRefresh, unknown, kept]
  rfl

variable [LE τ] [DecidableLE τ]

theorem valid?_erase {grants : List (String × Grant τ)} :
    valid? (Assoc.erase b grants) now x = some user ↔
      x ≠ b ∧ valid? grants now x = some user := by
  simp only [valid?_iff, Assoc.get?_erase_eq_some]
  constructor
  · rintro ⟨named, ends, ⟨other, there⟩, lasting⟩
    exact ⟨other, named, ends, there, lasting⟩
  · rintro ⟨other, named, ends, there, lasting⟩
    exact ⟨named, ends, ⟨other, there⟩, lasting⟩

variable [Add τ] [OfNat τ 0]

theorem GrownBy.revoke (grown : s.GrownBy life h) (t : τ) (b : String) :
    ∃ h', (s.revoke b).GrownBy life h' ∧ issued h' = issued h := by
  by_cases stored : b ∈ Assoc.keys s.refresh
  · rw [revoke_of_mem stored]
    exact ⟨_, grown.apply_quiet (e := ⟨t, .revokeRefresh b⟩) rfl, issued_snoc_of_quiet rfl⟩
  · rw [revoke_of_not_mem stored]
    exact ⟨_, grown.apply_quiet (e := ⟨t, .revokeAccess b⟩) rfl, issued_snoc_of_quiet rfl⟩

theorem GrownBy.checkRefresh_revoke (grown : s.GrownBy life h) :
    (s.revoke b).checkRefresh now x = some user ↔
      x ≠ b ∧ s.checkRefresh now x = some user := by
  by_cases stored : b ∈ Assoc.keys s.refresh
  · rw [revoke_of_mem stored, grown.stems.coherent.dropRefresh_eq]
    exact valid?_erase
  · rw [revoke_of_not_mem stored]
    refine ⟨fun good => ⟨?_, good⟩, And.right⟩
    rintro rfl
    rw [TokenStore.checkRefresh, TokenStore.revokeAccess, valid?_of_not_mem now stored] at good
    cases good

theorem GrownBy.checkAccess_revoke (grown : s.GrownBy life h) :
    (s.revoke b).checkAccess now x = some user ↔
      x ≠ b ∧ ¬ (b ∈ Assoc.keys s.refresh ∧ Partners h x b) ∧
        s.checkAccess now x = some user := by
  by_cases stored : b ∈ Assoc.keys s.refresh
  · have key := (grown.stems.coherent.paired b).mpr stored
    obtain ⟨a, pair⟩ := Assoc.mem_keys_iff.mp key
    have partner : Partners h x b ↔ x = a := by
      rw [← grown.get?_pairs stored, pair, Option.some.injEq, eq_comm]
    rw [revoke_of_mem stored, grown.stems.coherent.dropRefresh_eq, pair, partner]
    refine valid?_erase.trans ⟨fun ⟨other, good⟩ => ⟨?_, ?_, good⟩, fun ⟨_, other, good⟩ => ?_⟩
    -- A refresh token is not looked for among the access tokens, but it is none of them.
    · rintro rfl
      rw [valid?_of_not_mem now (grown.not_mem_access stored)] at good
      cases good
    · exact fun both => other both.2
    · exact ⟨fun same => other ⟨stored, same⟩, good⟩
  · rw [revoke_of_not_mem stored]
    refine valid?_erase.trans (and_congr_right fun _ => ?_)
    exact ⟨fun good => ⟨fun both => stored both.1, good⟩, And.right⟩

end FileGate.TokenStore
