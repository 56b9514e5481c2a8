import FileGate.Proofs.Server.Grants
import FileGate.Proofs.Tokens.Revocation

/-! Servers that can arise, whatever their configuration, and what is true of the tokens of each of
them: the store is coherent, its refresh tokens bear numbers that were given out, and it is what a
run leaves that issues no token twice. -/
namespace FileGate

theorem Server.tokenName_injective {m n : Nat} (same : tokenName m = tokenName n) : m = n := by
  have texts : (tokenName m).toList = (tokenName n).toList := by rw [same]
  rw [tokenName_toList, tokenName_toList, List.cons.injEq] at texts
  have digits : Nat.toDigits 10 m = Nat.toDigits 10 n := by
    rw [← Nat.toList_repr, ← Nat.toList_repr]
    exact texts.2
  have read (k : Nat) : Nat.ofDigitChars 10 (Nat.toDigits 10 k) 0 = k :=
    Nat.ofDigitChars_toDigits (by decide) (by decide)
  rw [← read m, digits, read n]

namespace Server

variable {τ : Type}

/-! ### What a request does to the tokens -/

def spans (s : Server τ) : TokenStore.Lifetimes τ := ⟨s.accessLife.span, s.refreshLife.span⟩

/-- What becomes of the tokens of a server: nothing, an issue or a revocation. -/
inductive Turn [LE τ] [DecidableLE τ] [Add τ] (s s' : Server τ) : Prop where
  | same (tokens : s'.tokens = s.tokens) (issued : s'.issued = s.issued)
  | issue (user : String) (previous : Option String)
      (tokens : s'.tokens = s.tokens.issue s.spans s.now user previous (tokenName (s.issued + 1))
        (tokenName (s.issued + 2)))
      (issued : s'.issued = s.issued + 2)
  | revoke (token : String) (tokens : s'.tokens = s.tokens.revoke token)
      (issued : s'.issued = s.issued)

section
variable [LE τ] [DecidableLE τ] [Add τ]

theorem serveRevoke_turn (s : Server τ) (r : Asked) : Turn s (s.serveRevoke r).2 := by
  unfold serveRevoke
  split
  · exact .same rfl rfl
  · dsimp only
    split
    · exact .same rfl rfl
    · exact .revoke _ rfl rfl

theorem serveToken_turn (s : Server τ) (r : Asked) : Turn s (s.serveToken r).2 := by
  rcases s.earns_or_refused r with ⟨user, previous, earns⟩ | refused
  · rw [serveToken_of_earns earns]
    exact .issue user previous rfl rfl
  · rw [refused.unchanged]
    exact .same rfl rfl

theorem serveFiles_turn {s s' : Server τ} {r : Asked} {rest : List Char} {a : Response}
    (served : s.serveFiles r rest = .ok (a, s')) : Turn s s' := by
  cases share : sharePart? rest with
  | some part =>
    rw [serveFiles, share] at served
    cases found : s.serveShare r part with
    | error e =>
      simp only [found] at served
      cases served
    | ok b =>
      simp only [found] at served
      cases served
      exact .same rfl rfl
  | none =>
    by_cases user : s.user? r = none
    · rw [serveFiles_of_none share user] at served
      cases served
      exact .same rfl rfl
    · rw [serveFiles_of_user share user] at served
      cases served
      exact .same rfl rfl

theorem handle_turn (s : Server τ) (r : Asked) : Turn s (s.handle r).2 := by
  rcases s.handle_state r with same | ⟨rule, rest, _, _, served⟩
  · rw [same]
    exact .same rfl rfl
  · rw [served]
    unfold serve
    cases rule.endpoint with
    | static => exact .same rfl rfl
    | token => exact s.serveToken_turn r
    | revoke => exact s.serveRevoke_turn r
    | files =>
      dsimp only
      cases answer : s.serveFiles r rest with
      | error e => exact .same rfl rfl
      | ok x => exact serveFiles_turn answer

end

/-! ### Numbers of tokens -/

/-- The refresh tokens that a store has are coherent and among the first `n` tokens of all. -/
structure Numbered (tokens : TokenStore τ) (n : Nat) : Prop where
  coherent : tokens.Coherent
  number : ∀ t ∈ Assoc.keys tokens.refresh, ∃ k ≤ n, t = tokenName k

theorem empty_numbered (n : Nat) : Numbered ({} : TokenStore τ) n :=
  ⟨TokenStore.empty_coherent, fun _ there => (List.not_mem_nil there).elim⟩

theorem Numbered.revoke {tokens : TokenStore τ} {n : Nat} (numbered : Numbered tokens n)
    (x : String) : Numbered (tokens.revoke x) n := by
  by_cases stored : x ∈ Assoc.keys tokens.refresh
  · rw [TokenStore.revoke_of_mem stored]
    refine ⟨numbered.coherent.dropRefresh x, fun t there => numbered.number t ?_⟩
    rw [numbered.coherent.dropRefresh_eq] at there
    exact (Assoc.mem_keys_erase.mp there).2
  · rw [TokenStore.revoke_of_not_mem stored]
    exact ⟨numbered.coherent.revokeAccess x, numbered.number⟩

variable [LE τ] [DecidableLE τ] [Add τ]

theorem Numbered.sendTokens {s : Server τ} (numbered : Numbered s.tokens s.issued)
    (user cookiePath : String) (previous : Option String) :
    Numbered (s.sendTokens user cookiePath previous).2.tokens
      (s.sendTokens user cookiePath previous).2.issued := by
  have access := (isTokenName_tokenName (s.issued + 1)).ne_empty
  have refresh := (isTokenName_tokenName (s.issued + 2)).ne_empty
  refine ⟨numbered.coherent.issue access refresh, fun t there => ?_⟩
  obtain ⟨g, found⟩ := Assoc.mem_keys_iff.mp there
  -- A token that is there after an issue is the new one or was there before.
  rcases numbered.coherent.get?_refresh_issue.mp found with ⟨new, _⟩ | ⟨_, _, old, _⟩
  · exact ⟨s.issued + 2, Nat.le_refl _, new⟩
  · obtain ⟨k, given, name⟩ := numbered.number t (Assoc.mem_keys_iff.mpr ⟨g, old⟩)
    exact ⟨k, Nat.le_add_right_of_le given, name⟩

theorem Numbered.handle {s : Server τ} (numbered : Numbered s.tokens s.issued) (r : Asked) :
    Numbered (s.handle r).2.tokens (s.handle r).2.issued := by
  cases s.handle_turn r with
  | same tokens issued =>
    rw [tokens, issued]
    exact numbered
  | issue user previous tokens issued =>
    rw [tokens, issued]
    exact numbered.sendTokens user "" previous
  | revoke token tokens issued =>
    rw [tokens, issued]
    exact numbered.revoke token

variable [OfNat τ 0]

/-- Whatever requests, the clock and the expiry of access tokens make out of a new server. -/
inductive Arises : Server τ → Prop where
  | fresh (s : Server τ) (new : s.tokens = {}) : Arises s
  | request {s : Server τ} (r : Asked) (before : Arises s) : Arises (s.handle r).2
  | clock {s : Server τ} (now : τ) (before : Arises s) : Arises { s with now }
  | expire {s : Server τ} (before : Arises s) :
      Arises { s with tokens := s.tokens.expireAccess }

theorem Reachable.arises {s : Server τ} {h : Held} (reached : Reachable s h) : Arises s := by
  induction reached with
  | fresh s fresh => exact .fresh s fresh.tokens
  | own r _ ih => exact .request r ih
  | other r _ ih => exact .request r ih
  | clock now _ ih => exact .clock now ih
  | expire _ ih => exact .expire ih

theorem Arises.numbered {s : Server τ} (arises : Arises s) : Numbered s.tokens s.issued := by
  induction arises with
  | fresh s new =>
    rw [new]
    exact empty_numbered s.issued
  | request r _ ih => exact ih.handle r
  | clock now _ ih => exact ih
  | expire _ ih => exact ⟨ih.coherent.expireAccess, ih.number⟩

/-! ### Runs of the store -/

/-- The tokens of a server are what a run leaves that issues no token twice, and none of those that
are still to come. -/
structure GrownBy (s : Server τ) (h : List (TokenStore.Event τ)) : Prop where
  tokens : s.tokens.GrownBy s.spans h
  unused : ∀ k, s.issued < k → tokenName k ∉ TokenStore.issued h

theorem GrownBy.issue {s s' : Server τ} {h : List (TokenStore.Event τ)} (grown : s.GrownBy h)
    (spans : s'.spans = s.spans) (user : String) (previous : Option String)
    (tokens : s'.tokens = s.tokens.issue s.spans s.now user previous (tokenName (s.issued + 1))
      (tokenName (s.issued + 2)))
    (issued : s'.issued = s.issued + 2) : ∃ h', s'.GrownBy h' := by
  let e : TokenStore.Event τ :=
    ⟨s.now, .issue user previous (tokenName (s.issued + 1)) (tokenName (s.issued + 2))⟩
  have names : e.tokens = [tokenName (s.issued + 1), tokenName (s.issued + 2)] := rfl
  have distinct : e.tokens.Nodup := by
    rw [names, List.nodup_cons, List.mem_singleton]
    refine ⟨fun same => ?_, List.nodup_singleton _⟩
    have := tokenName_injective same
    omega
  have number : ∀ x ∈ e.tokens, ∃ k, s.issued < k ∧ k ≤ s.issued + 2 ∧ x = tokenName k := by
    intro x young
    simp only [names, List.mem_cons, List.not_mem_nil, or_false] at young
    rcases young with rfl | rfl
    · exact ⟨_, by omega, by omega, rfl⟩
    · exact ⟨_, by omega, by omega, rfl⟩
  have new : ∀ x ∈ e.tokens, x ∉ TokenStore.issued h ∧ x ≠ "" := by
    intro x young
    obtain ⟨k, later, _, rfl⟩ := number x young
    exact ⟨grown.unused k later, (isTokenName_tokenName k).ne_empty⟩
  refine ⟨h ++ [e], ?_, fun k later => ?_⟩
  · rw [tokens, spans]
    exact grown.tokens.apply (grown.tokens.unrepeated.snoc distinct new)
  · rw [issued] at later
    rw [TokenStore.issued_snoc, List.mem_append, not_or]
    refine ⟨grown.unused k (by omega), fun young => ?_⟩
    obtain ⟨j, _, small, same⟩ := number _ young
    have := tokenName_injective same
    omega

theorem GrownBy.handle {s : Server τ} {h : List (TokenStore.Event τ)} (grown : s.GrownBy h)
    (r : Asked) : ∃ h', (s.handle r).2.GrownBy h' := by
  have keeps := (s.handle_effect r).1
  have spans : (s.handle r).2.spans = s.spans := by
    rw [Server.spans, Server.spans, keeps.accessLife, keeps.refreshLife]
  cases s.handle_turn r with
  | same tokens issued =>
    refine ⟨h, ?_, issued ▸ grown.unused⟩
    rw [tokens, spans]
    exact grown.tokens
  | issue user previous tokens issued => exact grown.issue spans user previous tokens issued
  | revoke token tokens issued =>
    obtain ⟨h', left, same⟩ := grown.tokens.revoke s.now token
    refine ⟨h', ?_, ?_⟩
    · rw [tokens, spans]
      exact left
    · rw [issued, same]
      exact grown.unused

theorem GrownBy.new {s : Server τ} {h : List (TokenStore.Event τ)} (grown : s.GrownBy h) {k : Nat}
    (later : s.issued < k) :
    tokenName k ∉ Assoc.keys s.tokens.access ∧ tokenName k ∉ Assoc.keys s.tokens.refresh := by
  constructor
  · intro there
    obtain ⟨e, he, p, made, same⟩ := grown.tokens.stems.access _ there
    have young := TokenStore.Event.mem_tokens.mpr ⟨p, made, .inl same.symm⟩
    exact grown.unused k later (TokenStore.mem_issued he young)
  · intro there
    obtain ⟨e, he, p, made, same⟩ := grown.tokens.stems.refresh _ there
    have young := TokenStore.Event.mem_tokens.mpr ⟨p, made, .inr same.symm⟩
    exact grown.unused k later (TokenStore.mem_issued he young)

theorem Arises.grown {s : Server τ} (arises : s.Arises) : ∃ h, s.GrownBy h := by
  induction arises with
  | fresh s new =>
    refine ⟨[], ⟨⟨List.nodup_nil, List.not_mem_nil⟩, new⟩, fun _ _ => List.not_mem_nil⟩
  | request r _ ih =>
    obtain ⟨h, grown⟩ := ih
    exact grown.handle r
  | clock now _ ih =>
    obtain ⟨h, grown⟩ := ih
    exact ⟨h, grown.tokens, grown.unused⟩
  | @expire s _ ih =>
    obtain ⟨h, grown⟩ := ih
    have later := grown.tokens.apply_quiet (e := ⟨s.now, .expireAccess⟩) rfl
    refine ⟨_, later, ?_⟩
    rw [TokenStore.issued_snoc_of_quiet rfl]
    exact grown.unused

end Server
end FileGate
