import FileGate.Server.Tokens
import FileGate.Proofs.Tokens.Withdrawal

namespace FileGate

namespace Server

def IsTokenName (t : String) : Prop := ∃ n, t = tokenName n

theorem isTokenName_tokenName (n : Nat) : IsTokenName (tokenName n) := ⟨n, rfl⟩

theorem tokenName_toList (n : Nat) : (tokenName n).toList = 't' :: (toString n).toList := by
  rw [tokenName, String.toList_append]
  rfl

theorem IsTokenName.head {t : String} (h : IsTokenName t) : t.toList.head? = some 't' := by
  obtain ⟨n, rfl⟩ := h
  rw [tokenName_toList]
  rfl

theorem IsTokenName.ne_empty {t : String} (h : IsTokenName t) : t ≠ "" := by
  intro empty
  have first := h.head
  rw [empty] at first
  cases first

theorem not_isTokenName_empty : ¬ IsTokenName "" := fun h => h.ne_empty rfl

theorem not_isTokenName_accessPlaceholder : ¬ IsTokenName accessPlaceholder := by
  intro h
  have first := h.head
  revert first
  decide

theorem not_isTokenName_refreshPlaceholder : ¬ IsTokenName refreshPlaceholder := by
  intro h
  have first := h.head
  revert first
  decide

end Server

namespace TokenStore

open Server

variable {τ : Type}

structure Named (s : TokenStore τ) : Prop where
  access : ∀ t ∈ Assoc.keys s.access, IsTokenName t
  refresh : ∀ t ∈ Assoc.keys s.refresh, IsTokenName t

theorem empty_named : Named ({} : TokenStore τ) :=
  ⟨fun _ h => (List.not_mem_nil h).elim, fun _ h => (List.not_mem_nil h).elim⟩

theorem Named.dropRefresh {s : TokenStore τ} (h : s.Named) (token : String) :
    (s.dropRefresh token).Named := by
  rw [TokenStore.dropRefresh]
  split
  · exact h
  · refine ⟨?_, fun t ht => h.refresh t (Assoc.mem_keys_erase.mp ht).2⟩
    intro t ht
    dsimp only at ht
    split at ht
    · split at ht
      · exact h.access t ht
      · exact h.access t (Assoc.mem_keys_erase.mp ht).2
    · exact h.access t ht

theorem Named.revokeAccess {s : TokenStore τ} (h : s.Named) (token : String) :
    (s.revokeAccess token).2.Named :=
  ⟨fun t ht => h.access t (Assoc.mem_keys_erase.mp ht).2, h.refresh⟩

theorem Named.expireAccess [OfNat τ 0] {s : TokenStore τ} (h : s.Named) : s.expireAccess.Named := by
  refine ⟨fun t ht => h.access t ?_, h.refresh⟩
  rw [← keys_expireAccess s]
  exact ht

variable [LE τ] [DecidableLE τ]

theorem Named.prune {s : TokenStore τ} (h : s.Named) (now : τ) : (s.prune now).Named := by
  have dropped : ∀ (ts : List String) {s : TokenStore τ}, s.Named →
      (ts.foldl (fun s t => s.dropRefresh t) s).Named := by
    intro ts
    induction ts with
    | nil => exact fun h => h
    | cons t ts ih => exact fun h => ih (h.dropRefresh t)
  have erased : ∀ (ts : List String) (m : List (String × Grant τ)),
      ∀ t ∈ Assoc.keys (ts.foldl (fun m t => Assoc.erase t m) m), t ∈ Assoc.keys m := by
    intro ts
    induction ts with
    | nil => exact fun m t ht => ht
    | cons t ts ih => exact fun m u hu => (Assoc.mem_keys_erase.mp (ih _ u hu)).2
  have rest := dropped (expired now s.refresh) h
  exact ⟨fun t ht => rest.access t (erased _ _ t ht), rest.refresh⟩

omit [LE τ] [DecidableLE τ] in
theorem Named.put {s : TokenStore τ} (h : s.Named) (a r : Grant τ) (n m : Nat)
    (pairs : List (String × String)) :
    Named ⟨Assoc.put (tokenName n) a s.access, Assoc.put (tokenName m) r s.refresh, pairs⟩ := by
  constructor
  · intro t ht
    rcases Assoc.mem_keys_put.mp ht with rfl | ht
    · exact isTokenName_tokenName n
    · exact h.access t ht
  · intro t ht
    rcases Assoc.mem_keys_put.mp ht with rfl | ht
    · exact isTokenName_tokenName m
    · exact h.refresh t ht

theorem Named.issue [Add τ] {s : TokenStore τ} (h : s.Named) (life : Lifetimes τ) (now : τ)
    (user : String) (previous : Option String) (n m : Nat) :
    (s.issue life now user previous (tokenName n) (tokenName m)).Named := by
  have pruned := h.prune now
  cases previous with
  | none => exact pruned.put _ _ n m _
  | some p =>
    by_cases empty : p.isEmpty = true
    · simp only [TokenStore.issue, if_pos empty]
      exact pruned.put _ _ n m _
    · simp only [TokenStore.issue, if_neg empty]
      exact (pruned.dropRefresh p).put _ _ n m _

/-! ### What is good -/

theorem Named.checkAccess_eq_none {s : TokenStore τ} (h : s.Named) (now : τ) {t : String}
    (other : ¬ IsTokenName t) : s.checkAccess now t = none :=
  valid?_of_not_mem now fun there => other (h.access t there)

theorem Named.checkRefresh_eq_none {s : TokenStore τ} (h : s.Named) (now : τ) {t : String}
    (other : ¬ IsTokenName t) : s.checkRefresh now t = none :=
  valid?_of_not_mem now fun there => other (h.refresh t there)

theorem valid?_put (grants : List (String × Grant τ)) (now : τ) {token : String} (g : Grant τ)
    (named : IsTokenName token) (lasting : ¬ g.expires ≤ now) :
    valid? (Assoc.put token g grants) now token = some g.user := by
  simp [valid?, Assoc.get?_put_self, lasting, named.ne_empty]

theorem check_issue [Add τ] (s : TokenStore τ) (life : Lifetimes τ) (now : τ) (user : String)
    (previous : Option String) (n m : Nat) (access : ¬ now + life.access ≤ now)
    (refresh : ¬ now + life.refresh ≤ now) :
    (s.issue life now user previous (tokenName n) (tokenName m)).checkAccess now (tokenName n) =
        some user ∧
      (s.issue life now user previous (tokenName n) (tokenName m)).checkRefresh now (tokenName m) =
        some user :=
  ⟨valid?_put _ now ⟨user, now + life.access⟩ (isTokenName_tokenName n) access,
    valid?_put _ now ⟨user, now + life.refresh⟩ (isTokenName_tokenName m) refresh⟩

end TokenStore
end FileGate
