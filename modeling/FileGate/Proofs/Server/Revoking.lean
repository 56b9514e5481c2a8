import FileGate.Proofs.Server.Arising
import FileGate.Proofs.Server.Renewals

namespace FileGate

namespace Asked

/-- The token that is to be revoked: the one given, or the cookie that it is a placeholder for. -/
def revoked (r : Asked) : String :=
  if r.field "token" == accessPlaceholder then (r.cookie? "access_token").getD (r.field "token")
  else r.cookieOr (r.field "token") refreshPlaceholder "refresh_token"

/-- The token that is to be revoked comes from the cookie of the refresh token. -/
def FromRefreshCookie (r : Asked) : Prop :=
  r.field "token" = refreshPlaceholder ∧ ∃ c, r.cookie? "refresh_token" = some c ∧ c ≠ ""

theorem FromRefreshCookie.eq {r : Asked} (fromCookie : r.FromRefreshCookie) :
    r.cookie? "refresh_token" = some r.revoked := by
  obtain ⟨given, c, cookie, some_⟩ := fromCookie
  have other : ¬ (refreshPlaceholder == accessPlaceholder) = true := by decide
  rw [revoked, given, if_neg other, cookieOr_placeholder, cookie, Option.getD_some, if_neg some_]

end Asked

namespace Server

open TokenStore

variable {τ : Type} {s : Server τ} {r : Asked}

def erasing (s : Server τ) : List Cookie :=
  [s.tokenPath, s.revokePath].map fun p =>
    ⟨"refresh_token", "", Cookie.pathText p, 0, s.secureCookies⟩

structure Erases (s : Server τ) (r : Asked) : Prop where
  cookie : r.FromRefreshCookie
  stored : r.revoked ∈ Assoc.keys s.tokens.refresh
  hint : ∀ hint, r.field? "token_type_hint" = some hint → hint = "" ∨ hint = "refresh_token"

theorem erases_iff : s.Erases r ↔
    ((s.tokens.revokeRefresh r.revoked).1 &&
      (r.field "token" == refreshPlaceholder &&
        ((r.cookie? "refresh_token").map (!·.isEmpty)).getD false) &&
      ((r.field "token_type_hint").isEmpty || r.field "token_type_hint" == "refresh_token")) =
        true := by
  have cookie : ((r.cookie? "refresh_token").map (!·.isEmpty)).getD false = true ↔
      ∃ c, r.cookie? "refresh_token" = some c ∧ c ≠ "" := by
    cases r.cookie? "refresh_token" <;> simp
  have hint : (r.field "token_type_hint" = "" ∨ r.field "token_type_hint" = "refresh_token") ↔
      ∀ hint, r.field? "token_type_hint" = some hint → hint = "" ∨ hint = "refresh_token" := by
    rw [Asked.field]
    cases r.field? "token_type_hint" <;> simp
  have stored : (s.tokens.revokeRefresh r.revoked).1 = true ↔
      r.revoked ∈ Assoc.keys s.tokens.refresh := Assoc.contains_iff
  simp only [Bool.and_eq_true, Bool.or_eq_true, beq_iff_eq, String.isEmpty_iff, cookie, hint,
    stored]
  constructor
  · rintro ⟨fromCookie, stored, hint⟩
    exact ⟨⟨stored, fromCookie⟩, hint⟩
  · rintro ⟨⟨stored, fromCookie⟩, hint⟩
    exact ⟨fromCookie, stored, hint⟩

theorem serveRevoke_eq (form : r.mediaType = formType.toList) (given : r.field "token" ≠ "") :
    ∃ cookies, s.serveRevoke r =
        ({ status := 200, cookies }, { s with tokens := s.tokens.revoke r.revoked }) ∧
      (s.Erases r → cookies = s.erasing) ∧ (¬ s.Erases r → cookies = []) := by
  have isForm : ¬ (r.mediaType != formType.toList) = true := by simp [form]
  have isGiven : ¬ (r.field "token").isEmpty = true := by simpa using given
  refine ⟨if _ then s.erasing else [], ?_, fun erases => if_pos (erases_iff.mp erases),
    fun keeps => if_neg fun test => keeps (erases_iff.mpr test)⟩
  unfold serveRevoke
  rw [if_neg isForm]
  exact if_neg isGiven

variable [LE τ] [DecidableLE τ] [Add τ]

structure Revokes (s : Server τ) (r : Asked) : Prop where
  routed : ∃ rule rest, Route.resolve s.rules r.method r.path = .rule rule rest ∧
    rule.endpoint = .revoke
  method : r.method ≠ "OPTIONS"
  form : r.mediaType = formType.toList
  given : r.field "token" ≠ ""

theorem Revokes.handle (revokes : s.Revokes r) :
    (s.handle r).1.status = 200 ∧
      (s.handle r).2 = { s with tokens := s.tokens.revoke r.revoked } ∧
      (s.Erases r → (s.handle r).1.cookies = s.erasing) ∧
      (¬ s.Erases r → (s.handle r).1.cookies = []) := by
  obtain ⟨rule, rest, routed, endpoint⟩ := revokes.routed
  obtain ⟨cookies, served, erased, kept⟩ := s.serveRevoke_eq revokes.form revokes.given
  have noOptions : (r.method == "OPTIONS") = false := by simpa using revokes.method
  have handled : s.handle r = (({ status := 200, cookies } : Response).sent r.method,
      { s with tokens := s.tokens.revoke r.revoked }) := by
    rw [Server.handle, routed]
    simp only [noOptions, Bool.false_eq_true, if_false, endpoint, serve, served]
    rfl
  rw [handled]
  refine ⟨Response.sent_status .., rfl, fun erases => ?_, fun keeps => ?_⟩
  · rw [Response.sent_cookies]
    exact erased erases
  · rw [Response.sent_cookies]
    exact kept keeps

variable [OfNat τ 0] {life : Lifetimes τ} {h : List (Event τ)}

/-- A revocation is answered with 200. It ends the token that it is about and, with a refresh token
that the store has, the access token that was issued together with it; every other token is accepted
as it was, at any time. The cookies of the refresh token are taken back exactly if the token came
from one, the store has it as a refresh token, and no other kind is hinted at. Every server that
arises has such a run, by `Arises.grown`. -/
theorem revocation_exact (grown : s.tokens.GrownBy life h) (revokes : s.Revokes r) :
    let b := r.revoked
    let stored := b ∈ Assoc.keys s.tokens.refresh
    let s' := (s.handle r).2
    (s.handle r).1.status = 200 ∧
    (∀ t, s'.tokens.checkAccess t b = none ∧ s'.tokens.checkRefresh t b = none) ∧
    (stored → ∀ a, (Assoc.get? b s.tokens.pairs = some a ↔ Partners h a b) ∧
      (Partners h a b → ∀ t, s'.tokens.checkAccess t a = none)) ∧
    (∀ x, x ≠ b → ∀ t, s'.tokens.checkRefresh t x = s.tokens.checkRefresh t x ∧
      (¬ (stored ∧ Partners h x b) → s'.tokens.checkAccess t x = s.tokens.checkAccess t x)) ∧
    (s.Erases r → (s.handle r).1.cookies = s.erasing) ∧
    (¬ s.Erases r → (s.handle r).1.cookies = []) := by
  dsimp only
  obtain ⟨status, state, erased, kept⟩ := revokes.handle
  rw [state]
  refine ⟨status, fun t => ⟨?_, ?_⟩, fun stored a => ⟨grown.get?_pairs stored, fun pair t => ?_⟩,
    fun x other t => ⟨?_, fun apart => ?_⟩, erased, kept⟩
  · refine Option.eq_none_iff_forall_ne_some.mpr fun user good => ?_
    exact (grown.checkAccess_revoke.mp good).1 rfl
  · refine Option.eq_none_iff_forall_ne_some.mpr fun user good => ?_
    exact (grown.checkRefresh_revoke.mp good).1 rfl
  · refine Option.eq_none_iff_forall_ne_some.mpr fun user good => ?_
    exact (grown.checkAccess_revoke.mp good).2.1 ⟨stored, pair⟩
  · refine Option.ext fun user => grown.checkRefresh_revoke.trans ?_
    exact and_iff_right other
  · refine Option.ext fun user => grown.checkAccess_revoke.trans ?_
    rw [and_iff_right other, and_iff_right apart]

def loggingOut : Asked :=
  ⟨"POST", "/api/v1/auth/revoke".toList,
    [(contentType, formType), ("Cookie", "access_token=t1; refresh_token=t2")],
    Bytes.ofString "token=cookie%3Arefresh_token"⟩

def loginRun : List (Event Int) := [⟨1000, .issue "u" none "t1" "t2"⟩]

theorem loggedIn_grown : loggedIn.tokens.GrownBy loggedIn.spans loginRun :=
  ⟨⟨by decide, by decide⟩, rfl⟩

theorem loggingOut_revokes : loggedIn.Revokes loggingOut where
  routed := by
    refine ⟨⟨.revoke, ["", "api", "v1", "auth", "revoke"].map String.toList, false,
      ["OPTIONS", "POST"], true⟩, [], ?_, rfl⟩
    decide +kernel
  method := by decide
  form := by decide +kernel
  given := by decide +kernel

theorem revocation_exact_loggingOut :
    loggedIn.tokens.GrownBy loggedIn.spans loginRun ∧ loggedIn.Revokes loggingOut ∧
      loggedIn.tokens.checkAccess 1000 "t1" = some "u" ∧
      (loggedIn.handle loggingOut).2.tokens.checkAccess 1000 "t1" = none ∧
      (loggedIn.handle loggingOut).1.cookies =
        [⟨"refresh_token", "", "/api/v1/auth/token".toList, 0, false⟩,
          ⟨"refresh_token", "", "/api/v1/auth/revoke".toList, 0, false⟩] := by
  have meant : loggingOut.revoked = "t2" := by decide +kernel
  have stored : "t2" ∈ Assoc.keys loggedIn.tokens.refresh := by decide
  have erases : loggedIn.Erases loggingOut := by
    refine ⟨⟨by decide +kernel, "t2", by decide +kernel, by decide⟩, meant ▸ stored, ?_⟩
    have absent : loggingOut.field? "token_type_hint" = none := by decide +kernel
    rw [absent]
    exact nofun
  obtain ⟨_, _, paired, _, cookies, _⟩ := revocation_exact loggedIn_grown loggingOut_revokes
  refine ⟨loggedIn_grown, loggingOut_revokes, by decide, ?_, ?_⟩
  · rw [meant] at paired
    exact (paired stored "t1").2 ⟨_, List.mem_cons_self, rfl⟩ 1000
  · rw [cookies erases]
    decide +kernel

end Server
end FileGate
