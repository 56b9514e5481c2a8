import FileGate.Proofs.Server.Arising
import FileGate.Proofs.Server.Renewals

/-! What a request for tokens costs those who have some. A pair is issued, and the old one retired,
before the answer is built; an answer that cannot be built does not bring the old one back. -/
namespace FileGate.Server

open TokenStore

variable {τ : Type}

section
variable [LE τ] [DecidableLE τ]

/-- Tokens that were good are good. -/
structure KeepsGood (s s' : Server τ) : Prop where
  refresh : ∀ t user, s.tokens.checkRefresh s.now t = some user →
    s'.tokens.checkRefresh s'.now t = some user
  access : ∀ t user, s.tokens.checkAccess s.now t = some user →
    s'.tokens.checkAccess s'.now t = some user

/-- No access token is good for longer than the refresh token that it goes with. -/
def PartnersGood (s : Server τ) : Prop :=
  ∀ a user, s.tokens.checkAccess s.now a = some user →
    ∀ t, Assoc.get? t s.tokens.pairs = some a → ∃ v, s.tokens.checkRefresh s.now t = some v

end

/-! ### The answer -/

def pairText (s : Server τ) (expires : Int) : Bytes :=
  (Response.json 200 (Response.sortedFields [("token_type", .text "bearer"),
    ("expires_in", .int expires), ("access_token", .text (tokenName (s.issued + 1))),
    ("refresh_token", .text (tokenName (s.issued + 2)))])).body

structure Delivers (s : Server τ) (a : Response) : Prop where
  status : a.status = 200
  pair : a.cookies.map (fun c => (c.name, c.value)) = s.pairCookies ∨
    ∃ expires, a.body = s.pairText expires

variable [LE τ] [DecidableLE τ] [Add τ] {s : Server τ} {r : Asked}
variable {user cookiePath : String} {previous : Option String}

theorem sendTokens_delivers (tells : s.Tells cookiePath) (user : String)
    (previous : Option String) :
    ∃ a, (s.sendTokens user cookiePath previous).1 = .ok a ∧ s.Delivers a := by
  by_cases here : cookiePath = ""
  · obtain ⟨n, seconds⟩ := tells.seconds
    subst here
    unfold sendTokens
    dsimp only
    rw [seconds]
    exact ⟨_, rfl, rfl, .inr ⟨n, rfl⟩⟩
  · obtain ⟨a, sent, status, pair⟩ :=
      sendTokens_of_dated (tells.cookies here) user cookiePath (by simpa using here) previous
    exact ⟨a, sent, status, .inl pair⟩

/-- What becomes of a request for tokens. A pair that is earned is issued whether or not the answer
can tell of it. -/
inductive Outcome (s : Server τ) (r : Asked) : Prop where
  | refused (unearned : ∀ user previous, ¬ s.Earns r user previous)
      (unchanged : (s.handle r).2 = s) (status : (s.handle r).1.status ≠ 200)
  | granted (user : String) (previous : Option String) (earns : s.Earns r user previous)
      (state : (s.handle r).2 = (s.sendTokens user (r.field "cookie_path") previous).2)
      (tells : s.Tells (r.field "cookie_path"))
      (answer : ∃ a, s.Delivers a ∧ (s.handle r).1 = a.sent r.method)
  | lost (user : String) (previous : Option String) (earns : s.Earns r user previous)
      (state : (s.handle r).2 = (s.sendTokens user (r.field "cookie_path") previous).2)
      (silent : ¬ s.Tells (r.field "cookie_path")) (status : (s.handle r).1.status = 500)

theorem ForTokens.outcome (forTokens : s.ForTokens r) : Outcome s r := by
  rcases s.earns_or_refused r with ⟨user, previous, earns⟩ | refused
  · obtain ⟨state, answered, failed⟩ := forTokens.handle_of_earns earns
    by_cases tells : s.Tells (r.field "cookie_path")
    · obtain ⟨a, sent, delivers⟩ := sendTokens_delivers tells user previous
      exact .granted user previous earns state tells ⟨a, delivers, answered a sent⟩
    · exact .lost user previous earns state tells (failed _ (sendTokens_of_not_tells tells))
  · have handled := forTokens.handle
    obtain ⟨unearned, unchanged, status⟩ := refused
    rcases answered : s.serveToken r with ⟨answer, s'⟩
    rw [answered] at handled unchanged status
    refine .refused unearned ?_ ?_
    · rw [handled]
      cases answer with
      | ok a => exact unchanged
      | error e => exact unchanged
    · rw [handled]
      cases answer with
      | ok a => simpa using status a rfl
      | error e => simp [Response.page]

/-! ### What is good afterwards -/

section
variable [OfNat τ 0] {h : List (Event τ)} {a t u : String}

theorem GrownBy.checkRefresh_sendTokens (grown : s.GrownBy h)
    (good : s.tokens.checkRefresh s.now t = some u) :
    (s.sendTokens user cookiePath previous).2.tokens.checkRefresh s.now t = some u ↔
      previous ≠ some t :=
  grown.tokens.stems.coherent.checkRefresh_issue (grown.new (by omega)).2 good

theorem GrownBy.checkAccess_sendTokens (grown : s.GrownBy h)
    (good : s.tokens.checkAccess s.now a = some u) :
    (s.sendTokens user cookiePath previous).2.tokens.checkAccess s.now a = some u ↔
      ∀ t, Assoc.get? t s.tokens.pairs = some a →
        previous ≠ some t ∧ ∃ v, s.tokens.checkRefresh s.now t = some v :=
  grown.tokens.stems.coherent.checkAccess_issue (grown.new (by omega)).1 good

/-- An issue takes no good token away if it comes in place of none and every good access token has a
good refresh token, and only then. -/
theorem GrownBy.keepsGood_sendTokens_iff (grown : s.GrownBy h) (earns : s.Earns r user previous) :
    KeepsGood s (s.sendTokens user cookiePath previous).2 ↔ previous = none ∧ s.PartnersGood := by
  constructor
  · intro keeps
    have fresh : previous = none := by
      cases earns with
      | password _ _ _ _ => rfl
      | refresh _ good =>
        -- The token that a renewal presents was good, and is the one that its issue retires.
        exact absurd rfl ((grown.checkRefresh_sendTokens good).mp (keeps.refresh _ _ good))
    refine ⟨fresh, fun a u good t pair => ?_⟩
    exact ((grown.checkAccess_sendTokens good).mp (keeps.access a u good) t pair).2
  · rintro ⟨rfl, partners⟩
    refine ⟨fun t u good => (grown.checkRefresh_sendTokens good).mpr nofun, fun a u good => ?_⟩
    exact (grown.checkAccess_sendTokens good).mpr fun t pair => ⟨nofun, partners a u good t pair⟩

/-- A request for tokens is answered with 200, and then with a pair, exactly if it earns one and the
lifetimes can be told. One that earns none changes nothing. One that does costs the refresh token
that it presents and the access tokens whose refresh token is that one or no longer good, be it
answered or not. So a request that fails costs nothing exactly if it earns no pair that cannot be
told of, but for a login while every good access token has a good refresh token. -/
theorem failed_request_costs (arises : s.Arises) (forTokens : s.ForTokens r) :
    let s' := (s.handle r).2
    let tells := s.Tells (r.field "cookie_path")
    ((s.handle r).1.status = 200 ↔ (∃ user previous, s.Earns r user previous) ∧ tells) ∧
    ((s.handle r).1.status = 200 → ∃ a, s.Delivers a ∧ (s.handle r).1 = a.sent r.method) ∧
    ((∀ user previous, ¬ s.Earns r user previous) → s' = s) ∧
    (∀ user previous, s.Earns r user previous →
      (∀ t u, s.tokens.checkRefresh s.now t = some u →
        (s'.tokens.checkRefresh s'.now t = some u ↔ previous ≠ some t)) ∧
      (∀ a u, s.tokens.checkAccess s.now a = some u →
        (s'.tokens.checkAccess s'.now a = some u ↔
          ∀ t, Assoc.get? t s.tokens.pairs = some a →
            previous ≠ some t ∧ ∃ v, s.tokens.checkRefresh s.now t = some v))) ∧
    (((s.handle r).1.status ≠ 200 → KeepsGood s s') ↔
      ∀ user previous, s.Earns r user previous → tells ∨ previous = none ∧ s.PartnersGood) := by
  obtain ⟨h, grown⟩ := arises.grown
  dsimp only
  cases forTokens.outcome with
  | refused unearned unchanged status =>
    refine ⟨iff_of_false status fun both => ?_, fun ok => absurd ok status, fun _ => unchanged,
      fun user previous earns => absurd earns (unearned user previous), ?_⟩
    · obtain ⟨⟨user, previous, earns⟩, _⟩ := both
      exact unearned user previous earns
    · rw [unchanged]
      exact iff_of_true (fun _ => ⟨fun _ _ good => good, fun _ _ good => good⟩)
        fun user previous earns => absurd earns (unearned user previous)
  | granted user previous earns state tells answer =>
    obtain ⟨a, delivers, same⟩ := answer
    have ok : (s.handle r).1.status = 200 := by rw [same, Response.sent_status, delivers.status]
    rw [state]
    refine ⟨iff_of_true ok ⟨⟨user, previous, earns⟩, tells⟩, fun _ => ⟨a, delivers, same⟩,
      fun unearned => absurd earns (unearned user previous), fun user' previous' earns' => ?_,
      iff_of_true (fun failed => absurd ok failed) fun _ _ _ => .inl tells⟩
    obtain ⟨rfl, rfl⟩ := earns.unique earns'
    exact ⟨fun t u good => grown.checkRefresh_sendTokens good,
      fun a u good => grown.checkAccess_sendTokens good⟩
  | lost user previous earns state silent status =>
    have failed : (s.handle r).1.status ≠ 200 := by rw [status]; decide
    rw [state]
    refine ⟨iff_of_false failed fun both => silent both.2, fun ok => absurd ok failed,
      fun unearned => absurd earns (unearned user previous), fun user' previous' earns' => ?_, ?_⟩
    · obtain ⟨rfl, rfl⟩ := earns.unique earns'
      exact ⟨fun t u good => grown.checkRefresh_sendTokens good,
        fun a u good => grown.checkAccess_sendTokens good⟩
    · rw [forall_prop_of_true failed, grown.keepsGood_sendTokens_iff earns]
      constructor
      · intro spares user' previous' earns'
        obtain ⟨rfl, rfl⟩ := earns.unique earns'
        exact .inr spares
      · intro spares
        exact (spares user previous earns).resolve_left silent

end

theorem failed_request_costs_renewing :
    loggedIn.Arises ∧ loggedIn.ForTokens renewing ∧ (loggedIn.handle renewing).1.status = 200 ∧
      (loggedIn.handle renewing).2.tokens.checkRefresh (loggedIn.handle renewing).2.now "t2" ≠
        some "u" := by
  obtain ⟨seeks, presents, noPath⟩ := renewing_asks
  have forTokens : loggedIn.ForTokens renewing := forTokens_of_default rfl rfl (by decide +kernel)
  have good : loggedIn.tokens.checkRefresh loggedIn.now "t2" = some "u" := by decide
  have earns : loggedIn.Earns renewing "u" (some "t2") := by
    rw [← presents] at good ⊢
    exact .refresh seeks good
  have tells : loggedIn.Tells (renewing.field "cookie_path") :=
    ⟨⟨300, rfl⟩, fun other => absurd noPath other⟩
  obtain ⟨answered, _, _, costs, _⟩ := failed_request_costs loggedIn_arises forTokens
  refine ⟨loggedIn_arises, forTokens, answered.mpr ⟨⟨_, _, earns⟩, tells⟩, fun kept => ?_⟩
  exact ((costs _ _ earns).1 "t2" "u" good).mp kept rfl

/-! ### A lifetime beyond all dates

It can be told in seconds, so that a login without cookies succeeds, but cookies need a date. -/

def longLived : Server Int := { oneUser with accessLife := ⟨1000000000000, some 1000000000000⟩ }

def plainLogin : Asked :=
  ⟨"POST", "/api/v1/auth/token".toList, [(contentType, formType)],
    Bytes.ofString "grant_type=password&username=u&password=p"⟩

def renewingInCookies : Asked :=
  ⟨"POST", "/api/v1/auth/token".toList, [(contentType, formType)],
    Bytes.ofString "grant_type=refresh_token&refresh_token=t2&cookie_path=%2Fapi%2Fv1%2Ffiles"⟩

def session : Server Int := (longLived.handle plainLogin).2

theorem session_eq : session = (longLived.sendTokens "u" "" none).2 := by
  have forTokens : longLived.ForTokens plainLogin :=
    forTokens_of_default rfl rfl (by decide +kernel)
  have seeks : Seeks plainLogin "password" := ⟨by decide +kernel, by decide +kernel⟩
  have user : plainLogin.field "username" = "u" := by decide +kernel
  have password : plainLogin.field "password" = "p" := by decide +kernel
  have path : plainLogin.field "cookie_path" = "" := by decide +kernel
  rw [session, forTokens.handle, serveToken_of_password seeks (by rw [user]; decide), user,
    password, path]
  rfl

theorem session_renewed :
    session.ForTokens renewingInCookies ∧ (session.handle renewingInCookies).1.status = 500 ∧
      (session.handle renewingInCookies).2 =
        (session.sendTokens "u" "/api/v1/files" (some "t2")).2 := by
  have forTokens : session.ForTokens renewingInCookies :=
    forTokens_of_default (by rw [session_eq]; rfl) rfl (by decide +kernel)
  have seeks : Seeks renewingInCookies "refresh_token" := ⟨by decide +kernel, by decide +kernel⟩
  have presents : presented renewingInCookies = "t2" := by decide +kernel
  have path : renewingInCookies.field "cookie_path" = "/api/v1/files" := by decide +kernel
  have good : session.tokens.checkRefresh session.now (presented renewingInCookies) = some "u" := by
    rw [session_eq, presents]
    decide
  have silent : ¬ session.Tells "/api/v1/files" := by
    rintro ⟨_, cookies⟩
    obtain ⟨n, dated⟩ := (cookies (by decide)).access
    rw [session_eq] at dated
    cases dated
  obtain ⟨state, _, failed⟩ := forTokens.handle_of_earns (.refresh seeks good)
  rw [path, presents] at state failed
  exact ⟨forTokens, failed _ (sendTokens_of_not_tells silent), state⟩

/-- A renewal that fails, as the lifetime leads to no date, leaves its client without a session. -/
theorem failed_renewal_ends_session :
    session.Arises ∧ session.ForTokens renewingInCookies ∧
      session.tokens.checkRefresh session.now "t2" = some "u" ∧
      session.tokens.checkAccess session.now "t1" = some "u" ∧
      (session.handle renewingInCookies).1.status = 500 ∧
      (session.handle renewingInCookies).2.tokens.checkRefresh session.now "t2" = none ∧
      (session.handle renewingInCookies).2.tokens.checkAccess session.now "t1" = none ∧
      ¬ ((session.handle renewingInCookies).1.status ≠ 200 →
        KeepsGood session (session.handle renewingInCookies).2) := by
  obtain ⟨forTokens, status, state⟩ := session_renewed
  have arises : session.Arises := .request plainLogin (.fresh longLived rfl)
  have good : session.tokens.checkRefresh session.now "t2" = some "u" := by
    rw [session_eq]
    decide
  have access : session.tokens.checkAccess session.now "t1" = some "u" := by
    rw [session_eq]
    decide
  have gone : (session.handle renewingInCookies).2.tokens.checkRefresh session.now "t2" = none := by
    rw [state, session_eq]
    decide +kernel
  refine ⟨arises, forTokens, good, access, status, gone, ?_, fun keeps => ?_⟩
  · rw [state, session_eq]
    decide +kernel
  · have failed : (session.handle renewingInCookies).1.status ≠ 200 := by
      rw [status]
      decide
    have kept := (keeps failed).refresh "t2" "u" good
    have now : (session.handle renewingInCookies).2.now = session.now := by rw [state]; rfl
    rw [now, gone] at kept
    cases kept

end FileGate.Server
