import FileGate.Proofs.Server.Arrival
import FileGate.Proofs.Server.Routed

namespace FileGate.Server

variable {τ : Type}

/-- The lifetimes that go into a response with tokens can be told: seconds in every case, and dates
where the tokens come as cookies. -/
structure Tells (s : Server τ) (cookiePath : String) : Prop where
  seconds : ∃ n, s.accessLife.seconds = some n
  cookies : cookiePath ≠ "" → s.Dated

theorem Tells.of_dated {s : Server τ} (dated : s.Dated) (cookiePath : String) :
    s.Tells cookiePath :=
  ⟨dated.seconds, fun _ => dated⟩

theorem tells_congr {s s' : Server τ} (access : s'.accessLife = s.accessLife)
    (refresh : s'.refreshLife = s.refreshLife) (calendar : s'.calendar = s.calendar) (cookiePath : String) :
    s'.Tells cookiePath ↔ s.Tells cookiePath := by
  have keeps : s'.Dated ↔ s.Dated := by
    constructor
    · rintro ⟨h1, h2, h3⟩
      exact ⟨access ▸ h1, access ▸ calendar ▸ h2, refresh ▸ calendar ▸ h3⟩
    · rintro ⟨h1, h2, h3⟩
      exact ⟨access ▸ h1, access ▸ calendar ▸ h2, refresh ▸ calendar ▸ h3⟩
  constructor
  · rintro ⟨seconds, cookies⟩
    exact ⟨access ▸ seconds, fun path => keeps.mp (cookies path)⟩
  · rintro ⟨seconds, cookies⟩
    exact ⟨access ▸ seconds, fun path => keeps.mpr (cookies path)⟩

structure Seeks (r : Asked) (grant : String) : Prop where
  form : r.mediaType = formType.toList
  grant : r.field "grant_type" = grant

def presented (r : Asked) : String :=
  r.cookieOr (r.field "refresh_token") refreshPlaceholder "refresh_token"

structure ForTokens (s : Server τ) (r : Asked) : Prop where
  routed : ∃ rule rest, Route.resolve s.rules r.method r.path = .rule rule rest ∧
    rule.endpoint = .token
  method : r.method ≠ "OPTIONS"

theorem forTokens_of_default {s : Server τ} {r : Asked} (rules : s.rules = defaultRules)
    (method : r.method = "POST") (path : r.path = Asked.pathOf "/api/v1/auth/token".toList) :
    s.ForTokens r := by
  obtain ⟨rule, routed, endpoint⟩ := resolve_token
  rw [← rules, ← method, ← path] at routed
  refine ⟨⟨rule, [], routed, endpoint⟩, ?_⟩
  rw [method]
  decide

variable [LE τ] [DecidableLE τ] [Add τ] {s : Server τ} {r : Asked}

section
variable {user cookiePath : String} {previous : Option String}

theorem sendTokens_of_tells (tells : s.Tells cookiePath) (user : String)
    (previous : Option String) :
    ∃ a, (s.sendTokens user cookiePath previous).1 = .ok a ∧ a.status = 200 := by
  by_cases here : cookiePath = ""
  · obtain ⟨n, seconds⟩ := tells.seconds
    subst here
    unfold sendTokens
    dsimp only
    rw [seconds]
    exact ⟨_, rfl, rfl⟩
  · obtain ⟨a, sent, status, _⟩ :=
      sendTokens_of_dated (tells.cookies here) user cookiePath (by simpa using here) previous
    exact ⟨a, sent, status⟩

theorem sendTokens_of_not_tells (silent : ¬ s.Tells cookiePath) :
    (s.sendTokens user cookiePath previous).1 = .error .undated := by
  unfold sendTokens
  dsimp only
  cases seconds : s.accessLife.seconds with
  | none => rfl
  | some n =>
    by_cases here : cookiePath = ""
    · exact absurd ⟨⟨n, seconds⟩, fun other => absurd here other⟩ silent
    · have path : cookiePath.isEmpty = false := by simpa using here
      cases access : s.accessLife.dated? s.calendar with
      | none => simp only [path]; rfl
      | some a =>
        cases refresh : s.refreshLife.dated? s.calendar with
        | none => simp only [path]; rfl
        | some b =>
          have dated : s.Dated := ⟨⟨n, seconds⟩, ⟨a, access⟩, ⟨b, refresh⟩⟩
          exact absurd (Tells.of_dated dated cookiePath) silent

theorem sendTokens_ok_iff :
    (∃ a, (s.sendTokens user cookiePath previous).1 = .ok a ∧ a.status = 200) ↔
      s.Tells cookiePath := by
  refine ⟨fun ⟨a, sent, _⟩ => ?_, fun tells => sendTokens_of_tells tells user previous⟩
  by_cases tells : s.Tells cookiePath
  · exact tells
  · rw [sendTokens_of_not_tells tells] at sent
    cases sent

end

theorem serveToken_of_refresh (seeks : Seeks r "refresh_token") :
    s.serveToken r =
      match s.tokens.checkRefresh s.now (presented r) with
      | none => (.ok (.error "invalid_request" (some "refresh token corrupted or absent")), s)
      | some user => s.sendTokens user (r.field "cookie_path") (some (presented r)) := by
  unfold serveToken
  rw [seeks.form, seeks.grant]
  simp only [bne_self_eq_false, Bool.false_eq_true, if_false]
  rfl

theorem serveToken_of_password (seeks : Seeks r "password") (named : r.field "username" ≠ "") :
    s.serveToken r =
      match Assoc.get? (r.field "username") s.users with
      | none => (.ok (.unauthorized "Bearer"), s)
      | some expected =>
        match sameSecret expected (r.field "password") with
        | .error e => (.error e, s)
        | .ok false => (.ok (.unauthorized "Bearer"), s)
        | .ok true => s.sendTokens (r.field "username") (r.field "cookie_path") none := by
  have user : ¬ (r.field "username").isEmpty = true := by simpa using named
  unfold serveToken
  rw [seeks.form, seeks.grant]
  simp only [bne_self_eq_false, Bool.false_eq_true, if_false]
  exact if_neg user

/-- A request that earns a new pair for a user, in place of a refresh token or of none. -/
inductive Earns (s : Server τ) (r : Asked) : String → Option String → Prop where
  | password {expected : String} (seeks : Seeks r "password") (named : r.field "username" ≠ "")
      (known : Assoc.get? (r.field "username") s.users = some expected)
      (right : sameSecret expected (r.field "password") = .ok true) :
      Earns s r (r.field "username") none
  | refresh {user : String} (seeks : Seeks r "refresh_token")
      (good : s.tokens.checkRefresh s.now (presented r) = some user) :
      Earns s r user (some (presented r))

omit [Add τ] in
theorem Earns.unique {user user' : String} {previous previous' : Option String}
    (earns : s.Earns r user previous) (earns' : s.Earns r user' previous') :
    user' = user ∧ previous' = previous := by
  have apart : "password" ≠ "refresh_token" := by decide
  cases earns with
  | password seeks _ _ _ =>
    cases earns' with
    | password _ _ _ _ => exact ⟨rfl, rfl⟩
    | refresh seeks' _ => exact absurd (seeks.grant.symm.trans seeks'.grant) apart
  | refresh seeks good =>
    cases earns' with
    | password seeks' _ _ _ => exact absurd (seeks'.grant.symm.trans seeks.grant) apart
    | refresh _ good' =>
      rw [good] at good'
      cases good'
      exact ⟨rfl, rfl⟩

theorem serveToken_of_earns {user : String} {previous : Option String}
    (earns : s.Earns r user previous) :
    s.serveToken r = s.sendTokens user (r.field "cookie_path") previous := by
  cases earns with
  | password seeks named known right =>
    rw [serveToken_of_password seeks named, known]
    simp only [right]
  | refresh seeks good => rw [serveToken_of_refresh seeks, good]

/-- A request that leaves the server as it was, and is given no tokens. -/
structure Refused (s : Server τ) (r : Asked) : Prop where
  unearned : ∀ user previous, ¬ s.Earns r user previous
  unchanged : (s.serveToken r).2 = s
  status : ∀ a, (s.serveToken r).1 = .ok a → a.status ≠ 200

theorem refused_of_served (unearned : ∀ user previous, ¬ s.Earns r user previous)
    {answer : Except Breakdown Response} (served : s.serveToken r = (answer, s))
    (status : ∀ a, answer = .ok a → a.status ≠ 200) : s.Refused r where
  unearned := unearned
  unchanged := by rw [served]
  status a sent := status a (by rw [← sent, served])

theorem refused_of_refresh (seeks : Seeks r "refresh_token")
    (unearned : ∀ user previous, ¬ s.Earns r user previous) : s.Refused r := by
  have bad : s.tokens.checkRefresh s.now (presented r) = none :=
    Option.eq_none_iff_forall_ne_some.mpr fun user good => unearned user _ (.refresh seeks good)
  have served := serveToken_of_refresh (s := s) seeks
  rw [bad] at served
  exact refused_of_served unearned served fun a sent => by cases sent; decide

theorem refused_of_password (seeks : Seeks r "password")
    (unearned : ∀ user previous, ¬ s.Earns r user previous) : s.Refused r := by
  by_cases named : r.field "username" = ""
  · have served : s.serveToken r =
        (.ok (.error "invalid_request" (some "username empty or absent")), s) := by
      unfold serveToken
      rw [seeks.form, seeks.grant, named]
      rfl
    exact refused_of_served unearned served fun a sent => by cases sent; decide
  have served := serveToken_of_password (s := s) seeks named
  cases known : Assoc.get? (r.field "username") s.users with
  | none =>
    rw [known] at served
    exact refused_of_served unearned served fun a sent => by cases sent; decide
  | some expected =>
    simp only [known] at served
    cases right : sameSecret expected (r.field "password") with
    | error e =>
      rw [right] at served
      exact refused_of_served unearned served nofun
    | ok same =>
      cases same with
      | true => exact absurd (.password seeks named known right) (unearned _ _)
      | false =>
        rw [right] at served
        exact refused_of_served unearned served fun a sent => by cases sent; decide

theorem refused_of_other (other : ¬ Seeks r "password" ∧ ¬ Seeks r "refresh_token") :
    s.Refused r := by
  have unearned (user : String) (previous : Option String) : ¬ s.Earns r user previous := by
    intro earns
    cases earns with
    | password seeks _ _ _ => exact other.1 seeks
    | refresh seeks _ => exact other.2 seeks
  by_cases form : r.mediaType = formType.toList
  · have served : s.serveToken r = (.ok (.error "unsupported_grant_type" none), s) := by
      unfold serveToken
      rw [form]
      simp only [bne_self_eq_false, Bool.false_eq_true, if_false]
      split
      · rename_i grant
        exact absurd ⟨form, grant⟩ other.1
      · rename_i grant
        exact absurd ⟨form, grant⟩ other.2
      · rfl
    exact refused_of_served unearned served fun a sent => by cases sent; decide
  · have served : s.serveToken r = (.ok (.ofStatus 415), s) := by
      unfold serveToken
      rw [if_pos (by simpa using form)]
    exact refused_of_served unearned served fun a sent => by cases sent; decide

/-- What earns no pair is refused. -/
theorem earns_or_refused (s : Server τ) (r : Asked) :
    (∃ user previous, s.Earns r user previous) ∨ s.Refused r := by
  by_cases earns : ∃ user previous, s.Earns r user previous
  · obtain ⟨user, previous, earns⟩ := earns
    exact .inl ⟨user, previous, earns⟩
  · right
    have unearned (user : String) (previous : Option String) : ¬ s.Earns r user previous :=
      fun earned => earns ⟨user, previous, earned⟩
    by_cases password : Seeks r "password"
    · exact refused_of_password password unearned
    by_cases refresh : Seeks r "refresh_token"
    · exact refused_of_refresh refresh unearned
    · exact refused_of_other ⟨password, refresh⟩

theorem ForTokens.handle (h : s.ForTokens r) :
    s.handle r = match s.serveToken r with
      | (.ok a, s') => (a.sent r.method, s')
      | (.error _, s') => ((Response.page 500).sent r.method, s') := by
  obtain ⟨rule, rest, routed, endpoint⟩ := h.routed
  have noOptions : (r.method == "OPTIONS") = false := by simpa using h.method
  rw [Server.handle, routed]
  simp only [noOptions, Bool.false_eq_true, if_false, endpoint, serve]
  rcases s.serveToken r with ⟨a | e, s'⟩
  · rfl
  · rfl

theorem ForTokens.handle_of_earns {user : String} {previous : Option String}
    (h : s.ForTokens r) (earns : s.Earns r user previous) :
    (s.handle r).2 = (s.sendTokens user (r.field "cookie_path") previous).2 ∧
      (∀ a, (s.sendTokens user (r.field "cookie_path") previous).1 = .ok a →
        (s.handle r).1 = a.sent r.method) ∧
      ∀ e, (s.sendTokens user (r.field "cookie_path") previous).1 = .error e →
        (s.handle r).1.status = 500 := by
  rw [h.handle, serveToken_of_earns earns]
  rcases s.sendTokens user (r.field "cookie_path") previous with ⟨a | e, s'⟩
  · exact ⟨rfl, nofun, fun _ _ => Response.sent_status ..⟩
  · refine ⟨rfl, fun a sent => ?_, nofun⟩
    cases sent
    rfl

/-! ### A login -/

theorem login_asks : login.path = Asked.pathOf "/api/v1/auth/token".toList ∧
    Seeks login "password" ∧ login.field "username" = "u" ∧ login.field "password" = "p" ∧
    login.field "cookie_path" = "/api/v1/files" :=
  ⟨by decide +kernel, ⟨by decide +kernel, by decide +kernel⟩, by decide +kernel,
    by decide +kernel, by decide +kernel⟩

end FileGate.Server
