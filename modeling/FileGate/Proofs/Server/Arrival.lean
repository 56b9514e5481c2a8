import Mathlib.Algebra.Order.Group.Int
import FileGate.Client.Basic
import FileGate.Proofs.Server.Reachable

namespace FileGate

/-! ### Headers -/

def Headers.values (name : String) (h : Headers) : List String :=
  (h.filter fun (k, _) => lowerText k == lowerText name).map (·.2)

namespace Headers

def Lacks (name : String) (h : Headers) : Prop := ∀ e ∈ h, lowerText e.1 ≠ lowerText name

theorem values_cons (name k v : String) (h : Headers) :
    values name ((k, v) :: h) =
      if lowerText k = lowerText name then v :: values name h else values name h := by
  by_cases same : lowerText k = lowerText name <;> simp [values, same]

theorem values_put_of_lacks {k : String} (v : String) {h : Headers} (lacks : h.Lacks k) :
    values k (Assoc.put k v h) = [v] := by
  induction h with
  | nil => simp [Assoc.put, values]
  | cons e h ih =>
    obtain ⟨a, w⟩ := e
    have first : lowerText a ≠ lowerText k := lacks (a, w) List.mem_cons_self
    have other : a ≠ k := fun same => first (by rw [same])
    have rest := ih fun e he => lacks e (List.mem_cons_of_mem _ he)
    rw [Assoc.put, if_neg (by simpa using other), values_cons, if_neg first, rest]

theorem values_put_of_ne {k name : String} (v : String) (h : Headers)
    (other : lowerText k ≠ lowerText name) : values name (Assoc.put k v h) = values name h := by
  induction h with
  | nil => simp [Assoc.put, values, other]
  | cons e h ih =>
    obtain ⟨a, w⟩ := e
    rw [Assoc.put]
    by_cases same : a = k
    · subst same
      rw [if_pos (by simp), values_cons, values_cons, if_neg other, if_neg other]
    · rw [if_neg (by simpa using same), values_cons, values_cons, ih]

theorem Lacks.put {k name : String} {h : Headers} (lacks : h.Lacks name) (v : String)
    (other : lowerText k ≠ lowerText name) : Lacks name (Assoc.put k v h) := by
  induction h with
  | nil =>
    intro e he
    have only : e = (k, v) := by simpa [Assoc.put] using he
    rw [only]
    exact other
  | cons e h ih =>
    obtain ⟨a, w⟩ := e
    have first : lowerText a ≠ lowerText name := lacks (a, w) List.mem_cons_self
    have rest : Lacks name h := fun e he => lacks e (List.mem_cons_of_mem _ he)
    rw [Assoc.put]
    split
    · intro e he
      rcases List.mem_cons.mp he with rfl | he
      · exact first
      · exact rest e he
    · intro e he
      rcases List.mem_cons.mp he with rfl | he
      · exact first
      · exact ih rest e he

end Headers

/-! ### Arrival -/

namespace Asked

def readNames : List String := ["Authorization", contentType, "X-FZ-Action", "X-FZ-Recursive"]

theorem header?_congr {r r' : Asked} {name : String} (same : r.values name = r'.values name) :
    r.header? name = r'.header? name := by
  rw [header?, header?, same]

theorem cookieOr_placeholder (r : Asked) (placeholder name : String) :
    r.cookieOr placeholder placeholder name =
      if (r.cookie? name).getD "" = "" then placeholder else (r.cookie? name).getD "" := by
  cases h : r.cookie? name with
  | none => simp [cookieOr, h]
  | some c => simp [cookieOr, h]

end Asked

/-- A request as it arrives: it says the same in all that the server reads, and its cookies are the
tokens that the client holds. Any other header may have been added or changed on the way. -/
structure Arrives (q : Request) (target : List Char) (held : Held) (r : Asked) : Prop where
  method : r.method = String.ofList (q.method.toList.map Char.toUpper)
  path : r.path = Asked.pathOf target
  body : r.body = q.body
  headers : ∀ name ∈ Asked.readNames, r.values name = Headers.values name q.headers
  access : (r.cookie? "access_token").getD "" = held.access
  refresh : (r.cookie? "refresh_token").getD "" = held.refresh

namespace Server

variable {τ : Type} [LE τ] [DecidableLE τ]

def holder (s : Server τ) (held : Held) : Option String := s.tokens.checkAccess s.now held.access

def renewer (s : Server τ) (held : Held) : Option String := s.tokens.checkRefresh s.now held.refresh

theorem user?_of_arrives {s : Server τ} {q : Request} {target : List Char} {held : Held} {r : Asked}
    (arrives : Arrives q target held r) (named : s.tokens.Named)
    (bearer : Headers.values "Authorization" q.headers = ["Bearer cookie:access_token"]) :
    s.user? r = s.holder held := by
  have header : r.header? "Authorization" = some "Bearer cookie:access_token" := by
    have there : r.values "Authorization" = ["Bearer cookie:access_token"] := by
      rw [arrives.headers _ (by decide), bearer]
    rw [Asked.header?, there]
    rfl
  have parsed : Authorization.parse (some "Bearer cookie:access_token") =
    ("Bearer", accessPlaceholder) := by decide +kernel
  rw [user?, header, parsed, holder]
  simp only [bne_self_eq_false, Bool.false_eq_true, if_false]
  rw [Asked.cookieOr_placeholder, arrives.access]
  split
  · rename_i empty
    rw [empty, named.checkAccess_eq_none _ not_isTokenName_accessPlaceholder,
      named.checkAccess_eq_none _ not_isTokenName_empty]
  · rfl

/-! ### Operations on files -/

def verbs : List String := ["GET", "PUT", "DELETE", "POST"]

theorem upper_of_verb {m : String} (h : m ∈ verbs) : String.ofList (m.toList.map Char.toUpper) = m := by
  simp only [verbs, List.mem_cons, List.not_mem_nil, or_false] at h
  rcases h with rfl | rfl | rfl | rfl <;> decide

variable [Add τ]

theorem handle_files {s : Server τ} {r : Asked} {rule : Route.Rule} {rest : List Char}
    (routed : Route.resolve s.rules r.method r.path = .rule rule rest)
    (files : rule.endpoint = .files) (plain : sharePart? rest = none) (verb : r.method ∈ verbs) :
    s.handle r =
      if s.user? r = none then (.unauthorized "Bearer", s)
      else ((s.tree.answer r rest).1, { s with tree := (s.tree.answer r rest).2 }) := by
  have noHead : (r.method == "HEAD") = false := by
    simp only [verbs, List.mem_cons, List.not_mem_nil, or_false] at verb
    rcases verb with h | h | h | h <;> rw [h] <;> decide
  have noOptions : (r.method == "OPTIONS") = false := by
    simp only [verbs, List.mem_cons, List.not_mem_nil, or_false] at verb
    rcases verb with h | h | h | h <;> rw [h] <;> decide
  rw [handle, routed]
  simp only [noHead, noOptions, Bool.false_eq_true, if_false, files, serve]
  by_cases user : s.user? r = none
  · rw [serveFiles_of_none plain user, if_pos user]
  · rw [serveFiles_of_user plain user, if_neg user]

/-! ### Renewal -/

def defaultRules : List Route.Rule :=
  let files := ["", "api", "v1", "files", ""].map String.toList
  let all := ["GET", "PUT", "DELETE", "POST", "HEAD", "OPTIONS"]
  let auth (name : String) := ["", "api", "v1", "auth", name].map String.toList
  [⟨.static, ["", "static"].map String.toList, true, ["GET", "HEAD", "OPTIONS"], true⟩,
    ⟨.token, auth "token", false, ["OPTIONS", "POST"], true⟩,
    ⟨.revoke, auth "revoke", false, ["OPTIONS", "POST"], true⟩,
    ⟨.files, files, false, all, false⟩,
    ⟨.files, files.dropLast, true, all, true⟩]

theorem rulesFor_default : rulesFor {} = .ok defaultRules := rfl

theorem resolve_token :
    ∃ rule, Route.resolve defaultRules "POST" (Asked.pathOf "/api/v1/auth/token".toList) =
      .rule rule [] ∧ rule.endpoint = .token := by
  refine ⟨⟨.token, ["", "api", "v1", "auth", "token"].map String.toList, false,
    ["OPTIONS", "POST"], true⟩, ?_, rfl⟩
  decide +kernel

def renewalForm : List (String × String) :=
  [("grant_type", "refresh_token"), ("refresh_token", refreshPlaceholder),
    ("cookie_path", "/api/v1/files")]

def renewalBody : Bytes :=
  Utf8.encode (Form.encode (renewalForm.map fun (k, v) => (k.toList, v.toList)))

def renewal (url : String) : Request := ⟨"POST", url, [(contentType, formType)], renewalBody⟩

omit [LE τ] [DecidableLE τ] [Add τ] in
theorem form_of_renewal {r : Asked} (body : r.body = renewalBody) :
    r.form = renewalForm.map fun (k, v) => (k.toList, v.toList) := by
  have read : ((Utf8.decode? renewalBody).map Form.decode).getD [] =
      renewalForm.map fun (k, v) => (k.toList, v.toList) := by
    decide +kernel
  rw [Asked.form, body, read]

theorem serveToken_of_renewal {s : Server τ} {url : String} {target : List Char} {held : Held}
    {r : Asked} (arrives : Arrives (renewal url) target held r) (named : s.tokens.Named) :
    s.serveToken r =
      match s.renewer held with
      | none => (.ok (.error "invalid_request" (some "refresh token corrupted or absent")), s)
      | some user => s.sendTokens user "/api/v1/files" (some held.refresh) := by
  have media : r.mediaType = formType.toList := by
    have there : r.values contentType = [formType] := arrives.headers _ (by decide)
    rw [Asked.mediaType, there]
    decide +kernel
  have form := form_of_renewal arrives.body
  have grant : r.field "grant_type" = "refresh_token" := by
    rw [Asked.field, Asked.field?, form]
    decide
  have given : r.field "refresh_token" = refreshPlaceholder := by
    rw [Asked.field, Asked.field?, form]
    decide
  have path : r.field "cookie_path" = "/api/v1/files" := by
    rw [Asked.field, Asked.field?, form]
    decide
  unfold serveToken
  rw [media, grant, given, path, Asked.cookieOr_placeholder, arrives.refresh]
  simp only [bne_self_eq_false, Bool.false_eq_true, if_false]
  by_cases empty : held.refresh = ""
  · have no : s.renewer held = none := by
      rw [renewer, empty]
      exact named.checkRefresh_eq_none _ not_isTokenName_empty
    rw [if_pos empty, named.checkRefresh_eq_none _ not_isTokenName_refreshPlaceholder, no]
  · rw [if_neg empty]
    rfl

/-- Lifetimes that count: a token that is issued now does not expire now. -/
structure Lasting (s : Server τ) : Prop where
  access : ¬ s.now + s.accessLife.span ≤ s.now
  refresh : ¬ s.now + s.refreshLife.span ≤ s.now

theorem lasting_iff {τ : Type} [AddCommGroup τ] [LinearOrder τ] [IsOrderedAddMonoid τ]
    {s : Server τ} : s.Lasting ↔ 0 < s.accessLife.span ∧ 0 < s.refreshLife.span := by
  constructor
  · intro lasting
    have access := lasting.access
    have refresh := lasting.refresh
    rw [not_le, lt_add_iff_pos_right] at access refresh
    exact ⟨access, refresh⟩
  · rintro ⟨access, refresh⟩
    exact ⟨not_le.mpr (lt_add_of_pos_right _ access), not_le.mpr (lt_add_of_pos_right _ refresh)⟩

theorem handle_of_renewal {s : Server τ} {url : String} {held : Held} {r : Asked}
    (rules : rulesFor {} = .ok s.rules)
    (arrives : Arrives (renewal url) "/api/v1/auth/token".toList held r) :
    s.handle r =
      match s.serveToken r with
      | (.ok a, s') => (a, s')
      | (.error _, s') => (.page 500, s') := by
  obtain ⟨rule, routed, token⟩ := resolve_token
  have same : s.rules = defaultRules := Except.ok.inj (rules.symm.trans rulesFor_default)
  have method : r.method = "POST" := by
    rw [arrives.method]
    change String.ofList ("POST".toList.map Char.toUpper) = "POST"
    decide
  rw [handle, same, method, arrives.path, routed]
  have noHead : ("POST" == "HEAD") = false := by decide
  have noOptions : ("POST" == "OPTIONS") = false := by decide
  rcases served : s.serveToken r with ⟨a | e, s'⟩ <;>
    simp only [noHead, noOptions, Bool.false_eq_true, if_false, token, serve, served]

theorem renewal_refused {s : Server τ} {url : String} {held : Held} {r : Asked}
    (sound : Sound s held)
    (arrives : Arrives (renewal url) "/api/v1/auth/token".toList held r)
    (bad : s.renewer held = none) :
    ∃ a, s.handle r = (a, s) ∧ a.status = 400 ∧ held.take a = held := by
  rw [handle_of_renewal sound.rules arrives, serveToken_of_renewal arrives sound.named, bad]
  exact ⟨_, rfl, rfl, rfl⟩

/-- A client with a good refresh token gets a new pair of tokens, both of them good. -/
theorem renewal_granted {s : Server τ} {url user : String} {held : Held} {r : Asked}
    (sound : Sound s held) (lasting : s.Lasting)
    (arrives : Arrives (renewal url) "/api/v1/auth/token".toList held r)
    (good : s.renewer held = some user) :
    ∃ a s', s.handle r = (a, s') ∧ a.status = 200 ∧ s'.rules = s.rules ∧ s'.tree = s.tree ∧
      s'.tokens.Named ∧ s'.holder (held.take a) = some user ∧
      s'.renewer (held.take a) = some user := by
  have dated : s.Dated := by
    apply sound.dated.2.resolve_left
    intro empty
    rw [renewer, empty, sound.named.checkRefresh_eq_none _ not_isTokenName_empty] at good
    cases good
  obtain ⟨a, sent, status, pair⟩ :=
    sendTokens_of_dated dated user "/api/v1/files" (by decide) (some held.refresh)
  have issued := TokenStore.check_issue s.tokens ⟨s.accessLife.span, s.refreshLife.span⟩ s.now user
    (some held.refresh) (s.issued + 1) (s.issued + 2) lasting.access lasting.refresh
  refine ⟨a, (s.sendTokens user "/api/v1/files" (some held.refresh)).2, ?_, status, rfl, rfl,
    (s.sendTokens_keeps _ _ _).named sound.named, ?_, ?_⟩
  · rw [handle_of_renewal sound.rules arrives, serveToken_of_renewal arrives sound.named, good]
    dsimp only
    rcases h : s.sendTokens user "/api/v1/files" (some held.refresh) with ⟨x, s'⟩
    rw [h] at sent
    cases sent
    rfl
  · rw [held.take_pair pair]
    exact issued.1
  · rw [held.take_pair pair]
    exact issued.2

end Server

/-! ### A server with a single user -/

def oneUser : Server Int :=
  { users := [("u", "p")], accessLife := ⟨300, some 300⟩, refreshLife := ⟨86400, some 86400⟩,
    tokenPath := "/api/v1/auth/token".toList, revokePath := "/api/v1/auth/revoke".toList,
    rules := Server.defaultRules, now := 1000 }

def login : Asked :=
  ⟨"POST", "/api/v1/auth/token".toList, [(contentType, formType)],
    Bytes.ofString "grant_type=password&username=u&password=p&cookie_path=%2Fapi%2Fv1%2Ffiles"⟩

end FileGate
