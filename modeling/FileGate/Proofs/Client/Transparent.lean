import FileGate.Proofs.Client.Delivery
import FileGate.Proofs.Client.Retry

/-! A client together with a server. With the default configuration on both sides a fetch on a file
that goes with a good refresh token does just what one direct request with a good access token does,
whether or not the client's own access token is good. -/
namespace FileGate

variable {τ ω : Type} [LE τ] [DecidableLE τ] [Add τ]

/-- A fetch of the files: its path is below their root, does not lead into a share, and is routed to
their endpoint, which takes `rest` to stand below the root. -/
structure OnFiles (s : Server τ) (path : String) (o : Options ω) (rest : List Char) : Prop where
  below : ∃ sub, path.toList = "/api/v1/files/".toList ++ sub ∧ ¬ "shares/".toList <+: sub
  routed : ∃ rule, Route.resolve s.rules o.method (Asked.pathOf path.toList) = .rule rule rest ∧
    rule.endpoint = .files
  plain : ¬ "shares/".toList <+: rest
  verb : o.method ∈ Server.verbs
  free : Headers.Lacks "Authorization" o.headers

/-- A direct request for the same operation. Who it is from, and what else it says, is left open. -/
structure Direct (path : String) (o : Options ω) (data : Bytes) (r : Asked) : Prop where
  method : r.method = o.method
  path : r.path = Asked.pathOf path.toList
  body : r.body = data
  action : r.values "X-FZ-Action" = Headers.values "X-FZ-Action" o.headers
  recursive : r.values "X-FZ-Recursive" = Headers.values "X-FZ-Recursive" o.headers

omit [LE τ] [DecidableLE τ] [Add τ] in
theorem OnFiles.congr {s s' : Server τ} {path : String} {o : Options ω} {rest : List Char}
    (files : OnFiles s path o rest) (same : s'.rules = s.rules) : OnFiles s' path o rest := by
  obtain ⟨below, routed, plain, verb, free⟩ := files
  rw [← same] at routed
  exact ⟨below, routed, plain, verb, free⟩

theorem sharePart?_eq_none {rest : List Char} (h : ¬ "shares/".toList <+: rest) :
    sharePart? rest = none := by
  have no : "shares/".toList.isPrefixOf rest = false := by
    rw [← Bool.not_eq_true, List.isPrefixOf_iff_prefix]
    exact h
  simp only [sharePart?, no, Bool.false_and]
  rfl

/-! ### Headers of an attempt -/

theorem Body.encode_headers {body : Body} {h h' : Headers} {streaming : Bool} {n : Int}
    {p : Payload} (encoded : body.encode h streaming n = .ok (p, h')) :
    h' = h ∨ h' = Assoc.put contentType formType h := by
  cases body with
  | form fields =>
    cases encoded
    rw [withDefault]
    split
    · exact .inl rfl
    · exact .inr rfl
  | other v => cases encoded
  | _ => cases encoded; exact .inl rfl

theorem attempt_values {body : Body} {h h' : Headers} {streaming : Bool} {n : Int} {p : Payload}
    (encoded : body.encode h streaming n = .ok (p, h')) (token : Value) {name : String}
    (other : ∀ k ∈ ["Authorization", "Cache-Control", contentType], lowerText k ≠ lowerText name) :
    Headers.values name (Client.attemptHeaders true token h') = Headers.values name h := by
  have bearer : lowerText "Authorization" ≠ lowerText name := other _ (by decide)
  have store : lowerText "Cache-Control" ≠ lowerText name := other _ (by decide)
  rw [Client.attemptHeaders, if_pos rfl, Headers.values_put_of_ne _ _ store,
    Headers.values_put_of_ne _ _ bearer]
  rcases Body.encode_headers encoded with rfl | rfl
  · rfl
  · exact Headers.values_put_of_ne _ _ (other _ (by decide))

theorem attempt_bearer {body : Body} {h h' : Headers} {streaming : Bool} {n : Int} {p : Payload}
    (encoded : body.encode h streaming n = .ok (p, h')) (token : Value)
    (free : h.Lacks "Authorization") :
    Headers.values "Authorization" (Client.attemptHeaders true token h') =
      [Authorization.bearer token] := by
  have store : lowerText "Cache-Control" ≠ lowerText "Authorization" := by decide +kernel
  have form : lowerText contentType ≠ lowerText "Authorization" := by decide +kernel
  have free' : Headers.Lacks "Authorization" h' := by
    rcases Body.encode_headers encoded with rfl | rfl
    · exact free
    · exact free.put _ form
  rw [Client.attemptHeaders, if_pos rfl, Headers.values_put_of_ne _ _ store,
    Headers.values_put_of_lacks _ free']

/-! ### Sending -/

section
variable {net : Network ω} {view : ω → Server τ × Held} {c : Client ω} {s : Server τ} {held : Held}

theorem Delivers.attempt (delivers : Delivers net view) (there : view c.world = (s, held))
    (cookies : c.credentials = .cookies) (named : s.tokens.Named) {path : String} {o : Options ω}
    {rest : List Char} (files : OnFiles s path o rest) {p : Payload} {headers : Headers} {n : Int}
    (encoded : o.body.encode o.headers false n = .ok (p, headers)) {data : Bytes} {r₀ : Asked}
    (direct : Direct path o data r₀) {call : Call} (closed : call.guarded = true)
    (url : call.url = String.ofList ("http://127.0.0.1:8080".toList ++ path.toList)) :
    ∃ a s' c', (a, s') = (if s.holder held = none then (.unauthorized "Bearer", s)
        else ((s.tree.answer r₀ rest).1, { s with tree := (s.tree.answer r₀ rest).2 })) ∧
      c.ask net o headers call p data = (c', .ok ⟨Site.reply a, c.replies⟩) ∧
      view c'.world = (s', held) ∧ c'.config = c.config ∧ c'.credentials = c.credentials := by
  obtain ⟨r, c', arrives, answered, after, config', credentials'⟩ := delivers.answered there
    { Client.exchangeOf o headers call c with sent := p.sent } data url
  have bearer : Headers.values "Authorization"
      (Client.attemptHeaders call.guarded c.accessToken headers) =
      ["Bearer cookie:access_token"] := by
    have placeholder : c.accessToken = .text accessPlaceholder := by
      rw [Client.accessToken, cookies]
      rfl
    rw [closed, placeholder, attempt_bearer encoded _ files.free]
    decide +kernel
  have user : s.user? r = s.holder held := Server.user?_of_arrives arrives named bearer
  have method : r.method = o.method := arrives.method.trans (Server.upper_of_verb files.verb)
  have sent {name : String} (read : name ∈ Asked.readNames) (other :
      ∀ k ∈ ["Authorization", "Cache-Control", contentType], lowerText k ≠ lowerText name) :
      r.values name = Headers.values name o.headers := by
    rw [arrives.headers name read, ← attempt_values encoded c.accessToken other, ← closed]
    rfl
  have same : s.tree.answer r rest = s.tree.answer r₀ rest := by
    apply FileTree.answer_congr
    · exact method.trans direct.method.symm
    · exact arrives.body.trans direct.body.symm
    · exact Asked.header?_congr ((sent (by decide) (by decide +kernel)).trans direct.action.symm)
    · exact Asked.header?_congr ((sent (by decide) (by decide +kernel)).trans direct.recursive.symm)
  obtain ⟨rule, routed, endpoint⟩ := files.routed
  have handled := Server.handle_files (s := s) (r := r) (by rw [method, arrives.path]; exact routed)
    endpoint (sharePart?_eq_none files.plain) (by rw [method]; exact files.verb)
  rw [user, same] at handled
  refine ⟨(s.handle r).1, (s.handle r).2, c', handled, answered, ?_, config', credentials'⟩
  have quiet : (s.handle r).1.cookies = [] := by
    rw [handled]
    split
    · rfl
    · exact (FileTree.serve_response _ _ _ _ _ _).2
  rw [after, held.take_nothing quiet]

omit [LE τ] [DecidableLE τ] [Add τ] in
theorem OnFiles.start {path : String} {o : Options ω} {rest : List Char}
    (files : OnFiles s path o rest) (config : c.config = {}) :
    ∃ call : Call, c.start path = .ok call ∧ call.retried = false ∧ call.guarded = true ∧
      call.url = String.ofList ("http://127.0.0.1:8080".toList ++ path.toList) := by
  obtain ⟨sub, below, plain⟩ := files.below
  have absolute : isAbsolute path = true := by
    rw [isAbsolute, below]
    rfl
  have rule : c.config.requiresAuthorization path = .ok true := by
    have open_ : PathRule.sharesPath path.toList = false := by
      have root : "/api/v1/files/shares/".toList = "/api/v1/files/".toList ++ "shares/".toList := rfl
      have no : "/api/v1/files/shares/".toList.isPrefixOf path.toList = false := by
        rw [← Bool.not_eq_true, List.isPrefixOf_iff_prefix, below, root, List.prefix_append_right_inj]
        exact plain
      rw [PathRule.sharesPath, no, Bool.false_and]
    have closed : "/api/v1/files".toList.isPrefixOf path.toList = true := by
      rw [List.isPrefixOf_iff_prefix, below]
      exact ⟨'/' :: sub, rfl⟩
    have needed := PathRule.requiresAuthorization_default path
    rw [open_, closed] at needed
    rw [config]
    exact needed
  rcases Client.start_cases absolute with ⟨f, broken, _⟩ | ⟨guarded, url, rule', address, started⟩
  · rw [config] at broken
    exact absurd Config.default_usable broken
  · cases rule.symm.trans rule'
    rw [config, Config.urlFor_default] at address
    exact ⟨_, started, rfl, rfl, (Except.ok.inj address).symm⟩

end

theorem reply_status {a : Response} (h : a.status ≠ 401) : (Site.reply a).status ≠ 401 := by
  intro refused
  exact h (Int.ofNat.inj refused)

section
variable {net : Network ω} {view : ω → Server τ × Held} {c : Client ω} {s : Server τ} {held : Held}
  {path : String} {o : Options ω} {rest : List Char} {p : Payload} {headers : Headers} {n : Int}
  {data : Bytes} {r : Asked} {call : Call}

theorem Delivers.carried_out (delivers : Delivers net view) (there : view c.world = (s, held))
    (cookies : c.credentials = .cookies) (named : s.tokens.Named) (files : OnFiles s path o rest)
    (encoded : o.body.encode o.headers false n = .ok (p, headers)) (direct : Direct path o data r)
    (closed : call.guarded = true)
    (url : call.url = String.ofList ("http://127.0.0.1:8080".toList ++ path.toList))
    (good : s.holder held ≠ none) (recover : Recovery ω) :
    ∃ c', (Client.fetched recover call.guarded (fun r => (Client.settle call r).2)
        (fun _ c => c.ask net o headers call p data) o.lent c).2 =
        (c', .ok ⟨Site.reply (s.tree.answer r rest).1, c.replies⟩) ∧
      view c'.world = ({ s with tree := (s.tree.answer r rest).2 }, held) := by
  obtain ⟨a, s', c', first, asked, after, _, _⟩ :=
    delivers.attempt there cookies named files encoded direct closed url
  rw [if_neg good] at first
  cases first
  have final := reply_status (FileTree.serve_response s.tree r.method (Path.normalize rest)
    ((r.header? "X-FZ-Action").getD "") (r.header? "X-FZ-Recursive") r.body).1
  have settled := Client.settle_of_guarded call closed
    ⟨Site.reply (s.tree.answer r rest).1, c.replies⟩
  refine ⟨c', ?_, after⟩
  simp only [Client.fetched, asked]
  rw [if_pos (.inl final), settled]

/-- Without one the tokens are renewed. If that works the operation is tried once more. -/
theorem Delivers.turned_away (delivers : Delivers net view) (there : view c.world = (s, held))
    (config : c.config = {}) (cookies : c.credentials = .cookies) (named : s.tokens.Named)
    (files : OnFiles s path o rest)
    (encoded : o.body.encode o.headers false n = .ok (p, headers)) (direct : Direct path o data r)
    (closed : call.guarded = true)
    (url : call.url = String.ofList ("http://127.0.0.1:8080".toList ++ path.toList))
    (bad : s.holder held = none) :
    ∃ (renewUrl : String) (q : Asked) (c' : Client ω),
      Arrives (Server.renewal renewUrl) "/api/v1/auth/token".toList held q ∧
      view c'.world = ((s.handle q).2, held.take (s.handle q).1) ∧ c'.credentials = .cookies ∧
      (Client.fetched (Client.refresh net) call.guarded (fun r => (Client.settle call r).2)
          (fun _ c => c.ask net o headers call p data) o.lent c).2 =
        if isSuccess (s.handle q).1.status then c'.ask net o headers call p data
        else ({ c' with entries := Session.clear c'.entries }, .error (.auth .tokenRefresh)) := by
  obtain ⟨a, s₁, c₁, first, asked, there₁, config₁, cookies₁⟩ :=
    delivers.attempt there cookies named files encoded direct closed url
  rw [if_pos bad] at first
  cases first
  obtain ⟨renewUrl, q, c', arrives, after, _, cookies', refreshed⟩ :=
    delivers.refresh (c := c₁.close c.replies) there₁ (config₁.trans config)
      (cookies₁.trans cookies)
  have refused : ¬ ((Site.reply (.unauthorized "Bearer")).status ≠ 401 ∨ call.guarded = false) := by
    rw [closed]
    decide
  refine ⟨renewUrl, q, c', arrives, after, cookies'.trans (cookies₁.trans cookies), ?_⟩
  simp only [Client.fetched, asked, if_neg refused, refreshed]
  cases isSuccess (s.handle q).1.status <;> rfl

theorem OnFiles.handle_direct (files : OnFiles s path o rest) (direct : Direct path o data r)
    {tokens : TokenStore τ} (valid : Server.user? { s with tokens } r ≠ none) :
    Server.handle { s with tokens } r =
      ((s.tree.answer r rest).1, { s with tokens, tree := (s.tree.answer r rest).2 }) := by
  obtain ⟨rule, routed, endpoint⟩ := files.routed
  have once := Server.handle_files (s := { s with tokens }) (r := r)
    (by rw [direct.method, direct.path]; exact routed) endpoint (sharePart?_eq_none files.plain)
    (by rw [direct.method]; exact files.verb)
  rw [once, if_neg valid]

end

section
variable [OfNat τ 0] {net : Network ω} {view : ω → Server τ × Held} {c : Client ω} {s : Server τ}
  {held : Held}

/-- A fetch on files comes to what a direct request with any good access token comes to, and the
operation is carried out once, if the client's access token or its refresh token is good; and with a
good refresh token the client has a good pair afterwards. Else the fetch fails for want of new
tokens and the server is as it was. -/
theorem fetch_transparent (delivers : Delivers net view) (there : view c.world = (s, held))
    (reached : Server.Reachable s held) (lasting : s.Lasting) (config : c.config = {})
    (cookies : c.credentials = .cookies) {path : String} {o : Options ω} {rest : List Char}
    (files : OnFiles s path o rest) (alone : o.recovery = none) {data : Bytes}
    (body : o.body.bytes? = some data) {r : Asked} (direct : Direct path o data r)
    {tokens : TokenStore τ} (valid : Server.user? { s with tokens } r ≠ none) :
    (s.holder held ≠ none ∨ s.renewer held ≠ none →
      ∃ c' n s' held', c.fetch net path o =
          (c', .ok ⟨Site.reply (Server.handle { s with tokens } r).1, n⟩) ∧
        view c'.world = (s', held') ∧ s'.tree = (Server.handle { s with tokens } r).2.tree ∧
        (s.renewer held ≠ none → s'.holder held' ≠ none ∧ s'.renewer held' ≠ none)) ∧
    (s.holder held = none → s.renewer held = none →
      ∃ c', c.fetch net path o = (c', .error (.auth .tokenRefresh)) ∧
        view c'.world = (s, held)) := by
  have sound := reached.sound
  obtain ⟨call, started, fresh, closed, url⟩ := files.start config
  have idle : (o.recovery.getD (Client.refresh net)).Idle := by
    rw [alone]
    exact fun _ _ => rfl
  obtain ⟨p, headers, encoded, fetches⟩ := Client.fetch_idle started fresh body net idle
  rw [files.handle_direct direct valid, fetches, alone]
  by_cases good : s.holder held = none
  · obtain ⟨renewUrl, q, c₂, arrives, there₂, cookies₂, fetched⟩ :=
      delivers.turned_away there config cookies sound.named files encoded direct closed url good
    rw [Option.getD_none, fetched]
    constructor
    · intro either
      have renews : s.renewer held ≠ none := either.resolve_left (fun h => h good)
      obtain ⟨user, renewer⟩ := Option.ne_none_iff_exists'.mp renews
      obtain ⟨b, s₂, handled, success, rules, tree, named, holder₂, renewer₂⟩ :=
        Server.renewal_granted sound lasting arrives renewer
      rw [handled] at there₂ ⊢
      obtain ⟨a', s₃, c₃, second, asked, there₃, _, _⟩ :=
        delivers.attempt there₂ cookies₂ named (files.congr rules) encoded direct closed url
      rw [if_neg (by rw [holder₂]; simp), tree] at second
      cases second
      have fine : isSuccess b.status = true := by
        rw [success]
        decide
      rw [if_pos fine, asked]
      -- The tree has changed since, but the tokens of the new pair have not.
      have holder₃ : Server.holder { s₂ with tree := (s.tree.answer r rest).2 } (held.take b) =
        some user := holder₂
      have renewer₃ : Server.renewer { s₂ with tree := (s.tree.answer r rest).2 } (held.take b) =
        some user := renewer₂
      refine ⟨c₃, c₂.replies, _, _, rfl, there₃, rfl, fun _ => ?_⟩
      rw [holder₃, renewer₃]
      simp
    · intro _ bad
      obtain ⟨b, handled, status, kept⟩ := Server.renewal_refused sound arrives bad
      rw [handled, kept] at there₂
      have failed : ¬ isSuccess (s.handle q).1.status = true := by
        rw [handled, status]
        decide
      rw [if_neg failed]
      exact ⟨_, rfl, there₂⟩
  · obtain ⟨c', fetched, after⟩ :=
      delivers.carried_out there cookies sound.named files encoded direct closed url good
        (Client.refresh net)
    rw [Option.getD_none, fetched]
    exact ⟨fun _ => ⟨c', c.replies, _, _, rfl, after, rfl, fun renews => ⟨good, renews⟩⟩,
      fun bad => absurd bad good⟩

end

/-! ### A client whose access token has expired -/

def later : Joined Int :=
  ⟨({ (oneUser.handle login).2 with now := 2000 }, ({} : Held).take (oneUser.handle login).1),
    Held.All.take ⟨.inl rfl, .inl rfl⟩ _ fun c hc =>
      ((oneUser.handle_effect login).2 c hc).imp_right And.left⟩

def laterClient : Client (Joined Int) :=
  { config := {}, credentials := .cookies, entries := [], world := later }

def putLetter : Options (Joined Int) := { method := "PUT", body := .text "x" }

def putDirect : Asked :=
  ⟨"PUT", Asked.pathOf "/api/v1/files/a".toList, [("Authorization", "Bearer k")], [120]⟩

def otherTokens : TokenStore Int := { access := [("k", ⟨"u", 5000⟩)] }

theorem fetch_transparent_later :
    later.1.1.holder later.1.2 = none ∧ later.1.1.renewer later.1.2 = some "u" ∧
    ∃ c' n s' held', laterClient.fetch Joined.network "/api/v1/files/a" putLetter =
        (c', .ok ⟨Site.reply (Server.handle { later.1.1 with tokens := otherTokens } putDirect).1,
          n⟩) ∧
      c'.world.1 = (s', held') ∧
      s'.tree = (Server.handle { later.1.1 with tokens := otherTokens } putDirect).2.tree ∧
      s'.holder held' ≠ none ∧ s'.renewer held' ≠ none := by
  have expired : later.1.1.holder later.1.2 = none := by decide +kernel
  have good : later.1.1.renewer later.1.2 = some "u" := by decide +kernel
  have reached : Server.Reachable later.1.1 later.1.2 :=
    .clock 2000 (.own login (.fresh oneUser ⟨rfl, rfl, rfl⟩))
  have keeps : Server.Keeps oneUser (oneUser.handle login).2 := (oneUser.handle_effect login).1
  have lasting : later.1.1.Lasting := by
    rw [Server.lasting_iff]
    change 0 < (oneUser.handle login).2.accessLife.span ∧ 0 < (oneUser.handle login).2.refreshLife.span
    rw [keeps.accessLife, keeps.refreshLife]
    decide
  have routed : Route.resolve later.1.1.rules "PUT" (Asked.pathOf "/api/v1/files/a".toList) =
      .rule ⟨.files, ["", "api", "v1", "files"].map String.toList, true,
        ["GET", "PUT", "DELETE", "POST", "HEAD", "OPTIONS"], true⟩ "a".toList := by
    have rules : later.1.1.rules = Server.defaultRules := keeps.rules
    rw [rules]
    decide +kernel
  have files : OnFiles later.1.1 "/api/v1/files/a" putLetter "a".toList :=
    ⟨⟨"a".toList, rfl, by decide⟩, ⟨_, routed, rfl⟩, by decide, by decide, fun e he => by cases he⟩
  have direct : Direct "/api/v1/files/a" putLetter [120] putDirect :=
    ⟨rfl, rfl, rfl, by decide +kernel, by decide +kernel⟩
  have valid : Server.user? { later.1.1 with tokens := otherTokens } putDirect ≠ none := by
    decide +kernel
  have renews : later.1.1.renewer later.1.2 ≠ none := by
    rw [good]
    simp
  obtain ⟨c', n, s', held', fetched, there, tree, pair⟩ :=
    (fetch_transparent (c := laterClient) Joined.network_delivers rfl reached lasting rfl rfl files
      rfl (by decide) direct valid).1 (.inr renews)
  exact ⟨expired, good, c', n, s', held', fetched, there, tree, pair renews⟩

end FileGate
