import FileGate.Proofs.Client.Outcome
import FileGate.Proofs.Client.Requests
import FileGate.Proofs.Server.FilesRoot
import FileGate.Proofs.Tree.Frame

namespace FileGate

open FileGate.Path (AreSegments spell)

inductive Errand where
  | mkdir
  | remove (recursive : Bool)
  | upload (body : Body)

theorem Client.upload_eq_transfer {ω : Type} {net : Network ω} {path : List Char} {p : String}
    {body : Body} {c : Client (Stage ω)} (there : c.filePath path = .ok p)
    (begins : c.world.plan.interrupt.map (·.1) ≠ some .start) :
    (c.upload (Stage.network net) path body none none).1 =
      (Stage.transfer net p (uploadOptions (Stage.network net) body none none) c).1 := by
  rw [upload, there]
  dsimp only
  rw [waited_eq_transfer begins]

namespace Errand

variable {ω : Type}

def perform (net : Network ω) (path : String) (c : Client ω) : Errand → Client ω
  | mkdir => (c.mkdir net path).1
  | remove recursive => (c.remove net path recursive).1
  | upload body => (c.upload net path.toList body none none).1

def Ready (net : Network ω) (c : Client ω) : Errand → Prop
  | upload body => (∀ v, body ≠ .other v) ∧ 0 < c.config.maxTransfers ∧ net.stopped c.world = false
  | _ => True

def method : Errand → String
  | remove _ => "DELETE"
  | _ => "PUT"

theorem method_cases (errand : Errand) : errand.method = "PUT" ∨ errand.method = "DELETE" := by
  cases errand with
  | remove recursive => exact .inr rfl
  | mkdir => exact .inl rfl
  | upload body => exact .inl rfl

def change (data : Bytes) (p : Path) (t : FileTree) : Errand → Change × FileTree
  | mkdir => t.mkdir p
  | remove recursive => t.remove p recursive
  | upload _ => t.write p data

/-- Whether of two trees the second has nothing changed but what may be changed at a path: a removal
takes away what is there and below, all else is about the path alone. -/
def Confined (p : Path) (t u : FileTree) : Errand → Prop
  | remove _ => (∀ q, ¬ FileTree.Under p q → FileTree.SameAt q t u) ∧
    ∀ q, (u.isDir q = true → t.isDir q = true) ∧ ∀ b, u.read q = some b → t.read q = some b
  | _ => ∀ q, q ≠ p → FileTree.SameAt q t u

theorem confined_self (errand : Errand) (p : Path) (t : FileTree) : errand.Confined p t t := by
  cases errand with
  | remove recursive => exact ⟨fun q _ => .refl q t, fun _ => ⟨id, fun _ => id⟩⟩
  | mkdir => exact fun q _ => .refl q t
  | upload body => exact fun q _ => .refl q t

theorem confined_change (errand : Errand) (data : Bytes) (p : Path) (t : FileTree) :
    errand.Confined p t (errand.change data p t).2 := by
  cases errand with
  | remove recursive =>
    exact ⟨fun _ => FileTree.remove_sameAt t recursive, FileTree.remove_shrinks t p recursive⟩
  | mkdir => exact fun _ => FileTree.mkdir_sameAt t
  | upload body => exact fun _ => FileTree.write_sameAt t data

/-! ### At the client -/

def options (net : Network ω) : Errand → Options ω
  | mkdir => { method := "PUT", headers := [("X-FZ-Action", "mkdir")] }
  | remove recursive =>
    { method := "DELETE", headers := if recursive then [("X-FZ-Recursive", "true")] else [] }
  | upload body => Client.uploadOptions net body none none

theorem options_method (net : Network ω) (errand : Errand) :
    (errand.options net).method = errand.method := by
  cases errand <;> rfl

def way : Errand → Way
  | upload _ => .transfer .bytes
  | _ => .fetch

variable {net : Network ω} {errand : Errand} {path : String} {c : Client ω} {root : List Char}
  {call : Call}

theorem renews (net : Network ω) (errand : Errand) :
    errand.way.recovery net (errand.options net) = some { act := Client.refresh net } := by
  cases errand <;> rfl

theorem perform_cases (rooted : c.config.filesRoot.dropSlashes = .ok root) :
    (errand.perform net path c = c ∧ (errand.Ready net c →
        ∃ f, c.start (String.ofList (root ++ path.toList)) = .error f)) ∨
    ∃ call, c.start (String.ofList (root ++ path.toList)) = .ok call ∧
      errand.perform net path c = errand.way.result net (String.ofList (root ++ path.toList))
        (errand.options net) call c := by
  have there : c.filePath path.toList = .ok (String.ofList (root ++ path.toList)) := by
    rw [Client.filePath, rooted]
    rfl
  have fetched (o : Options ω) : (c.fetchFile net path.toList o).1 =
      (c.fetch net (String.ofList (root ++ path.toList)) o).1 := by
    rw [Client.fetchFile, there]
  cases started : c.start (String.ofList (root ++ path.toList)) with
  | error f =>
    refine .inl ⟨?_, fun _ => ⟨f, rfl⟩⟩
    cases errand with
    | upload body =>
      rw [perform, Client.upload, there]
      simp only [Client.waited_eq, Client.prepare, started]
      rfl
    | _ => exact (fetched _).trans (by simp only [Client.fetch_eq, started])
  | ok call =>
    cases errand with
    | upload body =>
      rw [perform, Client.upload, there]
      by_cases idle : c.config.maxTransfers ≤ 0
      · left
        refine ⟨?_, fun ready => absurd ready.2.1 (Int.not_lt.mpr idle)⟩
        simp only [Client.waited_eq, Client.prepare, started, if_pos idle]
        rfl
      · right
        refine ⟨call, rfl, ?_⟩
        simp only [Client.waited_eq, Client.prepare, started, if_neg idle]
        rfl
    | _ => exact .inr ⟨call, rfl, fetched _⟩

theorem encode_of_ready (ready : errand.Ready net c) :
    ∃ p headers, errand.way.encode c.config (errand.options net) = .ok (p, headers) := by
  cases errand with
  | upload body =>
    cases body with
    | other v => exact absurd rfl (ready.1 v)
    | _ => exact ⟨_, _, rfl⟩
  | _ => exact ⟨_, _, rfl⟩

theorem going_of_ready (ready : errand.Ready net c) :
    (errand.way.network net).stopped c.world = false := by
  cases errand with
  | upload body => exact ready.2.2
  | _ => rfl

theorem perform_notes (rooted : c.config.filesRoot.dropSlashes = .ok root) :
    Client.Notes (fun e => Client.IsRenewal e ∨ ∃ url,
        c.config.urlFor (root ++ path.toList) = .ok url ∧
        Client.Carries (errand.options net) url e) c (errand.perform net path c) := by
  rcases perform_cases rooted with ⟨nothing, _⟩ | ⟨call, started, called⟩
  · rw [nothing]
    exact .refl c
  · have address := Client.url_of_start started
    rw [String.toList_ofList] at address
    rw [called]
    refine (Way.result_notes started (renews net errand)).mono fun e caused => ?_
    exact caused.imp_right fun carries => ⟨call.url, address, carries⟩

theorem perform_asks (rooted : c.config.filesRoot.dropSlashes = .ok root)
    (absolute : isAbsolute (String.ofList (root ++ path.toList)) = true) (usable : c.config.Usable)
    (ready : errand.Ready net c) :
    ∃ e rest url, Client.Carries (errand.options net) url e ∧
      (errand.perform net path c).journal = c.journal ++ e :: rest := by
  rcases perform_cases rooted with ⟨_, failed⟩ | ⟨call, started, called⟩
  · obtain ⟨f, failed⟩ := failed ready
    rcases Client.start_cases absolute with ⟨_, broken, _⟩ | ⟨guarded, url, _, _, started⟩
    · exact absurd usable broken
    · cases started.symm.trans failed
  · obtain ⟨p, headers, encoded⟩ := encode_of_ready ready
    obtain ⟨e, rest, carries, noted⟩ :=
      Way.result_asks started encoded (going_of_ready ready) (renews net errand)
    rw [called]
    exact ⟨e, rest, call.url, carries, noted⟩

/-! ### At the server -/

/-- A request that says what the errand says. -/
structure Heard (net : Network ω) (errand : Errand) (r : Asked) : Prop where
  method : r.method = errand.method
  action : r.values "X-FZ-Action" = Headers.values "X-FZ-Action" (errand.options net).headers
  recursive : r.values "X-FZ-Recursive" =
    Headers.values "X-FZ-Recursive" (errand.options net).headers

theorem heard_of_arrives {url : String} {e : Exchange} {data : Bytes} {target : List Char}
    {held : Held} {r : Asked} (carries : Client.Carries (errand.options net) url e)
    (arrives : Arrives ⟨e.method, e.url, e.headers, data⟩ target held r) : errand.Heard net r := by
  have verb : errand.method ∈ Server.verbs := by
    rcases errand.method_cases with h | h <;> rw [h] <;> decide
  constructor
  · rw [arrives.method, carries.method, options_method, Server.upper_of_verb verb]
  · rw [arrives.headers _ (by decide)]
    exact carries.headers _ (by decide +kernel)
  · rw [arrives.headers _ (by decide)]
    exact carries.headers _ (by decide +kernel)

theorem Heard.answer {r : Asked} (heard : errand.Heard net r) (t : FileTree) (rest : List Char) :
    t.answer r rest = (.ofStatus (errand.change r.body (Path.normalize rest) t).1.status,
      (errand.change r.body (Path.normalize rest) t).2) := by
  obtain ⟨method, action, recursive_⟩ := heard
  rw [FileTree.answer, method]
  cases errand with
  | mkdir =>
    have values : Headers.values "X-FZ-Action" [("X-FZ-Action", "mkdir")] = ["mkdir"] := by
      decide +kernel
    have header : r.header? "X-FZ-Action" = some "mkdir" := by
      rw [Asked.header?, action, options, values]
      rfl
    rw [header]
    rfl
  | upload body =>
    have values :
        Headers.values "X-FZ-Action" [(contentType, "application/octet-stream")] = [] := by
      decide +kernel
    have header : r.header? "X-FZ-Action" = none := by
      rw [Asked.header?, action, options, Client.uploadOptions, values]
    rw [header]
    rfl
  | remove recursive =>
    have values : Headers.values "X-FZ-Recursive" [("X-FZ-Recursive", "true")] = ["true"] := by
      decide +kernel
    have flag : ((r.header? "X-FZ-Recursive").map lowerText == some "true".toList) = recursive := by
      rw [Asked.header?, recursive_, options]
      cases recursive with
      | false => rfl
      | true =>
        rw [if_pos rfl, values]
        decide +kernel
    simp only [Errand.method, FileTree.serve, Errand.change, flag]

variable {τ : Type} [LE τ] [DecidableLE τ] [Add τ] {s : Server τ} {r : Asked} {rest : List Char}

theorem tree_of_renewal {e : Exchange} {data : Bytes} {target : List Char} {held : Held}
    (renewal : Client.IsRenewal e)
    (arrives : Arrives ⟨e.method, e.url, e.headers, data⟩ target held r) :
    (s.handle r).2.tree = s.tree := by
  obtain ⟨post, headers⟩ := renewal
  rcases s.handle_tree r with ⟨rest, touches⟩ | same
  · have method : r.method = "POST" := by
      rw [arrives.method, post]
      exact Server.upper_of_verb (m := "POST") (by decide)
    have action : r.header? "X-FZ-Action" = none := by
      have none_ : Headers.values "X-FZ-Action" [(contentType, formType)] = [] := by decide +kernel
      rw [Asked.header?, arrives.headers _ (by decide), headers, none_]
    rw [touches.handle, FileTree.answer, method, action]
    rfl
  · exact same

theorem Heard.handle (heard : errand.Heard net r) (touches : s.Touches r rest) :
    s.handle r = s.change (errand.change r.body (Path.normalize rest) s.tree) := by
  have body (a : Response) : a.sent r.method = a := by
    rw [heard.method]
    cases errand <;> rfl
  rw [touches.handle, heard.answer, body]
  rfl

theorem Heard.confined {p : Path} (heard : errand.Heard net r)
    (entry : ∀ rest, s.ForFiles r rest → Path.normalize rest = p) :
    errand.Confined p s.tree (s.handle r).2.tree := by
  rcases s.handle_tree r with ⟨rest, touches⟩ | same
  · rw [heard.handle touches, entry rest touches.files]
    exact confined_change errand r.body p s.tree
  · rw [same]
    exact confined_self errand p s.tree

omit [Add τ] in
theorem Heard.touches (heard : errand.Heard net r) (files : s.ForFiles r rest)
    (plain : sharePart? rest = none) (user : s.user? r ≠ none) : s.Touches r rest := by
  refine ⟨files, ?_, plain, user⟩
  rw [heard.method]
  rcases errand.method_cases with h | h <;> rw [h] <;> decide

end Errand

structure Config.Rooted (c : Config) (base : List Char) (ss : List Path) : Prop where
  base : c.baseUrl.dropSlashes = .ok base
  root : c.filesRoot.dropSlashes = .ok (spell ss)
  segments : AreSegments ss
  plain : Asked.IsPlain (spell ss)

theorem Config.default_rooted : Config.Rooted {} "http://127.0.0.1:8080".toList
    Server.defaultRoot where
  base := by decide +kernel
  root := Server.filesRoot_default
  segments := Server.defaultRoot_areSegments
  plain := by decide +kernel

namespace Errand

variable {ω τ : Type} [LE τ] [DecidableLE τ] [Add τ] {net : Network ω} {errand : Errand}
  {path : String} {c : Client ω} {base y target : List Char} {ss : List Path} {e : Exchange}
  {url : String} {data : Bytes} {held : Held} {r : Asked} {s : Server τ}

theorem path_of_arrives (rooted : c.config.Rooted base ss) (named : path.toList = '/' :: y)
    (address : c.config.urlFor (spell ss ++ path.toList) = .ok url) (there : e.url = url)
    (split : e.url.toList = base ++ target)
    (arrives : Arrives ⟨e.method, e.url, e.headers, data⟩ target held r) :
    r.path = spell ss ++ '/' :: Asked.pathOf y := by
  rw [Config.urlFor, rooted.base] at address
  have whole : base ++ target = base ++ (spell ss ++ path.toList) := by
    rw [← split, there, ← Except.ok.inj address, String.toList_ofList]
  rw [arrives.path, List.append_cancel_left whole, Asked.pathOf_append rooted.plain, named,
    Asked.pathOf_slash]

omit [LE τ] [DecidableLE τ] [Add τ] in
theorem normalize_rest (rooted : c.config.Rooted base ss)
    (rules : Server.rulesFor c.config = .ok s.rules) (named : path.toList = '/' :: y)
    (there : r.path = spell ss ++ '/' :: Asked.pathOf y) (rest : List Char)
    (files : s.ForFiles r rest) :
    Path.normalize rest = Path.normalize (Asked.pathOf path.toList) := by
  rw [files.normalize_rest rules rooted.root rooted.segments there, named, Asked.pathOf_slash,
    Path.normalize_slash]

/-- A request of the errand does what the errand says at its entry if it is admitted, and nothing
elsewhere in any case. -/
theorem confined_of_carries (rooted : c.config.Rooted base ss)
    (rules : Server.rulesFor c.config = .ok s.rules) (named : path.toList = '/' :: y)
    (address : c.config.urlFor (spell ss ++ path.toList) = .ok url)
    (carries : Client.Carries (errand.options net) url e) (split : e.url.toList = base ++ target)
    (arrives : Arrives ⟨e.method, e.url, e.headers, data⟩ target held r) :
    errand.Confined (Path.normalize (Asked.pathOf path.toList)) s.tree (s.handle r).2.tree ∧
    ∀ rest, Asked.pathOf path.toList = '/' :: rest → (Route.isRest rest = true ∨ rest = []) →
      sharePart? rest = none → s.user? r ≠ none →
      s.handle r =
        s.change (errand.change data (Path.normalize (Asked.pathOf path.toList)) s.tree) := by
  have heard := heard_of_arrives carries arrives
  have there := path_of_arrives rooted named address carries.url split arrives
  have about := normalize_rest rooted rules named there
  refine ⟨heard.confined about, fun rest left isRest plain user => ?_⟩
  rw [named, Asked.pathOf_slash] at left
  rw [List.tail_eq_of_cons_eq left] at there
  have method : r.method = "PUT" ∨ r.method = "DELETE" := heard.method ▸ errand.method_cases
  have files : s.ForFiles r rest :=
    Server.forFiles_of_isRest rules rooted.root rooted.segments there method isRest
  rw [heard.handle (heard.touches files plain user), about rest files, arrives.body]

theorem confined_of_renewal (p : Path) (renewal : Client.IsRenewal e)
    (arrives : Arrives ⟨e.method, e.url, e.headers, data⟩ target held r) :
    errand.Confined p s.tree (s.handle r).2.tree ∧ e.method ≠ errand.method := by
  rw [tree_of_renewal renewal arrives, renewal.1]
  refine ⟨confined_self errand p s.tree, ?_⟩
  rcases errand.method_cases with h | h <;> rw [h] <;> decide

omit [LE τ] [DecidableLE τ] [Add τ] in
theorem perform_begins (rooted : c.config.Rooted base ss) (absolute : isAbsolute path = true)
    (usable : c.config.Usable) (ready : errand.Ready net c) :
    ∃ e rest, (errand.perform net path c).journal = c.journal ++ e :: rest ∧
      e.method = errand.method := by
  have below : isAbsolute (String.ofList (spell ss ++ path.toList)) = true := by
    rw [isAbsolute, beq_iff_eq] at absolute
    obtain ⟨x, named⟩ := List.head?_eq_some_iff.mp absolute
    rw [isAbsolute, String.toList_ofList, named]
    cases ss with
    | nil => rfl
    | cons s ss => rfl
  obtain ⟨e, rest, url, carries, noted⟩ := perform_asks rooted.root below usable ready
  exact ⟨e, rest, noted, carries.method.trans (options_method net errand)⟩

/-- What a client asks of a server with the same configuration in the course of an errand is about
one entry alone, the one that is left of the path without query, fragment and escapes. If it is
admitted it is carried out there. -/
theorem confined_to_entry (rooted : c.config.Rooted base ss) (absolute : isAbsolute path = true) :
    let entry := Path.normalize (Asked.pathOf path.toList)
    (Asked.IsPlain path.toList → entry = Path.normalize path.toList) ∧
    ∃ new, (errand.perform net path c).journal = c.journal ++ new ∧
      (c.config.Usable → errand.Ready net c →
        ∃ e rest, new = e :: rest ∧ e.method = errand.method) ∧
      ∀ e ∈ new, ∀ (s : Server τ) (target : List Char) (data : Bytes) (held : Held) (r : Asked),
        Server.rulesFor c.config = .ok s.rules → e.url.toList = base ++ target →
        Arrives ⟨e.method, e.url, e.headers, data⟩ target held r →
        errand.Confined entry s.tree (s.handle r).2.tree ∧
        ∀ y, Asked.pathOf path.toList = '/' :: y → (Route.isRest y = true ∨ y = []) →
          sharePart? y = none → e.method = errand.method → s.user? r ≠ none →
          s.handle r = s.change (errand.change data entry s.tree) := by
  intro entry
  obtain ⟨x, named⟩ : ∃ x, path.toList = '/' :: x := by
    rw [isAbsolute, beq_iff_eq] at absolute
    exact List.head?_eq_some_iff.mp absolute
  obtain ⟨_, new, noted, all⟩ := @perform_notes ω net errand path c _ rooted.root
  refine ⟨fun plain => congrArg Path.normalize (Asked.pathOf_of_plain plain), new, noted, ?_, ?_⟩
  · intro usable ready
    obtain ⟨e, rest, noted', method⟩ := perform_begins rooted absolute usable ready
    exact ⟨e, rest, List.append_cancel_left (noted.symm.trans noted'), method⟩
  · intro e he s target data held r rules split arrives
    rcases all e he with renewal | ⟨url, address, carries⟩
    · -- A renewal is told from the errand by its method.
      obtain ⟨confined, other⟩ := confined_of_renewal (s := s) entry renewal arrives
      exact ⟨confined, fun y _ _ _ method => absurd method other⟩
    · obtain ⟨confined, done⟩ :=
        confined_of_carries rooted rules named address carries split arrives
      exact ⟨confined, fun y left rest plain _ user => done y left rest plain user⟩

end Errand

def holding : Joined Int :=
  ⟨({ later.1.1 with
      now := 1000, tree := { dirs := [['/'], "/d".toList], files := [("/d/a".toList, [1])] } },
    later.1.2), later.2⟩

def holdingClient : Client (Joined Int) :=
  { config := {}, credentials := .cookies, entries := [], world := holding }

theorem holding_admits : holding.1.1.holder holding.1.2 = some "u" := by decide +kernel

theorem Errand.confined_to_entry_removing :
    ∃ e rest, ((remove true).perform Joined.network "/d" holdingClient).journal = e :: rest ∧
      ∃ r, Arrives ⟨e.method, e.url, e.headers, []⟩ "/api/v1/files/d".toList holding.1.2 r ∧
        holding.1.1.handle r = holding.1.1.change (holding.1.1.tree.remove "/d".toList true) := by
  let c := (remove true).perform Joined.network "/d" holdingClient
  obtain ⟨entry, new, noted, first, all⟩ := @confined_to_entry (Joined Int) Int _ _ _ Joined.network
    (remove true) "/d" holdingClient _ _ Config.default_rooted (by decide)
  obtain ⟨e, rest, rfl, _⟩ := first Config.default_usable trivial
  have sent : c.journal.map (fun e => (e.method, e.url, e.headers)) =
      [("DELETE", "http://127.0.0.1:8080/api/v1/files/d", [("X-FZ-Recursive", "true"),
        ("Authorization", "Bearer cookie:access_token"), ("Cache-Control", "no-store")])] := by
    decide +kernel
  have spelt : (e.method, e.url, e.headers) = _ := (List.cons.inj (noted ▸ sent)).1
  simp only [Prod.mk.injEq] at spelt
  obtain ⟨method, url, headers⟩ := spelt
  have address : e.url =
      String.ofList ("http://127.0.0.1:8080".toList ++ "/api/v1/files/d".toList) := by
    rw [url]
    decide +kernel
  have bearer : Headers.values "Authorization" e.headers = ["Bearer cookie:access_token"] := by
    rw [headers]
    decide +kernel
  obtain ⟨r, arrives, _⟩ := Joined.network_delivers.delivered ⟨e.method, e.url, e.headers, []⟩
    "/api/v1/files/d".toList holding address
  have rules : Server.rulesFor holdingClient.config = .ok holding.1.1.rules := by
    have same : holding.1.1.rules = Server.defaultRules := (oneUser.handle_effect login).1.rules
    rw [same]
    exact Server.rulesFor_default
  have reached := Server.Reachable.own login (.fresh oneUser ⟨rfl, rfl, rfl⟩)
  have named : holding.1.1.tokens.Named := reached.sound.named
  have user : holding.1.1.user? r ≠ none := by
    rw [Server.user?_of_arrives arrives named bearer, holding_admits]
    simp
  have plain : Path.normalize (Asked.pathOf "/d".toList) = "/d".toList := entry (by decide)
  have split := (congrArg String.toList address).trans String.toList_ofList
  have done := (all e List.mem_cons_self holding.1.1 _ [] holding.1.2 r rules split arrives).2
    "d".toList (by decide +kernel) (.inl (by decide)) (by decide) method user
  rw [plain] at done
  exact ⟨e, rest, noted, r, arrives, done⟩

/-- A removal of an entry whose name has a question mark takes away the directory that is named
before it, with all that is in it. -/
theorem Errand.remove_before_query :
    isAbsolute "/d?x" = true ∧
    (Text.splitAll '/' "d?x".toList).head? ≠ some "shares".toList ∧
    holding.1.1.holder holding.1.2 = some "u" ∧
    ¬ (remove true).Confined (Path.normalize "/d?x".toList) holding.1.1.tree
      ((remove true).perform Joined.network "/d?x" holdingClient).world.1.1.tree := by
  have outside : ¬ FileTree.Under (Path.normalize "/d?x".toList) "/d".toList := by
    rw [FileTree.Under]
    decide +kernel
  have there : holding.1.1.tree.isDir "/d".toList = true := by decide +kernel
  have gone : ((remove true).perform Joined.network "/d?x" holdingClient).world.1.1.tree.isDir
    "/d".toList = false := by decide +kernel
  refine ⟨by decide, by decide, holding_admits, fun confined => ?_⟩
  have same := (confined.1 _ outside).1
  rw [there, gone] at same
  cases same

end FileGate
