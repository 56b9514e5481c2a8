import FileGate.Proofs.Tree.Change
import FileGate.Server.Files

namespace FileGate

/-- The response to an operation on the tree, and the tree after it. -/
def FileTree.serve (t : FileTree) (method : String) (path : Path) (action : String)
    (recursive : Option String) (body : Bytes) : Response × FileTree :=
  let changed (c : Change × FileTree) : Response × FileTree := (.ofStatus c.1.status, c.2)
  match method with
  | "GET" => (Server.serveRead t path, t)
  | "PUT" => changed (if action == "mkdir" then t.mkdir path else t.write path body)
  | "DELETE" => changed (t.remove path (recursive.map lowerText == some "true".toList))
  | _ =>
    match MoveAction.read? action.toList with
    | none => (.error "invalid_request" (some "unsupported action"), t)
    | some (source, target) =>
      changed (t.move (Path.normalize (Path.join path (Percent.decode source)))
        (Path.normalize (Path.join path (Percent.decode (Text.trim target)))))

def Asked.move? (r : Asked) (rest : List Char) : Option (Path × Path) :=
  let path := Path.normalize rest
  (MoveAction.read? ((r.header? "X-FZ-Action").getD "").toList).map fun (source, target) =>
    (Path.normalize (Path.join path (Percent.decode source)),
      Path.normalize (Path.join path (Percent.decode (Text.trim target))))

namespace FileTree

def answer (t : FileTree) (r : Asked) (rest : List Char) : Response × FileTree :=
  t.serve r.method (Path.normalize rest) ((r.header? "X-FZ-Action").getD "")
    (r.header? "X-FZ-Recursive") r.body

theorem answer_congr (t : FileTree) {r r' : Asked} (rest : List Char) (method : r.method = r'.method)
    (body : r.body = r'.body) (action : r.header? "X-FZ-Action" = r'.header? "X-FZ-Action")
    (recursive : r.header? "X-FZ-Recursive" = r'.header? "X-FZ-Recursive") :
    t.answer r rest = t.answer r' rest := by
  rw [answer, answer, method, body, action, recursive]

theorem serve_move (t : FileTree) {method : String} (path : Path) (action : String)
    (recursive : Option String) (body : Bytes) (get : method ≠ "GET") (put : method ≠ "PUT")
    (delete : method ≠ "DELETE") :
    t.serve method path action recursive body = t.serve "POST" path action recursive body := by
  unfold serve
  split
  · exact absurd rfl get
  · exact absurd rfl put
  · exact absurd rfl delete
  · rfl

theorem answer_move (t : FileTree) {r : Asked} (rest : List Char) (get : r.method ≠ "GET")
    (put : r.method ≠ "PUT") (delete : r.method ≠ "DELETE") :
    t.answer r rest = match r.move? rest with
      | none => (.error "invalid_request" (some "unsupported action"), t)
      | some (source, target) =>
        (.ofStatus (t.move source target).1.status, (t.move source target).2) := by
  rw [answer, serve_move t _ _ _ _ get put delete, Asked.move?]
  unfold serve
  cases MoveAction.read? ((r.header? "X-FZ-Action").getD "").toList with
  | none => rfl
  | some paths => rfl

theorem read_octets {t : FileTree} {p : Path} {b : Bytes} (there : t.read p = some b) :
    Server.serveRead t p = .octets b := by
  rw [Server.serveRead, there]

theorem read_status_cases (t : FileTree) (p : Path) :
    t.Has p ∧ (Server.serveRead t p).status = 200 ∨
      ¬ t.Has p ∧ (Server.serveRead t p).status = 404 := by
  cases file : t.read p with
  | some b =>
    have has : t.isFile p = true := isFile_of_read file
    exact .inl ⟨.inr has, by rw [read_octets file]; rfl⟩
  | none =>
    have noFile : t.isFile p = false := by simp [isFile_eq_isSome, file]
    cases dir : t.isDir p with
    | true => exact .inl ⟨.inl dir, by simp [Server.serveRead, file, listing, dir]; rfl⟩
    | false =>
      refine .inr ⟨not_has_iff.mpr ⟨dir, noFile⟩, ?_⟩
      simp [Server.serveRead, file, listing, dir, Response.ofStatus]

theorem read_status (t : FileTree) (p : Path) : (Server.serveRead t p).status ≠ 401 := by
  rw [Server.serveRead]
  cases t.read p with
  | some b => simp [Response.octets]
  | none => cases t.listing p <;> simp [Response.listing, Response.json, Response.ofStatus]

theorem read_cookies (t : FileTree) (p : Path) : (Server.serveRead t p).cookies = [] := by
  rw [Server.serveRead]
  cases t.read p with
  | some b => rfl
  | none => cases t.listing p <;> rfl

theorem change_status (c : Change) : (Response.ofStatus c.status).status ≠ 401 := by
  cases c <;> decide

/-- An operation on the tree is never answered by a refusal, and sets no cookies. -/
theorem serve_response (t : FileTree) (method : String) (path : Path) (action : String)
    (recursive : Option String) (body : Bytes) :
    (t.serve method path action recursive body).1.status ≠ 401 ∧
      (t.serve method path action recursive body).1.cookies = [] := by
  unfold serve
  split
  · exact ⟨read_status t path, read_cookies t path⟩
  · exact ⟨change_status _, rfl⟩
  · exact ⟨change_status _, rfl⟩
  · cases MoveAction.read? action.toList with
    | none => exact ⟨by simp [Response.error, Response.json], rfl⟩
    | some paths => exact ⟨change_status _, rfl⟩

end FileTree

namespace Server

variable {τ : Type}

theorem challenge_cases (id : List Char) :
    challenge id = .error .unwritable ∨
      challenge id = .ok (.unauthorized
        ("Basic realm=\"Password needed for " ++ String.ofList id ++ "\"")) := by
  unfold challenge
  split
  · exact .inl rfl
  · exact .inr rfl

theorem serveShare_cookies {s : Server τ} {r : Asked} {part : List Char} {a : Response}
    (h : s.serveShare r part = .ok a) : a.cookies = [] := by
  unfold serveShare at h
  dsimp only at h
  split at h
  · cases h
    rfl
  · split at h
    · cases h
      rfl
    · split at h
      · cases h
      · rcases challenge_cases (Text.cut '/' part).1 with same | same
        · rw [same] at h
          cases h
        · rw [same] at h
          cases h
          rfl
      · generalize Path.within _ _ = inside at h
        cases inside with
        | false =>
          cases h
          rfl
        | true =>
          cases h
          exact FileTree.read_cookies _ _

variable [LE τ] [DecidableLE τ]

theorem serveFiles_of_user {s : Server τ} {r : Asked} {rest : List Char}
    (plain : sharePart? rest = none) (user : s.user? r ≠ none) :
    s.serveFiles r rest =
      .ok ((s.tree.answer r rest).1, { s with tree := (s.tree.answer r rest).2 }) := by
  have known : (s.user? r).isNone = false := by
    rw [← Bool.not_eq_true, Option.isNone_iff_eq_none]
    exact user
  unfold serveFiles FileTree.answer
  rw [plain]
  simp only [known, Bool.false_eq_true, if_false]
  generalize r.method = method
  by_cases get : method = "GET"
  · subst get
    rfl
  by_cases put : method = "PUT"
  · subst put
    rfl
  by_cases delete : method = "DELETE"
  · subst delete
    rfl
  rw [FileTree.serve_move s.tree _ _ _ _ get put delete]
  split
  · exact absurd rfl get
  · exact absurd rfl put
  · exact absurd rfl delete
  · unfold serveMove FileTree.serve
    cases MoveAction.read? ((r.header? "X-FZ-Action").getD "").toList with
    | none => rfl
    | some paths => rfl

theorem serveFiles_of_none {s : Server τ} {r : Asked} {rest : List Char}
    (plain : sharePart? rest = none) (user : s.user? r = none) :
    s.serveFiles r rest = .ok (.unauthorized "Bearer", s) := by
  rw [serveFiles, plain]
  simp [user]

end Server
end FileGate
