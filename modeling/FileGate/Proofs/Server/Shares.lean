import FileGate.Proofs.Server.Reachable
import FileGate.Proofs.Server.Routed
import FileGate.Proofs.Tree.Listing

namespace FileGate

def Shared.root (share : Shared) : Path := Path.normalize (share.path.getD "").toList

theorem Shared.root_eq (share : Shared) :
    Path.normalize (if (share.path.getD "").isEmpty then ['/'] else (share.path.getD "").toList) =
      share.root := by
  unfold root
  by_cases empty : share.path.getD "" = ""
  · rw [empty]
    rfl
  · rw [if_neg (by simpa using empty)]

namespace FileTree

variable {t u : FileTree} {p root : Path}

theorem SameWithin.serveRead (same : SameWithin root t u) (dt : t.Distinct) (du : u.Distinct)
    (hp : Path.IsNormal p) (hin : Path.within p root = true) :
    Server.serveRead u p = Server.serveRead t p := by
  rw [Server.serveRead, Server.serveRead, (same p hin).2, same.listing dt du hp hin]

theorem Distinct.answer (d : t.Distinct) (r : Asked) (rest : List Char) :
    (t.answer r rest).2.Distinct := by
  unfold FileTree.answer serve
  dsimp only
  split
  · exact d
  · split
    · exact d.mkdir _
    · exact d.write _ _
  · exact d.remove _ _
  · split
    · exact d
    · exact d.move _ _

end FileTree

def Asked.Brings (r : Asked) (password : String) : Prop :=
  ∃ credentials user, Authorization.parse (r.header? "Authorization") = ("Basic", credentials) ∧
    Authorization.decodeBasic? credentials = some (user, password)

namespace Server

variable {τ : Type} {s s' : Server τ} {r : Asked} {part : List Char}

def shareAt? (s : Server τ) (part : List Char) : Option Shared :=
  Assoc.get? (String.ofList (Text.cut '/' part).1) s.shares

theorem serveShare_none (unknown : s.shareAt? part = none) :
    s.serveShare r part = .ok (.ofStatus 404) := by
  unfold shareAt? at unknown
  unfold serveShare
  dsimp only
  rw [unknown]

theorem read_status_ne (t : FileTree) (p : Path) : (serveRead t p).status ≠ 405 := by
  rcases t.read_status_cases p with ⟨_, status⟩ | ⟨_, status⟩
  · rw [status]; decide
  · rw [status]; decide

theorem sameSecret_eq_true {a b : String} (h : sameSecret a b = .ok true) : a = b := by
  unfold sameSecret at h
  split at h
  · simpa using h
  · cases h

theorem brings_of_admits {share : Shared} {password : String}
    (locked : share.password = some password) (nonempty : password ≠ "")
    (admitted : admits share r = .ok true) : r.Brings password := by
  unfold admits at admitted
  rw [locked] at admitted
  rcases parsed : Authorization.parse (r.header? "Authorization") with ⟨scheme, credentials⟩
  have wanted : password.isEmpty = false := by simpa using nonempty
  simp only [parsed, Option.getD_some, wanted, Bool.false_eq_true, if_false] at admitted
  by_cases basic : scheme = "Basic"
  · subst basic
    cases decoded : Authorization.decodeBasic? credentials with
    | none => simp [decoded] at admitted
    | some account =>
      obtain ⟨user, given⟩ := account
      simp only [decoded, beq_self_eq_true, if_true] at admitted
      rw [sameSecret_eq_true admitted] at decoded
      exact ⟨credentials, user, parsed, decoded⟩
  · simp [basic] at admitted

theorem serveShare_locked {share : Shared} (shares : s'.shares = s.shares)
    (found : s.shareAt? part = some share) (closed : admits share r ≠ .ok true) :
    s'.serveShare r part = s.serveShare r part := by
  unfold serveShare
  unfold shareAt? at found
  rw [shares]
  dsimp only
  rw [found]
  dsimp only
  cases h : admits share r with
  | error e => rfl
  | ok open_ =>
    cases open_ with
    | false => rfl
    | true => exact absurd h closed

/-- What an opened share answers depends on the shared directory alone. -/
theorem serveShare_congr (shares : s'.shares = s.shares) (ds : s.tree.Distinct)
    (ds' : s'.tree.Distinct)
    (same : ∀ share, s.shareAt? part = some share →
      FileTree.SameWithin share.root s.tree s'.tree) :
    s'.serveShare r part = s.serveShare r part := by
  unfold serveShare
  unfold shareAt? at same
  rw [shares]
  dsimp only
  cases found : Assoc.get? (String.ofList (Text.cut '/' part).1) s.shares with
  | none => rfl
  | some share =>
    dsimp only
    cases admits share r with
    | error e => rfl
    | ok open_ =>
      cases open_ with
      | false => rfl
      | true =>
        rw [share.root_eq]
        dsimp only
        by_cases inside :
            Path.within (Path.normalize (Path.join share.root (Text.cut '/' part).2)) share.root
        · rw [if_pos inside, if_pos inside,
            (same share found).serveRead ds ds' (Path.isNormal_normalize _) inside]
        · rw [if_neg inside, if_neg inside]

variable [LE τ] [DecidableLE τ] [Add τ]

theorem handle_share_not_allowed_iff (files : s.ForFiles r rest) (method : r.method ≠ "OPTIONS")
    (share : sharePart? rest = some part) :
    (s.handle r).1.status = 405 ↔ s.shareAt? part ≠ none ∧ r.method ≠ "GET" := by
  rw [handle_share files method share]
  cases found : s.shareAt? part with
  | none =>
    rw [serveShare_none found]
    simp [Response.ofStatus]
  | some shared =>
    unfold shareAt? at found
    unfold serveShare
    dsimp only
    rw [found]
    by_cases get : r.method = "GET"
    · simp only [get, bne_self_eq_false, Bool.false_eq_true, if_false]
      cases admits shared r with
      | error e => simp [Response.page]
      | ok open_ =>
        cases open_ with
        | false =>
          rcases challenge_cases (Text.cut '/' part).1 with same | same
          · simp [same, Response.page]
          · simp [same, Response.unauthorized]
        | true =>
          dsimp only
          generalize Path.within _ _ = inside
          cases inside with
          | false => simp [Response.ofStatus]
          | true => simp [read_status_ne]
    · simp [get]

theorem handle_distinct (distinct : s.tree.Distinct) : (s.handle r).2.tree.Distinct := by
  rcases s.handle_tree r with ⟨rest, touches⟩ | same
  · rw [touches.handle]
    exact distinct.answer r rest
  · rw [same]
    exact distinct

theorem Reachable.distinct [OfNat τ 0] {held : Held} (reached : Reachable s held) :
    s.tree.Distinct := by
  induction reached with
  | fresh s fresh =>
    rw [fresh.tree]
    exact FileTree.empty_distinct
  | own r _ ih => exact handle_distinct ih
  | other r _ ih => exact handle_distinct ih
  | clock now _ ih => exact ih
  | expire _ ih => exact ih

theorem handle_share_congr {rest : List Char} (files : s.ForFiles r rest)
    (rules : s'.rules = s.rules) (share : sharePart? rest = some part)
    (same : s'.serveShare r part = s.serveShare r part) : (s'.handle r).1 = (s.handle r).1 := by
  have files' := files.congr rules
  by_cases method : r.method = "OPTIONS"
  · rw [handle_options files method, handle_options files' method, rules]
  · rw [handle_share files method share, handle_share files' method share, same]
    cases s.serveShare r part with
    | error e => rfl
    | ok a => rfl

/-- Servers with the same shares answer a request for a share alike if their trees agree in the
shared directory, and, where the request lacks the password, whatever their trees are. Neither is
changed. -/
theorem share_isolated (files : s.ForFiles r ("shares/".toList ++ part)) (longer : part ≠ [])
    (rules : s'.rules = s.rules) (shares : s'.shares = s.shares) :
    (s.tree.Distinct → s'.tree.Distinct →
      (∀ share, s.shareAt? part = some share →
        FileTree.SameWithin share.root s.tree s'.tree) →
      (s'.handle r).1 = (s.handle r).1) ∧
    (∀ share password, s.shareAt? part = some share → share.password = some password →
      password ≠ "" → ¬ r.Brings password → (s'.handle r).1 = (s.handle r).1) ∧
    (s.handle r).2 = s := by
  have share := sharePart?_eq_some_iff.mpr ⟨rfl, longer⟩
  refine ⟨fun ds ds' same => ?_, fun shared password found locked nonempty without => ?_, ?_⟩
  · exact handle_share_congr files rules share (serveShare_congr shares ds ds' same)
  · have closed : admits shared r ≠ .ok true :=
      fun admitted => without (brings_of_admits locked nonempty admitted)
    exact handle_share_congr files rules share (serveShare_locked shares found closed)
  · exact handle_share_unchanged files share

/-- A server with one locked share and these files. -/
def sharing (files : List (Path × Bytes)) : Server Int where
  shares := [("s", { path := some "/d/", password := some "p" })]
  accessLife := ⟨1, some 1⟩
  refreshLife := ⟨2, some 2⟩
  tokenPath := "/api/v1/auth/token".toList
  revokePath := "/api/v1/auth/revoke".toList
  rules := [⟨.files, ["", "f"].map String.toList, true, ["GET"], true⟩]
  now := 0
  tree := { dirs := [['/'], "/d".toList], files }

def askShare (headers : Headers) : Asked := ⟨"GET", "/f/shares/s/../d/x".toList, headers, []⟩

theorem share_isolated_sharing :
    let with_ := askShare [("Authorization", "Basic dTpw")]
    let without := askShare [("Authorization", "Basic dTp4")]
    let s := sharing [("/d/x".toList, [1])]
    let s' := sharing [("/e".toList, [2]), ("/d/x".toList, [1])]
    (s'.handle with_).1 = (s.handle with_).1 ∧ (s.handle with_).1.body = [1] ∧
      ((sharing []).handle without).1 = (s.handle without).1 ∧ (s.handle with_).2 = s := by
  intro with_ without s s'
  let rule : Route.Rule := ⟨.files, ["", "f"].map String.toList, true, ["GET"], true⟩
  have routed : Route.resolve [rule] "GET" "/f/shares/s/../d/x".toList =
      .rule rule ("shares/".toList ++ "s/../d/x".toList) := by decide +kernel
  have files (headers : Headers) :
      s.ForFiles (askShare headers) ("shares/".toList ++ "s/../d/x".toList) := ⟨rule, rfl, routed⟩
  have found : s.shareAt? "s/../d/x".toList =
      some { path := some "/d/", password := some "p" } := by
    decide +kernel
  have same : FileTree.SameWithin "/d".toList s.tree s'.tree := by
    intro p hp
    have outside : Path.within "/e".toList "/d".toList = false := by decide
    have other : "/e".toList ≠ p := by
      rintro rfl
      rw [outside] at hp
      cases hp
    exact ⟨rfl, if_neg (by simpa using other)⟩
  have parsed : Authorization.parse (without.header? "Authorization") = ("Basic", "dTp4") := by
    decide +kernel
  have decoded : Authorization.decodeBasic? "dTp4" = some ("u", "x") := by decide +kernel
  have rules : s'.rules = s.rules := rfl
  have shares : s'.shares = s.shares := rfl
  have isolated := share_isolated (files [("Authorization", "Basic dTpw")]) (by decide) rules shares
  refine ⟨isolated.1 ⟨by decide, by decide⟩ ⟨by decide, by decide⟩ ?_, by decide +kernel, ?_,
    isolated.2.2⟩
  · intro share h
    rw [found] at h
    cases h
    have root : Shared.root { path := some "/d/", password := some "p" } = "/d".toList := by decide
    rw [root]
    exact same
  · have rules : (sharing []).rules = s.rules := rfl
    refine (share_isolated (files _) (by decide) rules rfl).2.1 _ "p" found rfl (by decide) ?_
    rintro ⟨credentials, user, h, brings⟩
    rw [parsed] at h
    cases h
    rw [decoded] at brings
    simp at brings

end Server
end FileGate
