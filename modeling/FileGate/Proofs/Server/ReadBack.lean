import FileGate.Proofs.Server.Admission
import FileGate.Proofs.Server.Arrival
import FileGate.Proofs.Server.FilesRoot
import FileGate.Proofs.Server.Shares
import FileGate.Proofs.Tree.Invariant

/-! What was stored, and how it is read back. Any file of the tree is answered at its own path,
unless a request with this path goes to a share or to nothing. -/
namespace FileGate

open FileGate.Path (IsNormal AreSegments spell)

namespace FileTree

variable {t : FileTree}

theorem WellFormed.answer (w : t.WellFormed) (r : Asked) (rest : List Char) :
    (t.answer r rest).2.WellFormed := by
  have normal (p : Path) : IsNormal (Path.normalize p) := Path.isNormal_normalize p
  unfold FileTree.answer serve
  dsimp only
  split
  · exact w
  · split
    · exact w.mkdir (normal _)
    · exact w.write (normal _) _
  · exact w.remove (normal _) _
  · split
    · exact w
    · exact w.move (normal _) (normal _)

theorem WellFormed.exists_tail (w : t.WellFormed) {p : Path} {b : Bytes}
    (there : t.read p = some b) :
    ∃ c more, p = '/' :: c :: more ∧ c ≠ '/' ∧ Path.normalize (c :: more) = p := by
  have file := isFile_of_read there
  have normal := w.normal p (.inr file)
  obtain ⟨ss, hs, hne, rfl⟩ := normal.exists_spelling (w.ne_root_of_file file)
  obtain ⟨s, ss, rfl⟩ := List.exists_cons_of_ne_nil hne
  obtain ⟨hs, _⟩ := Path.areSegments_cons.mp hs
  obtain ⟨c, more, rfl⟩ := List.exists_cons_of_ne_nil hs.nonempty
  refine ⟨c, more ++ spell ss, rfl, fun same => hs.no_slash (by simp [same]), ?_⟩
  rw [← Path.normalize_slash]
  exact normal

theorem WellFormed.not_slash_at_end (w : t.WellFormed) {p : Path} {b : Bytes} :
    t.read (p ++ ['/']) ≠ some b := by
  intro there
  have file := isFile_of_read there
  obtain ⟨ss, hs, hne, spelt⟩ :=
    (w.normal _ (.inr file)).exists_spelling (w.ne_root_of_file file)
  obtain ⟨init, c, last, other⟩ := Path.getLast_spell hs hne
  rw [last] at spelt
  have same : ['/'] = [c] := List.append_inj_right' spelt rfl
  exact other (List.cons.inj same).1.symm

end FileTree

/-- Files that a request can ask for by their paths: none that are below the name of the shares, and
none with a line feed further on than at the beginning of its path. -/
def Addressable (p : Path) : Prop := ¬ "/shares/".toList <+: p ∧ '\n' ∉ p.drop 2

instance (p : Path) : Decidable (Addressable p) := inferInstanceAs (Decidable (_ ∧ _))

namespace Server

variable {τ : Type} {s : Server τ} {r put get post : Asked} {rest part : List Char}
variable {p source target : Path} {b : Bytes}

/-- The files of a server are below a root of their own. -/
structure Rooted (s : Server τ) (c : Config) (ss : List Path) : Prop where
  rules : rulesFor c = .ok s.rules
  root : c.filesRoot.dropSlashes = .ok (spell ss)
  segments : AreSegments ss
  alone : Alone s.rules ss

theorem defaultRules_alone : Alone defaultRules defaultRoot := by
  intro rule there stranger parts begins
  obtain ⟨more, rfl⟩ := begins
  simp only [defaultRules, List.mem_cons, List.not_mem_nil, or_false] at there
  rcases there with rfl | rfl | rfl | rfl | rfl
  · simp [defaultRoot]
  · simp [defaultRoot]
  · simp [defaultRoot]
  · exact absurd rfl stranger
  · exact absurd rfl stranger

section
variable {c : Config} {ss : List Path}

theorem Rooted.of_default (rules : s.rules = defaultRules) : s.Rooted {} defaultRoot where
  rules := rules ▸ rulesFor_default
  root := filesRoot_default
  segments := defaultRoot_areSegments
  alone := rules ▸ defaultRules_alone

theorem Rooted.congr {s' : Server τ} (rooted : s.Rooted c ss) (rules : s'.rules = s.rules) :
    s'.Rooted c ss where
  rules := rules ▸ rooted.rules
  root := rooted.root
  segments := rooted.segments
  alone := rules ▸ rooted.alone

theorem ForFiles.get_of (rooted : s.Rooted c ss) (files : s.ForFiles r rest)
    (path : get.path = r.path) (method : get.method = "GET") : s.ForFiles get rest := by
  refine files.of_method rooted.rules rooted.root rooted.segments rooted.alone path ?_
  rw [method]
  decide

theorem Rooted.forFiles (rooted : s.Rooted c ss) (method : get.method = "GET")
    {y : List Char} (path : get.path = spell ss ++ '/' :: y) (plain : Route.isRest y = true) :
    s.ForFiles get y := by
  let put : Asked := { get with method := "PUT" }
  have files : s.ForFiles put y :=
    forFiles_of_isRest rooted.rules rooted.root rooted.segments path (.inl rfl) (.inl plain)
  exact files.get_of rooted rfl method

/-- A path with a line feed further on is none of the files. -/
theorem Rooted.not_routed (rooted : s.Rooted c ss) {first : Char} {more : List Char}
    (path : get.path = spell ss ++ '/' :: first :: more) (other : first ≠ '/')
    (line : '\n' ∈ more) (rule : Route.Rule) (rest : List Char) :
    Route.resolve s.rules get.method get.path ≠ .rule rule rest := by
  intro routed
  obtain ⟨_, once, _, same⟩ := below_root rooted.segments (first :: more)
  obtain rfl := same (by simpa using other)
  rw [Route.resolve_eq_rule_iff, path, once] at routed
  obtain ⟨rule, there, _, ⟨rest, found, takes⟩ | ⟨found, _⟩⟩ := Route.lookup_eq_some routed
  · rw [splitAll_below_root rooted.segments] at takes
    have endpoint : rule.endpoint = .files := by
      refine Classical.byContradiction fun stranger => ?_
      obtain ⟨shorter, longer⟩ := rooted.alone rule there stranger _ (List.prefix_append _ _)
      exact takes.near.elim shorter longer
    obtain ⟨_, _, only⟩ := rules_of_files rooted.rules rooted.root rooted.segments
    rcases rest_of_takes (only rule there (.inl endpoint)) takes with rfl | ⟨short, _⟩
    · rcases takes.rest_cases with empty | plain
      · cases empty
      · simp [Route.isRest, line] at plain
    · exact other (List.cons.inj short).1
  · cases found

end

variable [LE τ] [DecidableLE τ] [Add τ]

theorem handle_wellFormed (w : s.tree.WellFormed) (r : Asked) : (s.handle r).2.tree.WellFormed := by
  rcases s.handle_tree r with ⟨rest, touches⟩ | same
  · rw [touches.handle]
    exact w.answer r rest
  · rw [same]
    exact w

theorem touches_of_status (files : s.ForFiles r rest) (method : r.method ≠ "OPTIONS")
    (get : r.method ≠ "GET")
    (done : (s.handle r).1.status = 201 ∨ (s.handle r).1.status = 204) : s.Touches r rest := by
  have plain : sharePart? rest = none := by
    refine Option.eq_none_iff_forall_ne_some.mpr fun part share => ?_
    cases found : s.shareAt? part with
    | none =>
      rw [handle_share files method share, serveShare_none found] at done
      simp [Response.ofStatus] at done
    | some shared =>
      have refused := (handle_share_not_allowed_iff files method share).mpr ⟨by simp [found], get⟩
      omega
  have admitted : s.Admits r := by
    refine Classical.byContradiction fun stranger => ?_
    rw [handle_of_not_admits files method plain stranger] at done
    simp [Response.unauthorized] at done
  exact ⟨files, method, plain, user?_ne_none_iff.mpr admitted⟩

theorem handle_read (files : s.ForFiles get rest) (method : get.method = "GET")
    (plain : sharePart? rest = none) (admitted : s.Admits get)
    (there : s.tree.read (Path.normalize rest) = some b) :
    s.handle get = (.octets b, s) := by
  have touches : s.Touches get rest :=
    ⟨files, by simp [method], plain, user?_ne_none_iff.mpr admitted⟩
  have answered : s.tree.answer get rest = (serveRead s.tree (Path.normalize rest), s.tree) := by
    rw [FileTree.answer, method]
    rfl
  rw [touches.handle, answered, FileTree.read_octets there, method]
  rfl

theorem read_of_put (touches : s.Touches put rest) (method : put.method = "PUT")
    (noDirectory : (put.header? "X-FZ-Action").getD "" ≠ "mkdir")
    (done : (s.handle put).1.status = 201 ∨ (s.handle put).1.status = 204) :
    (s.handle put).2.tree.read (Path.normalize rest) = some put.body := by
  have asked : s.tree.answer put rest =
      (.ofStatus (s.tree.write (Path.normalize rest) put.body).1.status,
        (s.tree.write (Path.normalize rest) put.body).2) := by
    simp [FileTree.answer, FileTree.serve, method, noDirectory]
  rw [touches.handle, asked] at done ⊢
  rw [Response.sent_status] at done
  rcases s.tree.write_cases (Path.normalize rest) put.body with
    ⟨_, e⟩ | ⟨_, _, e⟩ | ⟨_, _, e⟩
  · simp [e, Response.ofStatus, Change.status] at done
  · simp [e, Response.ofStatus, Change.status] at done
  · rw [e]
    exact Assoc.get?_put_self _ _ _

theorem read_of_move (touches : s.Touches post rest) (method : post.method = "POST")
    (asked : post.move? rest = some (source, target)) (there : s.tree.read source = some b)
    (done : (s.handle post).1.status = 204) :
    (s.handle post).2.tree.read target = some b := by
  have moved := s.tree.answer_move (r := post) rest (by simp [method]) (by simp [method])
    (by simp [method])
  rw [asked] at moved
  dsimp only at moved
  rw [touches.handle, moved] at done ⊢
  rw [Response.sent_status] at done
  have file := FileTree.isFile_of_read there
  rcases s.tree.move_cases source target with ⟨noFile, _, _⟩ | ⟨_, _, e⟩ | ⟨_, _, _, e⟩ |
    ⟨b', there', _, _, e⟩ | ⟨noFile, _⟩ | ⟨noFile, _⟩
  · simp [file] at noFile
  · simp [e, Response.ofStatus, Change.status] at done
  · simp [e, Response.ofStatus, Change.status] at done
  · rw [there] at there'
    cases there'
    rw [e]
    exact Assoc.get?_put_self _ _ _
  · simp [file] at noFile
  · simp [file] at noFile

/-! ### Files by their paths -/

section
variable {c : Config} {ss : List Path}

theorem Rooted.handle_file (rooted : s.Rooted c ss) (w : s.tree.WellFormed)
    (there : s.tree.read p = some b) (method : get.method = "GET")
    (path : get.path = spell ss ++ p) (admitted : s.Admits get) (addressable : Addressable p) :
    s.handle get = (.octets b, s) := by
  obtain ⟨first, more, rfl, other, normal⟩ := w.exists_tail there
  obtain ⟨noShare, noLine⟩ := addressable
  have plain : Route.isRest (first :: more) = true := by
    simpa [Route.isRest, other] using noLine
  have files := rooted.forFiles method path plain
  refine handle_read files method ?_ admitted (by rw [normal]; exact there)
  refine Option.eq_none_iff_forall_ne_some.mpr fun part share => noShare ?_
  rw [(sharePart?_eq_some_iff.mp share).1]
  exact ⟨part, rfl⟩

theorem Rooted.handle_line (rooted : s.Rooted c ss) (w : s.tree.WellFormed)
    (there : s.tree.read p = some b) (path : get.path = spell ss ++ p) (line : '\n' ∈ p.drop 2) :
    (s.handle get).1.status ≠ 200 := by
  obtain ⟨first, more, rfl, other, _⟩ := w.exists_tail there
  exact status_of_unrouted (rooted.not_routed path other line)

theorem Rooted.handle_unshared (rooted : s.Rooted c ss) (w : s.tree.WellFormed)
    (there : s.tree.read p = some b) (method : get.method = "GET")
    (path : get.path = spell ss ++ p) (below : p = "/shares/".toList ++ part)
    (noLine : '\n' ∉ p.drop 2) (unknown : s.shareAt? part = none) :
    (s.handle get).1.status = 404 := by
  have longer : part ≠ [] := by
    rintro rfl
    rw [below] at there
    exact w.not_slash_at_end (p := "/shares".toList) there
  have whole : p = '/' :: ("shares/".toList ++ part) := below
  have plain : Route.isRest ("shares/".toList ++ part) = true := by
    rw [whole] at noLine
    simpa [Route.isRest] using noLine
  have files := rooted.forFiles method (whole ▸ path) plain
  rw [handle_share files (by simp [method]) (sharePart?_eq_some_iff.mpr ⟨rfl, longer⟩),
    serveShare_none unknown]
  rw [Response.sent_status]
  rfl

/-! ### Runs -/

variable [OfNat τ 0]

theorem Happening.apply_keeps (h : Happening τ) (rooted : s.Rooted c ss) (w : s.tree.WellFormed) :
    (h.apply s).Rooted c ss ∧ (h.apply s).tree.WellFormed := by
  cases h with
  | request r => exact ⟨rooted.congr (s.handle_effect r).1.rules, handle_wellFormed w r⟩
  | clock now => exact ⟨rooted.congr rfl, w⟩
  | expire => exact ⟨rooted.congr rfl, w⟩

theorem run_keeps (hs : List (Happening τ)) (rooted : s.Rooted c ss) (w : s.tree.WellFormed) :
    (s.run hs).Rooted c ss ∧ (s.run hs).tree.WellFormed := by
  induction hs generalizing s with
  | nil => exact ⟨rooted, w⟩
  | cons h hs ih =>
    obtain ⟨rooted, w⟩ := h.apply_keeps rooted w
    exact ih rooted w

/-- Whatever has happened to a server that began without files, what a put has just stored is read
at the path of the put, what a move has just brought somewhere is read there, and so is any file at
its own path, as far as requests can have that path. Where they cannot, the file is not found, unless
in a share. -/
theorem stored_readable {start : Server τ} {hs : List (Happening τ)} (rooted : start.Rooted c ss)
    (empty : start.tree = {}) (ran : start.run hs = s) :
    (∀ put get rest, s.ForFiles put rest → put.method = "PUT" →
      (put.header? "X-FZ-Action").getD "" ≠ "mkdir" →
      (s.handle put).1.status = 201 ∨ (s.handle put).1.status = 204 →
      get.method = "GET" → get.path = put.path → (s.handle put).2.Admits get →
      (s.handle put).2.handle get = (.octets put.body, (s.handle put).2)) ∧
    (∀ post get rest source target b, s.ForFiles post rest → post.method = "POST" →
      post.move? rest = some (source, target) → s.tree.read source = some b →
      (s.handle post).1.status = 204 →
      get.method = "GET" → get.path = spell ss ++ target → (s.handle post).2.Admits get →
      Addressable target → (s.handle post).2.handle get = (.octets b, (s.handle post).2)) ∧
    (∀ get p b, s.tree.read p = some b → get.method = "GET" → get.path = spell ss ++ p →
      s.Admits get →
      (Addressable p → s.handle get = (.octets b, s)) ∧
      ('\n' ∈ p.drop 2 → (s.handle get).1.status ≠ 200) ∧
      (∀ part, p = "/shares/".toList ++ part → '\n' ∉ p.drop 2 → s.shareAt? part = none →
        (s.handle get).1.status = 404)) := by
  obtain ⟨rooted, w⟩ : s.Rooted c ss ∧ s.tree.WellFormed := by
    rw [← ran]
    refine run_keeps hs rooted ?_
    rw [empty]
    exact FileTree.empty_wellFormed
  refine ⟨?_, ?_, ?_⟩
  · intro put get rest files method noDirectory done reads path admitted
    have touches := touches_of_status files (by simp [method]) (by simp [method]) done
    have rules := (s.handle_effect put).1.rules
    have files' : (s.handle put).2.ForFiles get rest :=
      (files.get_of rooted path reads).congr rules
    exact handle_read files' reads touches.plain admitted
      (read_of_put touches method noDirectory done)
  · intro post get rest source target b files method asked there done reads path admitted
      addressable
    have touches := touches_of_status files (by simp [method]) (by simp [method]) (.inr done)
    have moved := read_of_move touches method asked there done
    obtain ⟨rooted, w⟩ := (Happening.request post).apply_keeps rooted w
    exact rooted.handle_file w moved reads path admitted addressable
  · intro get p b there reads path admitted
    exact ⟨rooted.handle_file w there reads path admitted, rooted.handle_line w there path,
      fun part => rooted.handle_unshared w there reads path⟩

end

def authorised (method path : String) (headers : Headers) (body : Bytes) : Asked :=
  ⟨method, path.toList, ("Authorization", "Bearer t1") :: headers, body⟩

def putFile : Asked := authorised "PUT" "/api/v1/files/a" [] [120]

def moveFile (target : String) : Asked :=
  authorised "POST" "/api/v1/files/"
    [("X-FZ-Action", "move-from; path=a, move-to; path=" ++ target)] []

deriving instance DecidableEq for Server

def entered : Server Int :=
  { oneUser with
    issued := 2
    tokens := ⟨[("t1", ⟨"u", 1300⟩)], [("t2", ⟨"u", 87400⟩)], [("t2", "t1")]⟩
    tree := { dirs := [['/'], "/shares".toList] } }

def entering : List (Happening Int) :=
  [.request login, .request (authorised "PUT" "/api/v1/files/shares" [("X-FZ-Action", "mkdir")] [])]

theorem run_entering : oneUser.run entering = entered := by
  decide +kernel

theorem run_putting (hs : List (Happening Int)) :
    oneUser.run (entering ++ .request putFile :: hs) = (entered.handle putFile).2.run hs := by
  have split : oneUser.run (entering ++ .request putFile :: hs) =
      (oneUser.run entering).run (.request putFile :: hs) := List.foldl_append
  rw [split, run_entering]
  rfl

theorem stored_readable_entered :
    let s := (entered.handle putFile).2
    s.handle (authorised "GET" "/api/v1/files/a" [] []) = (.octets [120], s) ∧
      (s.handle (moveFile "b")).2.handle (authorised "GET" "/api/v1/files/b" [] []) =
        (.octets [120], (s.handle (moveFile "b")).2) ∧
      s.tree.read "/a".toList = some [120] := by
  intro s
  have rooted : oneUser.Rooted {} defaultRoot := .of_default rfl
  have ran : oneUser.run (entering ++ [.request putFile]) = s := run_putting []
  have put : entered.ForFiles putFile "a".toList :=
    forFiles_of_isRest rulesFor_default rooted.root rooted.segments rfl (.inl rfl)
      (.inl (by decide))
  have post : s.ForFiles (moveFile "b") [] :=
    ⟨rootRule defaultRoot, rfl, by decide +kernel⟩
  have asked : (moveFile "b").move? [] = some ("/a".toList, "/b".toList) := by decide +kernel
  have there : s.tree.read "/a".toList = some [120] := by decide +kernel
  have first : s.user? (authorised "GET" "/api/v1/files/a" [] []) = some "u" := by decide +kernel
  have second : (s.handle (moveFile "b")).2.user? (authorised "GET" "/api/v1/files/b" [] []) =
      some "u" := by decide +kernel
  refine ⟨?_, ?_, there⟩
  · refine (stored_readable rooted rfl run_entering).1 putFile _ _ put rfl (by decide +kernel)
      (.inl ?_) rfl rfl (user?_ne_none_iff.mp (by simp [s, first]))
    decide +kernel
  · refine (stored_readable rooted rfl ran).2.1 (moveFile "b") _ _ _ _ _ post rfl asked there
      ?_ rfl rfl (user?_ne_none_iff.mp (by simp [second])) (by decide)
    decide +kernel

/-- A move brings a file where only shares are looked for. -/
theorem moved_below_shares :
    let s := (entered.handle putFile).2
    let s' := (s.handle (moveFile "/shares/a")).2
    let get := authorised "GET" "/api/v1/files/shares/a" [] []
    oneUser.run (entering ++ [.request putFile, .request (moveFile "/shares/a")]) = s' ∧
      s.tree.read "/a".toList = some [120] ∧
      (moveFile "/shares/a").move? [] = some ("/a".toList, "/shares/a".toList) ∧
      (s.handle (moveFile "/shares/a")).1.status = 204 ∧ s'.Admits get ∧
      s'.tree.read "/shares/a".toList = some [120] ∧ (s'.handle get).1.status = 404 := by
  intro s s' get
  have good : s'.user? get = some "u" := by decide +kernel
  refine ⟨run_putting _, by decide +kernel, by decide +kernel, by decide +kernel,
    user?_ne_none_iff.mp (by simp [good]), by decide +kernel, by decide +kernel⟩

end Server
end FileGate
