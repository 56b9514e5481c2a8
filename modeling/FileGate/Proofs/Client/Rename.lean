import FileGate.Proofs.Client.Requests
import FileGate.Proofs.Server.CookieText
import FileGate.Proofs.Server.SafeMethods
import FileGate.Proofs.Text.Escapes
import FileGate.Proofs.Tree.Join
import Mathlib.Data.List.TakeWhile

namespace FileGate

theorem Percent.isBlank_of_isUnreserved {c : Char} (kept : isUnreserved c = true) :
    Text.isBlank c = false := by
  have visible : 33 ≤ c.toNat ∧ c.toNat ≤ 126 := by
    simp only [isUnreserved, Bool.or_eq_true, Bool.and_eq_true, decide_eq_true_eq, beq_iff_eq]
      at kept
    rcases kept with (((kept | rfl) | rfl) | rfl) | rfl
    · omega
    all_goals decide
  simp [Text.isBlank]
  omega

namespace MoveAction

theorem decode_encode (s : List Char) : Percent.decode (Percent.encode marks s) = s :=
  Percent.decode_encode (by decide) s

theorem lastLine?_of_not_mem {s : List Char} (plain : '\n' ∉ s) : lastLine? s = some s := by
  have all : s.dropWhile (· != '\n') = [] := by
    rw [List.dropWhile_eq_nil_iff]
    intro c there
    have other : c ≠ '\n' := fun same => plain (same ▸ there)
    simpa using other
  rw [lastLine?, all]

theorem isBlank_of_mem_marks {c : Char} (kept : c ∈ marks) : Text.isBlank c = false := by
  have all : marks.all (fun c => !Text.isBlank c) = true := by decide
  simpa using List.all_eq_true.mp all c kept

theorem trim_encode (s : List Char) :
    Text.trim (Percent.encode marks s) = Percent.encode marks s := by
  apply Text.trim_of_not_blank
  intro c there
  rcases Percent.mem_encode there with kept | kept | rfl
  · exact Percent.isBlank_of_isUnreserved kept
  · exact isBlank_of_mem_marks kept
  · decide

theorem read?_write (source target : List Char) :
    read? (write source target) =
      some (Percent.encode marks source, Percent.encode marks target) := by
  have comma : ',' ∉ Percent.encode marks source :=
    Percent.not_mem_encode (by decide) (by decide) (by decide) source
  have feed : '\n' ∉ Percent.encode marks target :=
    Percent.not_mem_encode (by decide) (by decide) (by decide) target
  -- What is written has just the words and blanks that are expected, for whatever follows them.
  have first (s : List Char) : expect "move-from;".toList ("move-from; path=".toList ++ s) =
      some (" path=".toList ++ s) := rfl
  have second (s : List Char) : expect "move-to;".toList (" move-to; path=".toList ++ s) =
      some (" path=".toList ++ s) := rfl
  have path (s : List Char) : expect "path=".toList (" path=".toList ++ s) = some s := rfl
  have regroup (a b c d : List Char) : a ++ b ++ ',' :: c ++ d = a ++ (b ++ ',' :: (c ++ d)) := by
    simp only [List.append_assoc, List.cons_append]
  have written : write source target = "move-from; path=".toList ++
      (Percent.encode marks source ++ ',' :: (" move-to; path=".toList ++
        Percent.encode marks target)) := regroup _ _ _ _
  simp only [read?, written, first, second, path, Text.cut?_append comma,
    lastLine?_of_not_mem feed, Option.bind_eq_bind, Option.bind_some, Option.pure_def]

end MoveAction

namespace Path

theorem segments_tail {a : Path} (rooted : a = [] ∨ a.head? = some '/') :
    segments a.tail = segments a := by
  rcases rooted with rfl | rooted
  · rfl
  · cases a with
    | nil => rfl
    | cons c a =>
      cases rooted
      exact (segments_append_slash [] a).symm

end Path

namespace Asked

variable {r : Asked} {parent name target : List Char}

/-- What is written for a name and a target asks for a move between the paths that they are. -/
theorem move?_of_write (rooted : parent = [] ∨ parent.head? = some '/') (last : '/' ∉ name)
    (action : r.header? "X-FZ-Action" = some (String.ofList (MoveAction.write name target))) :
    r.move? parent.tail = some (Path.normalize (parent ++ '/' :: name),
      Path.normalize (if target.head? = some '/' then target else parent ++ '/' :: target)) := by
  -- A name has no slash and is always seen from the directory; a target may begin with one.
  have relative : name.head? ≠ some '/' := fun head => last (List.mem_of_mem_head? head)
  have seen (b : Path) : Path.normalize (parent.tail ++ '/' :: b) =
      Path.normalize (parent ++ '/' :: b) :=
    Path.normalize_append_slash (Path.segments_tail rooted) b
  simp only [move?, action, Option.getD_some, String.toList_ofList, MoveAction.read?_write,
    Option.map_some, MoveAction.trim_encode, MoveAction.decode_encode, Path.normalize_join,
    if_neg relative, seen]
  split
  · rfl
  · rw [seen]

end Asked

namespace Client

variable {ω : Type}

theorem before_append (parent : Path) {last : Path} (plain : '/' ∉ last) :
    before (parent ++ '/' :: last) = parent := by
  have end_ : (parent ++ '/' :: last).length - last.length - 1 = parent.length := by
    rw [List.length_append, List.length_cons]
    omega
  rw [before, Path.name_append parent plain, end_, List.take_left]

theorem renews_of_own (net : Network ω) {o : Options ω} (own : o.recovery = none) :
    Way.fetch.recovery net o = some { act := refresh net } := by
  rw [Way.recovery, own, Option.getD_none]

theorem fetchFile_asks (net : Network ω) {path : List Char} {o : Options ω} {c : Client ω}
    {p : String} {call : Call} {ready : Payload × Headers} (named : c.filePath path = .ok p)
    (started : c.start p = .ok call) (own : o.recovery = none)
    (encoded : o.body.encode o.headers false defaultChunkSize = .ok ready) :
    ∃ e rest, (c.fetchFile net path o).1.journal = c.journal ++ e :: rest ∧
      Carries o call.url e := by
  have renews := renews_of_own net own
  have fetched : (c.fetchFile net path o).1 = Way.fetch.result net p o call c := by
    rw [fetchFile, named]
    rfl
  obtain ⟨e, rest, asks, noted⟩ :=
    @Way.result_asks ω .fetch net p o call c _ _ started encoded rfl renews
  rw [fetched]
  exact ⟨e, rest, noted, asks⟩

theorem fetchFile_notes (net : Network ω) (path : List Char) {o : Options ω} (c : Client ω)
    (own : o.recovery = none) {Kind : Exchange → Prop} (renewal : ∀ e, IsRenewal e → Kind e)
    (carried : ∀ p url e, c.filePath path = .ok p → c.config.urlFor p.toList = .ok url →
      Carries o url e → Kind e) : Notes Kind c (c.fetchFile net path o).1 := by
  rw [fetchFile]
  cases named : c.filePath path with
  | error f => exact .refl c
  | ok p =>
    cases started : c.start p with
    | error f =>
      simp only [fetch_eq, started]
      exact .refl c
    | ok call =>
      have noted := @Way.result_notes ω .fetch net p o call c started (renews_of_own net own)
      exact noted.mono fun e causes =>
        causes.elim (renewal e) (carried p call.url e named (url_of_start started))

def moveOptions (action : List Char) : Options ω :=
  { method := "POST", headers := [("X-FZ-Action", String.ofList action)] }

/-- A request to a directory that asks for a move. -/
structure AsksMove (c : Client ω) (parent : Path) (action : List Char) (e : Exchange) : Prop where
  method : e.method = "POST"
  url : ∃ p, c.filePath parent = .ok p ∧ c.config.urlFor p.toList = .ok e.url
  action : Headers.values "X-FZ-Action" e.headers = [String.ofList action]

section
variable {c : Client ω} {parent name : Path} {action : List Char} {source p url : String}
  {e : Exchange}

theorem asksMove_of_carries (named : c.filePath parent = .ok p)
    (address : c.config.urlFor p.toList = .ok url)
    (carries : Carries (moveOptions action : Options ω) url e) : AsksMove c parent action e := by
  refine ⟨carries.method, ⟨p, named, carries.url ▸ address⟩, ?_⟩
  rw [carries.headers _ (by decide)]
  rfl

theorem rename_eq (net : Network ω) (c : Client ω) (target : String)
    (absolute : isAbsolute source = true) (whole : source.toList = parent ++ '/' :: name)
    (last : '/' ∉ name) :
    c.rename net source target =
      c.fetchFile net parent (moveOptions (MoveAction.write name target.toList)) := by
  rw [rename, ensureAbsolute, if_pos absolute, whole, before_append parent last,
    Path.name_append parent last, moveOptions]

theorem rename_asks (net : Network ω) (c : Client ω) (target : String)
    (absolute : isAbsolute source = true) (whole : source.toList = parent ++ '/' :: name)
    (last : '/' ∉ name) :
    ∃ new, (c.rename net source target).1.journal = c.journal ++ new ∧
      (∀ e ∈ new, IsRenewal e ∨ AsksMove c parent (MoveAction.write name target.toList) e) ∧
      ∀ p call, c.filePath parent = .ok p → c.start p = .ok call →
        ∃ e rest, new = e :: rest ∧ AsksMove c parent (MoveAction.write name target.toList) e := by
  rw [rename_eq net c target absolute whole last]
  generalize MoveAction.write name target.toList = action
  have notes : Notes (fun e => IsRenewal e ∨ AsksMove c parent action e) c
      (c.fetchFile net parent (moveOptions action)).1 :=
    fetchFile_notes net parent c rfl (fun _ => .inl) fun _ _ _ named address carries =>
      .inr (asksMove_of_carries named address carries)
  obtain ⟨_, new, noted, all⟩ := notes
  refine ⟨new, noted, all, fun p call named started => ?_⟩
  obtain ⟨e, rest, noted', carries⟩ :=
    @fetchFile_asks ω net parent (moveOptions action) c p call _ named started rfl rfl
  exact ⟨e, rest, List.append_cancel_left (noted.symm.trans noted'),
    asksMove_of_carries named (url_of_start started) carries⟩

end

/-- A rename asks the directory that holds the source for one move, in words that are read back as
they were meant. A server that admits the request moves the source to the target, which is seen from
that directory unless it begins with a slash. -/
theorem rename_moves (net : Network ω) (c : Client ω) {source : String} (target : String)
    (absolute : isAbsolute source = true) {τ : Type} [LE τ] [DecidableLE τ] (s : Server τ) :
    ∃ (parent name : Path) (action a b : List Char),
      source.toList = parent ++ '/' :: name ∧ '/' ∉ name ∧
      (∃ new, (c.rename net source target).1.journal = c.journal ++ new ∧
        (∀ e ∈ new, IsRenewal e ∨ AsksMove c parent action e) ∧
        ∀ p call, c.filePath parent = .ok p → c.start p = .ok call →
          ∃ e rest, new = e :: rest ∧ AsksMove c parent action e) ∧
      MoveAction.read? action = some (a, b) ∧ Percent.decode a = name ∧
      Percent.decode b = target.toList ∧
      ∀ r : Asked, r.method = "POST" → r.header? "X-FZ-Action" = some (String.ofList action) →
        s.Admits r → sharePart? parent.tail = none →
        s.serveFiles r parent.tail = .ok (s.change (s.tree.move (Path.normalize source.toList)
          (Path.normalize (if isAbsolute target then target.toList
            else parent ++ '/' :: target.toList)))) := by
  have first : source.toList.head? = some '/' := by simpa [isAbsolute] using absolute
  obtain ⟨parent, name, whole, last⟩ :=
    Path.exists_last_segment (List.mem_of_mem_head? first)
  have rooted : parent = [] ∨ parent.head? = some '/' := by
    cases parent with
    | nil => exact .inl rfl
    | cons d parent =>
      rw [whole] at first
      exact .inr first
  refine ⟨parent, name, MoveAction.write name target.toList, _, _, whole, last,
    rename_asks net c target absolute whole last, MoveAction.read?_write name target.toList,
    MoveAction.decode_encode name, MoveAction.decode_encode target.toList, ?_⟩
  intro r method action admitted plain
  have moves := Asked.move?_of_write rooted last action
  rw [Server.serveFiles_of_user plain (Server.user?_ne_none_iff.mpr admitted),
    FileTree.answer_move s.tree parent.tail (by simp [method]) (by simp [method])
      (by simp [method]), moves, ← whole]
  simp only [isAbsolute, beq_iff_eq]
  rfl

def askRoot (action : List Char) : Asked :=
  ⟨"POST", "/api/v1/files/".toList,
    [("Authorization", "Bearer t1"), ("X-FZ-Action", String.ofList action)], []⟩

theorem rename_moves_comma : isAbsolute "/a,b" = true ∧
    ∃ action, (∃ e rest, (refusedOnce.rename Line.network "/a,b" "c,\n").1.journal = e :: rest ∧
        AsksMove refusedOnce [] action e) ∧
      Server.keeping.serveFiles (askRoot action) [] = .ok (Server.keeping.change
        (Server.keeping.tree.move "/a,b".toList "/c,\n".toList)) := by
  have absolute : isAbsolute "/a,b" = true := by decide
  obtain ⟨parent, name, action, a, b, whole, last, ⟨new, noted, -, asks⟩, -, -, -, moves⟩ :=
    rename_moves Line.network refusedOnce "c,\n" absolute Server.keeping
  have root : parent = [] := by
    rw [← before_append parent last, ← whole]
    decide
  subst root
  obtain ⟨e, rest, rfl, asked⟩ := asks _ _ rfl rfl
  have header : (askRoot action).header? "Authorization" = some "Bearer t1" := rfl
  have parsed : Authorization.parse (some "Bearer t1") = ("Bearer", "t1") := by decide +kernel
  have known : Server.keeping.user? (askRoot action) = some "u" := by
    rw [Server.user?, header, parsed]
    rfl
  have admitted : Server.keeping.Admits (askRoot action) :=
    Server.user?_ne_none_iff.mp (by simp [known])
  have served := moves (askRoot action) rfl rfl admitted rfl
  refine ⟨absolute, action, ⟨e, rest, noted, asked⟩, served.trans ?_⟩
  rfl

end Client
end FileGate
