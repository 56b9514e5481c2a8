import FileGate.Proofs.Server.Admission
import FileGate.Proofs.Server.Arrival
import FileGate.Proofs.Server.FilesRoot
import FileGate.Proofs.Server.Shares

/-! The two methods that only read. `GET` never changes anything. `HEAD` goes wherever `GET` goes,
but the files take it for a method that asks for a move, and the shares for one that they do not
allow. -/
namespace FileGate

def Asked.withMethod (r : Asked) (method : String) : Asked := { r with method }

@[simp] theorem Asked.withMethod_method (r : Asked) (method : String) :
    (r.withMethod method).method = method := rfl

theorem Change.status_ne (c : Change) : c.status ≠ 200 := by
  cases c <;> decide

theorem Change.status_eq_iff (c : Change) : c.status = 404 ↔ c = .missing := by
  cases c <;> decide

namespace Server

variable {c : Config} {rules : List Route.Rule}

theorem rulesFor_get_head (h : rulesFor c = .ok rules) :
    ∀ rule ∈ rules, rule.methods.contains "GET" = rule.methods.contains "HEAD" := by
  obtain ⟨_, _, _, _, _, _, listed⟩ := rulesFor_cases h
  intro rule there
  simp only [listed, List.mem_cons, List.not_mem_nil, or_false] at there
  rcases there with rfl | rfl | rfl | rfl | rfl
  · rfl
  · rfl
  · rfl
  · rfl
  · rfl

variable {τ : Type} {s : Server τ} {r : Asked} {rest part : List Char}

theorem with_tree_eq_iff {t : FileTree} : { s with tree := t } = s ↔ t = s.tree := by
  constructor
  · intro same
    exact congrArg Server.tree same
  · rintro rfl
    rfl

theorem forFiles_get_iff_head (rules : rulesFor c = .ok s.rules) :
    s.ForFiles (r.withMethod "GET") rest ↔ s.ForFiles (r.withMethod "HEAD") rest := by
  have same : Route.resolve s.rules "GET" r.path = Route.resolve s.rules "HEAD" r.path :=
    Route.resolve_congr (rulesFor_get_head rules) r.path
  unfold ForFiles Asked.withMethod
  rw [same]

variable [LE τ] [DecidableLE τ] [Add τ]

theorem handle_get (files : s.ForFiles (r.withMethod "GET") rest) :
    (s.handle (r.withMethod "GET")).2 = s ∧
      (sharePart? rest = none → s.Admits r →
        (s.handle (r.withMethod "GET")).1 = serveRead s.tree (Path.normalize rest)) := by
  have method : (r.withMethod "GET").method ≠ "OPTIONS" := by simp
  cases share : sharePart? rest with
  | some part => exact ⟨handle_share_unchanged files share, fun plain => by cases plain⟩
  | none =>
    rw [handle_plain files method share]
    split
    · rename_i unknown
      exact ⟨rfl, fun _ admitted => absurd unknown (user?_ne_none_iff.mpr admitted)⟩
    · exact ⟨rfl, fun _ _ => rfl⟩

theorem handle_head (files : s.ForFiles (r.withMethod "HEAD") rest) (plain : sharePart? rest = none)
    (admitted : s.Admits r) :
    (s.handle (r.withMethod "HEAD")).1.status =
        (match r.move? rest with
          | none => 400
          | some (source, target) => (s.tree.move source target).1.status) ∧
      (s.handle (r.withMethod "HEAD")).2 = { s with
        tree := match r.move? rest with
          | none => s.tree
          | some (source, target) => (s.tree.move source target).2 } := by
  have user : s.user? (r.withMethod "HEAD") ≠ none := user?_ne_none_iff.mpr admitted
  have asked : (r.withMethod "HEAD").move? rest = r.move? rest := rfl
  rw [handle_plain files (by simp) plain, if_neg user,
    s.tree.answer_move rest (by simp) (by simp) (by simp), asked]
  cases r.move? rest with
  | none => exact ⟨rfl, rfl⟩
  | some paths => exact ⟨rfl, rfl⟩

/-- A move that the request asks for is carried out. -/
def Moves (s : Server τ) (r : Asked) (rest : List Char) : Prop :=
  sharePart? rest = none ∧ s.Admits r ∧ ∃ source target, r.move? rest = some (source, target) ∧
    (s.tree.move source target).1 = .done

/-- Reading and moving fail alike. -/
def FailsAlike (s : Server τ) (r : Asked) (rest : List Char) : Prop :=
  match sharePart? rest with
  | some part => s.shareAt? part = none
  | none => s.Admits r → ¬ s.tree.Has (Path.normalize rest) ∧
      ∃ source target, r.move? rest = some (source, target) ∧
        (s.tree.move source target).1 = .missing

theorem handle_head_share (files : s.ForFiles (r.withMethod "GET") rest)
    (files' : s.ForFiles (r.withMethod "HEAD") rest) (share : sharePart? rest = some part) :
    (s.handle (r.withMethod "HEAD")).1.status = (s.handle (r.withMethod "GET")).1.status ↔
      s.shareAt? part = none := by
  have refused := handle_share_not_allowed_iff files' (by simp) share
  have served := handle_share_not_allowed_iff files (by simp) share
  constructor
  · intro same
    refine Classical.byContradiction fun there => ?_
    have head := refused.mpr ⟨there, by simp⟩
    exact (served.mp (same ▸ head)).2 rfl
  · intro unknown
    rw [handle_share files' (by simp) share, handle_share files (by simp) share,
      serveShare_none unknown, serveShare_none unknown]
    rfl

theorem handle_head_plain (files : s.ForFiles (r.withMethod "GET") rest)
    (files' : s.ForFiles (r.withMethod "HEAD") rest) (plain : sharePart? rest = none)
    (admitted : s.Admits r) :
    (s.handle (r.withMethod "HEAD")).1.status = (s.handle (r.withMethod "GET")).1.status ↔
      ¬ s.tree.Has (Path.normalize rest) ∧ ∃ source target,
        r.move? rest = some (source, target) ∧ (s.tree.move source target).1 = .missing := by
  rw [(handle_get files).2 plain admitted, (handle_head files' plain admitted).1]
  cases asked : r.move? rest with
  | none =>
    rcases s.tree.read_status_cases (Path.normalize rest) with ⟨_, status⟩ | ⟨_, status⟩
    · simp [status]
    · simp [status]
  | some paths =>
    obtain ⟨source, target⟩ := paths
    have only : (∃ source' target', some (source, target) = some (source', target') ∧
        (s.tree.move source' target').1 = .missing) ↔
          (s.tree.move source target).1 = .missing := by simp
    rw [only]
    dsimp only
    rcases s.tree.read_status_cases (Path.normalize rest) with ⟨has, status⟩ | ⟨free, status⟩
    · simp [status, Change.status_ne, has]
    · simp [status, Change.status_eq_iff, free]

/-- `GET` changes nothing. `HEAD` is routed with it and changes the tree alone, exactly where the
move that it asks for is carried out; its status is the one of `GET` exactly where both fail
alike. -/
theorem safe_methods (rules : rulesFor c = .ok s.rules)
    (files : s.ForFiles (r.withMethod "GET") rest) :
    (s.handle (r.withMethod "GET")).2 = s ∧
      (∃ t, (s.handle (r.withMethod "HEAD")).2 = { s with tree := t }) ∧
      ((s.handle (r.withMethod "HEAD")).2 = s ↔ ¬ s.Moves r rest) ∧
      ((s.handle (r.withMethod "HEAD")).1.status = (s.handle (r.withMethod "GET")).1.status ↔
        s.FailsAlike r rest) := by
  have files' := (forFiles_get_iff_head rules).mp files
  have method : (r.withMethod "HEAD").method ≠ "OPTIONS" := by simp
  refine ⟨(handle_get files).1, ?_⟩
  cases share : sharePart? rest with
  | some part =>
    have same := handle_share_unchanged files' share
    refine ⟨⟨s.tree, same⟩, ?_, ?_⟩
    · -- What is asked for in a share asks for no move, whatever its headers are.
      simp [same, Moves, share]
    · rw [handle_head_share files files' share, FailsAlike, share]
  | none =>
    by_cases admitted : s.Admits r
    · obtain ⟨_, state⟩ := handle_head files' share admitted
      refine ⟨⟨_, state⟩, ?_, ?_⟩
      · rw [state, with_tree_eq_iff]
        cases asked : r.move? rest with
        | none => simp [Moves, asked]
        | some paths =>
          obtain ⟨source, target⟩ := paths
          rw [FileTree.move_tree_eq_iff]
          simp [Moves, share, admitted, asked]
      · rw [handle_head_plain files files' share admitted]
        simp [FailsAlike, share, admitted]
    · have head : s.handle (r.withMethod "HEAD") = _ :=
        handle_of_not_admits files' method share admitted
      have get : s.handle (r.withMethod "GET") = _ :=
        handle_of_not_admits files (by simp) share admitted
      rw [head, get]
      refine ⟨⟨s.tree, rfl⟩, ?_, ?_⟩
      · simp [Moves, admitted]
      · simp [FailsAlike, share, admitted]

def keeping : Server Int :=
  { guarding with rules := defaultRules, tree := { files := [("/a".toList, [120])] } }

def askMove (path action : String) : Asked :=
  ⟨"GET", path.toList, [("Authorization", "Bearer t1"), ("X-FZ-Action", action)], []⟩

theorem safe_methods_missing :
    let r := askMove "/api/v1/files/c" "move-from; path=/d, move-to; path=/e"
    (keeping.handle (r.withMethod "GET")).2 = keeping ∧
      (keeping.handle (r.withMethod "HEAD")).2 = keeping ∧
      (keeping.handle (r.withMethod "HEAD")).1.status =
        (keeping.handle (r.withMethod "GET")).1.status := by
  intro r
  have files : keeping.ForFiles (r.withMethod "GET") "c".toList :=
    ⟨belowRule (["api", "v1", "files"].map String.toList), rfl, by decide +kernel⟩
  have move : r.move? "c".toList = some ("/d".toList, "/e".toList) := by decide +kernel
  have missing : (keeping.tree.move "/d".toList "/e".toList).1 = .missing := by decide +kernel
  obtain ⟨get, _, head, status⟩ := safe_methods (c := {}) rulesFor_default files
  refine ⟨get, head.mpr ?_, status.mpr fun _ => ⟨?_, _, _, move, missing⟩⟩
  · rintro ⟨_, _, source, target, asked, done⟩
    rw [move] at asked
    cases asked
    rw [missing] at done
    cases done
  · rw [FileTree.not_has_iff]
    decide +kernel

/-- Asked for the head of the root, a server moves a file. -/
theorem head_moves :
    let r := askMove "/api/v1/files/" "move-from; path=a, move-to; path=b"
    let get := keeping.handle (r.withMethod "GET")
    let head := keeping.handle (r.withMethod "HEAD")
    rulesFor {} = .ok keeping.rules ∧ keeping.ForFiles (r.withMethod "GET") [] ∧
      get.1.status = 200 ∧ get.2.tree.files = [("/a".toList, [120])] ∧
      head.1.status = 204 ∧ head.2.tree.files = [("/b".toList, [120])] := by
  refine ⟨rulesFor_default, ⟨rootRule (["api", "v1", "files"].map String.toList), rfl, ?_⟩, ?_⟩
  · decide +kernel
  · decide +kernel

end Server
end FileGate
