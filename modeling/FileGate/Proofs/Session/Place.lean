import FileGate.Proofs.Tree.Frame
import FileGate.Session.Disk

namespace FileGate.Disk

open FileGate.Path (AreSegments spell)
open FileGate.FileTree (Has SameAt nested)

variable {d : Disk} {p q : Path}

theorem files_mkdir (d : Disk) (p : Path) : (d.mkdir p).2.files = d.files := by
  rcases FileTree.mkdir_cases d p with ⟨_, e⟩ | ⟨_, _, e⟩ | ⟨_, _, e⟩ <;> rw [e]

theorem isDir_mkdir_of_isDir (there : d.isDir q = true) (p : Path) :
    (d.mkdir p).2.isDir q = true := by
  rcases FileTree.mkdir_cases d p with ⟨_, e⟩ | ⟨_, _, e⟩ | ⟨_, _, e⟩
  · rwa [e]
  · rwa [e]
  · rw [e, FileTree.isDir_iff]
    exact List.mem_append_left _ (FileTree.isDir_iff.mp there)

theorem isDir_mkdir
    (place : d.isDir p = true ∨ d.isFile p = false ∧ d.isDir (Path.parent p) = true) :
    (d.mkdir p).2.isDir p = true := by
  rcases place with there | ⟨noFile, parent⟩
  · exact isDir_mkdir_of_isDir there p
  rcases FileTree.mkdir_cases d p with ⟨has, e⟩ | ⟨_, none_, e⟩ | ⟨_, _, e⟩
  · rw [e]
    exact has.resolve_right (by simp [noFile])
  · rw [none_] at parent
    cases parent
  · rw [e, FileTree.isDir_iff]
    exact List.mem_append_right _ (List.mem_singleton_self p)

/-! ### A directory and those above it -/

def makeAll (d : Disk) (ps : List Path) : Disk := ps.foldl (fun d p => (d.mkdir p).2) d

theorem makeAll_append (d : Disk) (ps qs : List Path) :
    d.makeAll (ps ++ qs) = (d.makeAll ps).makeAll qs := List.foldl_append

theorem files_makeAll (d : Disk) (ps : List Path) : (d.makeAll ps).files = d.files := by
  induction ps generalizing d with
  | nil => rfl
  | cons p ps ih => exact (ih _).trans (files_mkdir d p)

theorem isDir_makeAll_of_isDir (there : d.isDir q = true) (ps : List Path) :
    (d.makeAll ps).isDir q = true := by
  induction ps generalizing d with
  | nil => exact there
  | cons p ps ih => exact ih (isDir_mkdir_of_isDir there p)

theorem isDir_makeAll_of_not_mem {ps : List Path} (other : q ∉ ps) (d : Disk) :
    (d.makeAll ps).isDir q = d.isDir q := by
  induction ps generalizing d with
  | nil => rfl
  | cons p ps ih =>
    rw [List.mem_cons, not_or] at other
    exact (ih other.2 _).trans (FileTree.mkdir_sameAt d other.1).1

def above (ss : List Path) (n : Nat) : List Path :=
  (List.range (n + 1)).map fun k => Path.ofSegments (ss.take k)

theorem makeDirs_eq (d : Disk) (p : Path) :
    d.makeDirs p = d.makeAll (above (Path.segments p) (Path.segments p).length) := by
  rw [makeAll, above, List.foldl_map]
  rfl

theorem parent_ofSegments_take {ss : List Path} (hs : AreSegments ss) {n : Nat}
    (short : n < ss.length) :
    Path.parent (Path.ofSegments (ss.take (n + 1))) = Path.ofSegments (ss.take n) := by
  have parts : ss.take (n + 1) = ss.take n ++ [ss[n]] := by
    rw [List.take_succ_eq_append_getElem short]
  have segments : AreSegments (ss.take n ++ [ss[n]]) :=
    fun s there => hs s (List.mem_of_mem_take (parts ▸ there))
  have some_ : ss.take n ++ [ss[n]] ≠ [] := List.append_ne_nil_of_right_ne_nil _ (by simp)
  rw [parts, Path.ofSegments_of_ne_nil some_, Path.parent_spell segments]

theorem isDir_makeAll_above {ss : List Path} (hs : AreSegments ss) (root : d.isDir ['/'] = true)
    (way : ∀ n, ss.take n ≠ [] → d.isFile (Path.ofSegments (ss.take n)) = false) (n : Nat) :
    (d.makeAll (above ss n)).isDir (Path.ofSegments (ss.take n)) = true := by
  induction n with
  | zero => exact isDir_mkdir (.inl root)
  | succ n ih =>
    have before : above ss (n + 1) = above ss n ++ [Path.ofSegments (ss.take (n + 1))] := by
      rw [above, List.range_succ, List.map_append]
      rfl
    rw [before, makeAll_append]
    refine isDir_mkdir ?_
    by_cases short : n < ss.length
    · right
      rw [parent_ofSegments_take hs short, FileTree.isFile, files_makeAll]
      have some_ : ss.take (n + 1) ≠ [] :=
        List.ne_nil_of_length_pos (by rw [List.length_take]; omega)
      exact ⟨way (n + 1) some_, ih⟩
    · left
      have all : ss.take (n + 1) = ss.take n := by
        rw [List.take_of_length_le (by omega), List.take_of_length_le (by omega)]
      rwa [all]

/-! ### The place of a file -/

/-- A file can come to be at the path: there is nothing at it, and no file where one of its
directories is to be. -/
structure Vacant (d : Disk) (path : String) : Prop where
  root : d.isDir ['/'] = true
  free : ¬ d.Has (locate path)
  way : ∀ q, nested q (locate path) = true → d.isFile q = false

theorem exists_locate {path : String} (notRoot : locate path ≠ ['/']) :
    ∃ front s, AreSegments (front ++ [s]) ∧ locate path = spell (front ++ [s]) ∧
      Path.parent (locate path) = Path.ofSegments front := by
  obtain ⟨ss, hs, some_, same⟩ := (Path.isNormal_normalize path.toList).exists_spelling notRoot
  obtain ⟨front, s, rfl⟩ := Path.exists_last some_
  have here : locate path = spell (front ++ [s]) := same
  exact ⟨front, s, hs, here, by rw [here, Path.parent_spell hs]⟩

theorem makeParent_eq {path : String} {front : List Path} (hf : AreSegments front)
    (same : Path.parent (locate path) = Path.ofSegments front) (d : Disk) :
    d.makeParent path = d.makeAll (above front front.length) := by
  rw [makeParent, makeDirs_eq, same, Path.segments_ofSegments hf]

theorem locate_not_mem_above {front : List Path} {s : Path} (hs : AreSegments (front ++ [s]))
    (n : Nat) : spell (front ++ [s]) ∉ above front n := by
  intro there
  obtain ⟨k, _, same⟩ := List.mem_map.mp there
  have segments : AreSegments (front.take k) :=
    fun s there => (Path.areSegments_append.mp hs).1 s (List.mem_of_mem_take there)
  rw [← Path.ofSegments_of_ne_nil (by simp)] at same
  have lists := congrArg List.length (Path.ofSegments_injective segments hs same)
  rw [List.length_take, List.length_append, List.length_singleton] at lists
  omega

theorem makeParent_sameAt {path : String} (notRoot : locate path ≠ ['/']) (d : Disk) :
    SameAt (locate path) d (d.makeParent path) := by
  obtain ⟨front, s, hs, here, parent⟩ := exists_locate notRoot
  rw [makeParent_eq (Path.areSegments_append.mp hs).1 parent, here]
  refine ⟨isDir_makeAll_of_not_mem (locate_not_mem_above hs _) d, ?_⟩
  rw [FileTree.read, files_makeAll]
  rfl

theorem isDir_makeParent_of_isDir (there : d.isDir q = true) (path : String) :
    (d.makeParent path).isDir q = true := by
  rw [makeParent, makeDirs_eq]
  exact isDir_makeAll_of_isDir there _

theorem Vacant.notRoot {path : String} (vacant : Vacant d path) : locate path ≠ ['/'] :=
  fun same => vacant.free (.inl (same ▸ vacant.root))

theorem Vacant.isDir_makeParent {path : String} (vacant : Vacant d path) :
    (d.makeParent path).isDir (Path.parent (locate path)) = true := by
  obtain ⟨front, s, hs, here, parent⟩ := exists_locate vacant.notRoot
  have segments := (Path.areSegments_append.mp hs).1
  have way (n : Nat) (some_ : front.take n ≠ []) :
      d.isFile (Path.ofSegments (front.take n)) = false := by
    refine vacant.way _ ?_
    have lower : AreSegments (front.take n) :=
      fun s there => segments s (List.mem_of_mem_take there)
    rw [here, Path.ofSegments_of_ne_nil some_, FileTree.nested_spell lower hs]
    obtain ⟨u, us, rest⟩ := List.exists_cons_of_ne_nil
      (List.append_ne_nil_of_right_ne_nil (front.drop n) (List.cons_ne_nil s []))
    exact ⟨u, us, by rw [← rest, ← List.append_assoc, List.take_append_drop]⟩
  have made := isDir_makeAll_above segments vacant.root way front.length
  rw [List.take_length] at made
  rwa [makeParent_eq segments parent, parent]

end FileGate.Disk
