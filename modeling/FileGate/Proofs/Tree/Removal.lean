import FileGate.Proofs.Tree.Children
import FileGate.Proofs.Tree.Moving

namespace FileGate.FileTree

open FileGate.Path (IsNormal)

def outside (t : FileTree) (p : Path) : FileTree :=
  ⟨t.dirs.filter fun q => ¬ Under p q, t.files.filter fun e => ¬ Under p e.1⟩

section
variable {t : FileTree} {p : Path}

theorem WellFormed.outside_of_file (w : t.WellFormed) (hp : IsNormal p)
    (file : t.isFile p = true) : { t with files := Assoc.erase p t.files } = t.outside p := by
  have noRoot := w.ne_root_of_file file
  have nothingBelow : ∀ q, t.Has q → nested p q = false := by
    intro q has
    refine Bool.eq_false_iff.mpr fun deep => ?_
    exact w.disjoint p ⟨w.dir_of_nested hp noRoot has deep, file⟩
  have dirs : t.dirs.filter (fun q => ¬ Under p q) = t.dirs := by
    rw [List.filter_eq_self]
    intro q there
    have has : t.Has q := .inl (isDir_iff.mpr there)
    have other : q ≠ p := by
      rintro rfl
      exact w.disjoint q ⟨isDir_iff.mpr there, file⟩
    simp [Under, other, nothingBelow q has]
  have files : Assoc.erase p t.files = t.files.filter fun e => ¬ Under p e.1 := by
    rw [Assoc.erase_eq_filter]
    apply List.filter_congr
    intro e there
    have key : e.1 ∈ Assoc.keys t.files := List.mem_map_of_mem there
    simp [Under, nothingBelow e.1 (.inr (isFile_iff.mpr key)), beq_eq_decide]
  rw [outside, dirs, files]

theorem outside_of_dir (noFile : t.isFile p = false) : t.without p = t.outside p := by
  have dirs : t.dirs.filter (fun q => q != p && !nested p q) =
      t.dirs.filter fun q => ¬ Under p q := by
    apply List.filter_congr
    intro q _
    by_cases same : q = p
    · simp [Under, same]
    · simp [Under, same]
  have files : t.files.filter (fun e => !nested p e.1) =
      t.files.filter fun e => ¬ Under p e.1 := by
    apply List.filter_congr
    intro e there
    have key : e.1 ∈ Assoc.keys t.files := List.mem_map_of_mem there
    have other : e.1 ≠ p := by
      intro same
      rw [same, ← isFile_iff, noFile] at key
      cases key
    simp [Under, other]
  rw [without, outside, dirs, files]

theorem remove_missing_iff (noRoot : p ≠ ['/']) (recursive : Bool) :
    (t.remove p recursive).1 = .missing ↔ ¬ t.Has p := by
  rcases remove_cases t p recursive with
    ⟨file, e⟩ | ⟨_, root, _⟩ | ⟨absent, _, e⟩ | ⟨_, _, dir, _, _, e⟩ | ⟨_, _, dir, _, e⟩
  · simp [e, Has, file]
  · exact absurd root noRoot
  · simp [e, absent]
  · simp [e, Has, dir]
  · simp [e, Has, dir]

theorem WellFormed.remove_tree (w : t.WellFormed) (hp : IsNormal p) (recursive : Bool) :
    (t.remove p recursive).2 =
      if (t.remove p recursive).1 = .done then t.outside p else t := by
  rcases remove_cases t p recursive with
    ⟨file, e⟩ | ⟨_, _, e⟩ | ⟨_, _, e⟩ | ⟨_, _, _, _, _, e⟩ | ⟨noFile, _, _, _, e⟩
  · rw [e, if_pos rfl]
    exact w.outside_of_file hp file
  · rw [e, if_neg (by simp)]
  · rw [e, if_neg (by simp)]
  · rw [e, if_neg (by simp)]
  · rw [e, if_pos rfl]
    exact outside_of_dir noFile

theorem remove_recursive (noRoot : p ≠ ['/']) (has : t.Has p) : (t.remove p true).1 = .done := by
  rcases remove_cases t p true with
    ⟨_, e⟩ | ⟨_, root, _⟩ | ⟨absent, _, _⟩ | ⟨_, _, _, plain, _, _⟩ | ⟨_, _, _, _, e⟩
  · rw [e]
  · exact absurd root noRoot
  · exact absurd has absent
  · cases plain
  · rw [e]

theorem WellFormed.remove_dir (w : t.WellFormed) (hp : IsNormal p) (noRoot : p ≠ ['/'])
    (dir : t.isDir p = true) :
    (t.remove p false).1 = if t.listing p = some [] then .done else .conflict := by
  have empty : t.listing p = some [] ↔ t.paths.any (nested p) = false := by
    rw [listing_eq_nil_iff dir]
    exact w.children_eq_nil_iff hp noRoot
  rcases remove_cases t p false with
    ⟨file, _⟩ | ⟨_, root, _⟩ | ⟨absent, _, _⟩ | ⟨_, _, _, _, full, e⟩ | ⟨_, _, _, free, e⟩
  · exact absurd ⟨dir, file⟩ (w.disjoint p)
  · exact absurd root noRoot
  · exact absurd (.inl dir) absent
  · rw [e, if_neg]
    rw [empty, full]
    exact Bool.noConfusion
  · rw [e, if_pos]
    exact empty.mpr (free.resolve_left Bool.false_ne_true)

variable {os : List Operation}

/-- A removal that is done leaves exactly the entries that are neither at the path nor below it, and
any other leaves the tree as it is. Nothing to remove is all that is reported as missing; a
directory can be removed by itself exactly if its listing is empty, and with all that is in it
always. -/
theorem remove_exact (reached : run {} os = t) (hp : IsNormal p) (noRoot : p ≠ ['/']) :
    (∀ recursive,
      ((t.remove p recursive).1 = .done → (t.remove p recursive).2 = t.outside p) ∧
      ((t.remove p recursive).1 ≠ .done → (t.remove p recursive).2 = t) ∧
      ((t.remove p recursive).1 = .missing ↔ ¬ t.Has p)) ∧
    (t.isDir p = true →
      ((t.remove p false).1 = .done ↔ t.listing p = some []) ∧
      (t.listing p ≠ some [] → (t.remove p false).1 = .conflict)) ∧
    (t.Has p → (t.remove p true).1 = .done) := by
  subst reached
  have w := empty_wellFormed.run os
  refine ⟨fun recursive => ⟨fun done => ?_, fun failed => ?_, ?_⟩, fun dir => ⟨?_, fun full => ?_⟩,
    remove_recursive noRoot⟩
  · rw [w.remove_tree hp, if_pos done]
  · rw [w.remove_tree hp, if_neg failed]
  · exact remove_missing_iff noRoot recursive
  · rw [w.remove_dir hp noRoot dir]
    split
    · rename_i empty
      simp [empty]
    · rename_i full
      simp [full]
  · rw [w.remove_dir hp noRoot dir, if_neg full]

theorem remove_exact_neighbours :
    ((run {} neighbours).remove "/a".toList false).1 = .conflict ∧
      ((run {} neighbours).remove "/a".toList true).1 = .done ∧
      ((run {} neighbours).remove "/a".toList true).2.look "/a/f".toList = nothing ∧
      ((run {} neighbours).remove "/a".toList true).2.look "/ab/f".toList = (false, some [2]) := by
  have reached : run {} neighbours = run {} neighbours := rfl
  obtain ⟨trees, plain, deep⟩ := remove_exact reached (p := "/a".toList) (by decide) (by decide)
  have done := deep (by decide +kernel)
  have left := (trees true).1 done
  refine ⟨(plain (by decide +kernel)).2 (by decide +kernel), done, ?_, ?_⟩
  · rw [left]
    decide +kernel
  · rw [left]
    decide +kernel

end
end FileGate.FileTree
