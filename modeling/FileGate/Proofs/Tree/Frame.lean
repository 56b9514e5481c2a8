import FileGate.Proofs.Tree.Below
import FileGate.Proofs.Tree.Change

namespace FileGate.FileTree

section
variable {t u : FileTree} {p q : Path}

def SameAt (q : Path) (t u : FileTree) : Prop := u.isDir q = t.isDir q ∧ u.read q = t.read q

theorem SameAt.refl (q : Path) (t : FileTree) : SameAt q t t := ⟨rfl, rfl⟩

theorem SameAt.symm (same : SameAt q t u) : SameAt q u t := ⟨same.1.symm, same.2.symm⟩

theorem SameAt.isFile (same : SameAt q t u) : u.isFile q = t.isFile q := by
  have read := same.2
  simp only [FileTree.read] at read
  simp only [FileTree.isFile, Assoc.contains, read]

theorem mkdir_sameAt (t : FileTree) (h : q ≠ p) : SameAt q t (t.mkdir p).2 := by
  rcases mkdir_cases t p with ⟨_, e⟩ | ⟨_, _, e⟩ | ⟨_, _, e⟩
  · rw [e]; exact .refl q t
  · rw [e]; exact .refl q t
  · rw [e]
    refine ⟨?_, rfl⟩
    have same : q ∈ t.dirs ++ [p] ↔ q ∈ t.dirs := by simp [h]
    exact Bool.eq_iff_iff.mpr (by rw [isDir_iff, isDir_iff]; exact same)

theorem write_sameAt (t : FileTree) (b : Bytes) (h : q ≠ p) : SameAt q t (t.write p b).2 := by
  rcases write_cases t p b with ⟨_, e⟩ | ⟨_, _, e⟩ | ⟨_, _, e⟩
  · rw [e]; exact .refl q t
  · rw [e]; exact .refl q t
  · rw [e]; exact ⟨rfl, Assoc.get?_put_of_ne h.symm b t.files⟩

theorem read_without (t : FileTree) (p q : Path) :
    (t.without p).read q = if nested p q then none else t.read q := by
  have filtered := Assoc.get?_filter (fun q => !nested p q) q t.files
  rw [read, read, without, filtered]
  cases nested p q <;> rfl

theorem remove_sameAt (t : FileTree) (recursive : Bool) (h : ¬ Under p q) :
    SameAt q t (t.remove p recursive).2 := by
  simp only [Under, not_or, Bool.not_eq_true] at h
  rcases remove_cases t p recursive with
    ⟨_, e⟩ | ⟨_, _, e⟩ | ⟨_, _, e⟩ | ⟨_, _, _, _, _, e⟩ | ⟨_, _, _, _, e⟩
  · rw [e]; exact ⟨rfl, Assoc.get?_erase_of_ne (Ne.symm h.1) t.files⟩
  · rw [e]; exact .refl q t
  · rw [e]; exact .refl q t
  · rw [e]; exact .refl q t
  · rw [e]
    refine ⟨Bool.eq_iff_iff.mpr ?_, ?_⟩
    · rw [isDir_without]
      simp [h.1, h.2]
    · rw [read_without, h.2]
      rfl

theorem remove_shrinks (t : FileTree) (p : Path) (recursive : Bool) (q : Path) :
    ((t.remove p recursive).2.isDir q = true → t.isDir q = true) ∧
      ∀ b, (t.remove p recursive).2.read q = some b → t.read q = some b := by
  rcases remove_cases t p recursive with
    ⟨_, e⟩ | ⟨_, _, e⟩ | ⟨_, _, e⟩ | ⟨_, _, _, _, _, e⟩ | ⟨_, _, _, _, e⟩
  · rw [e]; exact ⟨id, fun b hb => (Assoc.get?_erase_eq_some.mp hb).2⟩
  · rw [e]; exact ⟨id, fun _ => id⟩
  · rw [e]; exact ⟨id, fun _ => id⟩
  · rw [e]; exact ⟨id, fun _ => id⟩
  · rw [e]
    refine ⟨fun dir => (isDir_without.mp dir).1, fun b hb => ?_⟩
    rw [read_without] at hb
    split at hb
    · cases hb
    · exact hb

end
end FileGate.FileTree
