import FileGate.Tree.FileTree

namespace FileGate.FileTree

def Has (t : FileTree) (p : Path) : Prop := t.isDir p = true ∨ t.isFile p = true

instance (t : FileTree) (p : Path) : Decidable (t.Has p) := inferInstanceAs (Decidable (_ ∨ _))

theorem not_has_iff {t : FileTree} {p : Path} :
    ¬ t.Has p ↔ t.isDir p = false ∧ t.isFile p = false := by
  simp [Has]

theorem mkdir_cases (t : FileTree) (p : Path) :
    (t.Has p ∧ t.mkdir p = (.conflict, t)) ∨
    (¬ t.Has p ∧ t.isDir (Path.parent p) = false ∧ t.mkdir p = (.missing, t)) ∨
    (¬ t.Has p ∧ t.isDir (Path.parent p) = true ∧
      t.mkdir p = (.created, { t with dirs := t.dirs ++ [p] })) := by
  unfold mkdir
  split
  · rename_i h
    exact .inl ⟨by simpa [Has] using h, rfl⟩
  · rename_i h
    have free : ¬ t.Has p := by simpa [Has] using h
    split
    · rename_i hp
      exact .inr (.inl ⟨free, by simpa using hp, rfl⟩)
    · rename_i hp
      exact .inr (.inr ⟨free, by simpa using hp, rfl⟩)

theorem write_cases (t : FileTree) (p : Path) (b : Bytes) :
    (t.isDir p = true ∧ t.write p b = (.conflict, t)) ∨
    (t.isDir p = false ∧ t.isDir (Path.parent p) = false ∧ t.write p b = (.missing, t)) ∨
    (t.isDir p = false ∧ t.isDir (Path.parent p) = true ∧
      t.write p b = (if t.isFile p then .done else .created,
        { t with files := Assoc.put p b t.files })) := by
  unfold write
  split
  · rename_i h
    exact .inl ⟨h, rfl⟩
  · rename_i h
    have free : t.isDir p = false := by simpa using h
    split
    · rename_i hp
      exact .inr (.inl ⟨free, by simpa using hp, rfl⟩)
    · rename_i hp
      exact .inr (.inr ⟨free, by simpa using hp, rfl⟩)

def without (t : FileTree) (p : Path) : FileTree :=
  ⟨t.dirs.filter fun q => q != p && !nested p q, t.files.filter fun e => !nested p e.1⟩

theorem remove_cases (t : FileTree) (p : Path) (recursive : Bool) :
    (t.isFile p = true ∧
      t.remove p recursive = (.done, { t with files := Assoc.erase p t.files })) ∨
    (t.isFile p = false ∧ p = ['/'] ∧ t.remove p recursive = (.conflict, t)) ∨
    (¬ t.Has p ∧ p ≠ ['/'] ∧ t.remove p recursive = (.missing, t)) ∨
    (t.isFile p = false ∧ p ≠ ['/'] ∧ t.isDir p = true ∧ recursive = false ∧
      t.paths.any (nested p) = true ∧ t.remove p recursive = (.conflict, t)) ∨
    (t.isFile p = false ∧ p ≠ ['/'] ∧ t.isDir p = true ∧
      (recursive = true ∨ t.paths.any (nested p) = false) ∧
      t.remove p recursive = (.done, t.without p)) := by
  unfold remove
  split
  · rename_i h
    exact .inl ⟨h, rfl⟩
  · rename_i h
    have noFile : t.isFile p = false := by simpa using h
    split
    · rename_i hr
      exact .inr (.inl ⟨noFile, by simpa using hr, rfl⟩)
    · rename_i hr
      have notRoot : p ≠ ['/'] := by simpa using hr
      split
      · rename_i hd
        have noDir : t.isDir p = false := by simpa using hd
        exact .inr (.inr (.inl ⟨not_has_iff.mpr ⟨noDir, noFile⟩, notRoot, rfl⟩))
      · rename_i hd
        have dir : t.isDir p = true := by simpa using hd
        split
        · rename_i hn
          simp only [Bool.and_eq_true, Bool.not_eq_true'] at hn
          exact .inr (.inr (.inr (.inl ⟨noFile, notRoot, dir, hn.2, hn.1, rfl⟩)))
        · rename_i hn
          have free : recursive = true ∨ t.paths.any (nested p) = false := by
            cases recursive
            · exact .inr (by simpa using hn)
            · exact .inl rfl
          exact .inr (.inr (.inr (.inr ⟨noFile, notRoot, dir, free, rfl⟩)))

def relocated (t : FileTree) (source target : Path) : FileTree :=
  ⟨(t.dirs.map (moved source target)).eraseDups,
    Assoc.ofList (t.files.map fun e => (moved source target e.1, e.2))⟩

theorem move_cases (t : FileTree) (source target : Path) :
    (t.isFile source = false ∧ (t.isDir source = false ∨ source = ['/']) ∧
      t.move source target = (.missing, t)) ∨
    (t.Has source ∧ t.Has target ∧ t.move source target = (.conflict, t)) ∨
    (t.Has source ∧ ¬ t.Has target ∧ t.isDir (Path.parent target) = false ∧
      t.move source target = (.missing, t)) ∨
    (∃ b, t.read source = some b ∧ ¬ t.Has target ∧ t.isDir (Path.parent target) = true ∧
      t.move source target =
        (.done, { t with files := Assoc.put target b (Assoc.erase source t.files) })) ∨
    (t.isFile source = false ∧ t.isDir source = true ∧ source ≠ ['/'] ∧ ¬ t.Has target ∧
      t.isDir (Path.parent target) = true ∧ nested source target = true ∧
      t.move source target = (.conflict, t)) ∨
    (t.isFile source = false ∧ t.isDir source = true ∧ source ≠ ['/'] ∧ ¬ t.Has target ∧
      t.isDir (Path.parent target) = true ∧ nested source target = false ∧
      t.move source target = (.done, t.relocated source target)) := by
  unfold move
  split
  · rename_i h
    simp only [Bool.and_eq_true, Bool.or_eq_true, Bool.not_eq_true', beq_iff_eq] at h
    exact .inl ⟨h.1, h.2, rfl⟩
  · rename_i h
    have there : t.isFile source = true ∨ t.isDir source = true ∧ source ≠ ['/'] := by
      by_cases hf : t.isFile source = true
      · exact .inl hf
      · exact .inr (by simpa [hf] using h)
    have has : t.Has source := there.elim .inr (fun d => .inl d.1)
    split
    · rename_i ht
      have ht : t.Has target := (by simpa using ht : _ ∨ _).symm
      exact .inr (.inl ⟨has, ht, rfl⟩)
    · rename_i ht
      have free : ¬ t.Has target := by
        simp only [Bool.or_eq_true, not_or] at ht
        exact fun h => h.elim ht.2 ht.1
      split
      · rename_i hp
        exact .inr (.inr (.inl ⟨has, free, by simpa using hp, rfl⟩))
      · rename_i hp
        have place : t.isDir (Path.parent target) = true := by simpa using hp
        split
        · rename_i b hb
          exact .inr (.inr (.inr (.inl ⟨b, hb, free, place, rfl⟩)))
        · rename_i hb
          have noFile : t.isFile source = false := by
            simpa [isFile, Assoc.contains, read] using hb
          obtain ⟨dir, notRoot⟩ := there.resolve_left (by simp [noFile])
          split
          · rename_i hn
            exact .inr (.inr (.inr (.inr (.inl ⟨noFile, dir, notRoot, free, place, hn, rfl⟩))))
          · rename_i hn
            exact .inr (.inr (.inr (.inr (.inr
              ⟨noFile, dir, notRoot, free, place, by simpa using hn, rfl⟩))))

/-! ### Membership in a changed tree -/

section
variable {t : FileTree} {p q source target : Path}

theorem isDir_iff : t.isDir p = true ↔ p ∈ t.dirs := List.contains_iff_mem

theorem isFile_iff : t.isFile p = true ↔ p ∈ Assoc.keys t.files := Assoc.contains_iff

theorem isFile_eq_isSome (t : FileTree) (p : Path) : t.isFile p = (t.read p).isSome := rfl

theorem isFile_of_read {b : Bytes} (there : t.read p = some b) : t.isFile p = true := by
  rw [isFile_eq_isSome, there]
  rfl

theorem isDir_without :
    (t.without p).isDir q = true ↔ t.isDir q = true ∧ q ≠ p ∧ nested p q = false := by
  simp [isDir_iff, without]

theorem isFile_without :
    (t.without p).isFile q = true ↔ t.isFile q = true ∧ nested p q = false := by
  simp only [isFile_iff, without, Assoc.keys, List.mem_map, List.mem_filter]
  constructor
  · rintro ⟨e, ⟨he, hn⟩, rfl⟩
    exact ⟨⟨e, he, rfl⟩, by simpa using hn⟩
  · rintro ⟨⟨e, he, rfl⟩, hn⟩
    exact ⟨e, ⟨he, by simp [hn]⟩, rfl⟩

theorem isDir_relocated :
    (t.relocated source target).isDir q = true ↔
      ∃ p, t.isDir p = true ∧ moved source target p = q := by
  simp [isDir_iff, relocated]

theorem isFile_relocated :
    (t.relocated source target).isFile q = true ↔
      ∃ p, t.isFile p = true ∧ moved source target p = q := by
  rw [isFile_iff, relocated, Assoc.mem_keys_ofList]
  simp only [isFile_iff, Assoc.keys, List.map_map, List.mem_map]
  constructor
  · rintro ⟨e, he, rfl⟩
    exact ⟨e.1, ⟨e, he, rfl⟩, rfl⟩
  · rintro ⟨p, ⟨e, he, rfl⟩, rfl⟩
    exact ⟨e, he, rfl⟩

theorem move_tree_eq_iff : (t.move source target).2 = t ↔ (t.move source target).1 ≠ .done := by
  rcases move_cases t source target with ⟨_, _, e⟩ | ⟨_, _, e⟩ | ⟨_, _, _, e⟩ |
    ⟨b, _, free, _, e⟩ | ⟨_, _, _, _, _, _, e⟩ | ⟨_, dir, _, free, _, _, e⟩
  · simp [e]
  · simp [e]
  · simp [e]
  · have there : isFile { t with files := Assoc.put target b (Assoc.erase source t.files) }
        target = true := isFile_iff.mpr (Assoc.mem_keys_put.mpr (.inl rfl))
    simp only [e, ne_eq, not_true_eq_false, iff_false]
    intro same
    rw [same] at there
    exact free (.inr there)
  · simp [e]
  · have there : (t.relocated source target).isDir target = true :=
      isDir_relocated.mpr ⟨source, dir, by simp [moved]⟩
    simp only [e, ne_eq, not_true_eq_false, iff_false]
    intro same
    rw [same] at there
    exact free (.inl there)

end
end FileGate.FileTree
