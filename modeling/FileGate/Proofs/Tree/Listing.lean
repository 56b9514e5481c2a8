import FileGate.Proofs.Tree.Frame

namespace FileGate.Path

theorem le_total (p q : Path) : (le p q || le q p) = true := by
  induction p generalizing q with
  | nil => simp [le]
  | cons a p ih =>
    cases q with
    | nil => simp [le]
    | cons b q =>
      by_cases same : a = b
      · subst same
        simpa [le] using ih q
      · have apart : a.toNat ≠ b.toNat := fun e => same (Char.toNat_inj.mp e)
        simp only [le, if_neg same, if_neg (Ne.symm same), Bool.or_eq_true, decide_eq_true_eq]
        omega

theorem le_trans {p q r : Path} (hpq : le p q = true) (hqr : le q r = true) : le p r = true := by
  induction p generalizing q r with
  | nil => rfl
  | cons a p ih =>
    cases q with
    | nil => cases hpq
    | cons b q =>
      cases r with
      | nil => cases hqr
      | cons c r =>
        by_cases ab : a = b
        · subst ab
          by_cases ac : a = c
          · subst ac
            simp only [le, if_true] at hpq hqr ⊢
            exact ih hpq hqr
          · simpa [le, ac] using hqr
        · by_cases bc : b = c
          · subst bc
            simpa [le, ab] using hpq
          · simp only [le, if_neg ab, if_neg bc, decide_eq_true_eq] at hpq hqr
            have ac : a ≠ c := by
              rintro rfl
              omega
            simp only [le, if_neg ac, decide_eq_true_eq]
            omega

theorem le_antisymm {p q : Path} (hpq : le p q = true) (hqp : le q p = true) : p = q := by
  induction p generalizing q with
  | nil =>
    cases q with
    | nil => rfl
    | cons b q => cases hqp
  | cons a p ih =>
    cases q with
    | nil => cases hpq
    | cons b q =>
      by_cases same : a = b
      · subst same
        simp only [le, if_true] at hpq hqp
        rw [ih hpq hqp]
      · simp only [le, if_neg same, if_neg (Ne.symm same), decide_eq_true_eq] at hpq hqp
        omega

theorem pairwise_mergeSort (l : List Path) : (l.mergeSort le).Pairwise (le · · = true) :=
  @List.pairwise_mergeSort _ le (fun _ _ _ => le_trans) le_total l

theorem mergeSort_eq_of_perm {l m : List Path} (h : l.Perm m) :
    l.mergeSort le = m.mergeSort le := by
  apply List.Perm.eq_of_pairwise (fun _ _ _ _ => le_antisymm) (pairwise_mergeSort l)
    (pairwise_mergeSort m)
  exact (List.mergeSort_perm l le).trans (h.trans (List.mergeSort_perm m le).symm)

theorem below_ofSegments {ss : List Path} (hs : AreSegments ss) :
    below (ofSegments ss) = spell ss ++ ['/'] := by
  cases ss with
  | nil => rfl
  | cons s ss =>
    have bare := dropWhile_reverse_spell hs 0
    rw [List.replicate_zero, List.append_nil] at bare
    rw [ofSegments_cons, below, bare]

theorem below_of_isNormal {p : Path} (hp : IsNormal p) (hr : p ≠ ['/']) : below p = p ++ ['/'] := by
  obtain ⟨ss, hs, some_, rfl⟩ := hp.exists_spelling hr
  rw [← ofSegments_of_ne_nil some_, below_ofSegments hs, ofSegments_of_ne_nil some_]

end FileGate.Path

namespace FileGate.FileTree

open FileGate.Path (IsNormal)

structure Distinct (t : FileTree) : Prop where
  dirs : t.dirs.Nodup
  files : (Assoc.keys t.files).Nodup

section
variable {t u : FileTree} {p q root : Path}

theorem nodup_eraseDups (l : List Path) : l.eraseDups.Nodup := by
  -- What is left after the first element is shorter than the list, but no part of it.
  induction h : l.length using Nat.strongRecOn generalizing l with
  | ind n ih =>
    cases l with
    | nil => simp
    | cons p l =>
      have shorter : (l.filter fun q => !q == p).length < n := by
        have := List.length_filter_le (fun q => !q == p) l
        simp only [List.length_cons] at h
        omega
      rw [List.eraseDups_cons, List.nodup_cons]
      exact ⟨by simp, ih _ shorter _ rfl⟩

theorem empty_distinct : Distinct {} := ⟨by decide, List.nodup_nil⟩

theorem Distinct.mkdir (d : t.Distinct) (p : Path) : (t.mkdir p).2.Distinct := by
  rcases mkdir_cases t p with ⟨_, e⟩ | ⟨_, _, e⟩ | ⟨free, _, e⟩
  · rw [e]; exact d
  · rw [e]; exact d
  · rw [e]
    have new : p ∉ t.dirs := fun h => free (.inl (isDir_iff.mpr h))
    refine ⟨List.nodup_append.mpr ⟨d.dirs, by simp, ?_⟩, d.files⟩
    rintro q hq q' hp rfl
    exact new (List.mem_singleton.mp hp ▸ hq)

theorem Distinct.write (d : t.Distinct) (p : Path) (b : Bytes) : (t.write p b).2.Distinct := by
  rcases write_cases t p b with ⟨_, e⟩ | ⟨_, _, e⟩ | ⟨_, _, e⟩
  · rw [e]; exact d
  · rw [e]; exact d
  · rw [e]; exact ⟨d.dirs, Assoc.nodup_keys_put b d.files⟩

theorem Distinct.without (d : t.Distinct) (p : Path) : (t.without p).Distinct :=
  ⟨d.dirs.filter _, d.files.sublist (List.filter_sublist.map _)⟩

theorem Distinct.remove (d : t.Distinct) (p : Path) (recursive : Bool) :
    (t.remove p recursive).2.Distinct := by
  rcases remove_cases t p recursive with
    ⟨_, e⟩ | ⟨_, _, e⟩ | ⟨_, _, e⟩ | ⟨_, _, _, _, _, e⟩ | ⟨_, _, _, _, e⟩
  · rw [e]; exact ⟨d.dirs, Assoc.nodup_keys_erase p d.files⟩
  · rw [e]; exact d
  · rw [e]; exact d
  · rw [e]; exact d
  · rw [e]; exact d.without p

theorem Distinct.move (d : t.Distinct) (source target : Path) :
    (t.move source target).2.Distinct := by
  rcases move_cases t source target with ⟨_, _, e⟩ | ⟨_, _, e⟩ | ⟨_, _, _, e⟩ |
    ⟨b, _, _, _, e⟩ | ⟨_, _, _, _, _, _, e⟩ | ⟨_, _, _, _, _, _, e⟩
  · rw [e]; exact d
  · rw [e]; exact d
  · rw [e]; exact d
  · rw [e]; exact ⟨d.dirs, Assoc.nodup_keys_put b (Assoc.nodup_keys_erase source d.files)⟩
  · rw [e]; exact d
  · rw [e]; exact ⟨nodup_eraseDups _, Assoc.nodup_keys_ofList _⟩

/-! ### Trees that agree at and below a path -/

/-- The same entries with the same contents are at the path and below it. -/
def SameWithin (root : Path) (t u : FileTree) : Prop :=
  ∀ p, Path.within p root = true → SameAt p t u

theorem SameWithin.symm (same : SameWithin root t u) : SameWithin root u t :=
  fun p hp => (same p hp).symm

theorem mem_paths : p ∈ t.paths ↔ t.Has p := by
  rw [paths, List.mem_append, List.mem_filter, Has, ← isDir_iff, ← isFile_iff]
  constructor
  · exact Or.imp_right And.left
  · rintro (dir | file)
    · exact .inl dir
    · by_cases dir : t.isDir p = true
      · exact .inl dir
      · exact .inr ⟨file, by simp [dir]⟩

theorem Distinct.paths (d : t.Distinct) : t.paths.Nodup := by
  refine List.nodup_append.mpr ⟨d.dirs, d.files.filter _, ?_⟩
  rintro p dir _ file rfl
  have noDir := (List.mem_filter.mp file).2
  rw [isDir_iff.mpr dir] at noDir
  cases noDir

theorem within_of_mem_children (hp : IsNormal p) (hin : Path.within p root = true)
    (hq : q ∈ t.children p) : Path.within q root = true := by
  by_cases top : root = ['/']
  · simp [Path.within, top]
  have below : Path.below p <+: q := by
    have h := (List.mem_filter.mp hq).2
    simp only [Bool.and_eq_true] at h
    exact List.isPrefixOf_iff_prefix.mp h.1.2
  have under : p = root ∨ root ++ ['/'] <+: p := by
    simpa [Path.within, top, List.isPrefixOf_iff_prefix] using hin
  have inside : root ++ ['/'] <+: q := by
    by_cases bottom : p = ['/']
    · subst bottom
      rcases under with same | longer
      · exact absurd same.symm top
      · exact longer.trans below
    · rw [Path.below_of_isNormal hp bottom] at below
      rcases under with rfl | longer
      · exact below
      · exact longer.trans ((List.prefix_append p ['/']).trans below)
  simp [Path.within, List.isPrefixOf_iff_prefix.mpr inside]

theorem SameWithin.mem_children (same : SameWithin root t u) (hp : IsNormal p)
    (hin : Path.within p root = true) (hq : q ∈ t.children p) : q ∈ u.children p := by
  have inside := within_of_mem_children hp hin hq
  obtain ⟨there, child⟩ := List.mem_filter.mp hq
  have has : u.Has q := by
    rw [Has, (same q inside).1, (same q inside).isFile]
    exact mem_paths.mp there
  exact List.mem_filter.mpr ⟨mem_paths.mpr has, child⟩

theorem SameWithin.children_perm (same : SameWithin root t u) (dt : t.Distinct) (du : u.Distinct)
    (hp : IsNormal p) (hin : Path.within p root = true) : (t.children p).Perm (u.children p) := by
  have once {t : FileTree} (d : t.Distinct) : (t.children p).Nodup := d.paths.filter _
  rw [List.perm_ext_iff_of_nodup (once dt) (once du)]
  exact fun q => ⟨same.mem_children hp hin, same.symm.mem_children hp hin⟩

theorem SameWithin.entry (same : SameWithin root t u) (hp : Path.within p root = true) :
    u.entry p = t.entry p := by
  obtain ⟨dir, read⟩ := same p hp
  rw [FileTree.entry, FileTree.entry, dir, read]

theorem SameWithin.listing (same : SameWithin root t u) (dt : t.Distinct) (du : u.Distinct)
    (hp : IsNormal p) (hin : Path.within p root = true) : u.listing p = t.listing p := by
  have order : (t.children p).mergeSort Path.le = (u.children p).mergeSort Path.le :=
    Path.mergeSort_eq_of_perm (same.children_perm dt du hp hin)
  have entries : ((u.children p).mergeSort Path.le).map u.entry =
      ((t.children p).mergeSort Path.le).map t.entry := by
    rw [order]
    refine List.map_congr_left fun q hq => same.entry ?_
    exact within_of_mem_children hp hin (List.mem_mergeSort.mp hq)
  rw [FileTree.listing, FileTree.listing, (same p hin).1, entries]

end
end FileGate.FileTree
