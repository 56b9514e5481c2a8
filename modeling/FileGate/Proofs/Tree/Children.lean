import FileGate.Proofs.Tree.Listing
import FileGate.Proofs.Tree.Invariant

namespace FileGate.Path

variable {ss : List Path} {s : Path}

theorem ofSegments_snoc (ss : List Path) (s : Path) :
    ofSegments (ss ++ [s]) = spell ss ++ '/' :: s := by
  rw [ofSegments_of_ne_nil (by simp)]
  simp

theorem ofSegments_snoc_ne_root (hs : AreSegments (ss ++ [s])) :
    ofSegments (ss ++ [s]) ≠ ['/'] := by
  intro root
  have bare := ofSegments_injective hs areSegments_nil root
  simp at bare

theorem parent_child (hs : AreSegments (ss ++ [s])) :
    parent (ofSegments (ss ++ [s])) = ofSegments ss := by
  rw [ofSegments_of_ne_nil (by simp)]
  exact parent_spell hs

theorem name_child (hs : IsSegment s) : name (ofSegments (ss ++ [s])) = s := by
  rw [ofSegments_snoc]
  exact name_append (spell ss) hs.no_slash

theorem join_child (hs : AreSegments (ss ++ [s])) :
    join (ofSegments ss) s = ofSegments (ss ++ [s]) := by
  obtain ⟨front, last⟩ := areSegments_append.mp hs
  have plain := (areSegments_cons.mp last).1.no_slash
  have relative : (s.head? == some '/') = false := by
    rw [beq_eq_false_iff_ne]
    intro first
    exact plain (List.mem_of_mem_head? first)
  rw [ofSegments_snoc, join, relative, if_neg Bool.false_ne_true]
  by_cases top : ss = []
  · subst top
    rfl
  · -- Below the root the path of the directory has no slash at its end.
    obtain ⟨init, c, spelt, noSlash⟩ := getLast_spell front top
    have closed : (spell ss).isEmpty = false ∧ (spell ss).getLast? ≠ some '/' := by
      rw [spelt]
      simp [noSlash]
    rw [ofSegments_of_ne_nil top, if_neg (by simp [closed])]

theorem le_append (h a b : Path) : le (h ++ a) (h ++ b) = le a b := by
  induction h with
  | nil => rfl
  | cons c h ih => simpa [le] using ih

end FileGate.Path

namespace FileGate.FileTree

open FileGate.Path (IsNormal IsSegment AreSegments spell ofSegments)

section
variable {t : FileTree} {p q : Path} {ss : List Path}

/-- The children of a directory are the entries whose path has one segment more. -/
theorem WellFormed.mem_children_iff (w : t.WellFormed) (hs : AreSegments ss) :
    q ∈ t.children (ofSegments ss) ↔
      ∃ s, AreSegments (ss ++ [s]) ∧ q = ofSegments (ss ++ [s]) ∧ t.Has q := by
  have head := Path.below_ofSegments hs
  rw [children, List.mem_filter, mem_paths]
  simp only [head, Bool.and_eq_true, bne_iff_ne, ne_eq, List.isPrefixOf_iff_prefix,
    Bool.not_eq_true', List.contains_eq_mem, decide_eq_false_iff_not]
  constructor
  · rintro ⟨has, ⟨other, r, rfl⟩, plain⟩
    rw [List.drop_left] at plain
    rw [List.append_assoc, List.singleton_append] at has other ⊢
    obtain ⟨tt, ht, spelt⟩ := (w.normal _ has).exists_segments
    rcases List.eq_nil_or_concat tt with rfl | ⟨front, s, rfl⟩
    · -- The root itself is below nothing.
      exfalso
      have short := congrArg List.length spelt
      simp only [Path.ofSegments_nil, List.length_append, List.length_cons, List.length_nil] at short
      have top : spell ss = [] := List.eq_nil_of_length_eq_zero (by omega)
      have bare : r = [] := List.eq_nil_of_length_eq_zero (by omega)
      have root : ss = [] := Path.spell_injective hs Path.areSegments_nil top
      exact other (by simp [root, bare])
    · rw [List.concat_eq_append] at ht spelt
      have last := (Path.areSegments_append.mp ht).2
      have name := congrArg Path.name spelt
      rw [Path.name_append _ plain, Path.name_child (Path.areSegments_cons.mp last).1] at name
      subst name
      rw [Path.ofSegments_snoc] at spelt
      have front_eq := Path.spell_injective hs (Path.areSegments_append.mp ht).1
        (List.append_cancel_right spelt)
      subst front_eq
      exact ⟨r, ht, (Path.ofSegments_snoc ss r).symm, has⟩
  · rintro ⟨s, ht, rfl, has⟩
    refine ⟨has, ⟨fun same => ?_, ?_⟩, ?_⟩
    · have longer := Path.ofSegments_injective ht hs same
      simp at longer
    · rw [Path.ofSegments_snoc]
      exact ⟨s, by simp⟩
    · have last := (Path.areSegments_append.mp ht).2
      have whole : ofSegments (ss ++ [s]) = spell ss ++ ['/'] ++ s := by
        simp [Path.ofSegments_snoc]
      rw [whole, List.drop_left]
      exact (Path.areSegments_cons.mp last).1.no_slash

theorem WellFormed.mem_children_parent (w : t.WellFormed) (has : t.Has q) (noRoot : q ≠ ['/']) :
    q ∈ t.children (Path.parent q) := by
  obtain ⟨tt, ht, spelt⟩ := (w.normal q has).exists_segments
  rcases List.eq_nil_or_concat tt with rfl | ⟨front, s, rfl⟩
  · exact absurd spelt noRoot
  · rw [List.concat_eq_append] at ht spelt
    subst spelt
    rw [Path.parent_child ht]
    exact (w.mem_children_iff (Path.areSegments_append.mp ht).1).mpr ⟨s, ht, rfl, has⟩

structure Child (t : FileTree) (p q : Path) : Prop where
  has : t.Has q
  no_root : q ≠ ['/']
  parent : Path.parent q = p
  segment : IsSegment (Path.name q)
  join : Path.join p (Path.name q) = q
  below : q = Path.below p ++ Path.name q

theorem WellFormed.child (w : t.WellFormed) (hp : IsNormal p) (hq : q ∈ t.children p) :
    Child t p q := by
  obtain ⟨ss, hs, rfl⟩ := hp.exists_segments
  obtain ⟨s, ht, rfl, has⟩ := (w.mem_children_iff hs).mp hq
  have last := (Path.areSegments_cons.mp (Path.areSegments_append.mp ht).2).1
  have name : Path.name (ofSegments (ss ++ [s])) = s := Path.name_child last
  refine ⟨has, Path.ofSegments_snoc_ne_root ht, Path.parent_child ht, ?_, ?_, ?_⟩
  · rw [name]
    exact last
  · rw [name]
    exact Path.join_child ht
  · rw [name, Path.below_ofSegments hs, Path.ofSegments_snoc]
    simp

theorem Distinct.children (d : t.Distinct) (p : Path) : (t.children p).Nodup := d.paths.filter _

theorem WellFormed.children_eq_nil_iff (w : t.WellFormed) (hp : IsNormal p) (noRoot : p ≠ ['/']) :
    t.children p = [] ↔ t.paths.any (nested p) = false := by
  obtain ⟨ss, hs, top, rfl⟩ := hp.exists_spelling noRoot
  have whole := Path.ofSegments_of_ne_nil top
  constructor
  · intro none_
    rw [List.any_eq_false]
    intro q there deep
    have has := mem_paths.mp there
    have noRoot' : q ≠ ['/'] := by
      rintro rfl
      simp [not_nested_root hp] at deep
    obtain ⟨tt, ht, _, rfl⟩ := (w.normal q has).exists_spelling noRoot'
    obtain ⟨u, us, rfl⟩ := (nested_spell hs ht).mp deep
    have split : ss ++ u :: us = (ss ++ [u]) ++ us.reverse.reverse := by simp
    rw [split] at ht has
    -- The first step down is there: it is the entry itself or a directory on the way to it.
    have first : t.Has (spell (ss ++ [u])) := by
      by_cases near : us = []
      · simpa [near] using has
      · exact .inl (w.dir_above (by simp) (by simpa using near) ht has)
    have child : spell (ss ++ [u]) ∈ t.children (ofSegments ss) := by
      refine (w.mem_children_iff hs).mpr ⟨u, (Path.areSegments_append.mp ht).1, ?_, first⟩
      rw [Path.ofSegments_of_ne_nil (by simp)]
    rw [whole, none_] at child
    cases child
  · intro none_
    rw [List.eq_nil_iff_forall_not_mem]
    intro q hq
    rw [← whole] at hq
    obtain ⟨s, ht, rfl, has⟩ := (w.mem_children_iff hs).mp hq
    rw [Path.ofSegments_of_ne_nil (by simp)] at has
    exact List.any_eq_false.mp none_ _ (mem_paths.mpr has) ((nested_spell hs ht).mpr ⟨s, [], rfl⟩)

/-! ### Listings -/

theorem listing_eq_none_iff : t.listing p = none ↔ t.isDir p = false := by
  rw [listing]
  split
  · rename_i dir
    simp [dir]
  · rename_i noDir
    simpa using noDir

theorem isDir_of_listing {es : List Entry} (listed : t.listing p = some es) :
    t.isDir p = true := by
  rw [← Bool.not_eq_false, ← listing_eq_none_iff, listed]
  exact Option.some_ne_none es

theorem listing_of_isDir (dir : t.isDir p = true) :
    t.listing p = some (((t.children p).mergeSort Path.le).map t.entry) := if_pos dir

theorem listing_eq_nil_iff (dir : t.isDir p = true) :
    t.listing p = some [] ↔ t.children p = [] := by
  rw [listing_of_isDir dir, Option.some_inj, List.map_eq_nil_iff, ← List.length_eq_zero_iff,
    List.length_mergeSort, List.length_eq_zero_iff]

end
end FileGate.FileTree
