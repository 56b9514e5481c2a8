import Mathlib.Order.Defs.Unbundled
import FileGate.Proofs.Tree.Below
import FileGate.Proofs.Tree.Join

/-! Normal form told by what a path looks like, and not by how it comes about: every text has exactly
one such form, which is all of it that a longer path depends on. Among paths in normal form, to lie
within another is to have its segments first. -/
namespace FileGate.Path

def pieces (p : Path) : List Path := (Text.splitAll '/' p).filter (!·.isEmpty)

structure IsCanonical (p : Path) : Prop where
  slash : ∃ rest, p = '/' :: rest ∧ rest.head? ≠ some '/'
  segment : p ≠ ['/'] → ∀ s ∈ Text.splitAll '/' p.tail, s ≠ [] ∧ s ≠ ['.'] ∧ s ≠ ['.', '.']
  noSlash : p ≠ ['/'] → p.getLast? ≠ some '/'

variable {p x y : Path} {ss tt : List Path}

/-! ### The form -/

theorem isCanonical_root : IsCanonical ['/'] :=
  ⟨⟨[], rfl, by simp⟩, fun other => absurd rfl other, fun other => absurd rfl other⟩

theorem isCanonical_spell (segments : AreSegments ss) (some_ : ss ≠ []) :
    IsCanonical (spell ss) := by
  obtain ⟨s, ss, rfl⟩ := List.exists_cons_of_ne_nil some_
  obtain ⟨first, rest⟩ := areSegments_cons.mp segments
  refine ⟨⟨s ++ spell ss, spell_cons s ss, ?_⟩, fun _ t there => ?_, fun _ => ?_⟩
  · obtain ⟨c, w, rfl⟩ := List.exists_cons_of_ne_nil first.nonempty
    have other : c ≠ '/' := fun same => first.no_slash (by simp [same])
    simpa using other
  · rw [spell_cons, List.tail_cons, splitAll_spell first.no_slash rest] at there
    have segment := segments t there
    exact ⟨segment.nonempty, segment.no_dot, segment.no_dots⟩
  · obtain ⟨init, c, last, other⟩ := getLast_spell segments some_
    rw [last, List.getLast?_concat]
    simpa using other

theorem IsNormal.isCanonical (normal : IsNormal p) : IsCanonical p := by
  by_cases root : p = ['/']
  · rw [root]
    exact isCanonical_root
  · obtain ⟨ss, segments, some_, rfl⟩ := normal.exists_spelling root
    exact isCanonical_spell segments some_

theorem IsCanonical.isNormal (canonical : IsCanonical p) : IsNormal p := by
  obtain ⟨rest, rfl, _⟩ := canonical.slash
  by_cases root : '/' :: rest = ['/']
  · rw [root]
    exact isNormal_root
  · have areSegments : AreSegments (Text.splitAll '/' rest) := by
      intro s there
      obtain ⟨nonempty, noDot, noDots⟩ := canonical.segment root s there
      exact ⟨nonempty, noDot, noDots, Text.not_mem_of_mem_splitAll there⟩
    have whole : '/' :: rest = ofSegments (Text.splitAll '/' rest) := by
      rw [ofSegments, Text.joinWith_splitAll]
    rw [whole]
    exact isNormal_ofSegments areSegments

theorem pieces_ofSegments (segments : AreSegments ss) : pieces (ofSegments ss) = ss := by
  cases ss with
  | nil => rfl
  | cons s ss =>
    obtain ⟨first, rest⟩ := areSegments_cons.mp segments
    have split : Text.splitAll '/' (ofSegments (s :: ss)) = [] :: s :: ss := by
      rw [ofSegments_cons, spell_cons, ← splitAll_spell first.no_slash rest]
      simp [Text.splitAll]
    have kept : (s :: ss).filter (!·.isEmpty) = s :: ss := by
      rw [List.filter_eq_self]
      intro t there
      simpa using (segments t there).nonempty
    rw [pieces, split, List.filter_cons_of_neg (by simp), kept]

/-! ### Paths within others -/

theorem within_iff : within x y = true ↔ y = ['/'] ∨ FileTree.Under y x := by
  simp only [within, FileTree.Under, FileTree.nested, Bool.or_eq_true, beq_iff_eq, or_assoc]

theorem within_ofSegments (hs : AreSegments ss) (ht : AreSegments tt) :
    within (ofSegments tt) (ofSegments ss) = true ↔ ss <+: tt := by
  rw [within_iff]
  by_cases top : ss = []
  · simp [top]
  have noRoot : ofSegments ss ≠ ['/'] := fun root =>
    top (ofSegments_injective hs areSegments_nil root)
  by_cases bare : tt = []
  · -- The root lies within nothing but itself.
    have outside := FileTree.not_under_root (isNormal_ofSegments hs) noRoot
    simp [bare, top, noRoot, outside]
  · rw [ofSegments_of_ne_nil top, ofSegments_of_ne_nil bare, FileTree.under_spell hs ht,
      ← ofSegments_of_ne_nil top, or_iff_right noRoot]
    exact exists_congr fun _ => eq_comm

theorem IsNormal.within_iff_pieces (hx : IsNormal x) (hy : IsNormal y) :
    within x y = true ↔ pieces y <+: pieces x := by
  obtain ⟨tt, ht, rfl⟩ := hx.exists_segments
  obtain ⟨ss, hs, rfl⟩ := hy.exists_segments
  rw [within_ofSegments hs ht, pieces_ofSegments hs, pieces_ofSegments ht]

theorem IsNormal.eq_of_pieces (hx : IsNormal x) (hy : IsNormal y) (same : pieces x = pieces y) :
    x = y := by
  obtain ⟨tt, ht, rfl⟩ := hx.exists_segments
  obtain ⟨ss, hs, rfl⟩ := hy.exists_segments
  rw [pieces_ofSegments ht, pieces_ofSegments hs] at same
  rw [same]

theorem within_isPartialOrder :
    IsPartialOrder {p : Path // IsNormal p} fun x y => within x.1 y.1 = true where
  refl x := (x.2.within_iff_pieces x.2).mpr List.prefix_rfl
  trans x y z inner outer := by
    rw [x.2.within_iff_pieces y.2] at inner
    rw [y.2.within_iff_pieces z.2] at outer
    exact (x.2.within_iff_pieces z.2).mpr (outer.trans inner)
  antisymm x y there back := by
    rw [x.2.within_iff_pieces y.2] at there
    rw [y.2.within_iff_pieces x.2] at back
    exact Subtype.ext (x.2.eq_of_pieces y.2 (back.eq_of_length_le there.length_le))

theorem within_root (x : Path) : within x ['/'] = true := by
  rw [within_iff]
  exact .inl rfl

/-- Every path comes to one form that shows by itself, and only that form of it counts where a path
goes on. To lie within a path, for those in normal form, is to go on from its segments, which makes
them a partial order with the root on top. -/
theorem normalize_canonical :
    (∀ a, IsCanonical (normalize a) ∧ normalize (normalize a) = normalize a) ∧
    (∀ p, normalize p = p ↔ IsCanonical p) ∧
    (∀ a b, normalize (normalize a ++ '/' :: b) = normalize (a ++ '/' :: b)) ∧
    (∀ x y : {p : Path // IsNormal p},
      within x.1 y.1 = true ↔ pieces y.1 <+: pieces x.1) ∧
    IsPartialOrder {p : Path // IsNormal p} (fun x y => within x.1 y.1 = true) ∧
    IsNormal ['/'] ∧ ∀ x, within x ['/'] = true := by
  refine ⟨fun a => ?_, fun p => ⟨?_, ?_⟩, normalize_normalize_append, fun x y => ?_,
    within_isPartialOrder, isNormal_root, within_root⟩
  · exact ⟨(isNormal_normalize a).isCanonical, isNormal_normalize a⟩
  · exact fun normal => IsNormal.isCanonical normal
  · exact fun canonical => canonical.isNormal
  · exact x.2.within_iff_pieces y.2

/-- Names are held against each other as wholes: `/ab` does not lie within `/a`. -/
example : within "/ab".toList "/a".toList = false ∧ pieces "/a".toList = ["a".toList] ∧
    normalize "//a/./b/../../c/".toList = "/c".toList := by decide

end FileGate.Path
