import FileGate.Tree.FileTree

/-! Paths in normal form, seen as lists of segments. A path and its list determine each other, so
what the tree says with prefixes of texts can be said with prefixes of lists. -/
namespace FileGate.Text

theorem splitAll_ne_nil (sep : Char) (s : List Char) : splitAll sep s ≠ [] := by
  induction s with
  | nil => simp [splitAll]
  | cons c s ih =>
    rw [splitAll]
    split
    · simp
    · split <;> simp

theorem not_mem_of_mem_splitAll {sep : Char} {s w : List Char} (h : w ∈ splitAll sep s) :
    sep ∉ w := by
  induction s generalizing w with
  | nil => simp [splitAll] at h; simp [h]
  | cons c s ih =>
    rw [splitAll] at h
    split at h
    · rcases List.mem_cons.mp h with rfl | h
      · simp
      · exact ih h
    · rename_i hc
      have hne : sep ≠ c := fun e => hc (by simp [e])
      split at h
      · exact absurd ‹_› (splitAll_ne_nil sep s)
      · rename_i v vs hv
        rcases List.mem_cons.mp h with rfl | h
        · have hm := ih (w := v) (by simp [hv])
          simp [hne, hm]
        · exact ih (by simp [hv, h])

theorem splitAll_of_not_mem {sep : Char} {w : List Char} (h : sep ∉ w) : splitAll sep w = [w] := by
  induction w with
  | nil => rfl
  | cons c w ih =>
    simp only [List.mem_cons, not_or] at h
    have hc : (c == sep) = false := by simp [Ne.symm h.1]
    simp [splitAll, hc, ih h.2]

theorem splitAll_append {sep : Char} {w : List Char} (h : sep ∉ w) (s : List Char) :
    splitAll sep (w ++ sep :: s) = w :: splitAll sep s := by
  induction w with
  | nil => simp [splitAll]
  | cons c w ih =>
    simp only [List.mem_cons, not_or] at h
    have hc : (c == sep) = false := by simp [Ne.symm h.1]
    simp [splitAll, hc, ih h.2]

end FileGate.Text

namespace FileGate.Path

/-- What stands between two slashes of a path in normal form. -/
structure IsSegment (s : Path) : Prop where
  nonempty : s ≠ []
  no_dot : s ≠ ['.']
  no_dots : s ≠ ['.', '.']
  no_slash : '/' ∉ s

def AreSegments (ss : List Path) : Prop := ∀ s ∈ ss, IsSegment s

@[simp] theorem areSegments_nil : AreSegments [] := fun _ h => by cases h
@[simp] theorem areSegments_cons {s : Path} {ss : List Path} :
    AreSegments (s :: ss) ↔ IsSegment s ∧ AreSegments ss := by simp [AreSegments]
@[simp] theorem areSegments_append {ss tt : List Path} :
    AreSegments (ss ++ tt) ↔ AreSegments ss ∧ AreSegments tt := by
  simp [AreSegments, or_imp, forall_and]

def spell (ss : List Path) : Path := ss.flatMap ('/' :: ·)

@[simp] theorem spell_nil : spell [] = [] := rfl
@[simp] theorem spell_cons (s : Path) (ss : List Path) : spell (s :: ss) = '/' :: (s ++ spell ss) := by
  simp [spell]
@[simp] theorem spell_append (ss tt : List Path) : spell (ss ++ tt) = spell ss ++ spell tt := by
  simp [spell]

theorem joinWith_cons (s : Path) (ss : List Path) :
    Text.joinWith ['/'] (s :: ss) = s ++ spell ss := by
  induction ss generalizing s with
  | nil => simp [Text.joinWith]
  | cons t ss ih => simp [Text.joinWith, ih]

theorem ofSegments_cons (s : Path) (ss : List Path) : ofSegments (s :: ss) = spell (s :: ss) := by
  simp [ofSegments, joinWith_cons]

theorem ofSegments_of_ne_nil {ss : List Path} (h : ss ≠ []) : ofSegments ss = spell ss := by
  cases ss with
  | nil => exact absurd rfl h
  | cons s ss => exact ofSegments_cons s ss

@[simp] theorem ofSegments_nil : ofSegments [] = ['/'] := rfl

theorem splitAll_spell {s : Path} {ss : List Path} (hs : '/' ∉ s) (h : AreSegments ss) :
    Text.splitAll '/' (s ++ spell ss) = s :: ss := by
  induction ss generalizing s with
  | nil => simp [Text.splitAll_of_not_mem hs]
  | cons t ss ih =>
    obtain ⟨ht, hss⟩ := areSegments_cons.mp h
    rw [spell_cons, Text.splitAll_append hs, ih ht.no_slash hss]

theorem resolve_of_segments (done : List Path) {ss : List Path} (h : AreSegments ss) :
    resolve done ss = done.reverse ++ ss := by
  induction ss generalizing done with
  | nil => simp [resolve]
  | cons s ss ih =>
    obtain ⟨hs, hss⟩ := areSegments_cons.mp h
    have h1 : (s.isEmpty || s == ['.']) = false := by simp [hs.nonempty, hs.no_dot]
    have h2 : (s == ['.', '.']) = false := by simp [hs.no_dots]
    simp only [resolve, h1, h2, Bool.false_eq_true, if_false]
    rw [ih _ hss]
    simp

theorem resolve_segments {done ss : List Path} (hd : AreSegments done)
    (h : ∀ s ∈ ss, '/' ∉ s) : AreSegments (resolve done ss) := by
  induction ss generalizing done with
  | nil =>
    intro u hu
    exact hd u (List.mem_reverse.mp hu)
  | cons s ss ih =>
    have rest : ∀ u ∈ ss, '/' ∉ u := fun u hu => h u (by simp [hu])
    rw [resolve]
    split
    · exact ih hd rest
    · split
      · exact ih (fun u hu => hd u (List.mem_of_mem_tail hu)) rest
      · rename_i h1 h2
        simp only [Bool.or_eq_true, List.isEmpty_iff, beq_iff_eq, not_or] at h1 h2
        have hs : IsSegment s := ⟨h1.1, h1.2, h2, h s (by simp)⟩
        exact ih (areSegments_cons.mpr ⟨hs, hd⟩) rest

theorem segments_areSegments (p : Path) : AreSegments (segments p) :=
  resolve_segments areSegments_nil (fun _ hs => Text.not_mem_of_mem_splitAll hs)

theorem segments_ofSegments {ss : List Path} (h : AreSegments ss) :
    segments (ofSegments ss) = ss := by
  cases ss with
  | nil => rfl
  | cons s ss =>
    obtain ⟨hs, hss⟩ := areSegments_cons.mp h
    have first : Text.splitAll '/' ('/' :: (s ++ spell ss)) = [] :: s :: ss := by
      rw [← splitAll_spell hs.no_slash hss]
      simp [Text.splitAll]
    rw [ofSegments_cons, spell_cons, segments, first]
    exact resolve_of_segments [] h

theorem ofSegments_injective {ss tt : List Path} (hs : AreSegments ss) (ht : AreSegments tt)
    (h : ofSegments ss = ofSegments tt) : ss = tt := by
  rw [← segments_ofSegments hs, h, segments_ofSegments ht]

/-- A path that `normalize` leaves as it is. -/
def IsNormal (p : Path) : Prop := normalize p = p

instance (p : Path) : Decidable (IsNormal p) := inferInstanceAs (Decidable (_ = _))

theorem isNormal_ofSegments {ss : List Path} (h : AreSegments ss) : IsNormal (ofSegments ss) := by
  rw [IsNormal, normalize, segments_ofSegments h]

theorem isNormal_normalize (p : Path) : IsNormal (normalize p) :=
  isNormal_ofSegments (segments_areSegments p)

theorem isNormal_root : IsNormal ['/'] := isNormal_ofSegments areSegments_nil

theorem IsNormal.ne_nil {p : Path} (h : IsNormal p) : p ≠ [] := by
  rintro rfl
  cases h

theorem IsNormal.exists_segments {p : Path} (h : IsNormal p) :
    ∃ ss, AreSegments ss ∧ p = ofSegments ss :=
  ⟨segments p, segments_areSegments p, h.symm⟩

theorem IsNormal.exists_spelling {p : Path} (h : IsNormal p) (hr : p ≠ ['/']) :
    ∃ ss, AreSegments ss ∧ ss ≠ [] ∧ p = spell ss := by
  obtain ⟨ss, hs, rfl⟩ := h.exists_segments
  have hne : ss ≠ [] := by rintro rfl; exact hr rfl
  exact ⟨ss, hs, hne, ofSegments_of_ne_nil hne⟩

theorem isNormal_spell {ss : List Path} (h : AreSegments ss) (hne : ss ≠ []) :
    IsNormal (spell ss) := ofSegments_of_ne_nil hne ▸ isNormal_ofSegments h

theorem spell_ne_root {ss : List Path} (h : AreSegments ss) (hne : ss ≠ []) :
    spell ss ≠ ['/'] := by
  intro e
  rw [← ofSegments_of_ne_nil hne] at e
  exact hne (ofSegments_injective h areSegments_nil e)

theorem spell_injective {ss tt : List Path} (hs : AreSegments ss) (ht : AreSegments tt)
    (h : spell ss = spell tt) : ss = tt := by
  cases ss with
  | nil =>
    cases tt with
    | nil => rfl
    | cons t tt => simp at h
  | cons s ss =>
    cases tt with
    | nil => simp at h
    | cons t tt =>
      exact ofSegments_injective hs ht (by rw [ofSegments_cons, ofSegments_cons, h])

/-! ### The last segment -/

theorem takeWhile_reverse_append (parent : Path) {last : Path} (plain : '/' ∉ last) :
    (parent ++ '/' :: last).reverse.takeWhile (· != '/') = last.reverse := by
  have all : ∀ c ∈ last.reverse, (c != '/') = true := by
    intro c there
    have other : c ≠ '/' := by
      rintro rfl
      exact plain (List.mem_reverse.mp there)
    simpa using other
  simp [List.takeWhile_append_of_pos all]

theorem name_append (parent : Path) {last : Path} (plain : '/' ∉ last) :
    name (parent ++ '/' :: last) = last := by
  rw [name, takeWhile_reverse_append parent plain, List.reverse_reverse]

theorem exists_last_segment {p : Path} (slash : '/' ∈ p) :
    ∃ parent last, p = parent ++ '/' :: last ∧ '/' ∉ last := by
  induction p with
  | nil => cases slash
  | cons c p ih =>
    by_cases later : '/' ∈ p
    · obtain ⟨parent, last, rfl, plain⟩ := ih later
      exact ⟨c :: parent, last, rfl, plain⟩
    · have here : '/' = c := (List.mem_cons.mp slash).resolve_right later
      exact ⟨[], p, by rw [here, List.nil_append], later⟩

/-! ### The directory of a path -/

theorem exists_last {α : Type} {l : List α} (h : l ≠ []) : ∃ front a, l = front ++ [a] :=
  ⟨l.dropLast, l.getLast h, (List.dropLast_concat_getLast h).symm⟩

theorem getLast_spell {ss : List Path} (h : AreSegments ss) (hne : ss ≠ []) :
    ∃ init c, spell ss = init ++ [c] ∧ c ≠ '/' := by
  obtain ⟨front, s, rfl⟩ := exists_last hne
  have hs := (areSegments_cons.mp (areSegments_append.mp h).2).1
  obtain ⟨a, c, hc⟩ := exists_last hs.nonempty
  have hcs : c ≠ '/' := by rintro rfl; exact hs.no_slash (by simp [hc])
  exact ⟨spell front ++ '/' :: a, c, by simp [hc], hcs⟩

theorem dropWhile_reverse_spell {ss : List Path} (h : AreSegments ss) (n : Nat) :
    ((spell ss ++ List.replicate n '/').reverse.dropWhile (· == '/')).reverse = spell ss := by
  have slashes : ∀ (n : Nat) (r : List Char),
      (List.replicate n '/' ++ r).dropWhile (· == '/') = r.dropWhile (· == '/') := by
    intro n r
    induction n with
    | zero => rfl
    | succ n ih => simp [List.replicate_succ, ih]
  rw [List.reverse_append, List.reverse_replicate, slashes]
  by_cases hne : ss = []
  · subst hne; rfl
  · obtain ⟨init, c, hc, hcs⟩ := getLast_spell h hne
    simp [hc, hcs]

theorem parent_spell {front : List Path} {s : Path} (h : AreSegments (front ++ [s])) :
    parent (spell (front ++ [s])) = ofSegments front := by
  obtain ⟨hfront, hlast⟩ := areSegments_append.mp h
  have hs := (areSegments_cons.mp hlast).1.no_slash
  have name : (spell (front ++ [s])).reverse.takeWhile (· != '/') = s.reverse := by
    have last : spell (front ++ [s]) = spell front ++ '/' :: s := by simp
    rw [last]
    exact takeWhile_reverse_append _ hs
  have head : (spell (front ++ [s])).take
      ((spell (front ++ [s])).length - s.reverse.length) = spell front ++ ['/'] := by
    have e : spell (front ++ [s]) = (spell front ++ ['/']) ++ s := by simp
    rw [e]
    exact List.take_left' (by simp; omega)
  rw [parent, name, head]
  cases front with
  | nil => rfl
  | cons t front =>
    have ht := (areSegments_cons.mp hfront).1
    have notAll : ((spell (t :: front) ++ ['/']).all (· == '/')) = false := by
      obtain ⟨c, w, hw⟩ := List.exists_cons_of_ne_nil ht.nonempty
      have hc : c ≠ '/' := by rintro rfl; exact ht.no_slash (by simp [hw])
      simp [hw, hc]
    simp only [notAll, Bool.false_eq_true, if_false]
    rw [ofSegments_cons]
    exact dropWhile_reverse_spell hfront 1

end FileGate.Path
