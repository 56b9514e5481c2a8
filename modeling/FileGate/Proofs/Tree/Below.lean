import FileGate.Proofs.Tree.NormalForm

namespace FileGate.FileTree

open FileGate.Path (IsNormal AreSegments spell)

theorem nested_iff {p q : Path} : nested p q = true ↔ p ++ ['/'] <+: q :=
  List.isPrefixOf_iff_prefix

theorem prefix_of_runs {s t a b : Path} (hs : '/' ∉ s) (ht : '/' ∉ t) (ha : a.head? = some '/')
    (hb : b = [] ∨ b.head? = some '/') (h : s ++ a <+: t ++ b) : s = t ∧ a <+: b := by
  induction s generalizing t with
  | nil =>
    cases t with
    | nil => exact ⟨rfl, h⟩
    | cons c t =>
      obtain ⟨d, a, rfl⟩ := List.exists_cons_of_ne_nil (l := a) (by rintro rfl; simp at ha)
      have hd : d = '/' := by simpa using ha
      have hc : d = c := (List.cons_prefix_cons.mp h).1
      exact absurd (by simp [← hc, hd]) ht
  | cons c s ih =>
    simp only [List.mem_cons, not_or] at hs
    cases t with
    | nil =>
      rcases hb with rfl | hb
      · simp at h
      · obtain ⟨d, b, rfl⟩ := List.exists_cons_of_ne_nil (l := b) (by rintro rfl; simp at hb)
        have hd : d = '/' := by simpa using hb
        have hc : c = d := (List.cons_prefix_cons.mp h).1
        exact absurd (by simp [hc, hd]) hs.1
    | cons d t =>
      simp only [List.mem_cons, not_or] at ht
      obtain ⟨hc, h⟩ := List.cons_prefix_cons.mp h
      obtain ⟨e, h⟩ := ih hs.2 ht.2 h
      exact ⟨by rw [hc, e], h⟩

theorem spell_head (ss : List Path) : spell ss = [] ∨ (spell ss).head? = some '/' := by
  cases ss with
  | nil => exact .inl rfl
  | cons s ss => exact .inr (by simp)

/-- Below a path are the paths with further segments. -/
theorem nested_spell {ss tt : List Path} (hs : AreSegments ss) (ht : AreSegments tt) :
    nested (spell ss) (spell tt) = true ↔ ∃ u us, tt = ss ++ u :: us := by
  rw [nested_iff]
  constructor
  · intro h
    induction ss generalizing tt with
    | nil =>
      cases tt with
      | nil => simp at h
      | cons t tt => exact ⟨t, tt, rfl⟩
    | cons s ss ih =>
      obtain ⟨hs1, hs2⟩ := Path.areSegments_cons.mp hs
      cases tt with
      | nil => simp at h
      | cons t tt =>
        obtain ⟨ht1, ht2⟩ := Path.areSegments_cons.mp ht
        simp only [Path.spell_cons, List.cons_append, List.append_assoc] at h
        have head : (spell ss ++ ['/']).head? = some '/' := by
          rcases spell_head ss with e | e <;> simp [e]
        obtain ⟨rfl, below⟩ := prefix_of_runs hs1.no_slash ht1.no_slash head (spell_head tt)
          (List.cons_prefix_cons.mp h).2
        obtain ⟨u, us, rfl⟩ := ih hs2 ht2 below
        exact ⟨u, us, rfl⟩
  · rintro ⟨u, us, rfl⟩
    exact ⟨u ++ spell us, by simp⟩

theorem not_nested_root {p : Path} (hp : IsNormal p) : nested p ['/'] = false := by
  rw [← Bool.not_eq_true, nested_iff]
  intro h
  have short := h.length_le
  have long := List.length_pos_iff.mpr hp.ne_nil
  simp only [List.length_append, List.length_singleton] at short
  omega

section
variable {p q source target : Path}

def Under (p q : Path) : Prop := q = p ∨ nested p q = true

instance (p q : Path) : Decidable (Under p q) := inferInstanceAs (Decidable (_ ∨ _))

theorem under_spell {ss tt : List Path} (hs : AreSegments ss) (ht : AreSegments tt) :
    Under (spell ss) (spell tt) ↔ ∃ u, tt = ss ++ u := by
  rw [Under, nested_spell hs ht]
  constructor
  · rintro (e | ⟨u, us, rfl⟩)
    · exact ⟨[], by simpa using Path.spell_injective ht hs e⟩
    · exact ⟨_, rfl⟩
  · rintro ⟨u, rfl⟩
    cases u with
    | nil => exact .inl (by simp)
    | cons u us => exact .inr ⟨u, us, rfl⟩

theorem not_under_root (hp : IsNormal p) (hr : p ≠ ['/']) : ¬ Under p ['/'] := by
  rintro (h | h)
  · exact hr h.symm
  · simp [not_nested_root hp] at h

theorem nested_of_under_parent (hp : IsNormal p) (hr : p ≠ ['/']) (hq : IsNormal q)
    (hqr : q ≠ ['/']) (h : Under p (Path.parent q)) : nested p q = true := by
  have noRoot := not_under_root hp hr
  obtain ⟨ss, hs, hne, rfl⟩ := hp.exists_spelling hr
  obtain ⟨tt, ht, htn, rfl⟩ := hq.exists_spelling hqr
  obtain ⟨front, s, rfl⟩ := Path.exists_last htn
  obtain ⟨hfront, _⟩ := Path.areSegments_append.mp ht
  rw [Path.parent_spell ht] at h
  by_cases hf : front = []
  · subst hf
    exact absurd h noRoot
  · rw [Path.ofSegments_of_ne_nil hf] at h
    obtain ⟨u, rfl⟩ := (under_spell hs hfront).mp h
    rw [nested_spell hs ht]
    cases u with
    | nil => exact ⟨s, [], by simp⟩
    | cons u us => exact ⟨u, us ++ [s], by simp⟩

theorem moved_of_not_under (h : ¬ Under source p) : moved source target p = p := by
  simp only [Under, not_or] at h
  simp [moved, h.1, h.2]

theorem moved_spell {ss u : List Path} (h : AreSegments (ss ++ u)) :
    moved (spell ss) target (spell (ss ++ u)) = target ++ spell u := by
  have under := (under_spell (Path.areSegments_append.mp h).1 h).mpr ⟨u, rfl⟩
  rw [moved, if_pos (by simpa [Under] using under)]
  simp

end
end FileGate.FileTree
