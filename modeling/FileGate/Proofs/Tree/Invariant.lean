import FileGate.Proofs.Tree.Below
import FileGate.Proofs.Tree.Change

/-! What every run of changes keeps of the tree: it has a root, nothing is both a directory and a
file, everything else lies in a directory of the tree, and every path is in normal form. -/
namespace FileGate.FileTree

open FileGate.Path (IsNormal AreSegments spell)

structure WellFormed (t : FileTree) : Prop where
  root_dir : t.isDir ['/'] = true
  root_no_file : t.isFile ['/'] = false
  disjoint : ∀ p, ¬ (t.isDir p = true ∧ t.isFile p = true)
  parent_dir : ∀ p, t.Has p → p ≠ ['/'] → t.isDir (Path.parent p) = true
  normal : ∀ p, t.Has p → IsNormal p

theorem empty_wellFormed : WellFormed {} := by
  have only : ∀ p, Has {} p → p = ['/'] := by
    intro p h
    simpa [Has, isDir, isFile, Assoc.contains, Assoc.get?] using h
  refine ⟨by decide, by decide, ?_, ?_, ?_⟩
  · rintro p ⟨_, h⟩
    simp [isFile, Assoc.contains, Assoc.get?] at h
  · intro p h hr
    exact absurd (only p h) hr
  · intro p h
    rw [only p h]
    exact Path.isNormal_root

section
variable {t : FileTree} {p q source target : Path}

theorem WellFormed.ne_root_of_file (w : t.WellFormed) (h : t.isFile p = true) : p ≠ ['/'] := by
  rintro rfl
  simp [w.root_no_file] at h

/-- What has something below it is a directory: a path that lies some segments deeper has all the
directories on its way. -/
theorem WellFormed.dir_above (w : t.WellFormed) {ss : List Path} (hne : ss ≠ [])
    {deeper : List Path} (hd : deeper ≠ []) (hs : AreSegments (ss ++ deeper.reverse))
    (h : t.Has (spell (ss ++ deeper.reverse))) : t.isDir (spell ss) = true := by
  induction deeper with
  | nil => exact absurd rfl hd
  | cons s deeper ih =>
    rw [List.reverse_cons, ← List.append_assoc] at h hs
    have above := w.parent_dir _ h (Path.spell_ne_root hs (by simp))
    rw [Path.parent_spell hs, Path.ofSegments_of_ne_nil (by simp [hne])] at above
    by_cases hn : deeper = []
    · subst hn
      simpa using above
    · exact ih hn (Path.areSegments_append.mp hs).1 (.inl above)

theorem WellFormed.dir_of_nested (w : t.WellFormed) (hp : IsNormal p) (hr : p ≠ ['/'])
    (hq : t.Has q) (h : nested p q = true) : t.isDir p = true := by
  have hqr : q ≠ ['/'] := by
    rintro rfl
    simp [not_nested_root hp] at h
  obtain ⟨ss, hs, hne, rfl⟩ := hp.exists_spelling hr
  obtain ⟨tt, ht, _, rfl⟩ := (w.normal q hq).exists_spelling hqr
  obtain ⟨u, us, rfl⟩ := (nested_spell hs ht).mp h
  have e : u :: us = (u :: us).reverse.reverse := (List.reverse_reverse _).symm
  rw [e] at ht hq
  exact w.dir_above hne (by simp) ht hq

/-! ### What each change keeps -/

theorem WellFormed.add_dir (w : t.WellFormed) (hp : IsNormal p) (free : ¬ t.Has p)
    (place : t.isDir (Path.parent p) = true) :
    WellFormed { t with dirs := t.dirs ++ [p] } := by
  have dirs : ∀ q, isDir { t with dirs := t.dirs ++ [p] } q = true ↔ t.isDir q = true ∨ q = p := by
    intro q
    simp [isDir_iff]
  have kept : ∀ q, Has { t with dirs := t.dirs ++ [p] } q → q ≠ p → t.Has q := by
    intro q h hq
    exact h.imp (fun h => ((dirs q).mp h).resolve_right hq) id
  refine ⟨(dirs _).mpr (.inl w.root_dir), w.root_no_file, ?_, ?_, ?_⟩
  · rintro q ⟨hd, hf⟩
    rcases (dirs q).mp hd with hd | rfl
    · exact w.disjoint q ⟨hd, hf⟩
    · exact free (.inr hf)
  · intro q hq hr
    by_cases e : q = p
    · rw [e]; exact (dirs _).mpr (.inl place)
    · exact (dirs _).mpr (.inl (w.parent_dir q (kept q hq e) hr))
  · intro q hq
    by_cases e : q = p
    · rw [e]; exact hp
    · exact w.normal q (kept q hq e)

theorem WellFormed.set_files (w : t.WellFormed) {files : List (Path × Bytes)} (hp : IsNormal p)
    (noDir : t.isDir p = false) (place : t.isDir (Path.parent p) = true)
    (only : ∀ q ∈ Assoc.keys files, q = p ∨ t.isFile q = true) :
    WellFormed { t with files } := by
  have there : ∀ q, Has { t with files } q → q = p ∨ t.Has q := by
    rintro q (h | h)
    · exact .inr (.inl h)
    · exact (only q (isFile_iff.mp h)).imp id .inr
  have dis : ∀ q, ¬ (t.isDir q = true ∧ isFile { t with files } q = true) := by
    rintro q ⟨hd, hf⟩
    rcases only q (isFile_iff.mp hf) with rfl | h
    · simp [noDir] at hd
    · exact w.disjoint q ⟨hd, h⟩
  refine ⟨w.root_dir, ?_, dis, ?_, ?_⟩
  · exact Bool.eq_false_iff.mpr (fun h => dis _ ⟨w.root_dir, h⟩)
  · intro q hq hr
    rcases there q hq with rfl | h
    · exact place
    · exact w.parent_dir q h hr
  · intro q hq
    rcases there q hq with rfl | h
    · exact hp
    · exact w.normal q h

theorem WellFormed.without (w : t.WellFormed) (hp : IsNormal p) (hr : p ≠ ['/'])
    (noFile : t.isFile p = false) : (t.without p).WellFormed := by
  have kept : ∀ q, (t.without p).Has q → t.Has q ∧ ¬ Under p q := by
    rintro q (h | h)
    · obtain ⟨hd, hq, hn⟩ := isDir_without.mp h
      exact ⟨.inl hd, by simp [Under, hq, hn]⟩
    · obtain ⟨hf, hn⟩ := isFile_without.mp h
      have hq : q ≠ p := by rintro rfl; simp [noFile] at hf
      exact ⟨.inr hf, by simp [Under, hq, hn]⟩
  refine ⟨isDir_without.mpr ⟨w.root_dir, hr.symm, not_nested_root hp⟩, ?_, ?_, ?_, ?_⟩
  · refine Bool.eq_false_iff.mpr (fun h => ?_)
    have := (isFile_without.mp h).1
    simp [w.root_no_file] at this
  · rintro q ⟨hd, hf⟩
    exact w.disjoint q ⟨(isDir_without.mp hd).1, (isFile_without.mp hf).1⟩
  · intro q hq hqr
    obtain ⟨has, away⟩ := kept q hq
    have dir := w.parent_dir q has hqr
    have up : ¬ Under p (Path.parent q) := fun h =>
      away (.inr (nested_of_under_parent hp hr (w.normal q has) hqr h))
    simp only [Under, not_or, Bool.not_eq_true] at up
    exact isDir_without.mpr ⟨dir, up.1, up.2⟩
  · exact fun q hq => w.normal q (kept q hq).1

theorem WellFormed.not_has_of_under (w : t.WellFormed) (hp : IsNormal p) (free : ¬ t.Has p)
    (h : Under p q) : ¬ t.Has q := by
  intro hq
  rcases h with rfl | h
  · exact free hq
  · have hr : p ≠ ['/'] := by rintro rfl; exact free (.inl w.root_dir)
    exact free (.inl (w.dir_of_nested hp hr hq h))

/-- A directory goes to a free place that is not below it. -/
structure Relocation (t : FileTree) (source target : Path) : Prop where
  source_normal : IsNormal source
  target_normal : IsNormal target
  no_root : source ≠ ['/']
  free : ¬ t.Has target
  place : t.isDir (Path.parent target) = true
  outside : nested source target = false

namespace Relocation

variable (m : Relocation t source target)
include m

theorem target_no_root (w : t.WellFormed) : target ≠ ['/'] := by
  rintro rfl
  exact m.free (.inl w.root_dir)

/-- Every entry either stays, or its path is the source with more segments and then becomes the
target with the same ones. -/
theorem moved_cases (w : t.WellFormed) (hp : t.Has p) :
    (¬ Under source p ∧ moved source target p = p) ∨
    ∃ ss tt u, source = spell ss ∧ target = spell tt ∧ p = spell (ss ++ u) ∧ ss ≠ [] ∧
      tt ≠ [] ∧ AreSegments (ss ++ u) ∧ AreSegments (tt ++ u) ∧ moved source target p = spell (tt ++ u) := by
  by_cases h : Under source p
  · right
    have hpr : p ≠ ['/'] := by
      rintro rfl
      exact not_under_root m.source_normal m.no_root h
    obtain ⟨ss, hs, hne, rfl⟩ := m.source_normal.exists_spelling m.no_root
    obtain ⟨tt, ht, htn, rfl⟩ := m.target_normal.exists_spelling (m.target_no_root w)
    obtain ⟨pp, hpp, _, rfl⟩ := (w.normal p hp).exists_spelling hpr
    obtain ⟨u, rfl⟩ := (under_spell hs hpp).mp h
    have hu := (Path.areSegments_append.mp hpp).2
    exact ⟨ss, tt, u, rfl, rfl, rfl, hne, htn, hpp, Path.areSegments_append.mpr ⟨ht, hu⟩,
      by rw [moved_spell hpp, Path.spell_append]⟩
  · exact .inl ⟨h, moved_of_not_under h⟩

theorem moved_injective (w : t.WellFormed) (hp : t.Has p) (hq : t.Has q)
    (h : moved source target p = moved source target q) : p = q := by
  have clash : ∀ {q : Path} {tt u : List Path}, t.Has q → target = spell tt →
      AreSegments (tt ++ u) → q ≠ spell (tt ++ u) := by
    rintro q tt u hq rfl hu rfl
    have under := (under_spell (Path.areSegments_append.mp hu).1 hu).mpr ⟨u, rfl⟩
    exact w.not_has_of_under m.target_normal m.free under hq
  rcases m.moved_cases w hp with ⟨_, ep⟩ | ⟨ss, tt, u, hs, ht, rfl, _, _, hu, htu, ep⟩
  · rcases m.moved_cases w hq with ⟨_, eq⟩ | ⟨ss, tt, v, hs, ht, rfl, _, _, hv, htv, eq⟩
    · rw [← ep, h, eq]
    · exact absurd (by rw [← ep, h, eq]) (clash hp ht htv)
  · rcases m.moved_cases w hq with ⟨_, eq⟩ | ⟨ss', tt', v, hs', ht', rfl, _, _, hv, htv, eq⟩
    · exact absurd (by rw [← eq, ← h, ep]) (clash hq ht htu)
    · have es : ss = ss' := Path.spell_injective (Path.areSegments_append.mp hu).1
        (Path.areSegments_append.mp hv).1 (hs.symm.trans hs')
      have et : tt = tt' := Path.spell_injective (Path.areSegments_append.mp htu).1
        (Path.areSegments_append.mp htv).1 (ht.symm.trans ht')
      subst es et
      have e : tt ++ u = tt ++ v := Path.spell_injective htu htv (by rw [← ep, h, eq])
      rw [List.append_cancel_left e]

theorem moved_normal (w : t.WellFormed) (hp : t.Has p) : IsNormal (moved source target p) := by
  rcases m.moved_cases w hp with ⟨_, e⟩ | ⟨ss, tt, u, _, _, _, _, htn, _, htu, e⟩
  · rw [e]; exact w.normal p hp
  · rw [e]; exact Path.isNormal_spell htu (by simp [htn])

theorem moved_root : moved source target ['/'] = ['/'] :=
  moved_of_not_under (not_under_root m.source_normal m.no_root)

theorem moved_parent (w : t.WellFormed) (hp : t.Has p) (hr : moved source target p ≠ ['/']) :
    ∃ d, t.isDir d = true ∧ moved source target d = Path.parent (moved source target p) := by
  rcases m.moved_cases w hp with ⟨away, e⟩ | ⟨ss, tt, u, hs, ht, rfl, hne, htn, hsu, htu, e⟩
  · rw [e] at hr ⊢
    refine ⟨Path.parent p, w.parent_dir p hp hr, moved_of_not_under fun h => ?_⟩
    exact away (.inr (nested_of_under_parent m.source_normal m.no_root (w.normal p hp) hr h))
  · rw [e]
    by_cases hu : u = []
    · subst hu
      rw [List.append_nil, ← ht]
      refine ⟨Path.parent target, m.place, moved_of_not_under fun h => ?_⟩
      have inside := nested_of_under_parent m.source_normal m.no_root m.target_normal
        (m.target_no_root w) h
      simp [m.outside] at inside
    · obtain ⟨front, s, rfl⟩ := Path.exists_last hu
      rw [← List.append_assoc] at hsu htu hp ⊢
      have dir := w.parent_dir _ hp (Path.spell_ne_root hsu (by simp))
      rw [Path.parent_spell hsu, Path.ofSegments_of_ne_nil (by simp [hne])] at dir
      rw [Path.parent_spell htu, Path.ofSegments_of_ne_nil (by simp [htn])]
      refine ⟨_, dir, ?_⟩
      rw [hs, moved_spell (Path.areSegments_append.mp hsu).1, ht, Path.spell_append]

theorem wellFormed (w : t.WellFormed) : (t.relocated source target).WellFormed := by
  have came : ∀ q, (t.relocated source target).Has q →
      ∃ p, t.Has p ∧ moved source target p = q := by
    rintro q (h | h)
    · obtain ⟨p, hp, e⟩ := isDir_relocated.mp h
      exact ⟨p, .inl hp, e⟩
    · obtain ⟨p, hp, e⟩ := isFile_relocated.mp h
      exact ⟨p, .inr hp, e⟩
  have root : (t.relocated source target).isDir ['/'] = true :=
    isDir_relocated.mpr ⟨_, w.root_dir, m.moved_root⟩
  have dis : ∀ q, ¬ ((t.relocated source target).isDir q = true ∧
      (t.relocated source target).isFile q = true) := by
    rintro q ⟨hd, hf⟩
    obtain ⟨d, dir, rfl⟩ := isDir_relocated.mp hd
    obtain ⟨f, file, e⟩ := isFile_relocated.mp hf
    rw [m.moved_injective w (.inr file) (.inl dir) e] at file
    exact w.disjoint d ⟨dir, file⟩
  refine ⟨root, Bool.eq_false_iff.mpr fun h => dis _ ⟨root, h⟩, dis, ?_, ?_⟩
  · intro q hq hr
    obtain ⟨p, hp, rfl⟩ := came q hq
    exact isDir_relocated.mpr (m.moved_parent w hp hr)
  · intro q hq
    obtain ⟨p, hp, rfl⟩ := came q hq
    exact m.moved_normal w hp

end Relocation

/-! ### Runs -/

theorem WellFormed.mkdir (w : t.WellFormed) (hp : IsNormal p) : (t.mkdir p).2.WellFormed := by
  rcases mkdir_cases t p with ⟨_, e⟩ | ⟨_, _, e⟩ | ⟨free, place, e⟩
  · rw [e]; exact w
  · rw [e]; exact w
  · rw [e]; exact w.add_dir hp free place

theorem WellFormed.write (w : t.WellFormed) (hp : IsNormal p) (b : Bytes) :
    (t.write p b).2.WellFormed := by
  rcases write_cases t p b with ⟨_, e⟩ | ⟨_, _, e⟩ | ⟨noDir, place, e⟩
  · rw [e]; exact w
  · rw [e]; exact w
  · rw [e]
    exact w.set_files hp noDir place fun q hq => (Assoc.mem_keys_put.mp hq).imp id isFile_iff.mpr

theorem WellFormed.remove (w : t.WellFormed) (hp : IsNormal p) (recursive : Bool) :
    (t.remove p recursive).2.WellFormed := by
  rcases remove_cases t p recursive with
    ⟨file, e⟩ | ⟨_, _, e⟩ | ⟨_, _, e⟩ | ⟨_, _, _, _, _, e⟩ | ⟨noFile, hr, _, _, e⟩
  · rw [e]
    have noDir : t.isDir p = false := Bool.eq_false_iff.mpr fun h => w.disjoint p ⟨h, file⟩
    have place := w.parent_dir p (.inr file) (w.ne_root_of_file file)
    exact w.set_files hp noDir place fun q hq => .inr (isFile_iff.mpr (Assoc.mem_keys_erase.mp hq).2)
  · rw [e]; exact w
  · rw [e]; exact w
  · rw [e]; exact w
  · rw [e]; exact w.without hp hr noFile

theorem WellFormed.move (w : t.WellFormed) (hs : IsNormal source) (ht : IsNormal target) :
    (t.move source target).2.WellFormed := by
  rcases move_cases t source target with ⟨_, _, e⟩ | ⟨_, _, e⟩ | ⟨_, _, _, e⟩ |
    ⟨b, _, free, place, e⟩ | ⟨_, _, _, _, _, _, e⟩ | ⟨_, _, hr, free, place, outside, e⟩
  · rw [e]; exact w
  · rw [e]; exact w
  · rw [e]; exact w
  · rw [e]
    refine w.set_files ht (not_has_iff.mp free).1 place fun q hq => ?_
    exact (Assoc.mem_keys_put.mp hq).imp id fun h => isFile_iff.mpr (Assoc.mem_keys_erase.mp h).2
  · rw [e]; exact w
  · rw [e]; exact Relocation.wellFormed ⟨hs, ht, hr, free, place, outside⟩ w

end

/-- A change as it is asked for. Paths are brought to normal form before the tree sees them. -/
inductive Operation where
  | mkdir (p : Path)
  | write (p : Path) (b : Bytes)
  | remove (p : Path) (recursive : Bool)
  | move (source target : Path)

def Operation.apply (t : FileTree) : Operation → Change × FileTree
  | mkdir p => t.mkdir (Path.normalize p)
  | write p b => t.write (Path.normalize p) b
  | remove p recursive => t.remove (Path.normalize p) recursive
  | move source target => t.move (Path.normalize source) (Path.normalize target)

def run (t : FileTree) (os : List Operation) : FileTree := os.foldl (fun t o => (o.apply t).2) t

theorem WellFormed.apply {t : FileTree} (w : t.WellFormed) (o : Operation) :
    (o.apply t).2.WellFormed := by
  cases o with
  | mkdir p => exact w.mkdir (Path.isNormal_normalize p)
  | write p b => exact w.write (Path.isNormal_normalize p) b
  | remove p recursive => exact w.remove (Path.isNormal_normalize p) recursive
  | move source target =>
    exact w.move (Path.isNormal_normalize source) (Path.isNormal_normalize target)

theorem WellFormed.run {t : FileTree} (w : t.WellFormed) (os : List Operation) :
    (t.run os).WellFormed := by
  induction os generalizing t with
  | nil => exact w
  | cons o os ih => exact ih (w.apply o)

/-- Whatever is asked of a new tree, it stays well formed, and nothing ever lies below a file. -/
theorem run_wellFormed (os : List Operation) :
    (run {} os).WellFormed ∧
      ∀ f p, (run {} os).isFile f = true → (run {} os).Has p → nested f p = false := by
  have w := empty_wellFormed.run os
  refine ⟨w, fun f p hf hp => Bool.eq_false_iff.mpr fun h => ?_⟩
  exact w.disjoint f ⟨w.dir_of_nested (w.normal f (.inr hf)) (w.ne_root_of_file hf) hp h, hf⟩

end FileGate.FileTree
