import Mathlib.Data.List.Nodup
import FileGate.Proofs.Tree.Listing
import FileGate.Proofs.Tree.Invariant

namespace FileGate.FileTree

open FileGate.Path (IsNormal AreSegments spell)

section
variable {a b p q r source target : Path}

/-- What follows a path in the paths that are at or below it. -/
def IsTail (r : Path) : Prop := r = [] ∨ r.head? = some '/'

theorem under_iff : Under p q ↔ ∃ r, q = p ++ r ∧ IsTail r := by
  rw [Under, nested_iff]
  constructor
  · rintro (rfl | ⟨r, rfl⟩)
    · exact ⟨[], by simp, .inl rfl⟩
    · exact ⟨'/' :: r, by simp, .inr rfl⟩
  · rintro ⟨r, rfl, rfl | slash⟩
    · exact .inl (List.append_nil p)
    · obtain ⟨c, r, rfl⟩ := List.exists_cons_of_ne_nil (l := r) (by rintro rfl; simp at slash)
      obtain rfl : c = '/' := by simpa using slash
      exact .inr ⟨r, by simp⟩

theorem under_append (p : Path) (tail : IsTail r) : Under p (p ++ r) := under_iff.mpr ⟨r, rfl, tail⟩

theorem moved_append (source target : Path) (tail : IsTail r) :
    moved source target (source ++ r) = target ++ r := by
  have under : source ++ r = source ∨ nested source (source ++ r) = true := under_append source tail
  rw [moved, if_pos (by simpa using under), List.drop_left]

theorem under_total (ha : Under a q) (hb : Under b q) : Under a b ∨ Under b a := by
  have cut {a c r r' : Path} (whole : c ++ r' = r) (tail : IsTail r) : IsTail c := by
    rcases c with _ | ⟨d, c⟩
    · exact .inl rfl
    · rcases tail with rfl | slash
      · cases whole
      · exact .inr (by rw [← slash, ← whole]; rfl)
  obtain ⟨r, rfl, tail⟩ := under_iff.mp ha
  obtain ⟨r', whole, tail'⟩ := under_iff.mp hb
  rcases List.append_eq_append_iff.mp whole with ⟨c, rfl, rest⟩ | ⟨c, rfl, rest⟩
  · exact .inl (under_append a (cut (a := a) rest.symm tail))
  · exact .inr (under_append b (cut (a := b) rest.symm tail'))

theorem under_parent_of_nested (hp : IsNormal p) (hr : p ≠ ['/']) (hq : IsNormal q)
    (hqr : q ≠ ['/']) (h : nested p q = true) : Under p (Path.parent q) := by
  obtain ⟨ss, hs, hne, rfl⟩ := hp.exists_spelling hr
  obtain ⟨tt, ht, _, rfl⟩ := hq.exists_spelling hqr
  obtain ⟨u, us, rfl⟩ := (nested_spell hs ht).mp h
  obtain ⟨front, s, last⟩ := Path.exists_last (List.cons_ne_nil u us)
  rw [last, ← List.append_assoc] at ht ⊢
  rw [Path.parent_spell ht, Path.ofSegments_of_ne_nil (by simp [hne])]
  exact (under_spell hs (Path.areSegments_append.mp ht).1).mpr ⟨front, rfl⟩

end

section
variable {t u : FileTree} {p q source target : Path}

/-- What is at a path: whether a directory is there, and what a file there holds. -/
def look (t : FileTree) (p : Path) : Bool × Option Bytes := (t.isDir p, t.read p)

def nothing : Bool × Option Bytes := (false, none)

theorem look_eq_nothing_iff : t.look p = nothing ↔ ¬ t.Has p := by
  simp [look, nothing, not_has_iff, isFile_eq_isSome]

/-- One tree holds what the other holds, with each path as a move makes it. -/
structure Carried (source target : Path) (t u : FileTree) : Prop where
  dirs : u.dirs.Perm (t.dirs.map (moved source target))
  files : u.files.Perm (t.files.map fun e => (moved source target e.1, e.2))

namespace Carried

theorem isDir_iff (c : Carried source target t u) :
    u.isDir q = true ↔ ∃ p, t.isDir p = true ∧ moved source target p = q := by
  simp only [FileTree.isDir_iff, c.dirs.mem_iff, List.mem_map]

theorem read_iff (c : Carried source target t u) (dt : t.Distinct) (du : u.Distinct) {b : Bytes} :
    u.read q = some b ↔ ∃ p, t.read p = some b ∧ moved source target p = q := by
  simp only [read, Assoc.get?_eq_some_iff dt.files, Assoc.get?_eq_some_iff du.files,
    c.files.mem_iff, List.mem_map, Prod.mk.injEq, Prod.exists]
  constructor
  · rintro ⟨p, b, there, rfl, rfl⟩
    exact ⟨p, there, rfl⟩
  · rintro ⟨p, there, rfl⟩
    exact ⟨p, b, there, rfl, rfl⟩

variable (c : Carried source target t u) (dt : t.Distinct) (du : u.Distinct)
include c dt du

theorem look_eq {p : Path} (only : ∀ x, t.Has x → (moved source target x = q ↔ x = p)) :
    u.look q = t.look p := by
  have dir : u.isDir q = true ↔ t.isDir p = true := by
    rw [c.isDir_iff]
    constructor
    · rintro ⟨x, there, same⟩
      rwa [← (only x (.inl there)).mp same]
    · exact fun there => ⟨p, there, (only p (.inl there)).mpr rfl⟩
  have file (b : Bytes) : u.read q = some b ↔ t.read p = some b := by
    rw [c.read_iff dt du]
    constructor
    · rintro ⟨x, there, same⟩
      rwa [← (only x (.inr (isFile_of_read there))).mp same]
    · exact fun there => ⟨p, there, (only p (.inr (isFile_of_read there))).mpr rfl⟩
  rw [look, look, Bool.eq_iff_iff.mpr dir, Option.ext file]

theorem look_nothing (none_ : ∀ x, t.Has x → moved source target x ≠ q) : u.look q = nothing := by
  refine look_eq_nothing_iff.mpr ?_
  rintro (dir | file)
  · obtain ⟨x, there, same⟩ := c.isDir_iff.mp dir
    exact none_ x (.inl there) same
  · rw [isFile_eq_isSome, Option.isSome_iff_exists] at file
    obtain ⟨b, there⟩ := file
    obtain ⟨x, there, same⟩ := (c.read_iff dt du).mp there
    exact none_ x (.inr (isFile_of_read there)) same

end Carried

/-! ### When a move is done -/

theorem WellFormed.not_nested_of_file (w : t.WellFormed) (hs : IsNormal source)
    (ht : IsNormal target) (file : t.isFile source = true) (free : ¬ t.Has target)
    (place : t.isDir (Path.parent target) = true) : nested source target = false := by
  refine Bool.eq_false_iff.mpr fun below => ?_
  have noRoot : target ≠ ['/'] := by
    rintro rfl
    exact free (.inl w.root_dir)
  have sourceNoRoot := w.ne_root_of_file file
  rcases under_parent_of_nested hs sourceNoRoot ht noRoot below with same | deeper
  · exact w.disjoint source ⟨same ▸ place, file⟩
  · exact w.disjoint source ⟨w.dir_of_nested hs sourceNoRoot (.inl place) deeper, file⟩

theorem move_done_iff (w : t.WellFormed) (hs : IsNormal source) (ht : IsNormal target) :
    (t.move source target).1 = .done ↔ t.Has source ∧ Relocation t source target := by
  constructor
  · intro done
    rcases move_cases t source target with ⟨_, _, e⟩ | ⟨_, _, e⟩ | ⟨_, _, _, e⟩ |
      ⟨b, there, free, place, _⟩ | ⟨_, _, _, _, _, _, e⟩ | ⟨_, dir, noRoot, free, place, outside, _⟩
    · simp [e] at done
    · simp [e] at done
    · simp [e] at done
    · have file := isFile_of_read there
      exact ⟨.inr file, hs, ht, w.ne_root_of_file file, free, place,
        w.not_nested_of_file hs ht file free place⟩
    · simp [e] at done
    · exact ⟨.inl dir, hs, ht, noRoot, free, place, outside⟩
  · rintro ⟨has, m⟩
    rcases move_cases t source target with ⟨noFile, noDir, _⟩ | ⟨_, taken, _⟩ |
      ⟨_, _, noPlace, _⟩ | ⟨_, _, _, _, e⟩ | ⟨_, _, _, _, _, inside, _⟩ | ⟨_, _, _, _, _, _, e⟩
    · rcases noDir with noDir | root
      · exact absurd has (not_has_iff.mpr ⟨noDir, noFile⟩)
      · exact absurd root m.no_root
    · exact absurd taken m.free
    · simp [m.place] at noPlace
    · rw [e]
    · simp [m.outside] at inside
    · rw [e]

/-! ### What a move carries -/

namespace Relocation

variable (m : Relocation t source target) (w : t.WellFormed)
include m w

theorem carried_file (d : t.Distinct) {b : Bytes} (there : t.read source = some b) :
    Carried source target t
      { t with files := Assoc.put target b (Assoc.erase source t.files) } := by
  have file := isFile_of_read there
  have stays : ∀ p, t.Has p → p ≠ source → moved source target p = p := by
    refine fun p has other => moved_of_not_under ?_
    rintro (same | below)
    · exact other same
    · exact w.disjoint source ⟨w.dir_of_nested m.source_normal m.no_root has below, file⟩
  have dirs : t.dirs.map (moved source target) = t.dirs.map id := by
    refine List.map_congr_left fun p hp => stays p (.inl (isDir_iff.mpr hp)) ?_
    rintro rfl
    exact w.disjoint p ⟨isDir_iff.mpr hp, file⟩
  have new : target ∉ Assoc.keys (Assoc.erase source t.files) := fun h =>
    m.free (.inr (isFile_iff.mpr (Assoc.mem_keys_erase.mp h).2))
  have others : (Assoc.erase source t.files).map (fun e => (moved source target e.1, e.2)) =
      (Assoc.erase source t.files).map id := by
    refine List.map_congr_left fun e he => ?_
    have key : e.1 ∈ Assoc.keys (Assoc.erase source t.files) := List.mem_map_of_mem he
    obtain ⟨other, key⟩ := Assoc.mem_keys_erase.mp key
    rw [stays e.1 (.inr (isFile_iff.mpr key)) other, id]
  rw [List.map_id] at dirs others
  refine ⟨by rw [dirs], ?_⟩
  have split := (Assoc.perm_cons_erase d.files there).map fun e => (moved source target e.1, e.2)
  rw [List.map_cons, others] at split
  have here : moved source target source = target := by
    simpa using moved_append source target (r := []) (.inl rfl)
  rw [Assoc.put_of_not_mem new]
  rw [here] at split
  exact (List.perm_append_singleton _ _).trans split.symm

theorem carried_dir (d : t.Distinct) : Carried source target t (t.relocated source target) := by
  have dirs : (t.dirs.map (moved source target)).Nodup :=
    d.dirs.map_on fun p hp q hq =>
      m.moved_injective w (.inl (isDir_iff.mpr hp)) (.inl (isDir_iff.mpr hq))
  have files : (Assoc.keys (t.files.map fun e => (moved source target e.1, e.2))).Nodup := by
    have keys : Assoc.keys (t.files.map fun e => (moved source target e.1, e.2)) =
        (Assoc.keys t.files).map (moved source target) := by
      simp [Assoc.keys, Function.comp_def]
    rw [keys]
    exact d.files.map_on fun p hp q hq =>
      m.moved_injective w (.inr (isFile_iff.mpr hp)) (.inr (isFile_iff.mpr hq))
  refine ⟨?_, ?_⟩
  · rw [relocated, List.perm_ext_iff_of_nodup (nodup_eraseDups _) dirs]
    simp
  · rw [relocated, Assoc.ofList_of_nodup files]

theorem carried (d : t.Distinct) (has : t.Has source) :
    Carried source target t (t.move source target).2 := by
  have done := (move_done_iff w m.source_normal m.target_normal).mpr ⟨has, m⟩
  rcases move_cases t source target with ⟨_, _, e⟩ | ⟨_, _, e⟩ | ⟨_, _, _, e⟩ |
    ⟨b, there, _, _, e⟩ | ⟨_, _, _, _, _, _, e⟩ | ⟨_, _, _, _, _, _, e⟩
  · simp [e] at done
  · simp [e] at done
  · simp [e] at done
  · rw [e]
    exact m.carried_file w d there
  · simp [e] at done
  · rw [e]
    exact m.carried_dir w d

/-! ### Where what is at a path came from -/

variable {p q : Path}

theorem moved_eq_iff_of_under_target (has : t.Has p) (under : Under target q) :
    moved source target p = q ↔ p = source ++ q.drop target.length := by
  obtain ⟨r, rfl, tail⟩ := under_iff.mp under
  rw [List.drop_left]
  constructor
  · intro same
    by_cases taken : Under source p
    · obtain ⟨r', rfl, tail'⟩ := under_iff.mp taken
      rw [moved_append source target tail'] at same
      rw [List.append_cancel_left same]
    · rw [moved_of_not_under taken] at same
      exact absurd has (w.not_has_of_under m.target_normal m.free (same ▸ under))
  · rintro rfl
    exact moved_append source target tail

theorem moved_ne_of_under_source (there : t.Has source) (has : t.Has p) (under : Under source q) :
    moved source target p ≠ q := by
  rintro rfl
  by_cases taken : Under source p
  · obtain ⟨r, rfl, tail⟩ := under_iff.mp taken
    rw [moved_append source target tail] at under
    rcases under_total under (under_append target tail) with (same | below) | above
    · exact m.free (same ▸ there)
    · simp [m.outside] at below
    · exact w.not_has_of_under m.target_normal m.free above there
  · rw [moved_of_not_under taken] at under
    exact taken under

omit m w in
theorem moved_eq_iff_of_aside (notTarget : ¬ Under target q) (notSource : ¬ Under source q) :
    moved source target p = q ↔ p = q := by
  by_cases taken : Under source p
  · obtain ⟨r, rfl, tail⟩ := under_iff.mp taken
    rw [moved_append source target tail]
    constructor
    · rintro rfl
      exact absurd (under_append target tail) notTarget
    · rintro rfl
      exact absurd taken notSource
  · rw [moved_of_not_under taken]

/-! ### The way back -/

theorem moved_moved (has : t.Has p) : moved target source (moved source target p) = p := by
  by_cases taken : Under source p
  · obtain ⟨r, rfl, tail⟩ := under_iff.mp taken
    rw [moved_append source target tail, moved_append target source tail]
  · have aside : ¬ Under target p := fun h =>
      w.not_has_of_under m.target_normal m.free h has
    rw [moved_of_not_under taken, moved_of_not_under aside]

/-- What was moved can be moved back: its old place is free, and the directory for it is where it
was. -/
theorem back {u : FileTree} (c : Carried source target t u) (dt : t.Distinct) (du : u.Distinct)
    (there : t.Has source) : u.Has target ∧ Relocation u target source := by
  have arrived : u.look target = t.look source := by
    have origin := c.look_eq dt du fun x has =>
      m.moved_eq_iff_of_under_target w has (q := target) (.inl rfl)
    simpa using origin
  have left := c.look_nothing dt du fun x has =>
    m.moved_ne_of_under_source w there has (q := source) (.inl rfl)
  have apart : ¬ Under source (Path.parent source) := fun h => by
    have below := nested_of_under_parent m.source_normal m.no_root m.source_normal m.no_root h
    have longer := (nested_iff.mp below).length_le
    rw [List.length_append, List.length_singleton] at longer
    omega
  have place : u.isDir (Path.parent source) = true :=
    c.isDir_iff.mpr ⟨_, w.parent_dir source there m.no_root, moved_of_not_under apart⟩
  refine ⟨Classical.byContradiction fun free => ?_, m.target_normal, m.source_normal,
    m.target_no_root w, look_eq_nothing_iff.mp left, place, Bool.eq_false_iff.mpr fun above => ?_⟩
  · exact look_eq_nothing_iff.mp (arrived ▸ look_eq_nothing_iff.mpr free) there
  · exact w.not_has_of_under m.target_normal m.free (.inr above) there

end Relocation

theorem Carried.trans {v : FileTree} (c : Carried source target t u)
    (c' : Carried target source u v)
    (round : ∀ p, t.Has p → moved target source (moved source target p) = p) :
    v.dirs.Perm t.dirs ∧ v.files.Perm t.files := by
  constructor
  · have whole := c'.dirs.trans (c.dirs.map _)
    have same : (t.dirs.map (moved source target)).map (moved target source) = t.dirs.map id := by
      rw [List.map_map]
      exact List.map_congr_left fun p hp => round p (.inl (FileTree.isDir_iff.mpr hp))
    rwa [same, List.map_id] at whole
  · have whole := c'.files.trans (c.files.map _)
    have same : (t.files.map fun e => (moved source target e.1, e.2)).map
        (fun e => (moved target source e.1, e.2)) = t.files.map id := by
      rw [List.map_map]
      refine List.map_congr_left fun e he => ?_
      have key : e.1 ∈ Assoc.keys t.files := List.mem_map_of_mem he
      simp [round e.1 (.inr (isFile_iff.mpr key))]
    rwa [same, List.map_id] at whole

theorem look_of_perm (dt : t.Distinct) (du : u.Distinct) (dirs : u.dirs.Perm t.dirs)
    (files : u.files.Perm t.files) (p : Path) : u.look p = t.look p := by
  have dir : u.isDir p = true ↔ t.isDir p = true := by
    rw [isDir_iff, isDir_iff, dirs.mem_iff]
  have file (b : Bytes) : u.read p = some b ↔ t.read p = some b := by
    rw [read, read, Assoc.get?_eq_some_iff du.files, Assoc.get?_eq_some_iff dt.files,
      files.mem_iff]
  rw [look, look, Bool.eq_iff_iff.mpr dir, Option.ext file]

/-! ### Runs -/

theorem Distinct.apply (d : t.Distinct) (o : Operation) : (o.apply t).2.Distinct := by
  cases o with
  | mkdir p => exact d.mkdir _
  | write p b => exact d.write _ b
  | remove p recursive => exact d.remove _ recursive
  | move source target => exact d.move _ _

theorem Distinct.run (d : t.Distinct) (os : List Operation) : (t.run os).Distinct := by
  induction os generalizing t with
  | nil => exact d
  | cons o os ih => exact ih (d.apply o)

end

section
variable {t : FileTree} {os : List Operation} {source target : Path}

/-- A move is done exactly when there is something to move, other than the root, to a free place in
a directory that is not part of it. Then what is at or below the target is what was at or below the
source, nothing is at or below the source, and all else is as it was, each file being carried once
to a path of its own. If it is not done, the tree stays the same. -/
theorem move_relocates (reached : run {} os = t) (hs : IsNormal source) (ht : IsNormal target) :
    ((t.move source target).1 = .done ↔
      t.Has source ∧ source ≠ ['/'] ∧ ¬ t.Has target ∧ t.isDir (Path.parent target) = true ∧
        nested source target = false) ∧
    ((t.move source target).1 = .done →
      (∀ q, Under target q →
        (t.move source target).2.look q = t.look (source ++ q.drop target.length)) ∧
      (∀ q, Under source q → (t.move source target).2.look q = nothing) ∧
      (∀ q, ¬ Under target q → ¬ Under source q →
        (t.move source target).2.look q = t.look q) ∧
      Carried source target t (t.move source target).2 ∧ (t.move source target).2.Distinct) ∧
    ((t.move source target).1 ≠ .done → (t.move source target).2 = t) := by
  subst reached
  have w := empty_wellFormed.run os
  have d := empty_distinct.run os
  have done_iff := move_done_iff w hs ht
  refine ⟨?_, fun done => ?_, move_tree_eq_iff.mpr⟩
  · rw [done_iff]
    constructor
    · rintro ⟨has, m⟩
      exact ⟨has, m.no_root, m.free, m.place, m.outside⟩
    · rintro ⟨has, noRoot, free, place, outside⟩
      exact ⟨has, hs, ht, noRoot, free, place, outside⟩
  · obtain ⟨has, m⟩ := done_iff.mp done
    have carried := m.carried w d has
    have du := d.move source target
    exact ⟨fun q under => carried.look_eq d du fun x there =>
        m.moved_eq_iff_of_under_target w there under,
      fun q under => carried.look_nothing d du fun x there =>
        m.moved_ne_of_under_source w has there under,
      fun q notTarget notSource => carried.look_eq d du fun x _ =>
        Relocation.moved_eq_iff_of_aside notTarget notSource,
      carried, du⟩

/-- A directory with a file in it, and another directory whose name begins in the same way. -/
def neighbours : List Operation :=
  [.mkdir "/a".toList, .write "/a/f".toList [1], .mkdir "/ab".toList, .write "/ab/f".toList [2]]

theorem move_relocates_neighbours :
    ((run {} neighbours).move "/a".toList "/ab/c".toList).1 = .done ∧
      ((run {} neighbours).move "/a".toList "/ab/c".toList).2.look "/ab/c/f".toList =
        (false, some [1]) ∧
      ((run {} neighbours).move "/a".toList "/ab/c".toList).2.look "/a/f".toList = nothing ∧
      ((run {} neighbours).move "/a".toList "/ab/c".toList).2.look "/ab/f".toList =
        (false, some [2]) := by
  have reached : run {} neighbours = run {} neighbours := rfl
  have hs : IsNormal "/a".toList := by decide
  have ht : IsNormal "/ab/c".toList := by decide
  obtain ⟨done_iff, relocates, _⟩ := move_relocates reached hs ht
  have done := done_iff.mpr (by decide +kernel)
  obtain ⟨moved, left, rest, _⟩ := relocates done
  refine ⟨done, ?_, left _ (by decide +kernel), ?_⟩
  · rw [moved _ (by decide +kernel)]
    decide +kernel
  · rw [rest _ (by decide +kernel) (by decide +kernel)]
    decide +kernel

/-- What was moved can be moved back, and then the tree holds what it held before. -/
theorem move_undone (reached : run {} os = t) (hs : IsNormal source) (ht : IsNormal target)
    (done : (t.move source target).1 = .done) :
    ((t.move source target).2.move target source).1 = .done ∧
      ((t.move source target).2.move target source).2.dirs.Perm t.dirs ∧
      ((t.move source target).2.move target source).2.files.Perm t.files ∧
      ∀ p, ((t.move source target).2.move target source).2.look p = t.look p := by
  subst reached
  have w := empty_wellFormed.run os
  have d := empty_distinct.run os
  obtain ⟨has, m⟩ := (move_done_iff w hs ht).mp done
  have w' := w.move hs ht
  have d' := d.move source target
  have there := m.carried w d has
  obtain ⟨has', m'⟩ := m.back w there d d' has
  have again := m'.carried w' d' has'
  obtain ⟨dirs, files⟩ := there.trans again fun p => m.moved_moved w
  exact ⟨(move_done_iff w' ht hs).mpr ⟨has', m'⟩, dirs, files,
    look_of_perm d (d'.move target source) dirs files⟩

theorem move_undone_neighbours :
    let moved := ((run {} neighbours).move "/ab".toList "/a/b".toList).2
    let back := moved.move "/a/b".toList "/ab".toList
    ((run {} neighbours).move "/ab".toList "/a/b".toList).1 = .done ∧
      moved.look "/a/b/f".toList = (false, some [2]) ∧ moved.look "/ab/f".toList = nothing ∧
      moved.look "/ab".toList = nothing ∧ back.1 = .done ∧
      back.2.look "/ab/f".toList = (false, some [2]) ∧ back.2.look "/a/b/f".toList = nothing := by
  have done : ((run {} neighbours).move "/ab".toList "/a/b".toList).1 = .done := by decide +kernel
  have reached : run {} neighbours = run {} neighbours := rfl
  obtain ⟨back, _, _, same⟩ := move_undone reached (by decide) (by decide) done
  refine ⟨done, by decide +kernel, by decide +kernel, by decide +kernel, back, ?_, ?_⟩
  · rw [same]
    decide +kernel
  · rw [same]
    decide +kernel

end
end FileGate.FileTree
