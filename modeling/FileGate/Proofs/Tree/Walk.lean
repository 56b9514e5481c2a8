import Mathlib.Data.List.Induction
import Mathlib.Data.List.Perm.Subperm
import FileGate.Proofs.Tree.Children
import FileGate.Proofs.Tree.Moving

/-! Walks. Whoever lists the root, and then every directory that a listing shows, comes to every entry
of the tree exactly once and finds out what it is. -/
namespace FileGate.FileTree

open FileGate.Path (IsNormal IsSegment AreSegments ofSegments)

section
variable {t : FileTree} {p q : Path}

def shown (t : FileTree) (p : Path) : List (Path × Entry) :=
  ((t.children p).mergeSort Path.le).map fun q => (q, t.entry q)

theorem mem_shown {x : Path × Entry} :
    x ∈ t.shown p ↔ x.1 ∈ t.children p ∧ x.2 = t.entry x.1 := by
  obtain ⟨q, e⟩ := x
  simp only [shown, List.mem_map, List.mem_mergeSort, Prod.mk.injEq]
  constructor
  · rintro ⟨q', child, rfl, rfl⟩
    exact ⟨child, rfl⟩
  · rintro ⟨child, rfl⟩
    exact ⟨q, child, rfl, rfl⟩

theorem paths_shown (t : FileTree) (p : Path) :
    (t.shown p).map (·.1) = (t.children p).mergeSort Path.le := by
  rw [shown, List.map_map]
  exact List.map_id _

theorem kind_entry (t : FileTree) (q : Path) : (t.entry q).kind = .dir ↔ t.isDir q = true := by
  rw [entry]
  split
  · rename_i dir
    simp [dir]
  · rename_i noDir
    simp [noDir]

theorem WellFormed.join_listing (w : t.WellFormed) (hp : IsNormal p) :
    (((t.children p).mergeSort Path.le).map t.entry).map (fun e => (Path.join p e.name, e)) =
      t.shown p := by
  rw [shown, List.map_map]
  apply List.map_congr_left
  intro q hq
  have child := w.child hp (List.mem_mergeSort.mp hq)
  exact congrArg (·, t.entry q) child.join

theorem WellFormed.names_listing (w : t.WellFormed) (d : t.Distinct) {es : List Entry}
    (listed : t.listing p = some es) :
    (es.map (·.name)).Pairwise (fun a b => Path.le a b = true ∧ a ≠ b) ∧
      ∀ e ∈ es, IsSegment e.name := by
  have dir := isDir_of_listing listed
  rw [listing_of_isDir dir] at listed
  cases listed
  have child : ∀ q ∈ (t.children p).mergeSort Path.le, Child t p q :=
    fun q hq => w.child (w.normal p (.inl dir)) (List.mem_mergeSort.mp hq)
  have sorted := Path.pairwise_mergeSort (t.children p)
  have once : ((t.children p).mergeSort Path.le).Nodup :=
    (List.mergeSort_perm _ _).nodup_iff.mpr (d.children p)
  constructor
  · rw [List.map_map, List.pairwise_map]
    refine (sorted.and once).imp_of_mem ?_
    intro a b ha hb order
    -- Both paths begin with that of the directory, so that their names are ordered as they are.
    have ha := (child a ha).below
    have hb := (child b hb).below
    rw [ha, hb, Path.le_append] at order
    exact ⟨order.1, fun same => order.2 (congrArg (Path.below p ++ ·) same)⟩
  · intro e he
    obtain ⟨q, hq, rfl⟩ := List.mem_map.mp he
    exact (child q hq).segment

end

/-- Directories that are still to be listed, and what listings have shown so far, each entry with the
path that its name makes when it is joined to that of the directory. -/
structure Walk where
  todo : List Path
  seen : List (Path × Entry)

namespace Walk

def start : Walk := ⟨[['/']], []⟩

def met (l : List (Path × Entry)) : List Path := (l.filter fun x => x.2.kind = .dir).map (·.1)

/-- Lists the next directory. A walk breaks off where something cannot be listed. -/
def step (t : FileTree) : Walk → Option Walk
  | ⟨[], seen⟩ => some ⟨[], seen⟩
  | ⟨p :: todo, seen⟩ => (t.listing p).map fun es =>
    let found := es.map fun e => (Path.join p e.name, e)
    ⟨met found ++ todo, seen ++ found⟩

def after (t : FileTree) : Nat → Option Walk
  | 0 => some start
  | n + 1 => (after t n).bind (step t)

theorem met_append (l m : List (Path × Entry)) : met (l ++ m) = met l ++ met m := by
  simp [met]

/-- How far a walk has come once it has listed these directories: no directory was listed twice, and
those that it met are listed or still to be listed. -/
structure Sound (t : FileTree) (listed : List Path) (x : Walk) : Prop where
  once : listed.Nodup
  seen : x.seen = listed.flatMap t.shown
  met : (listed ++ x.todo).Perm (['/'] :: met x.seen)

section
variable {t : FileTree} {listed : List Path} {x : Walk} {p q : Path}

theorem start_sound (t : FileTree) : Sound t [] start := ⟨List.nodup_nil, rfl, .refl _⟩

theorem Sound.mem_seen (sound : Sound t listed x) {y : Path × Entry} :
    y ∈ x.seen ↔ ∃ p ∈ listed, y.1 ∈ t.children p ∧ y.2 = t.entry y.1 := by
  simp only [sound.seen, List.mem_flatMap, mem_shown]

theorem Sound.mem_met (sound : Sound t listed x) :
    q ∈ Walk.met x.seen ↔ t.isDir q = true ∧ ∃ p ∈ listed, q ∈ t.children p := by
  simp only [Walk.met, List.mem_map, List.mem_filter, decide_eq_true_eq, sound.mem_seen]
  constructor
  · rintro ⟨y, ⟨⟨p, there, child, entry⟩, kind⟩, rfl⟩
    rw [entry, kind_entry] at kind
    exact ⟨kind, p, there, child⟩
  · rintro ⟨dir, p, there, child⟩
    exact ⟨(q, t.entry q), ⟨⟨p, there, child, rfl⟩, (kind_entry t q).mpr dir⟩, rfl⟩

theorem Sound.isDir (w : t.WellFormed) (sound : Sound t listed x) (hp : p ∈ listed ++ x.todo) :
    t.isDir p = true := by
  rcases List.mem_cons.mp (sound.met.mem_iff.mp hp) with rfl | met
  · exact w.root_dir
  · exact (sound.mem_met.mp met).1

theorem Sound.child (w : t.WellFormed) (sound : Sound t listed x) (hp : p ∈ listed)
    (hq : q ∈ t.children p) : Child t p q := by
  have dir := sound.isDir w (List.mem_append_left x.todo hp)
  exact w.child (w.normal p (.inl dir)) hq

theorem Sound.nodup_seen (w : t.WellFormed) (d : t.Distinct) (sound : Sound t listed x) :
    (x.seen.map (·.1)).Nodup := by
  rw [sound.seen, List.map_flatMap, List.nodup_flatMap]
  constructor
  · intro p _
    rw [paths_shown]
    exact (List.mergeSort_perm _ _).nodup_iff.mpr (d.children p)
  · apply sound.once.pairwise_of_forall_ne
    intro a ha b hb apart q inA inB
    simp only [paths_shown, List.mem_mergeSort] at inA inB
    apply apart
    rw [← (sound.child w ha inA).parent, ← (sound.child w hb inB).parent]

theorem Sound.nodup (w : t.WellFormed) (d : t.Distinct) (sound : Sound t listed x) :
    (listed ++ x.todo).Nodup := by
  rw [sound.met.nodup_iff, List.nodup_cons]
  constructor
  · intro root
    obtain ⟨_, p, there, child⟩ := sound.mem_met.mp root
    exact (sound.child w there child).no_root rfl
  · exact (sound.nodup_seen w d).sublist (List.filter_sublist.map _)

theorem Sound.step (w : t.WellFormed) (d : t.Distinct) (sound : Sound t listed x)
    {rest : List Path} (next : x.todo = p :: rest) :
    ∃ y, Walk.step t x = some y ∧ Sound t (listed ++ [p]) y := by
  obtain ⟨todo, seen⟩ := x
  dsimp only at next
  subst next
  have dir := sound.isDir w (p := p) (by simp)
  have shown_ := w.join_listing (w.normal p (.inl dir))
  refine ⟨⟨Walk.met (t.shown p) ++ rest, seen ++ t.shown p⟩, ?_, ?_, ?_, ?_⟩
  · rw [Walk.step, listing_of_isDir dir, Option.map_some, shown_]
  · have fresh := sound.nodup w d
    rw [← List.singleton_append, ← List.append_assoc] at fresh
    exact (List.nodup_append.mp fresh).1
  · have before := sound.seen
    simp only at before
    rw [before, List.flatMap_append, List.flatMap_singleton]
  · have before := sound.met
    simp only [met_append] at before ⊢
    -- The directory moves over to those that are listed, and those in it come to what is left to do.
    have tail : (Walk.met (t.shown p) ++ rest).Perm (rest ++ Walk.met (t.shown p)) :=
      List.perm_append_comm
    have turned : (listed ++ [p] ++ (Walk.met (t.shown p) ++ rest)).Perm
        (listed ++ p :: rest ++ Walk.met (t.shown p)) := by
      simpa using tail.append_left (listed ++ [p])
    exact turned.trans (before.append_right _)

theorem after_sound (w : t.WellFormed) (d : t.Distinct) (n : Nat) :
    ∃ listed x, after t n = some x ∧ Sound t listed x ∧ (x.todo = [] ∨ listed.length = n) := by
  induction n with
  | zero => exact ⟨[], start, rfl, start_sound t, .inr rfl⟩
  | succ n ih =>
    obtain ⟨listed, x, reached, sound, length⟩ := ih
    rw [after, reached, Option.bind_some]
    cases next : x.todo with
    | nil =>
      have stays : Walk.step t x = some x := by
        obtain ⟨todo, seen⟩ := x
        cases next
        rfl
      exact ⟨listed, x, stays, sound, .inl next⟩
    | cons p rest =>
      obtain ⟨y, stepped, sound'⟩ := sound.step w d next
      have more : listed.length = n := length.resolve_left (by simp [next])
      exact ⟨listed ++ [p], y, stepped, sound', .inr (by simp [more])⟩

/-- There are no more directories to be listed than the tree has. -/
theorem after_dirs (w : t.WellFormed) (d : t.Distinct) :
    ∃ listed x, after t t.dirs.length = some x ∧ Sound t listed x ∧ x.todo = [] := by
  obtain ⟨listed, x, reached, sound, length⟩ := after_sound w d t.dirs.length
  refine ⟨listed, x, reached, sound, Classical.byContradiction fun more => ?_⟩
  have inTree : listed ++ x.todo ⊆ t.dirs := fun p hp => isDir_iff.mp (sound.isDir w hp)
  have short := ((sound.nodup w d).subperm inTree).length_le
  have some_ := List.length_pos_iff.mpr more
  rw [List.length_append, length.resolve_left more] at short
  omega

/-- Once there is nothing left to do, every directory has been listed: by induction on its depth, as
the directory that it lies in has been. -/
theorem Sound.mem_listed (w : t.WellFormed) (sound : Sound t listed x) (done : x.todo = [])
    (dir : t.isDir p = true) : p ∈ listed := by
  have all := sound.met
  rw [done, List.append_nil] at all
  obtain ⟨ss, hs, rfl⟩ := (w.normal p (.inl dir)).exists_segments
  induction ss using List.reverseRecOn with
  | nil => exact all.mem_iff.mpr List.mem_cons_self
  | append_singleton front s ih =>
    have noRoot := Path.ofSegments_snoc_ne_root hs
    have above := w.parent_dir _ (.inl dir) noRoot
    have child := w.mem_children_parent (.inl dir) noRoot
    rw [Path.parent_child hs] at above child
    have there := ih (Path.areSegments_append.mp hs).1 above
    exact all.mem_iff.mpr (List.mem_cons_of_mem _ (sound.mem_met.mpr ⟨dir, _, there, child⟩))

theorem Sound.complete (w : t.WellFormed) (sound : Sound t listed x) (done : x.todo = []) :
    q ∈ x.seen.map (·.1) ↔ t.Has q ∧ q ≠ ['/'] := by
  simp only [List.mem_map, sound.mem_seen]
  constructor
  · rintro ⟨y, ⟨p, there, child, _⟩, rfl⟩
    have known := sound.child w there child
    exact ⟨known.has, known.no_root⟩
  · rintro ⟨has, noRoot⟩
    have there := sound.mem_listed w done (w.parent_dir q has noRoot)
    exact ⟨(q, t.entry q), ⟨_, there, w.mem_children_parent has noRoot, rfl⟩, rfl⟩

theorem Sound.entry (w : t.WellFormed) (sound : Sound t listed x) {e : Entry}
    (there : (q, e) ∈ x.seen) :
    (e.kind = .dir ↔ t.isDir q = true) ∧ (e.kind = .file ↔ t.isFile q = true) ∧
      ∀ b, t.read q = some b → e.size = b.length := by
  obtain ⟨p, listed_, child, entry⟩ := sound.mem_seen.mp there
  dsimp only at child entry
  subst entry
  have dir := kind_entry t q
  refine ⟨dir, ?_, fun b read => by rw [FileTree.entry, read, Option.getD_some]⟩
  have has := (sound.child w listed_ child).has
  constructor
  · intro file
    refine has.resolve_left fun isDir => ?_
    rw [dir.mpr isDir] at file
    cases file
  · intro file
    cases kind : (t.entry q).kind with
    | file => rfl
    | dir => exact absurd ⟨dir.mp kind, file⟩ (w.disjoint q)

end
end Walk

section
variable {t : FileTree} {os : List Operation}

/-- Exactly directories have a listing, which gives names in their order. A walk along the listings
is through when it has listed as many directories as there are; it has come to every entry but the
root once, to nothing else, and every entry was shown as what it is. -/
theorem listings_enumerate (reached : run {} os = t) :
    (∀ p, t.listing p = none ↔ t.isDir p = false) ∧
    (∀ p es, t.listing p = some es →
      (es.map (·.name)).Pairwise (fun a b => Path.le a b = true ∧ a ≠ b) ∧
      ∀ e ∈ es, e.name ≠ [] ∧ '/' ∉ e.name) ∧
    ∃ x, Walk.after t t.dirs.length = some x ∧ x.todo = [] ∧ (x.seen.map (·.1)).Nodup ∧
      (∀ q, q ∈ x.seen.map (·.1) ↔ t.Has q ∧ q ≠ ['/']) ∧
      ∀ q e, (q, e) ∈ x.seen →
        (e.kind = .dir ↔ t.isDir q = true) ∧ (e.kind = .file ↔ t.isFile q = true) ∧
        ∀ b, t.read q = some b → e.size = b.length := by
  subst reached
  have w := empty_wellFormed.run os
  have d := empty_distinct.run os
  refine ⟨fun p => listing_eq_none_iff, fun p es listed => ?_, ?_⟩
  · obtain ⟨order, names⟩ := w.names_listing d listed
    exact ⟨order, fun e he => ⟨(names e he).nonempty, (names e he).no_slash⟩⟩
  · obtain ⟨listed, x, through, sound, done⟩ := Walk.after_dirs w d
    exact ⟨x, through, done, sound.nodup_seen w d, fun q => sound.complete w done,
      fun q e => sound.entry w⟩

theorem listings_enumerate_neighbours :
    ∃ x, Walk.after (run {} neighbours) 3 = some x ∧ x.todo = [] ∧
      ∀ q, q ∈ x.seen.map (·.1) ↔ (run {} neighbours).Has q ∧ q ≠ ['/'] := by
  have reached : run {} neighbours = run {} neighbours := rfl
  obtain ⟨_, _, x, through, done, _, complete, _⟩ := listings_enumerate reached
  have three : (run {} neighbours).dirs.length = 3 := by decide +kernel
  rw [three] at through
  exact ⟨x, through, done, complete⟩

end
end FileGate.FileTree
