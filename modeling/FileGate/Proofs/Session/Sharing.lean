import FileGate.Proofs.Cipher.Opening
import FileGate.Proofs.Session.Place
import FileGate.Proofs.Text.Json
import FileGate.Session.SealedStore

/-! Several stores on one file. As long as each of them opens what any of them has sealed, they are
together one map, which the file keeps. What is set is kept as it reads after the file has been
written: halves that make a pair have become one character then. -/
namespace FileGate

/-! ### Entries by name -/

namespace Json

theorem lookup?_named (key : Points) (m : List (Points × Value)) :
    Value.lookup? key (named m) = Assoc.get? key m := by
  induction m with
  | nil => rfl
  | cons e m ih =>
    obtain ⟨a, v⟩ := e
    have parts : named ((a, v) :: m) = (.ofPoints a, v) :: named m := rfl
    rw [parts, Value.lookup?, Assoc.get?, ih, Value.points?_ofPoints, Option.some_beq_some]

theorem removeEntry_named (key : Points) (m : List (Points × Value)) :
    Value.removeEntry key (named m) = named (Assoc.erase key m) := by
  induction m with
  | nil => rfl
  | cons e m ih =>
    obtain ⟨a, v⟩ := e
    have parts : named ((a, v) :: m) = (.ofPoints a, v) :: named m := rfl
    unfold Value.removeEntry at ih ⊢
    rw [parts, List.filter_cons, ih, Assoc.erase]
    by_cases same : a = key
    · simp [same, Value.points?_ofPoints]
    · have kept : ((Value.ofPoints a).points? != some key) = true := by
        simpa [Value.points?_ofPoints] using same
      have other : (a == key) = false := by simpa using same
      simp only [kept, other, if_true, Bool.false_eq_true, if_false]
      rfl

def Settled (m : List (Points × Value)) : Prop :=
  ∀ e ∈ m, joined e.1 = e.1 ∧ ∃ t, joined t = t ∧ e.2 = .ofPoints t

variable {m : List (Points × Value)} {k v : Points}

theorem Settled.texts (settled : Settled m) : Texts m := fun e there =>
  let ⟨_, t, _, same⟩ := settled e there
  ⟨t, same⟩

theorem Settled.erase (settled : Settled m) (key : Points) : Settled (Assoc.erase key m) :=
  fun e there => settled e (Assoc.mem_of_mem_erase there)

theorem Settled.joinedEntries (settled : Settled m) : joinedEntries m = m := by
  induction m with
  | nil => rfl
  | cons e m ih =>
    obtain ⟨a, w⟩ := e
    obtain ⟨⟨key, t, text, same⟩, rest⟩ := List.forall_mem_cons.mp settled
    obtain rfl : w = .ofPoints t := same
    have key : joined a = a := key
    rw [joinedEntries_cons, key, text, ih rest]

theorem texts_put (texts : Texts m) (key value : Points) :
    Texts (Assoc.put key (.ofPoints value) m) := by
  intro e there
  rcases Assoc.mem_of_mem_put there with rfl | old
  · exact ⟨value, rfl⟩
  · exact texts e old

/-- What is read of a file that was written is joined, whatever was written. -/
theorem settled_ofList (texts : Texts m) : Settled (Assoc.ofList (joinedEntries m)) := by
  intro e there
  obtain ⟨e', old, rfl⟩ := List.mem_map.mp (Assoc.mem_of_mem_ofList there)
  obtain ⟨t, same⟩ := texts e' old
  refine ⟨joined_joined e'.1, joined t, joined_joined t, ?_⟩
  rw [same, Value.points?_ofPoints]
  rfl

theorem joinedEntries_put (settled : Settled m) (fixed : joined k = k) :
    joinedEntries (Assoc.put k (.ofPoints v) m) = Assoc.put k (.ofPoints (joined v)) m := by
  induction m with
  | nil => rw [Assoc.put, joinedEntries_cons, fixed]; rfl
  | cons e m ih =>
    obtain ⟨a, w⟩ := e
    obtain ⟨⟨key, t, text, same⟩, rest⟩ := List.forall_mem_cons.mp settled
    obtain rfl : w = .ofPoints t := same
    have key : joined a = a := key
    rw [Assoc.put, Assoc.put]
    split
    · rw [joinedEntries_cons, key, Settled.joinedEntries rest]
    · rw [joinedEntries_cons, key, text, ih rest]

theorem ofList_joinedEntries_put (settled : Settled m) (distinct : (Assoc.keys m).Nodup) :
    Assoc.ofList (joinedEntries (Assoc.put k (.ofPoints v) m)) =
      Assoc.put (joined k) (.ofPoints (joined v)) m := by
  by_cases fixed : joined k = k
  · rw [joinedEntries_put settled fixed, fixed, Assoc.ofList_of_nodup (Assoc.nodup_keys_put _ distinct)]
  · -- No key that is there already has a pair in it.
    have new : k ∉ Assoc.keys m := by
      intro there
      obtain ⟨e, old, rfl⟩ := List.mem_map.mp there
      exact fixed (settled e old).1
    have parts : joinedEntries (m ++ [(k, .ofPoints v)]) =
        m ++ [(joined k, .ofPoints (joined v))] := by
      have last := joinedEntries_cons k v []
      have before := settled.joinedEntries
      unfold joinedEntries at last before ⊢
      rw [List.map_append, before, last]
      rfl
    rw [Assoc.put_of_not_mem new, parts, Assoc.ofList, Assoc.putAll, List.foldl_append]
    exact congrArg (Assoc.put (joined k) _) (Assoc.ofList_of_nodup distinct)

end Json

namespace SealedStore

/-- Stores on one path, each of which opens what any of them has sealed. -/
structure Shared (path : String) (stores : SealedStore → Prop) : Prop where
  path : ∀ s, stores s → s.path = path
  opens : ∀ s s', stores s → stores s' → ∀ b, s'.lock.open? (s.lock.close b) = some b

/-- A disk that keeps entries in the file of the stores, if there are any. -/
structure Holds (path : String) (stores : SealedStore → Prop) (d : Disk)
    (m : List (Points × Value)) : Prop where
  notRoot : Disk.locate path ≠ ['/']
  parent : d.isDir (Path.parent (Disk.locate path)) = true
  free : d.isDir (Disk.locate path) = false
  settled : Json.Settled m
  distinct : (Assoc.keys m).Nodup
  content : FileTree.read d (Disk.locate path) = none ∧ m = [] ∨
    ∃ s t, stores s ∧ FileTree.read d (Disk.locate path) = some (s.lock.close (Utf8.encode t)) ∧
      Json.read t = .ok (.map (Json.named m))

variable {path : String} {key value : Points} {stores : SealedStore → Prop} {s : SealedStore}
variable {d : Disk} {m : List (Points × Value)}

theorem Holds.read (holds : Holds path stores d m) (shared : Shared path stores) (hs : stores s) :
    s.read d = .ok (.map (Json.named m)) := by
  have here := shared.path s hs
  unfold SealedStore.read
  rcases holds.content with ⟨none_, rfl⟩ | ⟨w, t, hw, there, json⟩
  · have absent : d.exists? s.path = false := by
      rw [Disk.exists?, here, holds.free, FileTree.isFile_eq_isSome, none_]
      rfl
    rw [absent]
    rfl
  · have exists_ : d.exists? s.path = true := by
      rw [Disk.exists?, here, FileTree.isFile_eq_isSome, there]
      simp
    have bytes : d.read s.path = .ok (w.lock.close (Utf8.encode t)) := by
      rw [Disk.read, here, there]
    have plain : s.plain d = .ok t := by
      unfold SealedStore.plain
      rw [bytes]
      dsimp only [bind, Except.bind]
      rw [shared.opens w s hw hs]
      dsimp only
      rw [Utf8.decode?_encode]
    rw [exists_, plain]
    dsimp only
    rw [json]
    rfl

theorem holds_of_write (shared : Shared path stores) (hs : stores s)
    (notRoot : Disk.locate path ≠ ['/'])
    (parent : d.isDir (Path.parent (Disk.locate path)) = true)
    (free : d.isDir (Disk.locate path) = false) (texts : Json.Texts m) :
    ∃ d', s.write (.map (Json.named m)) d = .ok d' ∧
      Holds path stores d' (Assoc.ofList (Json.joinedEntries m)) := by
  obtain ⟨bytes, hb⟩ : ∃ b, s.lock.close
      (Utf8.encode (Json.write Json.spaced (.map (Json.named m)))) = b := ⟨_, rfl⟩
  unfold SealedStore.write
  rw [shared.path s hs, hb]
  rcases FileTree.write_cases d (Disk.locate path) bytes with
    ⟨there, _⟩ | ⟨_, none_, _⟩ | ⟨_, _, e⟩
  · rw [free] at there
    cases there
  · rw [parent] at none_
    cases none_
  · refine ⟨{ d with files := Assoc.put (Disk.locate path) bytes d.files }, ?_, ?_⟩
    · unfold Disk.write
      rw [e]
      cases d.isFile (Disk.locate path) <;> rfl
    · refine ⟨notRoot, parent, free, Json.settled_ofList texts, Assoc.nodup_keys_ofList _,
        .inr ⟨s, _, hs, ?_, Json.read_write texts⟩⟩
      rw [hb]
      exact Assoc.get?_put_self _ _ _

theorem Holds.write (holds : Holds path stores d m) (shared : Shared path stores) (hs : stores s)
    {m' : List (Points × Value)} (texts : Json.Texts m') :
    ∃ d', s.write (.map (Json.named m')) d = .ok d' ∧
      Holds path stores d' (Assoc.ofList (Json.joinedEntries m')) :=
  holds_of_write shared hs holds.notRoot holds.parent holds.free texts

theorem Holds.get (holds : Holds path stores d m) (shared : Shared path stores) (hs : stores s)
    (key : Points) : s.get key d = .ok (Assoc.get? key m) := by
  unfold SealedStore.get
  rw [holds.read shared hs]
  dsimp only [bind, Except.bind]
  rw [Json.lookup?_named]

theorem Holds.set (holds : Holds path stores d m) (shared : Shared path stores) (hs : stores s)
    (key value : Points) : ∃ d', s.set key (.ofPoints value) d = .ok d' ∧
      Holds path stores d' (Assoc.put (Json.joined key) (.ofPoints (Json.joined value)) m) := by
  unfold SealedStore.set
  rw [holds.read shared hs]
  dsimp only [bind, Except.bind]
  rw [Json.putEntry_named, ← Json.ofList_joinedEntries_put holds.settled holds.distinct]
  exact holds.write shared hs (Json.texts_put holds.settled.texts key value)

theorem Holds.remove (holds : Holds path stores d m) (shared : Shared path stores)
    (hs : stores s) (key : Points) : ∃ d', s.remove key d = .ok d' ∧
      Holds path stores d' (Assoc.erase key m) := by
  unfold SealedStore.remove
  rw [holds.read shared hs]
  dsimp only [bind, Except.bind]
  rw [Json.lookup?_named, Json.removeEntry_named]
  split
  · have rest := holds.settled.erase key
    have written := holds.write shared hs rest.texts
    rwa [rest.joinedEntries, Assoc.ofList_of_nodup (Assoc.nodup_keys_erase key holds.distinct)]
      at written
  next absent =>
    have unused : key ∉ Assoc.keys m := by
      rw [← Assoc.get?_eq_none_iff]
      simpa using absent
    rw [Assoc.erase_of_not_mem unused]
    exact ⟨d, rfl, holds⟩

theorem Holds.makeParent (holds : Holds path stores d m) :
    Holds path stores (d.makeParent path) m := by
  have same := Disk.makeParent_sameAt holds.notRoot d
  refine ⟨holds.notRoot, Disk.isDir_makeParent_of_isDir holds.parent path,
    same.1.trans holds.free, holds.settled, holds.distinct, ?_⟩
  rw [same.2]
  exact holds.content

theorem Holds.first (vacant : Disk.Vacant d path) : Holds path stores (d.makeParent path) [] := by
  have same := Disk.makeParent_sameAt vacant.notRoot d
  obtain ⟨noDir, noFile⟩ := FileTree.not_has_iff.mp vacant.free
  refine ⟨vacant.notRoot, vacant.isDir_makeParent, same.1.trans noDir,
    fun _ there => (List.not_mem_nil there).elim, List.nodup_nil, .inl ⟨?_, rfl⟩⟩
  rw [same.2]
  simpa [FileTree.isFile_eq_isSome] using noFile

/-! ### Requests in turn -/

inductive Request where
  | get (key : Points)
  | set (key value : Points)
  | remove (key : Points)

def Request.joined : Request → Request
  | set key value => set (Json.joined key) (Json.joined value)
  | q => q

def Request.Unpaired : Request → Prop
  | set key value => Json.Unpaired key ∧ Json.Unpaired value
  | _ => True

def Request.serve (d : Disk) (store : SessionStore) :
    Request → Except Failure (Option (Option Value) × SessionStore × Disk)
  | get key => (store.get key d).map fun v => (some v, store, d)
  | set key value => (store.set key (.ofPoints value) d).map fun p => (none, p)
  | remove key => (store.remove key d).map fun p => (none, p)

inductive Turn where
  /-- Another store is made, and the directory for the file with it. -/
  | make (s : SealedStore)
  | ask (s : SealedStore) (q : Request)

namespace Turn

def store : Turn → SealedStore
  | make s => s
  | ask s _ => s

def joined : Turn → Turn
  | make s => make s
  | ask s q => ask s q.joined

def Unpaired : Turn → Prop
  | make _ => True
  | ask _ q => q.Unpaired

theorem joined_of_unpaired {t : Turn} (unpaired : t.Unpaired) : t.joined = t := by
  cases t with
  | make s => rfl
  | ask s q =>
    cases q with
    | set key value =>
      obtain ⟨plainKey, plainValue⟩ := unpaired
      rw [joined, Request.joined, Json.joined_of_unpaired plainKey,
        Json.joined_of_unpaired plainValue]
    | _ => rfl

def Writes (key : Points) : Turn → Prop
  | make _ => False
  | ask _ (.get _) => False
  | ask _ (.set k _) => k = key
  | ask _ (.remove k) => k = key

def serve (d : Disk) : Turn → Except Failure (Option (Option Value) × Disk)
  | make s => .ok (none, d.makeParent s.path)
  | ask s q => (q.serve d (.sealed s)).map fun r => (r.1, r.2.2)

def serveBy (d : Disk) (store : SessionStore) :
    Turn → Except Failure (Option (Option Value) × SessionStore)
  | make _ => .ok (none, store)
  | ask _ q => (q.serve d store).map fun r => (r.1, r.2.1)

end Turn

def serveAll (d : Disk) : List Turn → Except Failure (List (Option (Option Value)) × Disk)
  | [] => .ok ([], d)
  | t :: turns => do
    let (a, d) ← t.serve d
    let (as, d) ← serveAll d turns
    return (a :: as, d)

def serveAllBy (d : Disk) (store : SessionStore) :
    List Turn → Except Failure (List (Option (Option Value)) × SessionStore)
  | [] => .ok ([], store)
  | t :: turns => do
    let (a, store) ← t.serveBy d store
    let (as, store) ← serveAllBy d store turns
    return (a :: as, store)

/-- One turn is answered as by a map in memory, and the disk keeps what the map becomes. -/
theorem Holds.turn (holds : Holds path stores d m) (shared : Shared path stores) {t : Turn}
    (ht : stores t.store) (e : Disk) :
    ∃ a d' m', t.serve d = .ok (a, d') ∧ t.joined.serveBy e (.memory m) = .ok (a, .memory m') ∧
      Holds path stores d' m' ∧
      ∀ key, ¬ t.joined.Writes key → Assoc.get? key m' = Assoc.get? key m := by
  cases t with
  | make s =>
    have here := shared.path s ht
    refine ⟨none, d.makeParent s.path, m, rfl, rfl, ?_, fun _ _ => rfl⟩
    rw [here]
    exact holds.makeParent
  | ask s q =>
    have hs : stores s := ht
    cases q with
    | get key =>
      have found := holds.get shared hs key
      refine ⟨some (Assoc.get? key m), d, m, ?_, rfl, holds, fun _ _ => rfl⟩
      simp only [Turn.serve, Request.serve, SessionStore.get, found]
      rfl
    | set key value =>
      obtain ⟨d', done, after⟩ := holds.set shared hs key value
      refine ⟨none, d', _, ?_, rfl, after, fun other apart => Assoc.get?_put_of_ne apart _ m⟩
      simp only [Turn.serve, Request.serve, SessionStore.set, done]
      rfl
    | remove key =>
      obtain ⟨d', done, after⟩ := holds.remove shared hs key
      refine ⟨none, d', _, ?_, rfl, after, fun other apart => Assoc.get?_erase_of_ne apart m⟩
      simp only [Turn.serve, Request.serve, SessionStore.remove, done]
      rfl

theorem Holds.turns (holds : Holds path stores d m) (shared : Shared path stores)
    {turns : List Turn} (members : ∀ t ∈ turns, stores t.store) (e : Disk) :
    ∃ answers d' m', serveAll d turns = .ok (answers, d') ∧
      serveAllBy e (.memory m) (turns.map Turn.joined) = .ok (answers, .memory m') ∧
      Holds path stores d' m' := by
  induction turns generalizing d m with
  | nil => exact ⟨[], d, m, rfl, rfl, holds⟩
  | cons t turns ih =>
    obtain ⟨first, rest⟩ := List.forall_mem_cons.mp members
    obtain ⟨a, d₁, m₁, served, recalled, after, _⟩ := holds.turn shared first e
    obtain ⟨answers, d', m', all, allBy, last⟩ := ih after rest
    refine ⟨a :: answers, d', m', ?_, ?_, last⟩
    · rw [serveAll, served]
      dsimp only [bind, Except.bind]
      rw [all]
      rfl
    · rw [List.map_cons, serveAllBy, recalled]
      dsimp only [bind, Except.bind]
      rw [allBy]
      rfl

/-- The stores on a path that seal with the keys of a secret, at any time and with any start
value. -/
def OfSecret (path secret : String) (s : SealedStore) : Prop :=
  ∃ time start, start.length = 16 ∧
    s = ⟨path, Seal.closeAt (.ofSecret secret) time start, Seal.openWith? (.ofSecret secret)⟩

theorem ofSecret_make (path secret : String) (d : Disk) :
    OfSecret path secret (make path secret d).1 := ⟨0, List.replicate 16 0, rfl, rfl⟩

theorem shared_ofSecret (path secret : String) : Shared path (OfSecret path secret) where
  path := by
    rintro s ⟨time, start, _, rfl⟩
    rfl
  opens := by
    rintro s s' ⟨time, start, length, rfl⟩ ⟨_, _, _, rfl⟩ b
    dsimp only
    exact Seal.openWith?_closeAt (Seal.Keys.length_encrypt secret) length time b

end SealedStore
end FileGate
