import FileGate.Proofs.Session.Sharing
import FileGate.Proofs.Tree.Invariant

/-! What a store makes of whatever it finds in the place of its file. A file that does not open, or
opens to a text that is no JSON, holds no entries and can be written over. A directory, data that
are no text, JSON that is no object and JSON with a number that is too long are in the way. -/
namespace FileGate.SealedStore

variable {s : SealedStore} {d : Disk} {m : List (Value × Value)} {f : Failure}

def opened? (s : SealedStore) (d : Disk) : Option Bytes :=
  (FileTree.read d (Disk.locate s.path)).bind s.lock.open?

/-- The file opens to an object with these entries. -/
def Object (s : SealedStore) (d : Disk) (m : List (Value × Value)) : Prop :=
  ∃ b t, s.opened? d = some b ∧ Utf8.decode? b = some t ∧ Json.read t = .ok (.map m)

/-- There is no file, or it does not open, or what it opens to is a text and no JSON. -/
def Blank (s : SealedStore) (d : Disk) : Prop :=
  d.isDir (Disk.locate s.path) = false ∧
    ∀ b, s.opened? d = some b → ∃ t, Utf8.decode? b = some t ∧ Json.read t = .error .malformed

/-- What stands in the way of a look at the entries, with the failure in which it ends. -/
inductive Obstructed (s : SealedStore) (d : Disk) : Failure → Prop where
  | directory (dir : d.isDir (Disk.locate s.path) = true) : Obstructed s d .isDirectory
  | noText {b : Bytes} (opened : s.opened? d = some b) (faulty : Utf8.decode? b = none) :
    Obstructed s d .badText
  | tooLong {b : Bytes} {t : List Char} (opened : s.opened? d = some b)
    (text : Utf8.decode? b = some t) (long : Json.read t = .error .tooLong) :
    Obstructed s d .badValue
  | noObject {b : Bytes} {t : List Char} {v : Value} (opened : s.opened? d = some b)
    (text : Utf8.decode? b = some t) (json : Json.read t = .ok v) (other : ∀ m, v ≠ .map m) :
    Obstructed s d .noMember

/-! ### A look at the file -/

theorem exists_file_of_opened {b : Bytes} (opened : s.opened? d = some b) :
    ∃ c, FileTree.read d (Disk.locate s.path) = some c ∧ s.lock.open? c = some b :=
  Option.bind_eq_some_iff.mp opened

theorem exists?_of_opened {b : Bytes} (opened : s.opened? d = some b) :
    d.exists? s.path = true := by
  obtain ⟨c, there, _⟩ := exists_file_of_opened opened
  rw [Disk.exists?, FileTree.isFile_of_read there, Bool.or_true]

theorem plain_of_opened {b : Bytes} (opened : s.opened? d = some b) :
    s.plain d = match Utf8.decode? b with
      | none => .error .badText
      | some t => .ok t := by
  obtain ⟨c, there, unsealed⟩ := exists_file_of_opened opened
  have content : d.read s.path = .ok c := by rw [Disk.read, there]
  unfold plain
  rw [content]
  dsimp only [bind, Except.bind]
  generalize s.lock.open? c = o at unsealed
  subst unsealed
  rfl

theorem read_of_text {b : Bytes} {t : List Char} (opened : s.opened? d = some b)
    (text : Utf8.decode? b = some t) :
    s.read d = match Json.read t with
      | .ok v => .ok v
      | .error .malformed => .ok (.map [])
      | .error .tooLong => .error .badValue := by
  have plain := plain_of_opened opened
  rw [text] at plain
  rw [SealedStore.read, exists?_of_opened opened, plain]
  rfl

theorem read_of_object (object : s.Object d m) : s.read d = .ok (.map m) := by
  obtain ⟨b, t, opened, text, json⟩ := object
  rw [read_of_text opened text, json]

theorem read_of_unopened (noDir : d.isDir (Disk.locate s.path) = false)
    (unopened : s.opened? d = none) : s.read d = .ok (.map []) := by
  unfold SealedStore.read
  cases there : FileTree.read d (Disk.locate s.path) with
  | none =>
    have absent : d.exists? s.path = false := by
      rw [Disk.exists?, noDir, FileTree.isFile_eq_isSome, there]
      rfl
    rw [absent]
    rfl
  | some c =>
    have exists_ : d.exists? s.path = true := by
      rw [Disk.exists?, FileTree.isFile_of_read there, Bool.or_true]
    have sealed : s.lock.open? c = none := by rwa [opened?, there] at unopened
    have plain : s.plain d = .error .badSeal := by
      have content : d.read s.path = .ok c := by rw [Disk.read, there]
      unfold SealedStore.plain
      rw [content]
      dsimp only [bind, Except.bind]
      rw [sealed]
    rw [exists_, plain]
    rfl

theorem Blank.read (blank : s.Blank d) : s.read d = .ok (.map []) := by
  cases opened : s.opened? d with
  | none => exact read_of_unopened blank.1 opened
  | some b =>
    obtain ⟨t, text, malformed⟩ := blank.2 b opened
    rw [read_of_text opened text, malformed]

theorem Obstructed.read (obstructed : s.Obstructed d f) (w : FileTree.WellFormed d) :
    s.read d = .error f ∨ f = .noMember ∧ ∃ v, s.read d = .ok v ∧ ∀ m, v ≠ .map m := by
  cases obstructed with
  | directory dir =>
    left
    have exists_ : d.exists? s.path = true := by rw [Disk.exists?, dir, Bool.true_or]
    have noFile : FileTree.read d (Disk.locate s.path) = none := by
      have apart := w.disjoint (Disk.locate s.path)
      simpa [dir, FileTree.isFile_eq_isSome] using apart
    have content : d.read s.path = .error .isDirectory := by
      rw [Disk.read, noFile, if_pos dir]
    have plain : s.plain d = .error .isDirectory := by
      unfold SealedStore.plain
      rw [content]
      rfl
    rw [SealedStore.read, exists_, plain]
    rfl
  | noText opened faulty =>
    left
    have plain := plain_of_opened opened
    rw [faulty] at plain
    rw [SealedStore.read, exists?_of_opened opened, plain]
    rfl
  | tooLong opened text long =>
    left
    rw [read_of_text opened text, long]
  | noObject opened text json other =>
    right
    exact ⟨rfl, _, by rw [read_of_text opened text, json], other⟩

theorem found_cases (s : SealedStore) (d : Disk) :
    (∃ m, s.Object d m) ∨ s.Blank d ∨ ∃ f, s.Obstructed d f := by
  cases dir : d.isDir (Disk.locate s.path) with
  | true => exact .inr (.inr ⟨_, .directory dir⟩)
  | false =>
    cases opened : s.opened? d with
    | none => exact .inr (.inl ⟨dir, fun b there => by rw [opened] at there; cases there⟩)
    | some b =>
      cases text : Utf8.decode? b with
      | none => exact .inr (.inr ⟨_, .noText opened text⟩)
      | some t =>
        cases json : Json.read t with
        | error fault =>
          cases fault with
          | malformed =>
            refine .inr (.inl ⟨dir, fun c there => ⟨t, ?_, json⟩⟩)
            rw [opened] at there
            cases there
            exact text
          | tooLong => exact .inr (.inr ⟨_, .tooLong opened text json⟩)
        | ok v =>
          by_cases object : ∃ m, v = .map m
          · obtain ⟨m, rfl⟩ := object
            exact .inl ⟨m, b, t, opened, text, json⟩
          · exact .inr (.inr ⟨_, .noObject opened text json fun m same => object ⟨m, same⟩⟩)

/-! ### Requests -/

theorem get_of_object (object : s.Object d m) (key : Points) :
    s.get key d = .ok (Value.lookup? key m) := by
  unfold SealedStore.get
  rw [read_of_object object]
  rfl

theorem Blank.get (blank : s.Blank d) (key : Points) : s.get key d = .ok none := by
  unfold SealedStore.get
  rw [blank.read]
  rfl

theorem Obstructed.get (obstructed : s.Obstructed d f) (w : FileTree.WellFormed d) (key : Points) :
    s.get key d = .error f := by
  unfold SealedStore.get
  rcases obstructed.read w with failed | ⟨rfl, v, read, other⟩
  · rw [failed]
    rfl
  · rw [read]
    cases v with
    | map m => exact absurd rfl (other m)
    | _ => rfl

theorem Obstructed.set (obstructed : s.Obstructed d f) (w : FileTree.WellFormed d) (key : Points)
    (v : Value) : ∃ f', s.set key v d = .error f' := by
  unfold SealedStore.set
  rcases obstructed.read w with failed | ⟨rfl, x, read, other⟩
  · rw [failed]
    exact ⟨f, rfl⟩
  · rw [read]
    cases x with
    | map m => exact absurd rfl (other m)
    | _ => exact ⟨_, rfl⟩

theorem Blank.set {path : String} {stores : SealedStore → Prop} (blank : s.Blank d)
    (shared : Shared path stores) (hs : stores s) (w : FileTree.WellFormed d)
    (parent : d.isDir (Path.parent (Disk.locate path)) = true) (key value : Points) :
    ∃ d', s.set key (.ofPoints value) d = .ok d' ∧ ∀ k, s.get k d' =
      .ok (if k = Json.joined key then some (.ofPoints (Json.joined value)) else none) := by
  have free := blank.1
  rw [shared.path s hs] at free
  have notRoot : Disk.locate path ≠ ['/'] := by
    intro same
    rw [same, w.root_dir] at free
    cases free
  obtain ⟨d', written, holds⟩ := holds_of_write (m := [(key, .ofPoints value)]) shared hs notRoot
    parent free fun e there => ⟨value, by rw [List.mem_singleton.mp there]⟩
  have alone : Assoc.ofList (Json.joinedEntries [(key, .ofPoints value)]) =
      [(Json.joined key, .ofPoints (Json.joined value))] := by
    rw [Json.joinedEntries_cons]
    rfl
  rw [alone] at holds
  refine ⟨d', ?_, fun k => ?_⟩
  · unfold SealedStore.set
    rw [blank.read]
    exact written
  · rw [holds.get shared hs, Assoc.get?]
    by_cases same : k = Json.joined key
    · simp [same]
    · simp [same, Ne.symm same, Assoc.get?]

/-- A look at a key fails exactly if something stands in the way, and otherwise finds what the
object in the file has for it. Where there is no object the file reads as one without entries, and
what is set is found as it reads in JSON. Where something stands in the way nothing can be set. Data sealed with the
secret are opened, whatever they are. -/
theorem get_exact {path secret : String} (hs : OfSecret path secret s) (w : FileTree.WellFormed d)
    (parent : d.isDir (Path.parent (Disk.locate path)) = true) :
    (∀ key f, s.get key d = .error f ↔ s.Obstructed d f) ∧
    (∀ key v, s.get key d = .ok v ↔
      (∃ m, s.Object d m ∧ v = Value.lookup? key m) ∨ s.Blank d ∧ v = none) ∧
    (s.Blank d → s.read d = .ok (.map []) ∧ ∀ key value, ∃ d',
      s.set key (.ofPoints value) d = .ok d' ∧ ∀ k, s.get k d' =
        .ok (if k = Json.joined key then some (.ofPoints (Json.joined value)) else none)) ∧
    (∀ f, s.Obstructed d f → ∀ key v, ∃ f', s.set key v d = .error f') ∧
    ∀ s' b, OfSecret path secret s' →
      FileTree.read d (Disk.locate path) = some (s'.lock.close b) → s.opened? d = some b := by
  have shared := shared_ofSecret path secret
  refine ⟨fun key f => ⟨fun failed => ?_, fun obstructed => obstructed.get w key⟩,
    fun key v => ⟨fun found => ?_, ?_⟩,
    fun blank => ⟨blank.read, blank.set shared hs w parent⟩,
    fun f obstructed => obstructed.set w, fun s' b hs' content => ?_⟩
  · rcases found_cases s d with ⟨m, object⟩ | blank | ⟨g, obstructed⟩
    · rw [get_of_object object] at failed
      cases failed
    · rw [blank.get] at failed
      cases failed
    · rw [obstructed.get w] at failed
      cases failed
      exact obstructed
  · rcases found_cases s d with ⟨m, object⟩ | blank | ⟨g, obstructed⟩
    · rw [get_of_object object] at found
      cases found
      exact .inl ⟨m, object, rfl⟩
    · rw [blank.get] at found
      cases found
      exact .inr ⟨blank, rfl⟩
    · rw [obstructed.get w] at found
      cases found
  · rintro (⟨m, object, rfl⟩ | ⟨blank, rfl⟩)
    · exact get_of_object object key
    · exact blank.get key
  · rw [opened?, shared.path s hs, content]
    exact shared.opens s' s hs' hs b

def keeping (content : Bytes) : Disk := ⟨[['/'], "/s".toList], [("/s/f".toList, content)]⟩

theorem keeping_wellFormed (content : Bytes) : FileTree.WellFormed (keeping content) := by
  have dir : Path.IsNormal "/s".toList := Path.isNormal_normalize "/s".toList
  have file : Path.IsNormal "/s/f".toList := Path.isNormal_normalize "/s/f".toList
  exact (FileTree.empty_wellFormed.mkdir dir).write file content

theorem get_exact_spoiled :
    (make "/s/f" "k" {}).1.get "a" (keeping [0]) = .ok none ∧
      ∃ d, (make "/s/f" "k" {}).1.set "a" (.text "1") (keeping [0]) = .ok d ∧
        (make "/s/f" "k" {}).1.get "a" d = .ok (some (.text "1")) := by
  have unopened : (make "/s/f" "k" {}).1.opened? (keeping [0]) = none := by decide +kernel
  have blank : (make "/s/f" "k" {}).1.Blank (keeping [0]) := by
    refine ⟨by decide, fun b there => ?_⟩
    rw [unopened] at there
    cases there
  obtain ⟨_, found, set, _⟩ :=
    get_exact (ofSecret_make "/s/f" "k" {}) (keeping_wellFormed [0]) (by decide)
  obtain ⟨d, done, after⟩ := (set blank).2 "a" "1"
  exact ⟨(found "a" none).mpr (.inr ⟨blank, rfl⟩), d, done, after "a"⟩

theorem opened?_keeping (b : Bytes) :
    (make "/s/f" "k" {}).1.opened? (keeping ((make "/s/f" "k" {}).1.lock.close b)) = some b := by
  have first := ofSecret_make "/s/f" "k" {}
  exact (shared_ofSecret "/s/f" "k").opens _ _ first first b

/-- No entry is found, nor that there is none, where a directory stands in the place of the file or
the file holds a list, or a byte that is no text, under the right seal. -/
theorem get_obstructed :
    (make "/s/f" "k" {}).1.get "a" ⟨[['/'], "/s".toList, "/s/f".toList], []⟩ =
      .error .isDirectory ∧
    (make "/s/f" "k" {}).1.get "a" (keeping ((make "/s/f" "k" {}).1.lock.close [91, 93])) =
      .error .noMember ∧
    (make "/s/f" "k" {}).1.get "a" (keeping ((make "/s/f" "k" {}).1.lock.close [0xFF])) =
      .error .badText := by
  refine ⟨rfl, ?_, ?_⟩
  · have list : Json.read ['[', ']'] = .ok (.list []) := rfl
    exact (Obstructed.noObject (opened?_keeping _) (by decide +kernel) list (by simp)).get
      (keeping_wellFormed _) "a"
  · exact (Obstructed.noText (opened?_keeping _) (by decide +kernel)).get (keeping_wellFormed _) "a"

end FileGate.SealedStore
