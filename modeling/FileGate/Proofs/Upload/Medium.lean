import FileGate.Upload

namespace FileGate

/-! ### Things that are open -/

/-- Something that is read piece by piece, and the place that was come to. -/
structure Handle (α : Type) where
  content : List α
  place : Nat

namespace Handle

variable {α : Type} {n : Nat} {h : Handle α}

def seek (n : Nat) (h : Handle α) : Handle α := { h with place := n }

def toEnd (h : Handle α) : Handle α := h.seek h.content.length

def measure (h : Handle α) : Nat × Handle α := (h.toEnd.place, h.toEnd.seek h.place)

def rest (h : Handle α) : List α := h.content.drop h.place

def next? (n : Nat) (h : Handle α) : Option (List α × Handle α) :=
  let got := h.rest.take n
  if got = [] then none else some (got, h.seek (h.place + got.length))

theorem rest_seek_add (n : Nat) (h : Handle α) :
    (h.seek (h.place + (h.rest.take n).length)).rest = h.rest.drop n := by
  change h.content.drop (h.place + (h.rest.take n).length) = (h.content.drop h.place).drop n
  rw [List.length_take, List.drop_drop, rest, List.length_drop]
  -- Where fewer than `n` are left, both places are the end.
  by_cases few : n ≤ h.content.length - h.place
  · rw [Nat.min_eq_left few]
  · rw [Nat.min_eq_right (by omega), List.drop_eq_nil_of_le (by omega),
      List.drop_eq_nil_of_le (by omega)]

theorem next?_cases (some_ : 0 < n) (h : Handle α) :
    (blocks n h.rest = [] ∧ h.next? n = none) ∨
      ∃ got h', h.next? n = some (got, h') ∧ blocks n h.rest = got :: blocks n h'.rest ∧
        h'.content = h.content ∧ h'.rest.length < h.rest.length := by
  by_cases bare : h.rest = []
  · exact .inl ⟨by rw [bare, blocks_nil], by simp [next?, bare]⟩
  · have more := List.length_pos_iff.mpr bare
    have got : h.rest.take n ≠ [] := by
      intro none_
      have := congrArg List.length none_
      rw [List.length_take, List.length_nil] at this
      omega
    have on := h.rest_seek_add n
    refine .inr ⟨h.rest.take n, h.seek (h.place + (h.rest.take n).length),
      by simp only [next?, if_neg got], ?_, rfl, ?_⟩
    · rw [on, blocks_of_ne_nil some_ bare]
    · rw [on, List.length_drop]
      omega

end Handle

/-! ### Media -/

/-- What an upload is taken from. Data in memory are cut from where the pass has come to, a file is
read from where it stands. -/
inductive Medium where
  | memory (data : Handle UInt8)
  | file (h : Handle UInt8)
  | textFile (f : TextFile) (place : Nat)

def TextFile.handle (f : TextFile) (place : Nat) : Handle Char := ⟨f.content, place⟩

theorem TextFile.handle_place {f : TextFile} {h : Handle Char} (same : h.content = f.content) :
    f.handle h.place = h := by
  cases h
  cases same
  rfl

namespace Medium

variable {n : Nat} {m m' : Medium} {c : Bytes}

def source : Medium → Source
  | memory data => .memory data.content
  | file h => .file h.content
  | textFile f _ => .textFile f

def measure : Medium → Nat × Medium
  | memory data => (data.content.length, memory data)
  | file h => (h.measure.1, file h.measure.2)
  | textFile f place => (f.size, textFile f (f.handle place).measure.2.place)

def rewind : Medium → Medium
  | memory data => memory (data.seek 0)
  | file h => file (h.seek 0)
  | textFile f place => textFile f ((f.handle place).seek 0).place

def next? (n : Nat) : Medium → Option (Bytes × Medium)
  | memory data => (data.next? n).map fun (got, data) => (got, memory data)
  | file h => (h.next? n).map fun (got, h) => (got, file h)
  | textFile f place =>
    ((f.handle place).next? n).map fun (got, h) => (Utf8.encode got, textFile f h.place)

def pieces (n : Nat) : Medium → List Bytes
  | memory data => blocks n data.rest
  | file h => blocks n h.rest
  | textFile f place => (blocks n (f.handle place).rest).map Utf8.encode

def left : Medium → Nat
  | memory data => data.rest.length
  | file h => h.rest.length
  | textFile f place => (f.handle place).rest.length

theorem measure_eq (m : Medium) : m.measure.2 = m := by cases m <;> rfl

theorem size?_source (m : Medium) : m.source.size? = some m.measure.1 := by cases m <;> rfl

theorem exists_medium_iff {s : Source} :
    (∃ k, s.size? = some k) ↔ ∃ m : Medium, m.source = s := by
  constructor
  · rintro ⟨k, size⟩
    cases s with
    | memory b => exact ⟨memory ⟨b, 0⟩, rfl⟩
    | file b => exact ⟨file ⟨b, 0⟩, rfl⟩
    | textFile f => exact ⟨textFile f 0, rfl⟩
    | _ => cases size
  · rintro ⟨m, rfl⟩
    exact ⟨_, m.size?_source⟩

theorem source_rewind (m : Medium) : m.rewind.source = m.source := by cases m <;> rfl

theorem chunks_source (some_ : 0 < n) (m : Medium) :
    m.source.chunks n = .ok (m.rewind.pieces n) := by
  have nonneg : ¬ (n : Int) < 0 := by omega
  cases m with
  | memory data => exact if_neg (by omega)
  | file h => exact congrArg Except.ok (if_neg nonneg)
  | textFile f place =>
    exact congrArg (fun l : List (List Char) => Except.ok (l.map Utf8.encode)) (if_neg nonneg)

theorem next?_cases (some_ : 0 < n) (m : Medium) :
    (m.pieces n = [] ∧ m.next? n = none) ∨
      ∃ c m', m.next? n = some (c, m') ∧ m.pieces n = c :: m'.pieces n ∧
        m'.source = m.source ∧ m'.left < m.left := by
  cases m with
  | memory data =>
    rcases data.next?_cases some_ with ⟨bare, none_⟩ | ⟨got, data', next, split, same, less⟩
    · exact .inl ⟨bare, by rw [Medium.next?, none_]; rfl⟩
    · exact .inr ⟨got, memory data', by rw [Medium.next?, next]; rfl, split,
        congrArg Source.memory same, less⟩
  | file h =>
    rcases h.next?_cases some_ with ⟨bare, none_⟩ | ⟨got, h', next, split, same, less⟩
    · exact .inl ⟨bare, by rw [Medium.next?, none_]; rfl⟩
    · exact .inr ⟨got, file h', by rw [Medium.next?, next]; rfl, split,
        congrArg Source.file same, less⟩
  | textFile f place =>
    rcases (f.handle place).next?_cases some_ with
      ⟨bare, none_⟩ | ⟨got, h', next, split, same, less⟩
    · exact .inl ⟨congrArg (List.map Utf8.encode) bare, by rw [Medium.next?, none_]; rfl⟩
    · have there := TextFile.handle_place same
      refine .inr ⟨Utf8.encode got, textFile f h'.place, by rw [Medium.next?, next]; rfl, ?_, rfl,
        ?_⟩
      · rw [pieces, pieces, there, split, List.map_cons]
      · rwa [left, left, there]

end Medium
end FileGate
