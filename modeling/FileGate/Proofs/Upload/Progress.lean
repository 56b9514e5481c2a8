import FileGate.Proofs.Upload.Reading
import Mathlib.Algebra.Order.Field.Rat
import Mathlib.Tactic.GCongr
import Mathlib.Tactic.Positivity

/-! What is told about an upload on its way. A recorder notes the numbers it is told and after which
chunk each of them came. In a pass over bytes they are the shares of the data that are over after
each block, up to the block before which the pass is stopped. -/
namespace FileGate

/-! ### Shares -/

def share (loaded total : Nat) : ℚ := loaded / total * 100

theorem share_mono {l l' : Nat} (le : l ≤ l') (total : Nat) : share l total ≤ share l' total := by
  have : (l : ℚ) ≤ l' := Nat.cast_le.mpr le
  unfold share
  gcongr

theorem share_le_iff {l total : Nat} (some_ : 0 < total) : share l total ≤ 100 ↔ l ≤ total := by
  have pos : (0 : ℚ) < total := Nat.cast_pos.mpr some_
  rw [share, mul_le_iff_le_one_left (by norm_num), div_le_one pos, Nat.cast_le]

theorem share_eq_iff {l total : Nat} (some_ : 0 < total) : share l total = 100 ↔ l = total := by
  have pos : (total : ℚ) ≠ 0 := Nat.cast_ne_zero.mpr (by omega)
  rw [share, mul_eq_right₀ (by norm_num), div_eq_one_iff_eq pos, Nat.cast_inj]

namespace OpenUpload

variable {ρ : Type} {stops : Nat → Bool} {value : Nat → Nat → ρ} {u : OpenUpload}

/-! ### A pass that is recorded -/

/-- Counts the chunks, notes what it is told after which of them, and stops a pass between two of
them as `stops` says of their number. -/
def recorder (stops : Nat → Bool) : Consumer ρ (Nat × List (Nat × ρ)) where
  stopped s := stops s.1
  leaves _ := false
  receive _ s := (s.1 + 1, s.2)
  progress := some fun p s => ((s.1, s.2 ++ [(s.1, p)]), none)

/-- What is told about `cs`, which come after `k` chunks that made `loaded` bytes. -/
def told (value : Nat → Nat → ρ) (total k loaded : Nat) (cs : List Bytes) : List (Nat × ρ) :=
  (List.range cs.length).map fun i =>
    (k + i + 1, value (loaded + (cs.take (i + 1)).flatten.length) total)

theorem told_cons (total k loaded : Nat) (c : Bytes) (cs : List Bytes) :
    told value total k loaded (c :: cs) = (k + 1, value (loaded + c.length) total) ::
      told value total (k + 1) (loaded + c.length) cs := by
  rw [told, told, List.length_cons, List.range_succ_eq_map, List.map_cons, List.map_map]
  congr 1
  · simp
  · apply List.map_congr_left
    intro i _
    simp only [Function.comp_apply, Nat.succ_eq_add_one, List.take_succ_cons, List.flatten_cons,
      List.length_append]
    congr 2 <;> omega

theorem pieces_of_total (none_ : u.total = 0) : u.pieces = [] := by
  have bare {α : Type} (h : Handle α) (none_ : h.content.length = 0) (n : Nat) :
      blocks n h.rest = [] := by
    rw [Handle.rest, List.length_eq_zero_iff.mp none_, List.drop_nil, blocks_nil]
  cases u with
  | mk medium chunkSize some_ loaded =>
    cases medium with
    | memory data => exact bare data none_ chunkSize
    | file h => exact bare h none_ chunkSize
    | textFile f place =>
      exact congrArg (List.map Utf8.encode)
        (bare (f.handle place) (congrArg List.length (f.bare none_)) chunkSize)

/-- What `i` came to as the rest of a recorded pass, when `k` chunks had been received before and `j`
more have been then. -/
structure Recorded (value : Nat → Nat → ρ) (stops : Nat → Bool) (u : OpenUpload) (k : Nat)
    (l : List (Nat × ρ)) (j : Nat) (i : Iteration (Nat × List (Nat × ρ))) : Prop where
  received : i.received = u.pieces.take j
  loaded : i.body.loaded = u.loaded + (u.pieces.take j).flatten.length
  state : i.state = (k + j, l ++ told value u.total k u.loaded (u.pieces.take j))
  before : ∀ n < j, stops (k + n) = false
  ending : j = u.pieces.length ∧ i.ending = .done ∨
    j < u.pieces.length ∧ stops (k + j) = true ∧ i.ending = .failed .abortedNow

section
variable {v : OpenUpload} {k j : Nat} {l : List (Nat × ρ)} {c : Bytes}
  {i : Iteration (Nat × List (Nat × ρ))}

theorem Recorded.nil (bare : u.pieces = []) :
    Recorded value stops u k l 0 ⟨[], .done, (k, l), u⟩ := by
  refine ⟨by simp, by simp, by simp [told], ?_, .inl ⟨by rw [bare]; rfl, rfl⟩⟩
  intro n less
  omega

theorem Recorded.stop (next : Next u c v) (stopped : stops k = true) :
    Recorded value stops u k l 0 ⟨[], .failed .abortedNow, (k, l), v⟩ := by
  have more : 0 < u.pieces.length := by
    rw [next.pieces]
    exact Nat.zero_lt_succ _
  refine ⟨by simp, by simp [next.loaded], by simp [told], ?_, .inr ⟨more, stopped, rfl⟩⟩
  intro n less
  omega

theorem Recorded.cons (next : Next u c v) (going : stops k = false)
    (rest : Recorded value stops (v.counted c.length) (k + 1)
      (l ++ [(k + 1, value (u.loaded + c.length) u.total)]) j i) :
    Recorded value stops u k l (j + 1) { i with received := c :: i.received } := by
  have taken : u.pieces.take (j + 1) = c :: (v.counted c.length).pieces.take j := by
    rw [next.pieces]
    rfl
  have count : k + 1 + j = k + (j + 1) := by omega
  constructor
  case received =>
    rw [taken, ← rest.received]
  case loaded =>
    change i.body.loaded = _
    rw [rest.loaded, taken, next.loaded_counted, List.flatten_cons, List.length_append,
      Nat.add_assoc]
  case state =>
    change i.state = _
    rw [rest.state, taken, told_cons, next.total_counted, next.loaded_counted, count,
      List.append_assoc, List.singleton_append]
  case before =>
    intro n less
    cases n with
    | zero => exact going
    | succ n =>
      have := rest.before n (by omega)
      rwa [show k + 1 + n = k + (n + 1) by omega] at this
  case ending =>
    have length : u.pieces.length = (v.counted c.length).pieces.length + 1 :=
      congrArg List.length next.pieces
    have ended := rest.ending
    rw [count] at ended
    rcases ended with ⟨all, done⟩ | ⟨some_, stopped, failed⟩
    · exact .inl ⟨by omega, done⟩
    · exact .inr ⟨by omega, stopped, failed⟩

theorem tell_recorder (next : Next u c v) (k : Nat) (l : List (Nat × ρ)) :
    (v.counted c.length).tell value (recorder stops) (k, l) =
      ((k, l ++ [(k, value (u.loaded + c.length) u.total)]), none) := by
  obtain ⟨t, size⟩ : ∃ t, u.total = t + 1 := by
    rcases Nat.eq_zero_or_pos u.total with none_ | some_
    · cases next.pieces.symm.trans (pieces_of_total none_)
    · exact ⟨u.total - 1, by omega⟩
  simp only [tell, recorder, next.total_counted, next.loaded_counted, size]

theorem Runs.recorded {state : Nat × List (Nat × ρ)}
    (runs : Runs value (recorder stops) state u i) :
    ∃ j, Recorded value stops u state.1 state.2 j i := by
  induction runs with
  | done bare => exact ⟨0, .nil bare⟩
  | stopped next stopped => exact ⟨0, .stop next stopped⟩
  | left _ _ leaves => cases leaves
  | failed next _ told => cases told.symm.trans (tell_recorder next _ _)
  | on next going told _ ih =>
    cases told.symm.trans (tell_recorder next _ _)
    obtain ⟨j, rest⟩ := ih
    exact ⟨j + 1, .cons next going rest⟩

end

theorem iterate_recorder (value : Nat → Nat → ρ) (stops : Nat → Bool) (u : OpenUpload) :
    ∃ j, Recorded value stops u.rewound 0 [] j (u.iterate value (recorder stops) (0, [])) :=
  (runs_go value (recorder stops) (0, []) u.rewound).recorded

theorem Recorded.outcome {j : Nat} {i : Iteration (Nat × List (Nat × ρ))} {cs : List Bytes}
    (recorded : Recorded value stops u.rewound 0 [] j i) (taken : u.rewound.pieces.take j = cs) :
    i.received = cs ∧ i.body.loaded = cs.flatten.length ∧
      i.state.2 = told value u.total 0 0 cs := by
  have loaded := recorded.loaded
  have state := congrArg Prod.snd recorded.state
  rw [taken, show u.rewound.loaded = 0 from rfl, Nat.zero_add] at loaded
  rw [taken, (same_rewound u).total] at state
  exact ⟨recorded.received.trans taken, loaded, state⟩

theorem iterate_until (value : Nat → Nat → ρ) (n : Nat) (u : OpenUpload) :
    let i := u.iterate value (recorder fun k => n ≤ k) (0, [])
    let cs := u.rewound.pieces.take n
    (i.received = cs ∧ i.body.loaded = cs.flatten.length ∧
      i.state.2 = told value u.total 0 0 cs) ∧
      i.ending = if n < u.rewound.pieces.length then .failed .abortedNow else .done := by
  intro i cs
  obtain ⟨j, recorded⟩ := iterate_recorder value (fun k => n ≤ k) u
  have le : j ≤ n := by
    by_contra more
    have := recorded.before n (by omega)
    simp at this
  rcases recorded.ending with ⟨rfl, done⟩ | ⟨some_, stopped, failed⟩
  · have all : u.rewound.pieces.take u.rewound.pieces.length = cs :=
      List.take_length.trans (List.take_of_length_le le).symm
    rw [if_neg (by omega)]
    exact ⟨recorded.outcome all, done⟩
  · have most : n ≤ 0 + j := of_decide_eq_true stopped
    obtain rfl : j = n := by omega
    rw [if_pos some_]
    exact ⟨recorded.outcome rfl, failed⟩

theorem iterate_through (value : Nat → Nat → ρ) (u : OpenUpload) :
    let i := u.iterate value (recorder fun _ => false) (0, [])
    let cs := u.rewound.pieces
    (i.received = cs ∧ i.body.loaded = cs.flatten.length ∧
      i.state.2 = told value u.total 0 0 cs) ∧ i.ending = .done := by
  intro i cs
  obtain ⟨j, recorded⟩ := iterate_recorder value (fun _ => false) u
  rcases recorded.ending with ⟨rfl, done⟩ | ⟨_, stopped, _⟩
  · exact ⟨recorded.outcome List.take_length, done⟩
  · cases stopped

/-! ### Bytes -/

section
variable {m : Medium} {d : Bytes} {c : Nat}

/-- What the chunks of `d` come to: after each the share of the data that is over. -/
def marks (c : Nat) (d : Bytes) : List (Nat × ℚ) :=
  (List.range (blocks c d).length).map fun k =>
    (k + 1, 100 * (min ((k + 1) * c) d.length : Nat) / d.length)

theorem told_blocks (some_ : 0 < c) (d : Bytes) (n : Nat) :
    told share d.length 0 0 ((blocks c d).take n) = (marks c d).take n := by
  rw [told, marks, ← List.map_take, List.take_range, List.length_take]
  apply List.map_congr_left
  intro k there
  rw [List.mem_range] at there
  rw [List.take_take, Nat.min_eq_left (by omega), flatten_take_blocks some_, List.length_take,
    Nat.zero_add, Nat.zero_add, share, div_mul_eq_mul_div, mul_comm (100 : ℚ)]

theorem pieces_of_binary (binary : m.source = .memory d ∨ m.source = .file d) (n : Nat) :
    m.rewind.pieces n = blocks n d := by
  cases m with
  | memory data =>
    rcases binary with same | same
    · cases same
      rfl
    · cases same
  | file h =>
    rcases binary with same | same
    · cases same
    · cases same
      rfl
  | textFile f place => rcases binary with same | same <;> cases same

theorem size_of_binary (binary : m.source = .memory d ∨ m.source = .file d) :
    m.measure.1 = d.length := by
  have size := m.size?_source
  rcases binary with same | same
  · rw [same] at size
    exact (Option.some.inj size).symm
  · rw [same] at size
    exact (Option.some.inj size).symm

/-- Whatever became of earlier passes, a pass hands over the data block by block, tells after each
the share that is over, and can be stopped between any two of them. -/
theorem iterate_blocks (some_ : 0 < c) (binary : m.source = .memory d ∨ m.source = .file d)
    {u : OpenUpload} (used : Used (.of m c some_) u) :
    ((blocks c d).flatten = d ∧
      ∀ k b, (blocks c d)[k]? = some b → b = (d.drop (k * c)).take c ∧ b ≠ []) ∧
    (let i := u.iterate share (recorder fun _ => false) (0, []);
      i.received = blocks c d ∧ i.ending = .done ∧ i.body.loaded = d.length ∧
        i.state.2 = marks c d) ∧
    (∀ n, let i := u.iterate share (recorder fun k => n ≤ k) (0, []);
      i.received = (blocks c d).take n ∧
        i.ending = (if n < (blocks c d).length then .failed .abortedNow else .done) ∧
        i.body.loaded = ((blocks c d).take n).flatten.length ∧ i.state.2 = (marks c d).take n) ∧
    ∀ {σ : Type} (r : Receiver σ) (s : σ),
      (u.iterate percentage r.consumer s).result =
        ((⟨m.source, c⟩ : Upload).pass r s).1.result := by
  have same : Same ⟨m, c, some_, 0⟩ u := (same_of m c some_).trans used.same
  have binary : u.medium.source = .memory d ∨ u.medium.source = .file d := same.source ▸ binary
  have pieces : u.rewound.pieces = blocks c d := by
    rw [← show u.chunkSize = c from same.chunkSize]
    exact pieces_of_binary binary u.chunkSize
  have total : u.total = d.length := size_of_binary binary
  have whole : (blocks c d).flatten = d := flatten_blocks some_ d
  refine ⟨⟨whole, ?_⟩, ?_, ?_, ?_⟩
  · intro k b there
    rw [getElem?_blocks some_] at there
    split at there
    · cases there
      refine ⟨rfl, fun none_ => ?_⟩
      have := congrArg List.length none_
      rw [List.length_take, List.length_drop, List.length_nil] at this
      omega
    · cases there
  · obtain ⟨⟨received, loaded, state⟩, done⟩ := iterate_through share u
    have all := told_blocks some_ d (blocks c d).length
    rw [List.take_length, List.take_of_length_le (by rw [marks, List.length_map, List.length_range])]
      at all
    rw [pieces] at received loaded state
    rw [whole] at loaded
    rw [total, all] at state
    exact ⟨received, done, loaded, state⟩
  · intro n
    obtain ⟨⟨received, loaded, state⟩, ending⟩ := iterate_until share n u
    rw [pieces] at received loaded state ending
    rw [total, told_blocks some_] at state
    exact ⟨received, ending, loaded, state⟩
  · intro σ r s
    rw [(iterate_receiver r s u).1, same.upload]
    rfl

def leaver : Consumer ℚ Unit where
  stopped _ := false
  leaves _ := true
  receive _ _ := ()
  progress := none

def leftFile : OpenUpload :=
  ((of (.file ⟨[1, 2, 3, 4, 5], 3⟩) 2 (by decide)).iterate share leaver ()).body

theorem iterate_blocks_leftFile :
    (let i := leftFile.iterate share (recorder fun _ => false) (0, []);
      i.received = [[1, 2], [3, 4], [5]] ∧ i.ending = .done ∧ i.body.loaded = 5 ∧
        i.state.2 = [(1, 40), (2, 80), (3, 100)]) ∧
    let i := leftFile.iterate share (recorder fun k => 1 ≤ k) (0, [])
    i.received = [[1, 2]] ∧ i.ending = .failed .abortedNow ∧ i.body.loaded = 2 ∧
      i.state.2 = [(1, 40)] := by
  have cut : blocks 2 [1, 2, 3, 4, (5 : UInt8)] = [[1, 2], [3, 4], [5]] := by
    simp [blocks]
  have told : marks 2 [1, 2, 3, 4, 5] = [(1, 40), (2, 80), (3, 100)] := by
    rw [marks, cut]
    decide +kernel
  have used : Used (of (.file ⟨[1, 2, 3, 4, 5], 3⟩) 2 (by decide)) leftFile :=
    .again share leaver () .new
  obtain ⟨_, through, stopped, _⟩ := iterate_blocks (by decide) (.inr rfl) used
  have stopped := stopped 1
  rw [cut, told] at through stopped
  exact ⟨through, stopped⟩

end

end OpenUpload
end FileGate
