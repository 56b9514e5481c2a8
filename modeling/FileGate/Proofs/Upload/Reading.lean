import FileGate.Proofs.Upload.Medium

namespace FileGate

/-! ### Passes -/

/-- Whoever takes chunks: as a `Receiver`, but it may also ask for no more of them, and percentages
are numbers of any kind. -/
structure Consumer (ρ σ : Type) where
  stopped : σ → Bool
  leaves : σ → Bool
  receive : Bytes → σ → σ
  progress : Option (ρ → σ → σ × Option Failure)

inductive Ending where
  | done
  /-- The consumer asked for no more. -/
  | left
  | failed (f : Failure)
  deriving DecidableEq

/-- An upload whose medium stands somewhere, with the bytes counted in its latest pass. -/
structure OpenUpload where
  medium : Medium
  chunkSize : Nat
  some_ : 0 < chunkSize
  loaded : Nat

structure Iteration (σ : Type) where
  received : List Bytes
  ending : Ending
  state : σ
  body : OpenUpload

namespace OpenUpload

variable {ρ σ : Type}

def of (m : Medium) (chunkSize : Nat) (some_ : 0 < chunkSize) : OpenUpload :=
  ⟨m.measure.2, chunkSize, some_, 0⟩

def total (u : OpenUpload) : Nat := u.medium.measure.1

def counted (n : Nat) (u : OpenUpload) : OpenUpload := { u with loaded := u.loaded + n }

def tell (value : Nat → Nat → ρ) (r : Consumer ρ σ) (s : σ) (u : OpenUpload) :
    σ × Option Failure :=
  match r.progress, u.total with
  | some f, t + 1 => f (value u.loaded (t + 1)) s
  | _, _ => (s, none)

inductive Turn (σ : Type) where
  | ended (received : List Bytes) (ending : Ending) (state : σ) (body : OpenUpload)
  | on (chunk : Bytes) (state : σ) (body : OpenUpload)

/-- What is done about a chunk once it has been read. It is counted when the consumer asks for the
next one. -/
def hand (value : Nat → Nat → ρ) (r : Consumer ρ σ) (s : σ) (c : Bytes) (u : OpenUpload) : Turn σ :=
  if r.stopped s then .ended [] (.failed .abortedNow) s u
  else if r.leaves (r.receive c s) then .ended [c] .left (r.receive c s) u
  else match (u.counted c.length).tell value r (r.receive c s) with
    | (s, some f) => .ended [c] (.failed f) s (u.counted c.length)
    | (s, none) => .on c s (u.counted c.length)

def turn (value : Nat → Nat → ρ) (r : Consumer ρ σ) (s : σ) (u : OpenUpload) : Turn σ :=
  match u.medium.next? u.chunkSize with
  | none => .ended [] .done s u
  | some (c, m) => hand value r s c { u with medium := m }

def pieces (u : OpenUpload) : List Bytes := u.medium.pieces u.chunkSize

structure Same (u v : OpenUpload) : Prop where
  source : v.medium.source = u.medium.source
  chunkSize : v.chunkSize = u.chunkSize

structure Next (u : OpenUpload) (c : Bytes) (v : OpenUpload) : Prop extends Same u v where
  pieces : u.pieces = c :: v.pieces
  loaded : v.loaded = u.loaded

section
variable {u v w : OpenUpload} {value : Nat → Nat → ρ} {r : Consumer ρ σ} {s s' : σ} {c : Bytes}

theorem Same.refl (u : OpenUpload) : Same u u := ⟨rfl, rfl⟩

theorem Same.trans (h : Same u v) (h' : Same v w) : Same u w :=
  ⟨h'.source.trans h.source, h'.chunkSize.trans h.chunkSize⟩

theorem same_counted (n : Nat) (u : OpenUpload) : Same u (u.counted n) := ⟨rfl, rfl⟩

theorem same_of (m : Medium) (n : Nat) (some_ : 0 < n) : Same ⟨m, n, some_, 0⟩ (of m n some_) :=
  ⟨congrArg Medium.source m.measure_eq, rfl⟩

theorem Same.total (h : Same u v) : v.total = u.total := by
  have size := v.medium.size?_source
  rw [h.source, u.medium.size?_source] at size
  exact (Option.some.inj size).symm

theorem Next.total_counted (next : Next u c v) : (v.counted c.length).total = u.total :=
  next.toSame.total

theorem Next.loaded_counted (next : Next u c v) :
    (v.counted c.length).loaded = u.loaded + c.length := congrArg (· + c.length) next.loaded

theorem turn_cases (value : Nat → Nat → ρ) (r : Consumer ρ σ) (s : σ) (u : OpenUpload) :
    (u.pieces = [] ∧ u.turn value r s = .ended [] .done s u) ∨
      ∃ c v, Next u c v ∧ v.medium.left < u.medium.left ∧
        u.turn value r s = v.hand value r s c := by
  rcases u.medium.next?_cases u.some_ with ⟨bare, none_⟩ | ⟨c, m, next, split, same, less⟩
  · exact .inl ⟨bare, by rw [turn, none_]⟩
  · exact .inr ⟨c, { u with medium := m }, ⟨⟨same, rfl⟩, split, rfl⟩, less, by rw [turn, next]⟩

theorem hand_cases (value : Nat → Nat → ρ) (r : Consumer ρ σ) (s : σ) (c : Bytes)
    (u : OpenUpload) :
    (r.stopped s = true ∧ u.hand value r s c = .ended [] (.failed .abortedNow) s u) ∨
      (r.stopped s = false ∧ r.leaves (r.receive c s) = true ∧
        u.hand value r s c = .ended [c] .left (r.receive c s) u) ∨
      r.stopped s = false ∧ r.leaves (r.receive c s) = false ∧
        ((∃ s' f, (u.counted c.length).tell value r (r.receive c s) = (s', some f) ∧
            u.hand value r s c = .ended [c] (.failed f) s' (u.counted c.length)) ∨
          ∃ s', (u.counted c.length).tell value r (r.receive c s) = (s', none) ∧
            u.hand value r s c = .on c s' (u.counted c.length)) := by
  cases stopped : r.stopped s with
  | true => exact .inl ⟨rfl, by rw [hand, if_pos stopped]⟩
  | false =>
    cases leaves : r.leaves (r.receive c s) with
    | true => exact .inr (.inl ⟨rfl, rfl, by rw [hand, stopped, leaves]; rfl⟩)
    | false =>
      refine .inr (.inr ⟨rfl, rfl, ?_⟩)
      rcases told : (u.counted c.length).tell value r (r.receive c s) with ⟨s', _ | f⟩
      · exact .inr ⟨s', rfl, by rw [hand, stopped, leaves, told]; rfl⟩
      · exact .inl ⟨s', f, rfl, by rw [hand, stopped, leaves, told]; rfl⟩

theorem left_of_on (on : u.turn value r s = .on c s' v) : v.medium.left < u.medium.left := by
  rcases turn_cases value r s u with ⟨_, closed⟩ | ⟨b, w, _, less, handed⟩
  · cases closed.symm.trans on
  · have on := handed.symm.trans on
    rcases hand_cases value r s b w with
      ⟨_, closed⟩ | ⟨_, _, closed⟩ | ⟨_, _, ⟨_, _, _, closed⟩ | ⟨_, _, next⟩⟩
    · cases closed.symm.trans on
    · cases closed.symm.trans on
    · cases closed.symm.trans on
    · cases next.symm.trans on
      exact less

end

def go (value : Nat → Nat → ρ) (r : Consumer ρ σ) (s : σ) (u : OpenUpload) : Iteration σ :=
  match _h : u.turn value r s with
  | .ended received ending s u => ⟨received, ending, s, u⟩
  | .on c s v =>
    let rest := go value r s v
    { rest with received := c :: rest.received }
termination_by u.medium.left
decreasing_by exact left_of_on _h

def rewound (u : OpenUpload) : OpenUpload := { u with medium := u.medium.rewind, loaded := 0 }

def iterate (value : Nat → Nat → ρ) (r : Consumer ρ σ) (s : σ) (u : OpenUpload) : Iteration σ :=
  go value r s u.rewound

/-- What an upload can have come to by passes, however each of them ended. -/
inductive Used (u : OpenUpload) : OpenUpload → Prop where
  | new : Used u u
  | again {ρ σ : Type} {v : OpenUpload} (value : Nat → Nat → ρ) (r : Consumer ρ σ) (s : σ) :
      Used u v → Used u (v.iterate value r s).body

/-- The rest of a pass, chunk by chunk; a chunk is counted when the next is asked for. -/
inductive Runs (value : Nat → Nat → ρ) (r : Consumer ρ σ) : σ → OpenUpload → Iteration σ → Prop where
  | done {s : σ} {u : OpenUpload} (bare : u.pieces = []) : Runs value r s u ⟨[], .done, s, u⟩
  | stopped {s : σ} {u v : OpenUpload} {c : Bytes} (next : Next u c v)
      (stopped : r.stopped s = true) : Runs value r s u ⟨[], .failed .abortedNow, s, v⟩
  | left {s : σ} {u v : OpenUpload} {c : Bytes} (next : Next u c v) (going : r.stopped s = false)
      (leaves : r.leaves (r.receive c s) = true) :
      Runs value r s u ⟨[c], .left, r.receive c s, v⟩
  | failed {s s' : σ} {u v : OpenUpload} {c : Bytes} {f : Failure} (next : Next u c v)
      (going : r.stopped s = false)
      (told : (v.counted c.length).tell value r (r.receive c s) = (s', some f)) :
      Runs value r s u ⟨[c], .failed f, s', v.counted c.length⟩
  | on {s s' : σ} {u v : OpenUpload} {c : Bytes} {i : Iteration σ} (next : Next u c v)
      (going : r.stopped s = false)
      (told : (v.counted c.length).tell value r (r.receive c s) = (s', none))
      (rest : Runs value r s' (v.counted c.length) i) :
      Runs value r s u { i with received := c :: i.received }

section
variable {u v : OpenUpload} {value : Nat → Nat → ρ} {r : Consumer ρ σ} {s : σ}
  {i : Iteration σ}

theorem runs_go (value : Nat → Nat → ρ) (r : Consumer ρ σ) (s : σ) (u : OpenUpload) :
    Runs value r s u (u.go value r s) := by
  fun_induction go value r s u with
  | case1 s u received ending s' w closed =>
    rcases turn_cases value r s u with ⟨bare, done⟩ | ⟨c, v, next, _, handed⟩
    · cases done.symm.trans closed
      exact .done bare
    · have closed := handed.symm.trans closed
      rcases hand_cases value r s c v with
        ⟨stopped, ended⟩ | ⟨going, leaves, ended⟩ | ⟨going, _, ⟨_, _, told, ended⟩ | ⟨_, _, on⟩⟩
      · cases ended.symm.trans closed
        exact .stopped next stopped
      · cases ended.symm.trans closed
        exact .left next going leaves
      · cases ended.symm.trans closed
        exact .failed next going told
      · cases on.symm.trans closed
  | case2 s u c s' w on rest ih =>
    rcases turn_cases value r s u with ⟨_, done⟩ | ⟨b, v, next, _, handed⟩
    · cases done.symm.trans on
    · have on := handed.symm.trans on
      rcases hand_cases value r s b v with
        ⟨_, ended⟩ | ⟨_, _, ended⟩ | ⟨going, _, ⟨_, _, _, ended⟩ | ⟨_, told, goes⟩⟩
      · cases ended.symm.trans on
      · cases ended.symm.trans on
      · cases ended.symm.trans on
      · cases goes.symm.trans on
        exact .on next going told ih

theorem Runs.same (runs : Runs value r s u i) : Same u i.body := by
  induction runs with
  | done => exact .refl _
  | stopped next => exact next.toSame
  | left next => exact next.toSame
  | failed next => exact next.toSame.trans (same_counted _ _)
  | on next _ _ _ ih => exact next.toSame.trans ((same_counted _ _).trans ih)

theorem same_rewound (u : OpenUpload) : Same u u.rewound := ⟨u.medium.source_rewind, rfl⟩

theorem Used.same (used : Used u v) : Same u v := by
  induction used with
  | new => exact .refl u
  | again value r s _ ih => exact ih.trans ((same_rewound _).trans (runs_go value r s _).same)

end

/-! ### What `Upload.pass` says -/

def upload (u : OpenUpload) : Upload := ⟨u.medium.source, u.chunkSize⟩

theorem Same.upload {u v : OpenUpload} (h : Same u v) : v.upload = u.upload := by
  rw [OpenUpload.upload, OpenUpload.upload, h.source, h.chunkSize]

theorem total_upload (u : OpenUpload) : u.upload.total = some u.total := u.medium.size?_source

theorem chunks_upload (u : OpenUpload) :
    u.upload.source.chunks u.upload.chunkSize = .ok u.rewound.pieces :=
  u.medium.chunks_source u.some_

end OpenUpload

def Receiver.consumer {σ : Type} (r : Receiver σ) : Consumer Float σ :=
  ⟨r.stopped, fun _ => false, r.receive, r.progress⟩

def Ending.ofFailure : Option Failure → Ending
  | none => done
  | some f => failed f

def Pass.result {σ : Type} (p : Pass σ) : List Bytes × Nat × Ending × σ :=
  (p.received, p.loaded, .ofFailure p.failure, p.state)

def Iteration.result {σ : Type} (i : Iteration σ) : List Bytes × Nat × Ending × σ :=
  (i.received, i.body.loaded, i.ending, i.state)

namespace OpenUpload

variable {σ : Type} {u v : OpenUpload}

theorem tell_receiver (r : Receiver σ) (s : σ) (u : OpenUpload) :
    u.tell percentage r.consumer s = r.tell (some u.total) u.loaded s := by
  simp only [tell, Receiver.tell, Receiver.consumer]
  cases r.progress with
  | none => rfl
  | some f => cases u.total <;> rfl

theorem Runs.receiver {r : Receiver σ} {s : σ} {i : Iteration σ}
    (runs : Runs percentage r.consumer s u i) :
    i.result = (r.run (some u.total) u.loaded s u.pieces).result := by
  -- What the receiver is told of the chunk that was read.
  have tells {u v : OpenUpload} {c : Bytes} (next : Next u c v) (s : σ) :
      (v.counted c.length).tell percentage r.consumer s =
        r.tell (some u.total) (u.loaded + c.length) s := by
    rw [tell_receiver, next.total_counted, next.loaded_counted]
  induction runs with
  | done bare =>
    rw [bare]
    rfl
  | @stopped s u v c next stopped =>
    have stopped : r.stopped s = true := stopped
    rw [next.pieces, Receiver.run, if_pos stopped, ← next.loaded]
    rfl
  | left _ _ leaves => cases leaves
  | @failed s s' u v c f next going told =>
    have going : r.stopped s = false := going
    have told : r.tell (some u.total) (u.loaded + c.length) (r.receive c s) = (s', some f) :=
      (tells next _).symm.trans told
    simp only [next.pieces, Receiver.run, going, told, Iteration.result, next.loaded_counted]
    rfl
  | @on s s' u v c i next going told _ ih =>
    have going : r.stopped s = false := going
    have told : r.tell (some u.total) (u.loaded + c.length) (r.receive c s) = (s', none) :=
      (tells next _).symm.trans told
    rw [next.total_counted, next.loaded_counted] at ih
    simp only [next.pieces, Receiver.run, going, told]
    simp only [Iteration.result, Pass.result, Prod.mk.injEq] at ih ⊢
    exact ⟨congrArg (c :: ·) ih.1, ih.2⟩

/-- A pass by a receiver, which takes all it can get, is a pass over the upload, and leaves the
upload that is left after it. -/
theorem iterate_receiver (r : Receiver σ) (s : σ) (u : OpenUpload) :
    (u.iterate percentage r.consumer s).result = (u.upload.pass r s).1.result ∧
      (u.iterate percentage r.consumer s).body.upload = (u.upload.pass r s).2 := by
  have chunks := u.chunks_upload
  have runs := runs_go percentage r.consumer s u.rewound
  have same := (same_rewound u).trans runs.same
  constructor
  · rw [iterate, runs.receiver, Upload.pass, chunks, total_upload, (same_rewound u).total]
    rfl
  · rw [iterate, same.upload, Upload.pass, chunks]
    -- What is in memory or in a file is still there after a pass.
    have stays : ∀ taken ended, u.medium.source.after taken ended = u.medium.source := by
      intro taken ended
      cases u.medium <;> rfl
    exact congrArg (fun source => (⟨source, _⟩ : Upload)) (stays _ _).symm

end OpenUpload
end FileGate
