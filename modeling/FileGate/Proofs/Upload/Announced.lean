import FileGate.Proofs.Client.FirstDelivery
import FileGate.Proofs.Upload.Progress
import FileGate.Settings

/-! The length of an upload is announced before it is read. Of bytes it is what comes; of a text file
it is the end that the file reports, and what comes is the UTF-8 of what its reads yield. -/
namespace FileGate

theorem Utf8.length_encodeChar (c : Char) :
    (c.toNat < 0x80 ∧ (encodeChar c).length = 1) ∨ (¬ c.toNat < 0x80 ∧ 1 < (encodeChar c).length) := by
  by_cases ascii : c.toNat < 0x80
  · exact .inl ⟨ascii, by rw [encodeChar, if_pos ascii]; rfl⟩
  · refine .inr ⟨ascii, ?_⟩
    rw [encodeChar, if_neg ascii]
    split
    · exact Nat.lt_of_lt_of_le (by decide) (Nat.le_refl 2)
    · split
      · exact Nat.lt_of_lt_of_le (by decide) (Nat.le_refl 3)
      · exact Nat.lt_of_lt_of_le (by decide) (Nat.le_refl 4)

theorem Utf8.length_encode_cons (c : Char) (s : List Char) :
    (encode (c :: s)).length = (encodeChar c).length + (encode s).length := List.length_append

theorem Utf8.length_encode (s : List Char) :
    s.length ≤ (encode s).length ∧
      ((encode s).length = s.length ↔ ∀ c ∈ s, c.toNat < 0x80) := by
  induction s with
  | nil => exact ⟨Nat.le_refl 0, by simp [encode]⟩
  | cons c s ih =>
    rw [length_encode_cons, List.length_cons, List.forall_mem_cons, ← ih.2]
    rcases length_encodeChar c with ⟨ascii, one⟩ | ⟨beyond, more⟩
    · exact ⟨by omega, by omega⟩
    · exact ⟨by omega, by omega⟩

namespace Settings

variable {c : Char} {s : List Char}

theorem unifyLines_pair (s : List Char) :
    unifyLines ('\r' :: '\n' :: s) = '\n' :: unifyLines s := by
  rw [unifyLines]

theorem unifyLines_return (alone : ∀ t, s ≠ '\n' :: t) :
    unifyLines ('\r' :: s) = '\n' :: unifyLines s := by
  rw [unifyLines]
  exact fun t same => alone t same

theorem unifyLines_cons (other : c ≠ '\r') (s : List Char) :
    unifyLines (c :: s) = c :: unifyLines s := by
  rw [unifyLines]
  · exact fun _ same _ => other same
  · exact fun same => other same

theorem pair_infix_cons (alone : c = '\r' → ∀ t, s ≠ '\n' :: t) :
    ['\r', '\n'] <:+: c :: s ↔ ['\r', '\n'] <:+: s := by
  rw [List.infix_cons_iff]
  refine or_iff_right fun ⟨t, front⟩ => ?_
  obtain ⟨rfl, rest⟩ := List.cons.inj front
  exact alone rfl t rest.symm

theorem length_unifyLines : ∀ s : List Char,
    (Utf8.encode (unifyLines s)).length ≤ (Utf8.encode s).length ∧
      ((Utf8.encode (unifyLines s)).length = (Utf8.encode s).length ↔ ¬ ['\r', '\n'] <:+: s)
  | [] => ⟨Nat.le_refl 0, iff_of_true rfl (by decide)⟩
  | c :: s => by
    have ih := length_unifyLines s
    by_cases pair : c = '\r' ∧ ∃ t, s = '\n' :: t
    · obtain ⟨rfl, t, rfl⟩ := pair
      obtain ⟨least, _⟩ := length_unifyLines t
      have there : ['\r', '\n'] <:+: '\r' :: '\n' :: t := ⟨[], t, rfl⟩
      have feed : (Utf8.encodeChar '\n').length = 1 := by decide
      have return_ : (Utf8.encodeChar '\r').length = 1 := by decide
      rw [unifyLines_pair, Utf8.length_encode_cons, Utf8.length_encode_cons,
        Utf8.length_encode_cons]
      exact ⟨by omega, iff_of_false (by omega) (not_not.mpr there)⟩
    · have alone : c = '\r' → ∀ t, s ≠ '\n' :: t := fun same t rest => pair ⟨same, t, rest⟩
      have kept : (Utf8.encode (unifyLines (c :: s))).length =
          (Utf8.encodeChar c).length + (Utf8.encode (unifyLines s)).length := by
        by_cases return_ : c = '\r'
        · subst return_
          rw [unifyLines_return (alone rfl), Utf8.length_encode_cons]
          rfl
        · rw [unifyLines_cons return_, Utf8.length_encode_cons]
      rw [kept, Utf8.length_encode_cons, pair_infix_cons alone, ← ih.2]
      exact ⟨by omega, by omega⟩

end Settings

/-- A file on disk that holds `s` in UTF-8; its reads unify the ends of lines. -/
def TextFile.stored (s : List Char) : TextFile :=
  ⟨Settings.unifyLines s, (Utf8.encode s).length, fun none_ => by
    have fewer := (Utf8.length_encode s).1
    rw [List.eq_nil_of_length_eq_zero (by omega : s.length = 0)]
    rfl⟩

namespace Medium

variable {n : Nat}

def data : Medium → Bytes
  | memory data => data.content
  | file h => h.content
  | textFile f _ => Utf8.encode f.content

/-- The end that it reports is that of its data. -/
def Plain : Medium → Prop
  | textFile f _ => (Utf8.encode f.content).length = f.size
  | _ => True

theorem source_contains (m : Medium) : m.source.Contains m.data := by cases m <;> rfl

theorem eq_data_of_contains {m : Medium} {b : Bytes} (contains : m.source.Contains b) :
    b = m.data := by cases m <;> exact contains

theorem flatten_pieces (some_ : 0 < n) (m : Medium) : (m.rewind.pieces n).flatten = m.data := by
  have goes : ¬ m.source.IsPipe := by cases m <;> exact id
  have atLeast : 1 ≤ (n : Int) := by omega
  obtain ⟨cs, chunks, whole⟩ := Source.chunks_of_contains atLeast m.source_contains goes
  rw [m.chunks_source some_] at chunks
  cases chunks
  exact whole

theorem length_data (m : Medium) : m.data.length = m.measure.1 ↔ m.Plain := by
  cases m with
  | memory data => exact iff_of_true rfl trivial
  | file h => exact iff_of_true rfl trivial
  | textFile f place => exact Iff.rfl

theorem plain_of_textFile {m : Medium} {f : TextFile} (text : m.source = .textFile f) :
    m.Plain ↔ (Utf8.encode f.content).length = f.size := by
  cases m with
  | textFile f place =>
    cases text
    exact Iff.rfl
  | _ => cases text

theorem plain_inMemory {m : Medium} {s : List Char} (text : m.source = .textFile (.inMemory s)) :
    m.Plain ↔ ∀ c ∈ s, c.toNat < 0x80 :=
  (plain_of_textFile text).trans (Utf8.length_encode s).2

theorem plain_stored {m : Medium} {s : List Char} (text : m.source = .textFile (.stored s)) :
    m.Plain ↔ ¬ ['\r', '\n'] <:+: s :=
  (plain_of_textFile text).trans (Settings.length_unifyLines s).2

end Medium

namespace OpenUpload

/-! ### Complete passes -/

theorem Runs.complete {ρ σ : Type} {value : Nat → Nat → ρ} {r : Consumer ρ σ} {s : σ}
    {u : OpenUpload} {i : Iteration σ} (runs : Runs value r s u i) (done : i.ending = .done) :
    i.received = u.pieces ∧ i.body.loaded = u.loaded + u.pieces.flatten.length := by
  induction runs with
  | done bare =>
    rw [bare]
    exact ⟨rfl, rfl⟩
  | on next _ _ _ ih =>
    obtain ⟨received, loaded⟩ := ih done
    rw [next.loaded_counted] at loaded
    rw [next.pieces, List.flatten_cons, List.length_append, ← Nat.add_assoc]
    exact ⟨congrArg (_ :: ·) received, loaded⟩
  | _ => cases done

/-! ### What is told in them -/

section
variable {cs : List Bytes} {total : Nat}

theorem length_flatten_take_mono (cs : List Bytes) {i j : Nat} (le : i ≤ j) :
    (cs.take i).flatten.length ≤ (cs.take j).flatten.length :=
  (List.take_sublist_take_left le).flatten.length_le

theorem shares_told (total : Nat) (cs : List Bytes) :
    (told share total 0 0 cs).map Prod.snd =
      (List.range cs.length).map fun i => share (cs.take (i + 1)).flatten.length total := by
  rw [told, List.map_map]
  apply List.map_congr_left
  intro i _
  simp only [Function.comp_apply, Nat.zero_add]

theorem shares_pairwise (total : Nat) (cs : List Bytes) :
    ((told share total 0 0 cs).map Prod.snd).Pairwise (· ≤ ·) := by
  rw [shares_told, List.pairwise_map]
  apply List.pairwise_lt_range.imp
  intro i j less
  exact share_mono (length_flatten_take_mono cs (by omega)) total

theorem shares_getLast? (more : cs ≠ []) (total : Nat) :
    ((told share total 0 0 cs).map Prod.snd).getLast? = some (share cs.flatten.length total) := by
  have some_ := List.length_pos_iff.mpr more
  rw [shares_told, List.getLast?_map, List.getLast?_range, if_neg (by omega), Option.map_some,
    Nat.sub_add_cancel some_, List.take_length]

theorem shares_le_iff (some_ : 0 < total) (more : cs ≠ []) :
    (∀ p ∈ (told share total 0 0 cs).map Prod.snd, p ≤ 100) ↔ cs.flatten.length ≤ total := by
  constructor
  · intro all
    exact (share_le_iff some_).mp (all _ (List.mem_of_getLast? (shares_getLast? more total)))
  · intro le p there
    rw [shares_told] at there
    obtain ⟨i, inside, rfl⟩ := List.mem_map.mp there
    have within := length_flatten_take_mono cs (Nat.succ_le_of_lt (List.mem_range.mp inside))
    rw [List.take_length] at within
    exact (share_le_iff some_).mpr (Nat.le_trans within le)

theorem shares_iff (bare : total = 0 → cs = []) :
    ((∀ p ∈ (told share total 0 0 cs).map Prod.snd, p ≤ 100) ↔ cs.flatten.length ≤ total) ∧
      (0 < total → (((told share total 0 0 cs).map Prod.snd).getLast? = some 100 ↔
        cs.flatten.length = total)) := by
  by_cases none_ : cs = []
  · rw [none_]
    exact ⟨iff_of_true (fun p there => absurd there List.not_mem_nil) (Nat.zero_le total),
      fun some_ => iff_of_false (fun last => by cases last) (Nat.ne_of_lt some_)⟩
  · have some_ : 0 < total := Nat.pos_of_ne_zero fun zero => none_ (bare zero)
    refine ⟨shares_le_iff some_ none_, fun _ => ?_⟩
    rw [shares_getLast? none_, Option.some_inj, share_eq_iff some_]

end

section
variable {m : Medium} {c : Nat} {u : OpenUpload}

/-- The chunks of a complete pass are the data, however long; what is announced is their length, and
the shares that are told end at the whole, exactly if the medium is plain. Of text files, one in
memory is plain if all its text is ASCII, one on disk if no end of a line in it is a pair. -/
theorem announced_exact (some_ : 0 < c) (used : Used (.of m c some_) u) :
    u.upload.total = some u.upload.length ∧
    (∀ {ρ σ : Type} (value : Nat → Nat → ρ) (r : Consumer ρ σ) (s : σ),
      let i := u.iterate value r s;
      i.ending = .done → i.received.flatten = m.data ∧
        (i.received.map List.length).sum = i.body.loaded ∧
        (i.body.loaded = u.upload.length ↔ m.Plain)) ∧
    (∀ s, (m.source = .textFile (.inMemory s) → (m.Plain ↔ ∀ c ∈ s, c.toNat < 0x80)) ∧
      (m.source = .textFile (.stored s) → (m.Plain ↔ ¬ ['\r', '\n'] <:+: s))) ∧
    ∀ stops, let i := u.iterate share (recorder stops) (0, []);
      let values := i.state.2.map Prod.snd;
      (i.ending = .done ∨ ∃ k, stops k = true) ∧
        (i.ending = .done → values.Pairwise (· ≤ ·) ∧
          ((∀ p ∈ values, p ≤ 100) ↔ m.data.length ≤ u.upload.length) ∧
          (0 < u.upload.length → (values.getLast? = some 100 ↔ m.Plain))) := by
  have same : Same ⟨m, c, some_, 0⟩ u := (same_of m c some_).trans used.same
  have total : u.upload.total = some u.total := u.total_upload
  have length : u.upload.length = u.total := congrArg (·.getD 0) total
  have whole : u.rewound.pieces.flatten = m.data := by
    have contains := u.medium.source_contains
    rw [show u.medium.source = m.source from same.source] at contains
    rw [← Medium.eq_data_of_contains contains]
    exact u.medium.flatten_pieces u.some_
  have size : m.measure.1 = u.total := same.total.symm
  have rewound : u.rewound.total = u.total := (same_rewound u).total
  have plain := m.length_data
  rw [size] at plain
  refine ⟨by rw [total, length], ?_, fun s => ⟨Medium.plain_inMemory, Medium.plain_stored⟩, ?_⟩
  · intro ρ σ value r s i done
    obtain ⟨received, loaded⟩ := (runs_go value r s u.rewound).complete done
    have loaded : i.body.loaded = m.data.length := by
      rw [← whole, ← Nat.zero_add (List.length _)]
      exact loaded
    have received : i.received.flatten = m.data := by rw [← whole, ← received]; rfl
    refine ⟨received, ?_, by rw [loaded, length, plain]⟩
    rw [loaded, ← received, List.length_flatten]
  · intro stops i values
    obtain ⟨j, recorded⟩ := iterate_recorder share stops u
    rcases recorded.ending with ⟨rfl, done⟩ | ⟨_, stopped, failed⟩
    · refine ⟨.inl done, fun _ => ?_⟩
      obtain ⟨_, _, state⟩ := recorded.outcome List.take_length
      have told : values = (told share u.total 0 0 u.rewound.pieces).map Prod.snd :=
        congrArg (List.map Prod.snd) state
      rw [told, length, ← plain, ← whole]
      exact ⟨shares_pairwise u.total _,
        shares_iff fun none_ => pieces_of_total (rewound.trans none_)⟩
    · refine ⟨.inr ⟨0 + j, stopped⟩, fun done => ?_⟩
      cases failed.symm.trans done

def leftText : OpenUpload :=
  ((of (.textFile (.inMemory ['a', 'b', 'c']) 2) 2 Nat.two_pos).iterate share leaver ()).body

theorem announced_exact_leftText :
    let i := leftText.iterate share (recorder fun _ => false) (0, [])
    let values := i.state.2.map Prod.snd
    i.ending = .done ∧ (i.received.map List.length).sum = i.body.loaded ∧
      i.body.loaded = leftText.upload.length ∧ (∀ p ∈ values, p ≤ 100) ∧
      values.getLast? = some 100 := by
  intro i values
  have used : Used (of (.textFile (.inMemory ['a', 'b', 'c']) 2) 2 (by decide)) leftText :=
    .again share leaver () .new
  have plain : (Medium.textFile (.inMemory ['a', 'b', 'c']) 2).Plain :=
    (Medium.plain_inMemory rfl).mpr (by simp)
  obtain ⟨_, sums, _, shares⟩ := announced_exact (by decide) used
  obtain ⟨ended, told⟩ := shares fun _ => false
  have done : i.ending = .done := ended.resolve_right (by simp)
  have length : leftText.upload.length = 3 := by
    rw [used.same.upload]
    rfl
  have within : (Medium.textFile (.inMemory ['a', 'b', 'c']) 2).data.length ≤
      leftText.upload.length := by
    rw [length]
    decide
  obtain ⟨_, sum, announced⟩ := sums share (recorder fun _ => false) (0, []) done
  obtain ⟨_, most, last⟩ := told done
  exact ⟨done, sum, announced.mpr plain, most.mpr within, (last (by omega)).mpr plain⟩

/-- A character of two bytes is announced as one byte, and the pass ends at 200 percent. -/
theorem announced_short :
    let u := of (.textFile (.inMemory ['ä']) 0) 65536 (by decide)
    let i := u.iterate share (recorder fun _ => false) (0, [])
    i.ending = .done ∧ i.received = [[0xC3, 0xA4]] ∧ i.body.loaded = 2 ∧
      i.state.2 = [(1, 200)] ∧ u.upload.total = some 1 ∧ u.upload.length = 1 := by
  intro u i
  have pieces : u.rewound.pieces = [[0xC3, 0xA4]] := by
    change (blocks 65536 ['ä']).map Utf8.encode = _
    rw [blocks_of_ne_nil (by decide) (List.cons_ne_nil _ _), List.drop_of_length_le (by decide),
      blocks_nil]
    rfl
  obtain ⟨⟨received, loaded, state⟩, done⟩ := iterate_through share u
  rw [pieces] at received loaded state
  refine ⟨done, received, loaded, state.trans ?_, rfl, rfl⟩
  decide +kernel

end

end OpenUpload
end FileGate
