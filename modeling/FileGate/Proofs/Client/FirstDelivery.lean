import FileGate.Proofs.Client.Lockstep
import FileGate.Proofs.Client.Requests

namespace FileGate

/-! ### What a body contains -/

def Source.Contains : Source → Bytes → Prop
  | memory d, b => b = d
  | file d, b => b = d
  | textFile f, b => b = Utf8.encode f.content
  -- An empty read is an end; what would come after it is not part of the first sending.
  | stream pieces, b => b = (pieces.takeWhile (!·.isEmpty)).flatten
  -- It is given up before it is read, so that anything may be in it.
  | pipe, _ => True
  | unreadable, _ => False

def Source.IsPipe : Source → Prop
  | pipe => True
  | _ => False

namespace Body

def Contains : Body → Bytes → Prop
  | nothing, b => b = []
  | bytes d, b => b = d
  | buffer d, b => b = d
  | text s, b => b = Bytes.ofString s
  | form fields, b => b = Utf8.encode (formText fields)
  | data source, b => source.Contains b
  | other _, _ => False

def Measured : Body → Prop
  | data source => source.size? ≠ none
  | _ => True

/-- It says that it can go back to its beginning, and cannot. -/
def IsPipe : Body → Prop
  | data source => source.IsPipe
  | _ => False

end Body

/-- What becomes of data on its way to a server. Data whose length is 0 counts as none, whatever else
it would yield; all other data is carried over chunk by chunk. -/
structure Carrier where
  deliver : Sent → Option Bytes
  nothing : deliver .nothing = some []
  bytes : ∀ b, deliver (.bytes b) = some b
  empty : ∀ received complete, deliver (.chunks received 0 complete) = some []
  whole : ∀ received n, n ≠ 0 → deliver (.chunks received n true) = some received.flatten

/-! ### A pass that nobody disturbs -/

theorem Receiver.Quiet.run_going {σ : Type} {r : Receiver σ} (quiet : r.Quiet)
    (going : ∀ s, r.stopped s = false) (total : Option Nat) (cs : List Bytes) (loaded : Nat)
    (s : σ) : (r.run total loaded s cs).failure = none := by
  induction cs generalizing loaded s with
  | nil => rfl
  | cons c cs ih =>
    have told := quiet.tell total (loaded + c.length) (r.receive c s)
    rcases next : r.tell total (loaded + c.length) (r.receive c s) with ⟨s', x⟩
    rw [next] at told
    cases told
    simp only [Receiver.run, going, next]
    exact ih (loaded + c.length) s'

def Payload.handed : Payload → Sent
  | nothing => .nothing
  | bytes b => .bytes b
  | buffer b => .bytes b
  | upload u => match u.source.chunks u.chunkSize with
    | .ok cs => .chunks cs u.length true
    | .error _ => .chunks [] u.length false

namespace Client

variable {ω : Type} {net : Network ω} {progress : Option (Float → ω → ω × Option Failure)}

theorem transmit_handed (going : ∀ s, net.stopped s = false)
    (quiet : ∀ f, progress = some f → ∀ x s, (f x s).2 = none) (e : Exchange)
    (blank : e.sent = .nothing) (p : Payload) (c : Client ω) :
    ∃ n, (c.transmit net progress e p).1.journal =
      c.journal ++ [{ e with sent := p.handed, answer := n }] := by
  cases p with
  | nothing =>
    obtain ⟨n, noted⟩ := answered_journal net e [] c
    have same : { e with sent := .nothing, answer := n } = { e with answer := n } := by rw [← blank]
    exact ⟨n, noted.trans (by rw [Payload.handed, same])⟩
  | bytes b => exact answered_journal net { e with sent := .bytes b } b c
  | buffer b => exact answered_journal net { e with sent := .bytes b } b c
  | upload u =>
    cases chunks : u.source.chunks u.chunkSize with
    | error f =>
      refine ⟨e.answer, ?_⟩
      simp [transmit, Upload.pass, chunks, Payload.handed]
    | ok cs =>
      let r : Receiver ω := ⟨net.stopped, net.arrive, progress⟩
      have quiet : r.Quiet := quiet
      have failure := quiet.run_going going u.total cs 0 c.world
      have received := ((r.run_received u.total cs 0 c.world).2 failure).1
      rcases transmit_upload net progress e c chunks with ⟨f, failed, _⟩ | ⟨_, answered⟩
      · cases failure.symm.trans failed
      · rw [answered, received, failure, Payload.handed, chunks]
        exact answered_journal net _ _ _

/-- A call does not take back what has been sent, unless its recovery does. -/
theorem run_prefix {o : Options ω} {recovery : Option (Recovery ω)} {headers : Headers}
    {call : Call} {p : Payload} {c : Client ω} (fresh : call.retried = false)
    (records : ∀ recover, recovery = some recover → ∀ c, c.journal <+: (recover c).1.journal) :
    (c.send net o headers call p).client.journal <+:
      (c.run net o recovery headers call p).1.journal := by
  rcases @run_cases ω net o recovery headers call p c fresh with
    ⟨_, once⟩ | ⟨r, recover, c', x, _, chosen, _, _, recovered, again⟩
  · simp only [once, settled_client]
    exact List.prefix_refl _
  · have renewed := records recover chosen ((c.send net o headers call p).client.close r.number)
    rw [recovered] at renewed
    rw [again]
    cases x with
    | some f => exact renewed
    | none =>
      rw [settled_client]
      refine renewed.trans ?_
      rcases resend_journal net o headers recover r (c.send net o headers call p) c' with
        ⟨_, nothing⟩ | ⟨e, noted, _⟩
      · simp only [nothing]
        exact List.prefix_refl _
      · rw [noted]
        exact List.prefix_append _ _

end Client

/-! ### From a body to what is sent of it -/

/-- What is sent, set against what the body contains. -/
structure Body.SentAs (body : Body) (b : Bytes) (carrier : Carrier) (sent : Sent) : Prop where
  delivered : carrier.deliver sent = some b ↔ body.Measured ∨ b = []
  complete : sent.isComplete = true ↔ ¬ body.IsPipe
  data : ¬ body.IsPipe → sent.data = b

namespace Source

variable {source : Source} {b : Bytes} {n : Int}

theorem flatten_readAll {α : Type} (some_ : 1 ≤ n) (l : List α) : (readAll n l).flatten = l := by
  rw [readAll, if_neg (by omega)]
  exact flatten_blocks (by omega) l

theorem chunks_of_contains (some_ : 1 ≤ n) (contains : source.Contains b)
    (goes : ¬ source.IsPipe) : ∃ cs, source.chunks n = .ok cs ∧ cs.flatten = b := by
  cases source with
  | memory d =>
    refine ⟨_, if_neg (by omega), ?_⟩
    rw [flatten_blocks (by omega)]
    exact contains.symm
  | file d => exact ⟨_, rfl, (flatten_readAll some_ d).trans contains.symm⟩
  | textFile f =>
    -- The text is cut between its characters, so that the pieces can be encoded one by one.
    refine ⟨_, rfl, ?_⟩
    have joined : ((readAll n f.content).map Utf8.encode).flatten =
        Utf8.encode (readAll n f.content).flatten := by
      simp only [Utf8.encode, List.flatMap_def, List.map_flatten, List.flatten_flatten,
        List.map_map]
      rfl
    rw [joined, flatten_readAll some_]
    exact contains.symm
  | stream pieces => exact ⟨_, rfl, contains.symm⟩
  | pipe => exact absurd trivial goes
  | unreadable => exact contains.elim

theorem empty_of_size? (contains : source.Contains b) (size : source.size? = some 0) : b = [] := by
  cases source with
  | memory d => exact contains.trans (List.eq_nil_of_length_eq_zero (Option.some.inj size))
  | file d => exact contains.trans (List.eq_nil_of_length_eq_zero (Option.some.inj size))
  | textFile f => exact contains.trans (congrArg Utf8.encode (f.bare (Option.some.inj size)))
  | _ => cases size

theorem sentAs (some_ : 1 ≤ n) (contains : source.Contains b) (carrier : Carrier) :
    (Body.data source).SentAs b carrier (Payload.upload ⟨source, n⟩).handed := by
  by_cases goes : source.IsPipe
  · cases source with
    | pipe =>
      have none_ : carrier.deliver (.chunks [] 0 false) = some [] := carrier.empty [] false
      refine ⟨?_, ⟨fun h => (by cases h), fun h => absurd goes h⟩, fun h => absurd goes h⟩
      change carrier.deliver (.chunks [] 0 false) = some b ↔ _
      rw [none_]
      simp [Body.Measured, size?, eq_comm]
    | _ => exact goes.elim
  · obtain ⟨cs, chunks, whole⟩ := chunks_of_contains some_ contains goes
    have handed : (Payload.upload ⟨source, n⟩).handed = .chunks cs (source.size?.getD 0) true := by
      simp only [Payload.handed, chunks]
      rfl
    rw [handed]
    refine ⟨?_, ⟨fun _ => goes, fun _ => rfl⟩, fun _ => whole⟩
    cases size : source.size? with
    | none =>
      rw [Option.getD_none, carrier.empty]
      simp [Body.Measured, size, eq_comm]
    | some k =>
      have delivered : carrier.deliver (.chunks cs k true) = some b := by
        cases k with
        | zero => rw [carrier.empty, empty_of_size? contains size]
        | succ k => rw [carrier.whole _ _ (Nat.succ_ne_zero k), whole]
      exact ⟨fun _ => .inl (by simp [Body.Measured, size]), fun _ => delivered⟩

end Source

namespace Body

variable {body : Body} {b : Bytes} {streaming : Bool} {n : Int}

theorem sentAs_bytes (measured : body.Measured) (goes : ¬ body.IsPipe) (carrier : Carrier) :
    body.SentAs b carrier (.bytes b) :=
  ⟨⟨fun _ => .inl measured, fun _ => carrier.bytes b⟩, ⟨fun _ => goes, fun _ => rfl⟩, fun _ => rfl⟩

theorem sentAs_plain (body : Body) (measured : body.Measured) (goes : ¬ body.IsPipe) (some_ : 1 ≤ n)
    {whole : Payload} (whole_ : whole.handed = .bytes b) (carrier : Carrier) :
    body.SentAs b carrier (plain b whole streaming n).handed := by
  rw [plain]
  split
  · obtain ⟨delivered, complete, data⟩ :=
      @Source.sentAs (.memory b) b n some_ rfl carrier
    have known : (Body.data (.memory b)).Measured := fun h => by cases h
    exact ⟨⟨fun _ => .inl measured, fun _ => delivered.mpr (.inl known)⟩,
      ⟨fun _ => goes, fun _ => complete.mpr id⟩, fun _ => data id⟩
  · rw [whole_]
    exact sentAs_bytes measured goes carrier

theorem sentAs_of_encode {h h' : Headers} {p : Payload} (some_ : 1 ≤ n)
    (encoded : body.encode h streaming n = .ok (p, h')) (contains : body.Contains b)
    (carrier : Carrier) : body.SentAs b carrier p.handed := by
  cases body with
  | nothing =>
    cases encoded
    cases contains
    exact ⟨⟨fun _ => .inr rfl, fun _ => carrier.nothing⟩, ⟨fun _ => id, fun _ => rfl⟩, fun _ => rfl⟩
  | bytes d =>
    cases encoded
    cases contains
    exact sentAs_plain (.bytes b) trivial id some_ rfl carrier
  | buffer d =>
    cases encoded
    cases contains
    exact sentAs_plain (.buffer b) trivial id some_ rfl carrier
  | text s =>
    cases encoded
    cases contains
    exact sentAs_plain (.text s) trivial id some_ rfl carrier
  | form fields =>
    cases encoded
    cases contains
    exact sentAs_plain (.form fields) trivial id some_ rfl carrier
  | data source => cases encoded; exact Source.sentAs some_ contains carrier
  | other v => cases encoded

end Body

/-! ### Calls -/

namespace Way

variable {ω : Type}

/-- Nobody stops the call, and nobody fails when told how far it has come. -/
structure Undisturbed (w : Way) (net : Network ω) (o : Options ω) : Prop where
  going : ∀ s, (w.network net).stopped s = false
  quiet : ∀ f, (w.options o).progress = some f → ∀ x s, (f x s).2 = none

theorem undisturbed_fetch (net : Network ω) (o : Options ω) : fetch.Undisturbed net o :=
  ⟨fun _ => rfl, fun _ h => by cases h⟩

variable {w : Way} {net : Network ω} {path : String} {o : Options ω} {call : Call} {c : Client ω}
  {p : Payload} {headers : Headers}

theorem attempt_handed (undisturbed : w.Undisturbed net o) :
    ∃ first, (w.attempt net o headers call p c).client.journal = c.journal ++ [first] ∧
      first.sent = p.handed := by
  obtain ⟨n, noted⟩ := Client.transmit_handed undisturbed.going undisturbed.quiet
    (Client.exchangeOf (w.options o) headers call c) rfl p c
  let first := { Client.exchangeOf (w.options o) headers call c with sent := p.handed, answer := n }
  refine ⟨first, ?_, rfl⟩
  rw [← noted, attempt, Client.send_eq, undisturbed.going, if_neg Bool.false_ne_true]
  rcases c.transmit (w.network net) (w.options o).progress
    (Client.exchangeOf (w.options o) headers call c) p with ⟨c', p', f | r⟩
  · rfl
  · simp only [Client.Attempt.after, undisturbed.going]
    rfl

/-- The first sending of a call takes all that the body contains unless the body is a pipe, and the
server gets that exactly if the length was known or there is nothing to be got. -/
theorem first_delivery (w : Way) (net : Network ω) (carrier : Carrier) {b : Bytes}
    (started : c.start path = .ok call) (encoded : w.encode c.config o = .ok (p, headers))
    (some_ : 1 ≤ c.config.chunkSize) (contains : o.body.Contains b)
    (undisturbed : w.Undisturbed net o)
    (records : ∀ recover, w.recovery net o = some recover →
      ∀ c, c.journal <+: (recover c).1.journal) :
    ∃ first rest, (w.result net path o call c).journal = c.journal ++ first :: rest ∧
      Client.Carries o call.url first ∧ o.body.SentAs b carrier first.sent := by
  obtain ⟨first, noted, sent⟩ := @attempt_handed ω w net o call c p headers undisturbed
  obtain ⟨e, ofCall, noted'⟩ := @Client.send_noted ω (w.network net) (w.options o) headers call p c
    (undisturbed.going c.world)
  obtain rfl : first = e := by
    have same := List.append_cancel_left (noted.symm.trans noted')
    exact List.singleton_inj.mp same
  have begun := @Client.run_prefix ω (w.network net) (w.options o) (w.recovery net o) headers call p
    c (Client.fresh_of_start started) records
  rw [← result_eq_run w net started encoded] at begun
  obtain ⟨rest, all⟩ := begun
  refine ⟨first, rest, ?_, carries ofCall encoded, ?_⟩
  · rw [← all, noted', List.append_assoc]
    rfl
  · rw [sent]
    cases w with
    | fetch => exact Body.sentAs_of_encode (by decide) encoded contains carrier
    | transfer kind => exact Body.sentAs_of_encode some_ encoded contains carrier

end Way

def Carrier.exact : Carrier where
  deliver
    | .chunks received n complete =>
      if n = 0 then some [] else if complete then some received.flatten else none
    | sent => some sent.data
  nothing := rfl
  bytes _ := rfl
  empty _ _ := rfl
  whole _ _ some_ := (if_neg some_).trans (if_pos rfl)

def putFile : Options (List Line) := { putStream with body := .data (.file [1, 2, 3]) }

theorem Way.first_delivery_putFile :
    Client.refusedOnce.start "/api/v1/files/a" = .ok putCall ∧ putFile.body.Contains [1, 2, 3] ∧
    (transfer .bytes).Undisturbed Line.network putFile ∧
    ∃ first rest, ((transfer .bytes).result Line.network "/api/v1/files/a" putFile putCall
        Client.refusedOnce).journal = first :: rest ∧
      Carrier.exact.deliver first.sent = some [1, 2, 3] := by
  have started : Client.refusedOnce.start "/api/v1/files/a" = .ok putCall := rfl
  have contains : putFile.body.Contains [1, 2, 3] := rfl
  have undisturbed : (transfer .bytes).Undisturbed Line.network putFile :=
    ⟨fun _ => rfl, fun _ h => by cases h⟩
  refine ⟨started, contains, undisturbed, ?_⟩
  obtain ⟨first, rest, noted, _, sentAs⟩ := first_delivery (transfer .bytes) Line.network
    Carrier.exact started rfl (by decide) contains undisturbed fun _ chosen c => by
      cases chosen
      exact List.prefix_refl c.journal
  have known : putFile.body.Measured := fun h => by cases h
  exact ⟨first, rest, noted, sentAs.delivered.mpr (.inl known)⟩

def putPipe : Options (List Line) := { putStream with body := .data .pipe }

/-- Every server gets nothing of the stream, and the pipe breaks the sending off. -/
theorem putStream_undelivered :
    Client.refusedOnce.start "/api/v1/files/a" = .ok putCall ∧
    putStream.body.Contains [1, 2, 3] ∧
    Way.fetch.encode Client.refusedOnce.config putStream = .ok (putPayload, []) ∧
    (∀ carrier : Carrier, ∃ first,
      (Way.fetch.attempt Line.network putStream [] putCall putPayload
        Client.refusedOnce).client.journal = [first] ∧ carrier.deliver first.sent = some []) ∧
    ∃ p, Way.fetch.encode Client.refusedOnce.config putPipe = .ok (p, []) ∧
      (Way.fetch.attempt Line.network putPipe [] putCall p Client.refusedOnce).outcome =
        .error .notSeekable :=
  ⟨rfl, rfl, rfl, fun carrier => ⟨_, rfl, carrier.empty _ _⟩, _, rfl, rfl⟩

end FileGate
