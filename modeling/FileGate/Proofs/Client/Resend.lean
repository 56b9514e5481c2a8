import FileGate.Proofs.Client.Retry

namespace FileGate

/-! ### One pass -/

/-- A receiver takes a beginning of what is handed over, and all of it unless something fails. -/
theorem Receiver.run_received {σ : Type} (r : Receiver σ) (total : Option Nat) (cs : List Bytes)
    (loaded : Nat) (s : σ) :
    (r.run total loaded s cs).received <+: cs ∧
    ((r.run total loaded s cs).failure = none →
      (r.run total loaded s cs).received = cs ∧ (r.run total loaded s cs).taken = cs.length) := by
  induction cs generalizing loaded s with
  | nil => exact ⟨List.prefix_refl [], fun _ => ⟨rfl, rfl⟩⟩
  | cons c cs ih =>
    by_cases stopped : r.stopped s = true
    · simp [run, stopped]
    · rcases told : r.tell total (loaded + c.length) (r.receive c s) with ⟨s', _ | f⟩
      · have rest := ih (loaded + c.length) s'
        simp only [run, stopped, told]
        refine ⟨(List.prefix_cons_inj c).mpr rest.1, fun h => ?_⟩
        exact ⟨congrArg (c :: ·) (rest.2 h).1, congrArg (· + 1) (rest.2 h).2⟩
      · simp [run, stopped, told]

namespace Payload

/-- What a pass over a payload sends if nothing breaks it off. -/
def content : Payload → Option Bytes
  | nothing => some []
  | bytes b => some b
  | buffer b => some b
  | upload u => match u.source.chunks u.chunkSize with
    | .ok cs => some cs.flatten
    | .error _ => none

def next : Payload → Payload
  | upload u => match u.source.chunks u.chunkSize with
    | .ok cs => upload { u with source := u.source.after cs.length true }
    | .error _ => upload u
  | p => p

end Payload

/-- How what is noted about a sending goes with the payload that was sent and what is left of it. -/
structure Passed (p p' : Payload) (sent : Sent) : Prop where
  within : ∀ b, p.content = some b → sent.data <+: b
  complete : sent.isComplete = true → p.content = some sent.data ∧ p' = p.next

theorem Upload.pass_passed {σ : Type} (u : Upload) (r : Receiver σ) (s : σ) :
    Passed (.upload u) (.upload (u.pass r s).2)
      (.chunks (u.pass r s).1.received u.length (u.pass r s).1.failure.isNone) := by
  cases h : u.source.chunks u.chunkSize with
  | error e =>
    simp only [pass, h]
    exact ⟨fun b hb => by simp [Payload.content, h] at hb, fun done => by simp [Sent.isComplete] at done⟩
  | ok cs =>
    obtain ⟨start, all⟩ := r.run_received u.total cs 0 s
    simp only [pass, h]
    refine ⟨fun b hb => ?_, fun done => ?_⟩
    · have whole : b = cs.flatten := by simpa [Payload.content, h, eq_comm] using hb
      obtain ⟨rest, split⟩ := start
      have joined := congrArg List.flatten split
      rw [List.flatten_append] at joined
      exact ⟨rest.flatten, joined.trans whole.symm⟩
    · have sound : (r.run u.total 0 s cs).failure = none := Option.isNone_iff_eq_none.mp done
      obtain ⟨received, taken⟩ := all sound
      exact ⟨by simp [Payload.content, h, Sent.data, received],
        by simp [Payload.next, h, sound, taken]⟩

namespace Client

variable {ω : Type}

theorem answered_journal (net : Network ω) (e : Exchange) (body : Bytes) (c : Client ω) :
    ∃ n, (c.answered net e body).1.journal = c.journal ++ [{ e with answer := n }] := by
  rcases h : net.answer ⟨e.method, e.url, e.headers, body⟩ c.world with ⟨w, f | r⟩
  · exact ⟨e.answer, by simp [answered, h]⟩
  · exact ⟨some c.replies, by simp [answered, h]⟩

theorem transmit_journal (net : Network ω) (progress : Option (Float → ω → ω × Option Failure))
    (e : Exchange) (p : Payload) (c : Client ω) (blank : e.sent = .nothing) :
    ∃ e', (c.transmit net progress e p).1.journal = c.journal ++ [e'] ∧
      Passed p (c.transmit net progress e p).2.1 e'.sent ∧
      (∀ r, (c.transmit net progress e p).2.2 = .ok r → e'.sent.isComplete = true) := by
  cases p with
  | nothing =>
    obtain ⟨n, noted⟩ := answered_journal net e [] c
    refine ⟨_, noted, ⟨fun b hb => ?_, fun _ => ?_⟩, fun _ _ => ?_⟩
    · simp [blank, Sent.data]
    · exact ⟨by simp [Payload.content, blank, Sent.data], rfl⟩
    · simp [blank, Sent.isComplete]
  | bytes b =>
    obtain ⟨n, noted⟩ := answered_journal net { e with sent := .bytes b } b c
    refine ⟨_, noted, ⟨fun b' hb => ?_, fun _ => ⟨rfl, rfl⟩⟩, fun _ _ => rfl⟩
    cases hb
    exact List.prefix_refl b
  | buffer b =>
    obtain ⟨n, noted⟩ := answered_journal net { e with sent := .bytes b } b c
    refine ⟨_, noted, ⟨fun b' hb => ?_, fun _ => ⟨rfl, rfl⟩⟩, fun _ _ => rfl⟩
    cases hb
    exact List.prefix_refl b
  | upload u =>
    have passed := u.pass_passed ⟨net.stopped, net.arrive, progress⟩ c.world
    rcases h : u.pass ⟨net.stopped, net.arrive, progress⟩ c.world with ⟨q, u'⟩
    rw [h] at passed
    simp only [transmit, h]
    cases failed : q.failure with
    | some f =>
      rw [failed] at passed
      exact ⟨_, rfl, passed, fun r hr => by simp at hr⟩
    | none =>
      rw [failed] at passed
      obtain ⟨n, noted⟩ := answered_journal net
        { e with sent := .chunks q.received u.length true } q.received.flatten
        { c with world := q.state }
      exact ⟨_, noted, passed, fun _ _ => rfl⟩

theorem send_journal (net : Network ω) (o : Options ω) (headers : Headers) (call : Call)
    (p : Payload) (c : Client ω) :
    (net.stopped c.world = true ∧ c.send net o headers call p =
      ⟨c, call, p, .error .abortedNow⟩) ∨
    ∃ e, (c.send net o headers call p).client.journal = c.journal ++ [e] ∧
      Passed p (c.send net o headers call p).payload e.sent ∧
      (∀ r, (c.send net o headers call p).outcome = .ok r → e.sent.isComplete = true) := by
  by_cases stopped : net.stopped c.world = true
  · exact .inl ⟨stopped, by rw [send_eq, if_pos stopped]⟩
  · obtain ⟨e, noted, passed, complete⟩ :=
      transmit_journal net o.progress (exchangeOf o headers call c) p c rfl
    right
    refine ⟨e, ?_⟩
    rw [send_eq, if_neg stopped]
    rcases h : c.transmit net o.progress (exchangeOf o headers call c) p with ⟨c', p', f | r⟩
    · rw [h] at noted passed complete
      exact ⟨noted, passed, fun r hr => by cases hr⟩
    · rw [h] at noted passed complete
      have whole := complete r rfl
      by_cases late : net.stopped c'.world = true
      · simp only [Attempt.after, if_pos late]
        exact ⟨noted, passed, fun _ _ => whole⟩
      · simp only [Attempt.after, if_neg late]
        exact ⟨noted, passed, fun _ _ => whole⟩

theorem resend_journal (net : Network ω) (o : Options ω) (headers : Headers)
    (recover : Recovery ω) (r : Received) (a : Attempt ω) (c : Client ω) :
    (net.stopped c.world = true ∧ (c.resend net o headers recover r a).client = c) ∨
    ∃ e, (c.resend net o headers recover r a).client.journal = c.journal ++ [e] ∧
      Passed a.payload (c.resend net o headers recover r a).payload e.sent := by
  rcases send_journal net (o.reading (a.left o headers recover r))
    (o.mapped headers (a.left o headers recover r)) a.refused a.payload c with
    ⟨stopped, nothing⟩ | ⟨e, noted, passed, -⟩
  · exact .inl ⟨stopped, congrArg Attempt.client nothing⟩
  · exact .inr ⟨e, noted, passed⟩

theorem settled_client (a : Attempt ω) : a.settled.1 = a.client := by
  cases h : a.outcome with
  | error f => rw [Attempt.settled_error h]
  | ok r => rw [Attempt.settled_ok h]

end Client

/-! ### Bodies that can be sent again -/

/-- A stream yields the same again if what stands between its first end and its second is what stood
before the first. -/
def Source.Repeats : Source → Prop
  | .stream pieces =>
    let first := pieces.takeWhile (!·.isEmpty)
    ((pieces.drop (first.length + 1)).takeWhile (!·.isEmpty)).flatten = first.flatten
  | _ => True

def Body.Repeats : Body → Prop
  | data source => source.Repeats
  | _ => True

theorem Source.next_iff_repeats (u : Upload) {b : Bytes}
    (content : (Payload.upload u).content = some b) :
    (Payload.upload u).next.content = some b ↔ u.source.Repeats := by
  obtain ⟨source, n⟩ := u
  cases h : source.chunks n with
  | error e => simp [Payload.content, h] at content
  | ok cs =>
    have whole : cs.flatten = b := by simpa [Payload.content, h] using content
    cases source with
    | stream pieces =>
      cases h
      simp [Payload.next, Payload.content, chunks, after, Repeats, whole]
    | _ => simp [Payload.next, Payload.content, h, after, Repeats, whole]

theorem Body.next_iff_repeats {body : Body} {h h' : Headers} {streaming : Bool} {n : Int}
    {p : Payload} {b : Bytes} (encoded : body.encode h streaming n = .ok (p, h'))
    (content : p.content = some b) : p.next.content = some b ↔ body.Repeats := by
  have plain_ (data : Bytes) (whole : Payload) (same : whole.next = whole)
      (built : p = plain data whole streaming n) : p.next.content = some b ↔ True := by
    subst built
    rw [plain] at content ⊢
    split at content
    · rename_i h
      rw [if_pos h]
      exact Source.next_iff_repeats _ content
    · rename_i h
      rw [if_neg h, same]
      exact ⟨fun _ => trivial, fun _ => content⟩
  cases body with
  | nothing => cases encoded; exact ⟨fun _ => trivial, fun _ => content⟩
  | bytes data => cases encoded; exact plain_ data _ rfl rfl
  | buffer data => cases encoded; exact plain_ data _ rfl rfl
  | text s => cases encoded; exact plain_ _ _ rfl rfl
  | form fields => cases encoded; exact plain_ _ _ rfl rfl
  | data source => cases encoded; exact Source.next_iff_repeats _ content
  | other v => cases encoded

/-! ### Calls -/

inductive Way where
  | fetch
  | transfer (kind : ResultKind)

namespace Way

variable {ω : Type}

def network (net : Network ω) : Way → Network ω
  | fetch => net.unstoppable
  | transfer _ => net

def options (o : Options ω) : Way → Options ω
  | fetch => { o with progress := none }
  | transfer _ => o

def recovery (net : Network ω) (o : Options ω) : Way → Option (Recovery ω)
  | fetch => some (o.recovery.getD (Client.refresh net))
  | transfer _ => o.recovery

def encode (config : Config) (o : Options ω) : Way → Except Failure (Payload × Headers)
  | fetch => o.body.encode o.headers false defaultChunkSize
  | transfer _ => o.body.encode o.headers true config.chunkSize

def attempt (w : Way) (net : Network ω) (o : Options ω) (headers : Headers) (call : Call)
    (p : Payload) (c : Client ω) : Client.Attempt ω :=
  c.send (w.network net) (w.options o) headers call p

def result (net : Network ω) (path : String) (o : Options ω) (call : Call) (c : Client ω) :
    Way → Client ω
  | fetch => (c.fetch net path o).1
  | transfer kind => (c.transfer net kind o call).1

theorem result_eq_run (w : Way) (net : Network ω) {path : String} {o : Options ω} {call : Call}
    {c : Client ω} {p : Payload} {headers : Headers} (started : c.start path = .ok call)
    (encoded : w.encode c.config o = .ok (p, headers)) :
    w.result net path o call c =
      (c.run (w.network net) (w.options o) (w.recovery net o) headers call p).1 := by
  cases w with
  | fetch =>
    have built : o.body.encode o.headers false defaultChunkSize = .ok (p, headers) := encoded
    simp only [result, Client.fetch_eq, started, built]
    rfl
  | transfer kind =>
    have built : o.body.encode o.headers true c.config.chunkSize = .ok (p, headers) := encoded
    rw [result, Client.transfer_eq net kind o call c built]
    rfl

def resend (w : Way) (net : Network ω) (o : Options ω) (headers : Headers) (recover : Recovery ω)
    (r : Received) (a : Client.Attempt ω) (c : Client ω) : Client.Attempt ω :=
  c.resend (w.network net) (w.options o) headers recover r a

theorem result_of_recovered (w : Way) (net : Network ω) {path : String} {o : Options ω}
    {call : Call} {c c₂ : Client ω} {p : Payload} {headers : Headers} {recover : Recovery ω}
    {r : Received} (started : c.start path = .ok call) (closed : call.guarded = true)
    (encoded : w.encode c.config o = .ok (p, headers)) (chosen : w.recovery net o = some recover)
    (came : (w.attempt net o headers call p c).outcome = .ok r) (refused : r.reply.status = 401)
    (recovered : recover ((w.attempt net o headers call p c).client.close r.number) = (c₂, none)) :
    w.result net path o call c =
      (w.resend net o headers recover r (w.attempt net o headers call p c) c₂).client := by
  rw [result_eq_run w net started encoded, chosen]
  rcases @Client.run_cases ω (w.network net) (w.options o) (some recover) headers call p c
    (Client.fresh_of_start started) with
    ⟨stays, _⟩ | ⟨r', recover', c', x, came', chosen', _, _, recovered', again⟩
  · rcases stays r came with h | h | h
    · cases h
    · exact absurd refused h
    · rw [closed] at h
      cases h
  · cases came.symm.trans came'
    cases chosen'
    cases recovered.symm.trans recovered'
    rw [again, Client.settled_client]
    rfl

/-- The second sending of a call on a protected path, once the first was refused and recovered
from. If it is complete it is the same as the first just where the body can be sent again. -/
theorem resent_iff_repeats (w : Way) (net : Network ω) {path : String} {o : Options ω} {call : Call}
    {c c₂ : Client ω} {p : Payload} {headers : Headers} {recover : Recovery ω} {r : Received}
    (started : c.start path = .ok call) (closed : call.guarded = true)
    (encoded : w.encode c.config o = .ok (p, headers)) (chosen : w.recovery net o = some recover)
    (came : (w.attempt net o headers call p c).outcome = .ok r) (refused : r.reply.status = 401)
    (recovered : recover ((w.attempt net o headers call p c).client.close r.number) = (c₂, none)) :
    ∃ first, (w.attempt net o headers call p c).client.journal = c.journal ++ [first] ∧
      first.sent.isComplete = true ∧
      (((w.network net).stopped c₂.world = true ∧ w.result net path o call c = c₂) ∨
      ∃ second, (w.result net path o call c).journal = c₂.journal ++ [second] ∧
        (second.sent.isComplete = true →
          (second.sent.data = first.sent.data ↔ o.body.Repeats)) ∧
        (o.body.Repeats → second.sent.data <+: first.sent.data)) := by
  rcases Client.send_journal (w.network net) (w.options o) headers call p c with
    ⟨_, stopped⟩ | ⟨first, noted, passed, complete⟩
  · have failed : (w.attempt net o headers call p c).outcome = .error .abortedNow := by
      rw [attempt, stopped]
    cases came.symm.trans failed
  · have whole := complete r came
    obtain ⟨content, left⟩ := passed.complete whole
    have same_iff : p.next.content = some first.sent.data ↔ o.body.Repeats := by
      cases w with
      | fetch => exact Body.next_iff_repeats encoded content
      | transfer kind => exact Body.next_iff_repeats encoded content
    refine ⟨first, noted, whole, ?_⟩
    rw [result_of_recovered w net started closed encoded chosen came refused recovered]
    -- Whatever the recovery has left of the options and the headers, the payload is the same.
    rcases Client.resend_journal (w.network net) (w.options o) headers recover r
        (w.attempt net o headers call p c) c₂
      with ⟨stopped, nothing⟩ | ⟨second, noted', passed'⟩
    · exact .inl ⟨stopped, nothing⟩
    · rw [attempt, left] at passed'
      refine .inr ⟨second, noted', fun whole' => ?_, fun repeats => ?_⟩
      · have content' := (passed'.complete whole').1
        rw [← same_iff, content', Option.some_inj]
      · exact passed'.within _ (same_iff.mpr repeats)

end Way

def putStream : Options (List Line) :=
  { method := "PUT", body := .data (.stream [[1, 2, 3]]), recovery := some { act := fun c => (c, none) } }

def putCall : Call :=
  { path := "/api/v1/files/a", url := "http://127.0.0.1:8080/api/v1/files/a", guarded := true }

def putPayload : Payload := .upload ⟨.stream [[1, 2, 3]], defaultChunkSize⟩

theorem Way.resent_iff_repeats_putStream :
    ∃ c₂ first, (fetch.attempt Line.network putStream [] putCall putPayload
        Client.refusedOnce).client.journal = [first] ∧ first.sent.isComplete = true ∧
      ((fetch.network Line.network).stopped c₂.world = true ∧
        fetch.result Line.network "/api/v1/files/a" putStream putCall Client.refusedOnce = c₂ ∨
      ∃ second, (fetch.result Line.network "/api/v1/files/a" putStream putCall
          Client.refusedOnce).journal = c₂.journal ++ [second] ∧
        (second.sent.isComplete = true →
          (second.sent.data = first.sent.data ↔ putStream.body.Repeats)) ∧
        (putStream.body.Repeats → second.sent.data <+: first.sent.data)) := by
  have started : Client.refusedOnce.start "/api/v1/files/a" = .ok putCall := rfl
  have encoded : fetch.encode Client.refusedOnce.config putStream = .ok (putPayload, []) := rfl
  have came : (fetch.attempt Line.network putStream [] putCall putPayload
    Client.refusedOnce).outcome = .ok ⟨{ status := 401 }, 0⟩ := rfl
  obtain ⟨first, noted, rest⟩ := resent_iff_repeats fetch Line.network started rfl encoded rfl came
    rfl rfl
  exact ⟨_, first, noted, rest⟩

/-- The stream is gone after the first sending, so that the second one is complete and empty. -/
theorem putStream_resent_empty :
    Client.refusedOnce.start "/api/v1/files/a" = .ok putCall ∧ putCall.guarded = true ∧
    (Way.fetch.attempt Line.network putStream [] putCall putPayload
      Client.refusedOnce).outcome = .ok ⟨{ status := 401 }, 0⟩ ∧
    (Client.refusedOnce.fetch Line.network "/api/v1/files/a" putStream).1.journal.map
        (fun e => (e.sent.data, e.sent.isComplete)) = [([1, 2, 3], true), ([], true)] := by
  refine ⟨rfl, rfl, rfl, ?_⟩
  decide +kernel

end FileGate
