import FileGate.Proofs.Client.Resend

namespace FileGate

/-- The failures that a transfer is there to report. -/
def Failure.IsReported : Failure → Prop
  | .auth _ | .rejected _ _ | .noResponse _ _ | .aborted _ => True
  | _ => False

inductive Failure.OfSending : Failure → Prop where
  | network (fault : NetworkFault) (message : String) : OfSending (.network fault message)
  | aborted (message : String) : OfSending (.aborted message)

/-! ### What can fail -/

namespace Receiver

variable {σ : Type} {r : Receiver σ}

def Quiet (r : Receiver σ) : Prop := ∀ f, r.progress = some f → ∀ x s, (f x s).2 = none

theorem Quiet.tell (quiet : r.Quiet) (total : Option Nat) (loaded : Nat) (s : σ) :
    (r.tell total loaded s).2 = none := by
  unfold Receiver.tell
  split
  · rename_i f t there
    exact quiet f there _ s
  · rfl

theorem Quiet.run (quiet : r.Quiet) (total : Option Nat) (cs : List Bytes) {loaded : Nat} {s : σ}
    {f : Failure} (failed : (r.run total loaded s cs).failure = some f) : f = .abortedNow := by
  induction cs generalizing loaded s with
  | nil => cases failed
  | cons c cs ih =>
    by_cases stopped : r.stopped s = true
    · simp only [Receiver.run, stopped, if_true, Option.some.injEq] at failed
      exact failed.symm
    · have told := quiet.tell total (loaded + c.length) (r.receive c s)
      rcases next : r.tell total (loaded + c.length) (r.receive c s) with ⟨s', x⟩
      rw [next] at told
      simp only at told
      subst told
      simp only [Receiver.run, stopped, next] at failed
      exact ih failed

end Receiver

theorem Source.chunks_error {source : Source} {n : Int} {f : Failure}
    (failed : source.chunks n = .error f) : ¬ f.IsReported ∧ ¬ f.OfSending := by
  have only : f = .badValue ∨ f = .notSeekable ∨ f = .noMember := by
    cases source with
    | memory b =>
      simp only [chunks] at failed
      split at failed
      · cases failed
        exact .inl rfl
      · cases failed
    | pipe => cases failed; exact .inr (.inl rfl)
    | unreadable => cases failed; exact .inr (.inr rfl)
    | file b => cases failed
    | textFile f => cases failed
    | stream pieces => cases failed
  rcases only with rfl | rfl | rfl
  · exact ⟨id, fun h => by cases h⟩
  · exact ⟨id, fun h => by cases h⟩
  · exact ⟨id, fun h => by cases h⟩

theorem Body.encode_error {body : Body} {headers : Headers} {streaming : Bool} {n : Int}
    {f : Failure} (failed : body.encode headers streaming n = .error f) : ¬ f.IsReported := by
  cases body with
  | other v => cases failed; exact id
  | nothing => cases failed
  | bytes b => cases failed
  | buffer b => cases failed
  | text s => cases failed
  | form fields => cases failed
  | data source => cases failed

theorem Reply.charsetName_error {r : Reply} {f : Failure} (failed : r.charsetName = .error f) :
    f = .noMember := by
  unfold charsetName at failed
  split at failed
  · cases failed
  · cases failed
  · dsimp only at failed
    split at failed
    · cases failed
    · cases failed
      rfl
    · split at failed
      · cases failed
      · split at failed
        · cases failed
        · cases failed

theorem Reply.json_error {r : Reply} {f : Failure} (failed : r.json = .error f) :
    ¬ f.IsReported := by
  unfold json at failed
  split at failed
  · cases failed
  · cases named : r.charsetName with
    | error g =>
      rw [named] at failed
      cases failed
      rw [charsetName_error named]
      exact id
    | ok name =>
      rw [named] at failed
      change readJson _ = _ at failed
      unfold readJson at failed
      split at failed
      · cases failed
      · cases failed
        exact id
      · cases failed
        exact id

theorem Reply.result_error {r : Reply} {kind : ResultKind} {f : Failure}
    (failed : r.result kind = .error f) : ¬ f.IsReported := by
  cases kind with
  | bytes => cases failed
  | reply => cases failed
  | text =>
    cases named : r.charsetName with
    | ok name => simp [result, text, named, Except.map] at failed
    | error g =>
      simp only [result, text, named, Except.map, Except.error.injEq] at failed
      rw [← failed, charsetName_error named]
      exact id
  | json =>
    cases read : r.json with
    | ok v => simp [result, read, Except.map] at failed
    | error g =>
      simp only [result, read, Except.map, Except.error.injEq] at failed
      subst failed
      exact json_error read

namespace Payload

def Readable (p : Payload) : Prop := p.content ≠ none

theorem readable_upload {u : Upload} :
    (upload u).Readable ↔ ∃ cs, u.source.chunks u.chunkSize = .ok cs := by
  cases chunks : u.source.chunks u.chunkSize with
  | error f => simp [Readable, content, chunks]
  | ok cs => simp [Readable, content, chunks]

theorem Readable.after {u : Upload} (readable : (upload u).Readable) (n : Nat) (ended : Bool) :
    (upload { u with source := u.source.after n ended }).Readable := by
  obtain ⟨source, chunkSize⟩ := u
  cases source with
  | stream pieces => exact readable_upload.mpr ⟨_, rfl⟩
  | _ => exact readable

end Payload

namespace Client

variable {ω : Type}

/-- Requests fail only as networks do, whoever is told how far an upload has come takes it quietly,
and a recovery fails only for want of a login or of the network. -/
structure Orderly (net : Network ω) (o : Options ω) : Prop where
  network : ∀ q w f, (net.answer q w).2 = .error f → ∃ fault message, f = .network fault message
  progress : ∀ tell, o.progress = some tell → ∀ x w, (tell x w).2 = none
  recovery : ∀ recover, o.recovery = some recover → ∀ (c : Client ω) f, (recover c).2 = some f →
    (∃ kind, f = .auth kind) ∨ ∃ fault message, f = .network fault message

section
variable {net : Network ω} {o : Options ω} {call : Call} {payload : Payload} {c : Client ω}
  {e : Exchange} {f : Failure}

theorem Orderly.reading (orderly : Orderly net o) (l : Lent) : Orderly net (o.reading l) :=
  ⟨orderly.network, orderly.progress, orderly.recovery⟩

theorem Orderly.answered (orderly : Orderly net o) {body : Bytes}
    (failed : (c.answered net e body).2 = .error f) : f.OfSending := by
  have only := orderly.network ⟨e.method, e.url, e.headers, body⟩ c.world
  rcases h : net.answer ⟨e.method, e.url, e.headers, body⟩ c.world with ⟨w, g | r⟩
  · rw [h] at only
    obtain ⟨fault, message, rfl⟩ := only g rfl
    simp only [Client.answered, h, Except.error.injEq] at failed
    subst failed
    exact .network fault message
  · simp [Client.answered, h] at failed

/-- An upload is broken off in the course of its pass, or answered after the whole of it. -/
theorem transmit_upload {u : Upload} {cs : List Bytes} (net : Network ω)
    (progress : Option (Float → ω → ω × Option Failure)) (e : Exchange) (c : Client ω)
    (chunks : u.source.chunks u.chunkSize = .ok cs) :
    let p := Receiver.run ⟨net.stopped, net.arrive, progress⟩ u.total 0 c.world cs
    let left := Payload.upload { u with source := u.source.after p.taken p.failure.isNone }
    let sent := { e with sent := .chunks p.received u.length p.failure.isNone }
    (∃ f, p.failure = some f ∧ c.transmit net progress e (.upload u) =
      ({ c with world := p.state, journal := c.journal ++ [sent] }, left, .error f)) ∨
    (p.failure = none ∧ c.transmit net progress e (.upload u) =
      (({ c with world := p.state }.answered net sent p.received.flatten).1, left,
        ({ c with world := p.state }.answered net sent p.received.flatten).2)) := by
  intro p left sent
  have passed : u.pass ⟨net.stopped, net.arrive, progress⟩ c.world =
      (p, { u with source := u.source.after p.taken p.failure.isNone }) := by
    simp only [Upload.pass, chunks]
    rfl
  cases failed : p.failure with
  | some f =>
    refine .inl ⟨f, rfl, ?_⟩
    simp only [Client.transmit, passed, failed, left, sent]
  | none =>
    refine .inr ⟨rfl, ?_⟩
    simp only [Client.transmit, passed, failed, left, sent]

theorem Orderly.transmit (orderly : Orderly net o) (readable : payload.Readable) :
    (c.transmit net o.progress e payload).2.1.Readable ∧
      ∀ f, (c.transmit net o.progress e payload).2.2 = .error f → f.OfSending := by
  cases payload with
  | nothing => exact ⟨readable, fun f failed => orderly.answered failed⟩
  | bytes b => exact ⟨readable, fun f failed => orderly.answered failed⟩
  | buffer b => exact ⟨readable, fun f failed => orderly.answered failed⟩
  | upload u =>
    have quiet : Receiver.Quiet ⟨net.stopped, net.arrive, o.progress⟩ := orderly.progress
    obtain ⟨cs, chunks⟩ := Payload.readable_upload.mp readable
    rcases transmit_upload net o.progress e c chunks with ⟨g, failed, broken⟩ | ⟨_, whole⟩
    · rw [broken]
      refine ⟨readable.after _ _, fun f h => ?_⟩
      cases h
      rw [quiet.run u.total cs failed]
      exact .aborted _
    · rw [whole]
      exact ⟨readable.after _ _, fun f h => orderly.answered h⟩

theorem transmit_unreadable (net : Network ω) (o : Options ω) (e : Exchange) (c : Client ω)
    (blocked : ¬ payload.Readable) :
    ∃ f, (c.transmit net o.progress e payload).2.2 = .error f ∧ ¬ f.IsReported ∧ ¬ f.OfSending := by
  cases payload with
  | nothing => exact absurd (by simp [Payload.Readable, Payload.content]) blocked
  | bytes b => exact absurd (by simp [Payload.Readable, Payload.content]) blocked
  | buffer b => exact absurd (by simp [Payload.Readable, Payload.content]) blocked
  | upload u =>
    rw [Payload.readable_upload] at blocked
    cases chunks : u.source.chunks u.chunkSize with
    | ok cs => exact absurd ⟨cs, chunks⟩ blocked
    | error f =>
      obtain ⟨unreported, other⟩ := Source.chunks_error chunks
      exact ⟨f, by simp [Client.transmit, Upload.pass, chunks], unreported, other⟩

theorem Orderly.send (orderly : Orderly net o) (headers : Headers) (call : Call)
    (ready : net.stopped c.world = true ∨ payload.Readable) :
    (∀ f, (c.send net o headers call payload).outcome = .error f → f.OfSending) ∧
      ∀ r, (c.send net o headers call payload).outcome = .ok r →
        (c.send net o headers call payload).payload.Readable := by
  rw [send_eq]
  by_cases stopped : net.stopped c.world = true
  · rw [if_pos stopped]
    refine ⟨fun f h => ?_, fun r h => by cases h⟩
    cases h
    exact .aborted _
  · have sent := orderly.transmit (c := c) (e := exchangeOf o headers call c)
      (ready.resolve_left stopped)
    rw [if_neg stopped]
    rcases h : c.transmit net o.progress (exchangeOf o headers call c) payload with ⟨c', p', f | r⟩
    · rw [h] at sent
      refine ⟨fun f' h' => ?_, fun r h' => by cases h'⟩
      cases h'
      exact sent.2 f rfl
    · rw [h] at sent
      simp only [Attempt.after]
      split
      · refine ⟨fun f' h' => ?_, fun r h' => by cases h'⟩
        cases h'
        exact .aborted _
      · exact ⟨fun f' h' => (by cases h'), fun r h' => sent.1⟩

theorem send_unreadable (o : Options ω) (headers : Headers) (call : Call)
    (going : net.stopped c.world = false) (blocked : ¬ payload.Readable) :
    ∃ f, (c.send net o headers call payload).outcome = .error f ∧
      (c.send net o headers call payload).call.state = .sent ∧ ¬ f.IsReported ∧ ¬ f.OfSending := by
  obtain ⟨f, failed, unreported, other⟩ :=
    transmit_unreadable net o (exchangeOf o headers call c) c blocked
  rw [send_eq, going]
  rcases h : c.transmit net o.progress (exchangeOf o headers call c) payload with ⟨c', p', x⟩
  rw [h] at failed
  simp only at failed
  subst failed
  exact ⟨f, rfl, rfl, unreported, other⟩

/-! ### Whole calls -/

def IsOver (call : Call) : Except Failure Received → Prop
  | .ok r => call.state = if isSuccess r.reply.status then .succeeded else .failed
  | .error f => f.OfSending ∨ (∃ kind, f = .auth kind) ∧ call.state = .failed

theorem settle_isOver (call : Call) (r : Received) :
    IsOver (settle call r).1 (settle call r).2 := by
  unfold settle
  split
  · exact .inr ⟨⟨.basic, rfl⟩, rfl⟩
  · rfl

theorem Attempt.settled_isOver {a : Attempt ω}
    (failures : ∀ f, a.outcome = .error f → f.OfSending) :
    IsOver a.settled.2.1 a.settled.2.2 := by
  cases h : a.outcome with
  | error f =>
    rw [Attempt.settled_error h]
    exact .inl (failures f h)
  | ok r =>
    rw [Attempt.settled_ok h]
    exact settle_isOver a.call r

theorem Orderly.run (orderly : Orderly net o) (headers : Headers) (fresh : call.retried = false)
    (ready : net.stopped c.world = true ∨ payload.Readable) :
    IsOver (c.run net o o.recovery headers call payload).2.1
      (c.run net o o.recovery headers call payload).2.2 := by
  obtain ⟨failures, left⟩ := orderly.send headers call ready
  rcases @run_cases ω net o o.recovery headers call payload c fresh with
    ⟨_, once⟩ | ⟨r, recover, c', x, answered, some_, _, _, recovered, again⟩
  · rw [once]
    exact Attempt.settled_isOver failures
  · rw [again]
    cases x with
    | some f =>
      have failed := orderly.recovery recover some_
        ((c.send net o headers call payload).client.close r.number) f (by rw [recovered])
      rcases failed with ⟨kind, rfl⟩ | ⟨fault, message, rfl⟩
      · exact .inr ⟨⟨kind, rfl⟩, rfl⟩
      · exact .inl (.network fault message)
    | none =>
      exact Attempt.settled_isOver
        ((orderly.reading _).send (c := c') _ _ (.inr (left r answered))).1

theorem run_unreadable (o : Options ω) (recovery : Option (Recovery ω)) (headers : Headers)
    (fresh : call.retried = false) (going : net.stopped c.world = false)
    (blocked : ¬ payload.Readable) :
    ∃ f, (c.run net o recovery headers call payload).2.2 = .error f ∧
      (c.run net o recovery headers call payload).2.1.state = .sent ∧
      ¬ f.IsReported ∧ ¬ f.OfSending := by
  obtain ⟨f, failed, state, unreported, other⟩ := send_unreadable o headers call going blocked
  rcases @run_cases ω net o recovery headers call payload c fresh with
    ⟨_, once⟩ | ⟨r, _, _, _, answered, _⟩
  · rw [once, Attempt.settled_error failed]
    exact ⟨f, rfl, state, unreported, other⟩
  · rw [failed] at answered
    cases answered

end

/-! ### Transfers -/

inductive Tells : CallState → Except Failure Outcome → Prop where
  | succeeded (y : Outcome) : Tells .succeeded (.ok y)
  | failed {f : Failure} (reported : f.IsReported) : Tells .failed (.error f)

/-- The body can be sent, and what is to be read from a successful reply can be read. -/
def CanTell (net : Network ω) (kind : ResultKind) (o : Options ω) (call : Call) (c : Client ω) :
    Prop :=
  ∃ payload headers, o.body.encode o.headers true c.config.chunkSize = .ok (payload, headers) ∧
    (net.stopped c.world = true ∨ payload.Readable) ∧
    ∀ r, (c.run net o o.recovery headers call payload).2.2 = .ok r →
      isSuccess r.reply.status = true → ∃ y, r.reply.result kind = .ok y

/-- Another failure escapes, and the call is left in one of three states. -/
def Escapes (state : CallState) (outcome : Except Failure Outcome) : Prop :=
  ∃ f, outcome = .error f ∧ ¬ f.IsReported ∧
    (state = .idle ∨ state = .sent ∨ state = .succeeded)

theorem not_tells_of_escapes {state : CallState} {outcome : Except Failure Outcome}
    (escapes : Escapes state outcome) : ¬ Tells state outcome := by
  obtain ⟨f, rfl, unreported, _⟩ := escapes
  intro tells
  cases tells with
  | failed reported => exact unreported reported

theorem start_of_prepare {path : String} {o : Options ω} {c : Client ω} {kind : ResultKind}
    {call : Call} (prepared : c.prepare path o = .ok (kind, call)) : c.start path = .ok call := by
  cases named : ResultKind.ofName? o.result with
  | none =>
    rw [prepare, named] at prepared
    cases prepared
  | some k =>
    rw [prepare, named] at prepared
    have bound : (c.start path >>= fun call =>
        if c.config.maxTransfers ≤ 0 then .error .badValue else pure (k, call)) =
          .ok (kind, call) := prepared
    obtain ⟨_, started, ready⟩ := exists_of_bind_ok bound
    split at ready
    · cases ready
    · cases ready
      exact started

theorem waited_eq_transfer {net : Network ω} {path : String} {o : Options (Stage ω)}
    {c : Client (Stage ω)} (begins : c.world.plan.interrupt.map (·.1) ≠ some .start) :
    c.waited (Stage.network net) path o =
      ((Stage.transfer net path o c).1, (Stage.transfer net path o c).2.2) := by
  cases ready : c.prepare path o with
  | error f => simp only [waited_eq, Stage.transfer, ready]
  | ok started => simp only [waited_eq, Stage.transfer, ready, if_neg begins]

theorem transferFailure_of_other {call : Call} {f : Failure} (other : ¬ f.OfSending) :
    transferFailure call f = (call, f) := by
  unfold transferFailure
  split
  · exact absurd (.network _ _) other
  · exact absurd (.aborted _) other
  · rfl

theorem transferFailure_tells {call : Call} {f : Failure}
    (ended : f.OfSending ∨ (∃ kind, f = .auth kind) ∧ call.state = .failed) :
    Tells (transferFailure call f).1.state (.error (transferFailure call f).2) := by
  rcases ended with sending | ⟨⟨kind, rfl⟩, failed⟩
  · cases sending with
    | network fault message => exact .failed trivial
    | aborted message => exact .failed trivial
  · change Tells call.state (.error (.auth kind))
    rw [failed]
    exact .failed trivial

section
variable {net : Network ω} {o : Options ω} {c : Client ω} {kind : ResultKind} {call : Call}

theorem IsOver.tells {x : Except Failure Received} (ended : IsOver call x)
    (said : ∀ r, x = .ok r → isSuccess r.reply.status = true → ∃ y, r.reply.result kind = .ok y) :
    Tells (concluded kind call x).1.state (concluded kind call x).2 := by
  cases x with
  | error f => exact transferFailure_tells ended
  | ok r =>
    have state : call.state = if isSuccess r.reply.status then .succeeded else .failed := ended
    simp only [concluded]
    by_cases success : isSuccess r.reply.status = true
    · obtain ⟨y, h⟩ := said r rfl success
      rw [state, if_pos success, if_pos success, h]
      exact .succeeded _
    · rw [state, if_neg success, if_neg success]
      exact .failed trivial

theorem IsOver.escapes {r : Received} {f : Failure} (ended : IsOver call (.ok r))
    (success : isSuccess r.reply.status = true) (unsaid : r.reply.result kind = .error f) :
    Escapes (concluded kind call (.ok r)).1.state (concluded kind call (.ok r)).2 := by
  have state : call.state = if isSuccess r.reply.status then .succeeded else .failed := ended
  rw [if_pos success] at state
  refine ⟨f, ?_, Reply.result_error unsaid, .inr (.inr state)⟩
  rw [concluded, if_pos success, unsaid]
  rfl

theorem tells_of_canTell (orderly : Orderly net o) (fresh : call.retried = false)
    (can : CanTell net kind o call c) :
    Tells (c.transfer net kind o call).2.1.state (c.transfer net kind o call).2.2 := by
  obtain ⟨payload, headers, encoded, ready, said⟩ := can
  rw [transfer_eq net kind o call c encoded]
  exact (orderly.run headers fresh ready).tells said

theorem escapes_of_not_canTell (kind : ResultKind) (orderly : Orderly net o)
    (fresh : call.retried = false) (idle : call.state = .idle) (cannot : ¬ CanTell net kind o call c) :
    Escapes (c.transfer net kind o call).2.1.state (c.transfer net kind o call).2.2 := by
  cases encoded : o.body.encode o.headers true c.config.chunkSize with
  | error f =>
    rw [transfer_of_error net kind call encoded]
    exact ⟨f, rfl, Body.encode_error encoded, .inl idle⟩
  | ok x =>
    obtain ⟨payload, headers⟩ := x
    rw [transfer_eq net kind o call c encoded]
    by_cases ready : net.stopped c.world = true ∨ payload.Readable
    · have ended := orderly.run headers fresh ready
      have unsaid : ∃ r f, (c.run net o o.recovery headers call payload).2.2 = .ok r ∧
          isSuccess r.reply.status = true ∧ r.reply.result kind = .error f := by
        refine Classical.byContradiction fun none_ => cannot ?_
        refine ⟨payload, headers, encoded, ready, fun r answered success => ?_⟩
        cases said : r.reply.result kind with
        | ok y => exact ⟨y, rfl⟩
        | error f => exact absurd ⟨r, f, answered, success, said⟩ none_
      obtain ⟨r, f, answered, success, unsaid⟩ := unsaid
      rw [answered] at ended ⊢
      exact ended.escapes success unsaid
    · rw [not_or, Bool.not_eq_true] at ready
      obtain ⟨f, failed, state, unreported, other⟩ :=
        run_unreadable o o.recovery headers fresh ready.1 ready.2
      rw [failed]
      refine ⟨f, ?_, unreported, .inr (.inl ?_)⟩
      · rw [concluded, transferFailure_of_other other]
      · rw [concluded, transferFailure_of_other other]
        exact state

/-- A transfer that has begun tells its outcome by the state of its call exactly if its body can be
sent and the reply be read; else some other failure escapes. -/
theorem transfer_tells_iff {path : String} (prepared : c.prepare path o = .ok (kind, call))
    (orderly : Orderly net o) :
    (Tells (c.transfer net kind o call).2.1.state (c.transfer net kind o call).2.2 ↔
      CanTell net kind o call c) ∧
    (¬ CanTell net kind o call c →
      Escapes (c.transfer net kind o call).2.1.state (c.transfer net kind o call).2.2) := by
  have started := start_of_prepare prepared
  have fresh := fresh_of_start started
  have escapes : ¬ CanTell net kind o call c → _ :=
    escapes_of_not_canTell kind orderly fresh (idle_of_start started)
  refine ⟨⟨fun tells => ?_, tells_of_canTell orderly fresh⟩, escapes⟩
  exact Classical.byContradiction fun cannot => not_tells_of_escapes (escapes cannot) tells

end

def scripted : Network (List (Except NetworkFault Reply)) where
  answer _ lines :=
    match lines with
    | [] => ([], .error (.network .connection ""))
    | .ok r :: rest => (rest, .ok r)
    | .error fault :: rest => (rest, .error (.network fault ""))
  arrive _ lines := lines
  stopped _ := false

def askJson : Options (List (Except NetworkFault Reply)) := { result := "json" }

theorem scripted_orderly : Orderly scripted askJson where
  network := by
    rintro q (_ | ⟨fault | r, rest⟩) f failed
    · cases failed
      exact ⟨_, _, rfl⟩
    · cases failed
      exact ⟨_, _, rfl⟩
    · cases failed
  progress := fun _ h => by cases h
  recovery := fun _ h => by cases h

def hearing (body : String) : Client (List (Except NetworkFault Reply)) :=
  { config := {}, credentials := .cookies, entries := []
    world := [.ok { status := 200, body := Bytes.ofString body }] }

def askCall : Call :=
  { path := "/api/v1/files/a", url := "http://127.0.0.1:8080/api/v1/files/a", guarded := true }

theorem transfer_tells_empty :
    let t := (hearing "").transfer scripted .json askJson askCall
    Tells t.2.1.state t.2.2 ∧ t.2.1.state = .succeeded := by
  have prepared : (hearing "").prepare "/api/v1/files/a" askJson = .ok (.json, askCall) := rfl
  have answered : ((hearing "").run scripted askJson none [] askCall .nothing).2.2.toOption =
      some ⟨{ status := 200 }, 0⟩ := by decide +kernel
  refine ⟨(transfer_tells_iff prepared scripted_orderly).1.mpr ?_, by decide +kernel⟩
  refine ⟨.nothing, [], rfl, .inr (by simp [Payload.Readable, Payload.content]), fun r h _ => ?_⟩
  have bare : askJson.recovery = none := rfl
  rw [bare] at h
  rw [h] at answered
  cases answered
  exact ⟨_, rfl⟩

/-- The call has succeeded by its state, and yet there is no result. -/
theorem transfer_undecoded :
    (hearing "no json").prepare "/api/v1/files/a" askJson = .ok (.json, askCall) ∧
    Orderly scripted askJson ∧
    ((hearing "no json").transfer scripted .json askJson askCall).2.1.state = .succeeded ∧
    ((hearing "no json").transfer scripted .json askJson askCall).2.2 = .error .badJson := by
  refine ⟨rfl, scripted_orderly, by decide +kernel, ?_⟩
  have failure : (match ((hearing "no json").transfer scripted .json askJson askCall).2.2 with
      | .error f => some f
      | .ok _ => none) = some .badJson := by decide +kernel
  split at failure
  · rename_i f said
    rw [said, Option.some.inj failure]
  · cases failure

end Client
end FileGate
