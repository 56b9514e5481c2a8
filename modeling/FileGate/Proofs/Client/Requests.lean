import FileGate.Proofs.Client.Resend
import FileGate.Proofs.Client.Transparent

namespace FileGate

namespace Client

variable {ω : Type}

/-- The new exchanges in the journal are all of a kind, and the configuration stays. -/
structure Notes (Kind : Exchange → Prop) (c c' : Client ω) : Prop where
  config : c'.config = c.config
  journal : ∃ new, c'.journal = c.journal ++ new ∧ ∀ e ∈ new, Kind e

section
variable {Kind : Exchange → Prop} {c c' c'' : Client ω}

theorem Notes.refl (c : Client ω) : Notes Kind c c :=
  ⟨rfl, [], (List.append_nil _).symm, fun _ h => by cases h⟩

theorem Notes.trans (first : Notes Kind c c') (second : Notes Kind c' c'') : Notes Kind c c'' := by
  obtain ⟨new, noted, all⟩ := first.journal
  obtain ⟨new', noted', all'⟩ := second.journal
  refine ⟨second.config.trans first.config, new ++ new', ?_, fun e he => ?_⟩
  · rw [noted', noted, List.append_assoc]
  · exact (List.mem_append.mp he).elim (all e) (all' e)

theorem Notes.mono {Kind' : Exchange → Prop} (notes : Notes Kind c c')
    (kind : ∀ e, Kind e → Kind' e) : Notes Kind' c c' := by
  obtain ⟨new, noted, all⟩ := notes.journal
  exact ⟨notes.config, new, noted, fun e he => kind e (all e he)⟩

theorem Notes.close (notes : Notes Kind c c') (n : Nat) : Notes Kind c (c'.close n) :=
  ⟨notes.config, notes.journal⟩

theorem answered_config (net : Network ω) (e : Exchange) (body : Bytes) (c : Client ω) :
    (c.answered net e body).1.config = c.config := by
  rcases h : net.answer ⟨e.method, e.url, e.headers, body⟩ c.world with ⟨w, f | r⟩
  · simp [answered, h]
  · simp [answered, h]

theorem answered_notes (net : Network ω) {e : Exchange} (body : Bytes) (c : Client ω)
    (kind : ∀ n, Kind { e with answer := n }) : Notes Kind c (c.answered net e body).1 := by
  obtain ⟨n, noted⟩ := answered_journal net e body c
  refine ⟨answered_config net e body c, _, noted, fun e' he => ?_⟩
  rw [List.mem_singleton.mp he]
  exact kind n

theorem transmit_notes (net : Network ω) (progress : Option (Float → ω → ω × Option Failure))
    {e : Exchange} (p : Payload) (c : Client ω)
    (kind : ∀ sent n, Kind { e with sent := sent, answer := n }) :
    Notes Kind c (c.transmit net progress e p).1 := by
  cases p with
  | nothing => exact answered_notes net [] c (kind e.sent)
  | bytes b => exact answered_notes net b c (kind (.bytes b))
  | buffer b => exact answered_notes net b c (kind (.bytes b))
  | upload u =>
    rcases h : u.pass ⟨net.stopped, net.arrive, progress⟩ c.world with ⟨q, u'⟩
    have moved : Notes Kind c { c with world := q.state } := ⟨rfl, (Notes.refl c).journal⟩
    cases failed : q.failure with
    | some f =>
      simp only [transmit, h, failed]
      refine moved.trans ⟨rfl, _, rfl, fun e' he => ?_⟩
      rw [List.mem_singleton.mp he]
      exact kind _ e.answer
    | none =>
      simp only [transmit, h, failed]
      exact moved.trans (answered_notes net q.received.flatten _ (kind _))

end

/-! ### Calls -/

/-- Exchanges that belong to a call: its method, its address, and its headers with whatever token.
-/
def OfCall (o : Options ω) (headers : Headers) (call : Call) (e : Exchange) : Prop :=
  e.method = o.method ∧ e.url = call.url ∧
    ∃ token, e.headers = attemptHeaders call.guarded token headers

/-- An exchange that belongs to a call by its options, or by what its recovery has left of them. -/
inductive Belongs (o : Options ω) (recovery : Option (Recovery ω)) (headers : Headers) (call : Call)
    (e : Exchange) : Prop where
  | first (ofCall : OfCall o headers call e) : Belongs o recovery headers call e
  | left {recover : Recovery ω} (there : recovery = some recover) (c : Client ω)
    (ofCall : OfCall (o.reading (recover.amend c o.lent))
      (o.mapped headers (recover.amend c o.lent)) call e) : Belongs o recovery headers call e

section
variable {net : Network ω} {o : Options ω} {recovery : Option (Recovery ω)} {headers : Headers}
  {call : Call} {payload : Payload} {c : Client ω}

theorem Belongs.ofCall {recover : Recovery ω} {e : Exchange} (idle : recover.Idle)
    (given : o.mapped headers o.lent = headers) (belongs : Belongs o (some recover) headers call e) :
    OfCall o headers call e := by
  cases belongs with
  | first ofCall => exact ofCall
  | left there c ofCall =>
    cases there
    rwa [idle c o.lent, given] at ofCall

theorem send_notes (net : Network ω) (o : Options ω) (headers : Headers) (call : Call)
    (payload : Payload) (c : Client ω) :
    Notes (OfCall o headers call) c (c.send net o headers call payload).client := by
  rw [send_eq]
  split
  · exact .refl c
  · have noted := @transmit_notes ω (OfCall o headers call) net o.progress
      (exchangeOf o headers call c) payload c fun _ _ => ⟨rfl, rfl, _, rfl⟩
    rcases h : c.transmit net o.progress (exchangeOf o headers call c) payload with ⟨c', p', f | r⟩
    · rw [h] at noted
      exact noted
    · rw [h] at noted
      simp only [Attempt.after]
      split
      · exact noted.close r.number
      · exact noted

theorem send_noted (going : net.stopped c.world = false) :
    ∃ e, OfCall o headers call e ∧
      (c.send net o headers call payload).client.journal = c.journal ++ [e] := by
  rcases send_journal net o headers call payload c with ⟨stopped, _⟩ | ⟨e, noted, _⟩
  · rw [going] at stopped
    cases stopped
  · obtain ⟨_, new, noted', all⟩ := send_notes net o headers call payload c
    obtain rfl := List.append_cancel_left (noted.symm.trans noted')
    exact ⟨e, all e List.mem_cons_self, noted⟩

theorem send_call : (c.send net o headers call payload).call.url = call.url ∧
    (c.send net o headers call payload).call.guarded = call.guarded := by
  rw [send_eq]
  split
  · exact ⟨rfl, rfl⟩
  · rcases c.transmit net o.progress (exchangeOf o headers call c) payload with ⟨c', p', f | r⟩
    · exact ⟨rfl, rfl⟩
    · simp only [Attempt.after]
      split
      · exact ⟨rfl, rfl⟩
      · exact ⟨rfl, rfl⟩

variable {Kind : Exchange → Prop}

/-- After its first attempt a call notes its own exchanges and those of its recovery. -/
theorem run_notes (fresh : call.retried = false) (lent : (o.laid headers).2.toLent = o.lent)
    (own : ∀ e, Belongs o recovery headers call e → Kind e)
    (recovers : ∀ recover, recovery = some recover → ∀ c, Notes Kind c (recover c).1) :
    Notes Kind (c.send net o headers call payload).client
      (c.run net o recovery headers call payload).1 := by
  rcases @run_cases ω net o recovery headers call payload c fresh with
    ⟨_, once⟩ | ⟨r, recover, c', x, _, some_, _, _, recovered, again⟩
  · rw [once, settled_client]
    exact .refl _
  · have renewed := recovers recover some_
      ((c.send net o headers call payload).client.close r.number)
    rw [recovered] at renewed
    have before := ((Notes.refl _).close r.number).trans renewed
    cases x with
    | some f =>
      rw [again]
      exact before
    | none =>
      obtain ⟨url, guarded⟩ := @send_call ω net o headers call payload c
      simp only [again, settled_client]
      let refused := (c.send net o headers call payload).client.close r.number
      obtain ⟨config, new, noted, all⟩ := send_notes net (o.reading (recover.amend refused o.lent))
        (o.mapped headers (recover.amend refused o.lent))
        (c.send net o headers call payload).refused (c.send net o headers call payload).payload c'
      rw [resend, Attempt.left, lent]
      refine before.trans ⟨config, new, noted, fun e he => own e (.left some_ refused ?_)⟩
      rw [OfCall, ← url, ← guarded]
      exact all e he

end

theorem url_of_start {path : String} {c : Client ω} {call : Call}
    (started : c.start path = .ok call) : c.config.urlFor path.toList = .ok call.url :=
  (start_eq_ok started).2.1

def IsRenewal (e : Exchange) : Prop := e.method = "POST" ∧ e.headers = [(contentType, formType)]

theorem post_notes (net : Network ω) (path : Value) (fields : List (String × Value))
    (c : Client ω) : Notes IsRenewal c (c.post net path fields).1 := by
  unfold post
  cases c.config.urlFor path.display with
  | error e => exact .refl c
  | ok url => exact answered_notes net _ c fun _ => ⟨rfl, rfl⟩

theorem refresh_notes (net : Network ω) (c : Client ω) : Notes IsRenewal c (c.refresh net).1 := by
  unfold refresh exchange
  have posted := post_notes net c.config.tokenPath
    [("grant_type", .text "refresh_token"), ("refresh_token", c.refreshToken),
      ("cookie_path", c.config.cookiePath)] c
  split
  · rename_i came
    rw [came] at posted
    exact posted
  · rename_i came
    rw [came] at posted
    split
    · exact ⟨posted.config, posted.journal⟩
    · exact ⟨posted.config, posted.journal⟩

/-- Exchanges that ask for what the options say. Of the headers this leaves out those that a call
may set itself. -/
structure Carries (o : Options ω) (url : String) (e : Exchange) : Prop where
  method : e.method = o.method
  url : e.url = url
  headers : ∀ name, (∀ k ∈ ["Authorization", "Cache-Control", contentType],
    lowerText k ≠ lowerText name) → Headers.values name e.headers = Headers.values name o.headers

theorem OfCall.carries {o : Options ω} {headers : Headers} {call : Call} {e : Exchange}
    (ofCall : OfCall o headers call e) {streaming : Bool} {n : Int} {p : Payload}
    (encoded : o.body.encode o.headers streaming n = .ok (p, headers)) : Carries o call.url e := by
  obtain ⟨method, url, token, sent⟩ := ofCall
  refine ⟨method, url, fun name other => ?_⟩
  rw [sent]
  cases call.guarded with
  | true => exact attempt_values encoded token other
  | false =>
    rw [attemptHeaders, if_neg Bool.false_ne_true]
    rcases Body.encode_headers encoded with rfl | rfl
    · rfl
    · exact Headers.values_put_of_ne _ _ (other _ (by decide))

end Client

namespace Way

variable {ω : Type} {w : Way} {net : Network ω} {path : String} {o : Options ω} {call : Call}
  {c : Client ω} {p : Payload} {headers : Headers}

theorem encode_eq (w : Way) (config : Config) (o : Options ω) :
    ∃ streaming n, w.encode config o = o.body.encode o.headers streaming n := by
  cases w with
  | fetch => exact ⟨_, _, rfl⟩
  | transfer kind => exact ⟨_, _, rfl⟩

theorem carries {e : Exchange} (ofCall : Client.OfCall (w.options o) headers call e)
    (encoded : w.encode c.config o = .ok (p, headers)) : Client.Carries o call.url e := by
  obtain ⟨streaming, n, encodes⟩ := w.encode_eq c.config o
  have same : Client.OfCall o headers call e := by
    cases w with
    | fetch => exact ofCall
    | transfer kind => exact ofCall
  exact same.carries (encodes.symm.trans encoded)

theorem laid_of_encode (encoded : w.encode c.config o = .ok (p, headers)) :
    ((w.options o).laid headers).2.toLent = (w.options o).lent ∧
      (w.options o).mapped headers (w.options o).lent = headers := by
  cases w with
  | fetch =>
    have built : o.body.encode o.headers false defaultChunkSize = .ok (p, headers) := encoded
    have same : ({ o with progress := none } : Options ω).body.encode o.headers false
      defaultChunkSize = .ok (p, headers) := built
    exact ⟨Options.laid_lent same, Options.mapped_lent same⟩
  | transfer kind =>
    have built : o.body.encode o.headers true c.config.chunkSize = .ok (p, headers) := encoded
    exact ⟨Options.laid_lent built, Options.mapped_lent built⟩

theorem result_of_error {f : Failure} (started : c.start path = .ok call)
    (broken : w.encode c.config o = .error f) : w.result net path o call c = c := by
  cases w with
  | fetch =>
    have broken : o.body.encode o.headers false defaultChunkSize = .error f := broken
    simp only [result, Client.fetch_eq, started, broken]
  | transfer kind =>
    have broken : o.body.encode o.headers true c.config.chunkSize = .error f := broken
    rw [result, Client.transfer_of_error net kind call broken]

def Causes (o : Options ω) (call : Call) (e : Exchange) : Prop :=
  Client.IsRenewal e ∨ Client.Carries o call.url e

theorem notes_after_attempt (started : c.start path = .ok call)
    (encoded : w.encode c.config o = .ok (p, headers))
    (renews : w.recovery net o = some { act := Client.refresh net }) :
    Client.Notes (Causes o call) (w.attempt net o headers call p c).client
      (w.result net path o call c) := by
  rw [result_eq_run w net started encoded, renews]
  obtain ⟨lent, given⟩ := laid_of_encode encoded
  apply Client.run_notes (Client.fresh_of_start started) lent
  · exact fun e belongs => .inr (carries (belongs.ofCall (fun _ _ => rfl) given) encoded)
  · rintro _ ⟨⟩ c'
    exact (Client.refresh_notes net c').mono fun _ => .inl

theorem result_notes (started : c.start path = .ok call)
    (renews : w.recovery net o = some { act := Client.refresh net }) :
    Client.Notes (Causes o call) c (w.result net path o call c) := by
  cases encoded : w.encode c.config o with
  | error f =>
    rw [result_of_error started encoded]
    exact .refl c
  | ok ready =>
    obtain ⟨p, headers⟩ := ready
    have first := Client.send_notes (w.network net) (w.options o) headers call p c
    exact (first.mono fun e ofCall => .inr (carries ofCall encoded)).trans
      (notes_after_attempt started encoded renews)

theorem result_asks (started : c.start path = .ok call)
    (encoded : w.encode c.config o = .ok (p, headers))
    (going : (w.network net).stopped c.world = false)
    (renews : w.recovery net o = some { act := Client.refresh net }) :
    ∃ e rest, Client.Carries o call.url e ∧
      (w.result net path o call c).journal = c.journal ++ e :: rest := by
  obtain ⟨e, ofCall, noted⟩ := Client.send_noted going
  obtain ⟨_, rest, noted', _⟩ := notes_after_attempt started encoded renews
  refine ⟨e, rest, carries ofCall encoded, ?_⟩
  rw [noted', attempt, noted, List.append_assoc]
  rfl

end Way
end FileGate
