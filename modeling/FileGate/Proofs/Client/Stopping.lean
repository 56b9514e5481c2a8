import FileGate.Proofs.Client.Outcome
import FileGate.Proofs.Client.Requests

namespace FileGate

/-! ### Passes -/

namespace Receiver

variable {σ : Type} {r : Receiver σ}

def StaysStopped (r : Receiver σ) : Prop :=
  ∀ f, r.progress = some f → ∀ x s, r.stopped s = true → r.stopped (f x s).1 = true

theorem StaysStopped.tell (stays : r.StaysStopped) (total : Option Nat) (loaded : Nat) {s : σ}
    (stopped : r.stopped s = true) : r.stopped (r.tell total loaded s).1 = true := by
  unfold Receiver.tell
  split
  · rename_i f t there
    exact stays f there _ s stopped
  · exact stopped

theorem run_stopped {s : σ} (stopped : r.stopped s = true) (total : Option Nat) (loaded : Nat)
    (cs : List Bytes) : (r.run total loaded s cs).state = s := by
  cases cs with
  | nil => rfl
  | cons c cs => simp [run, stopped]

theorem stopped_of_take {total : Option Nat} {cs : List Bytes} {k loaded : Nat} {s : σ}
    (stopped : r.stopped (r.run total loaded s (cs.take k)).state = true) :
    r.stopped (r.run total loaded s cs).state = true := by
  induction cs generalizing k loaded s with
  | nil => simpa using stopped
  | cons c cs ih =>
    cases k with
    | zero =>
      have here : r.stopped s = true := stopped
      rw [run_stopped here]
      exact here
    | succ k =>
      rw [List.take_succ_cons] at stopped
      by_cases here : r.stopped s = true
      · rw [run_stopped here]
        exact here
      · rcases told : r.tell total (loaded + c.length) (r.receive c s) with ⟨s', _ | f⟩
        · simp only [run, here, told] at stopped ⊢
          exact ih stopped
        · simp only [run, here, told] at stopped ⊢
          exact stopped

theorem StaysStopped.of_arrived (stays : r.StaysStopped) {total : Option Nat} {cs : List Bytes}
    {b : Bytes} {k loaded : Nat} {s : σ} (there : cs[k]? = some b)
    (whole : (r.run total loaded s (cs.take k)).failure = none)
    (going : r.stopped (r.run total loaded s (cs.take k)).state = false)
    (stopped : r.stopped (r.receive b (r.run total loaded s (cs.take k)).state) = true) :
    r.stopped (r.run total loaded s cs).state = true := by
  induction cs generalizing k loaded s with
  | nil => cases there
  | cons c cs ih =>
    cases k with
    | zero =>
      cases there
      have here : r.stopped s = false := going
      have late : r.stopped (r.tell total (loaded + b.length) (r.receive b s)).1 = true :=
        stays.tell total _ stopped
      rcases told : r.tell total (loaded + b.length) (r.receive b s) with ⟨s', _ | f⟩
      · rw [told] at late
        simpa [run, here, told, run_stopped late] using late
      · rw [told] at late
        simpa [run, here, told] using late
    | succ k =>
      rw [List.take_succ_cons] at whole going stopped
      by_cases here : r.stopped s = true
      · simp [run, here] at whole
      · rcases told : r.tell total (loaded + c.length) (r.receive c s) with ⟨s', _ | f⟩
        · simp only [run, here, told] at whole going stopped ⊢
          exact ih (by simpa using there) whole going stopped
        · simp [run, here, told] at whole

end Receiver

namespace Client

variable {ω : Type}

/-! ### Steps -/

/-- What is done in the course of a call: its payload is sent, or a recovery is tried. -/
inductive Step (ω : Type) where
  | sending (payload : Payload) (before after : Client ω) (came : Except Failure Received)
  | recovery (before after : Client ω) (failed : Option Failure)

namespace Step

def before : Step ω → Client ω
  | sending _ before _ _ => before
  | recovery before _ _ => before

def after : Step ω → Client ω
  | sending _ _ after _ => after
  | recovery _ after _ => after

def failure : Step ω → Option Failure
  | sending _ _ _ (.error f) => some f
  | sending _ _ _ (.ok _) => none
  | recovery _ _ failed => failed

def reply : Step ω → Option Received
  | sending _ _ _ (.ok r) => some r
  | sending _ _ _ (.error _) => none
  | recovery _ _ _ => none

def Real (net : Network ω) (o : Options ω) (Own : Exchange → Prop) : Step ω → Prop
  | sending payload before after came =>
    ∃ e payload', Own e ∧ before.transmit net o.progress e payload = (after, payload', came)
  | recovery before after failed =>
    ∃ recover, o.recovery = some recover ∧ recover before = (after, failed)

def passed (net : Network ω) (o : Options ω) (u : Upload) (before : Client ω) (cs : List Bytes) :
    Pass ω :=
  Receiver.run ⟨net.stopped, net.arrive, o.progress⟩ u.total 0 before.world cs

/-- The worlds in the course of a step: when a chunk has come, when it has been told how far the
upload is then, and when the step is done. -/
inductive Passes (net : Network ω) (o : Options ω) : Step ω → ω → Prop where
  | arrived {u : Upload} {before after : Client ω} {came : Except Failure Received}
    {cs : List Bytes} {b : Bytes} (k : Nat) (chunks : u.source.chunks u.chunkSize = .ok cs)
    (there : cs[k]? = some b) (whole : (passed net o u before (cs.take k)).failure = none)
    (going : net.stopped (passed net o u before (cs.take k)).state = false) :
    Passes net o (.sending (.upload u) before after came)
      (net.arrive b (passed net o u before (cs.take k)).state)
  | told {u : Upload} {before after : Client ω} {came : Except Failure Received}
    {cs : List Bytes} (k : Nat) (chunks : u.source.chunks u.chunkSize = .ok cs) :
    Passes net o (.sending (.upload u) before after came)
      (passed net o u before (cs.take k)).state
  | done (s : Step ω) : Passes net o s s.after.world

end Step

/-- These steps, in turn, and the closing of replies lead from one client, with a payload to send,
to the other. -/
inductive Leads (net : Network ω) (o : Options ω) (Own : Exchange → Prop) :
    Client ω → Payload → List (Step ω) → Client ω → Prop where
  | refl (c : Client ω) (p : Payload) : Leads net o Own c p [] c
  | closed {c c' : Client ω} {p : Payload} {steps : List (Step ω)} (n : Nat)
    (rest : Leads net o Own (c.close n) p steps c') : Leads net o Own c p steps c'
  | sent {c c₁ c' : Client ω} {e : Exchange} {p p₁ : Payload} {came : Except Failure Received}
    {steps : List (Step ω)} (own : Own e)
    (sends : c.transmit net o.progress e p = (c₁, p₁, came))
    (rest : Leads net o Own c₁ p₁ steps c') : Leads net o Own c p (.sending p c c₁ came :: steps) c'
  | recovered {c c₁ c' : Client ω} {recover : Recovery ω} {p : Payload} {failed : Option Failure}
    {steps : List (Step ω)} (there : o.recovery = some recover)
    (tried : recover c = (c₁, failed))
    (rest : Leads net o Own c₁ p steps c') : Leads net o Own c p (.recovery c c₁ failed :: steps) c'

/-- Nobody takes back that the call was told to stop. -/
structure StopLasts (net : Network ω) (o : Options ω) : Prop where
  answer : ∀ q w, net.stopped w = true → net.stopped (net.answer q w).1 = true
  progress : ∀ tell, o.progress = some tell → ∀ x w, net.stopped w = true →
    net.stopped (tell x w).1 = true

section
variable {net : Network ω} {o : Options ω} {Own : Exchange → Prop} {c c' : Client ω}
  {p p₁ : Payload} {s : Step ω} {pre steps : List (Step ω)} {w : ω}

theorem Leads.next (leads : Leads net o Own c p (s :: steps) c') :
    s.before.world = c.world ∧ s.Real net o Own ∧ ∃ p₁, Leads net o Own s.after p₁ steps c' := by
  generalize whole : s :: steps = all at leads
  induction leads with
  | refl c p => cases whole
  | closed n rest ih => exact ih whole
  | sent own sends rest ih =>
    cases whole
    exact ⟨rfl, ⟨_, _, own, sends⟩, _, rest⟩
  | recovered there tried rest ih =>
    cases whole
    exact ⟨rfl, ⟨_, there, tried⟩, _, rest⟩

theorem Leads.split (leads : Leads net o Own c p (pre ++ s :: steps) c') :
    s.Real net o Own ∧ ∃ p₁, Leads net o Own s.after p₁ steps c' := by
  induction pre generalizing c p with
  | nil => exact leads.next.2
  | cons t pre ih =>
    obtain ⟨_, _, _, rest⟩ := leads.next
    exact ih rest

theorem Leads.payload (leads : Leads net o Own c p (s :: steps) c') (bare : o.recovery = none) :
    ∃ before after came, s = .sending p before after came := by
  generalize whole : s :: steps = all at leads
  induction leads with
  | refl c p => cases whole
  | closed n rest ih => exact ih whole
  | sent own sends rest ih =>
    cases whole
    exact ⟨_, _, _, rfl⟩
  | recovered there tried rest ih =>
    rw [bare] at there
    cases there

theorem StopLasts.answered (lasts : StopLasts net o) {e : Exchange} {body : Bytes}
    (stopped : net.stopped c.world = true) :
    net.stopped (c.answered net e body).1.world = true := by
  have stays := lasts.answer ⟨e.method, e.url, e.headers, body⟩ c.world stopped
  rcases h : net.answer ⟨e.method, e.url, e.headers, body⟩ c.world with ⟨w, f | r⟩
  · rw [h] at stays
    simpa [Client.answered, h] using stays
  · rw [h] at stays
    simpa [Client.answered, h] using stays

theorem StopLasts.after (lasts : StopLasts net o) (real : s.Real net o Own)
    (passes : s.Passes net o w) (stopped : net.stopped w = true) :
    net.stopped s.after.world = true := by
  -- It is enough that it is so after all of the chunks.
  have last {u : Upload} {before after : Client ω} {came : Except Failure Received}
      {cs : List Bytes} (chunks : u.source.chunks u.chunkSize = .ok cs)
      (real : Step.Real net o Own (.sending (.upload u) before after came))
      (stopped : net.stopped (Step.passed net o u before cs).state = true) :
      net.stopped after.world = true := by
    obtain ⟨e, payload', _, sent⟩ := real
    rcases transmit_upload net o.progress e before chunks with ⟨_, _, broken⟩ | ⟨_, whole⟩
    · rw [broken] at sent
      cases sent
      exact stopped
    · rw [whole] at sent
      cases sent
      exact lasts.answered stopped
  cases passes with
  | arrived k chunks there whole going =>
    have stays : Receiver.StaysStopped ⟨net.stopped, net.arrive, o.progress⟩ := lasts.progress
    exact last chunks real (stays.of_arrived there whole going stopped)
  | told k chunks =>
    have late := Receiver.stopped_of_take (r := ⟨net.stopped, net.arrive, o.progress⟩) stopped
    exact last chunks real late
  | done => exact stopped

/-! ### Calls -/

/-- How a call that may be told to stop comes from one client to the other, with this outcome. -/
structure Stops (net : Network ω) (o : Options ω) (Own : Exchange → Prop) (c : Client ω)
    (p : Payload) (steps : List (Step ω)) (c' : Client ω) (x : Except Failure Received) : Prop where
  leads : Leads net o Own c p steps c'
  /-- No step begins after the call has been told to stop. -/
  begins : ∀ s ∈ steps, net.stopped s.before.world = false
  closes : ∀ s ∈ steps, ∀ r, s.reply = some r → net.stopped s.after.world = true →
    r.number ∈ c'.closed
  idle : steps = [] → net.stopped c.world = true ∧ x = .error .abortedNow
  ends : ∀ s, steps.getLast? = some s → net.stopped s.after.world = true →
    ∃ f, x = .error f ∧ (f = .abortedNow ∨ s.failure = some f)

variable {x : Except Failure Received}

theorem Stops.cons (s : Step ω) (rest : Stops net o Own s.after p₁ steps c' x)
    (step : Leads net o Own s.after p₁ steps c' → Leads net o Own s.before p (s :: steps) c')
    (began : net.stopped s.before.world = false)
    (going : s.reply ≠ none → net.stopped s.after.world = false) :
    Stops net o Own s.before p (s :: steps) c' x where
  leads := step rest.leads
  begins := by
    intro t ht
    rcases List.mem_cons.mp ht with rfl | ht
    · exact began
    · exact rest.begins t ht
  closes := by
    intro t ht r replied stopped
    rcases List.mem_cons.mp ht with rfl | ht
    · rw [going (by simp [replied])] at stopped
      cases stopped
    · exact rest.closes t ht r replied stopped
  idle := fun none_ => by cases none_
  ends := by
    intro t last stopped
    cases steps with
    | nil =>
      cases last
      exact ⟨.abortedNow, (rest.idle rfl).2, .inl rfl⟩
    | cons u steps => exact rest.ends t (by simpa using last) stopped

theorem Stops.closed (n : Nat) (rest : Stops net o Own (c.close n) p steps c' x) :
    Stops net o Own c p steps c' x :=
  ⟨.closed n rest.leads, rest.begins, rest.closes, rest.idle, rest.ends⟩

theorem Stops.single (s : Step ω) (leads : Leads net o Own s.before p [s] c')
    (began : net.stopped s.before.world = false)
    (closes : ∀ r, s.reply = some r → net.stopped s.after.world = true → r.number ∈ c'.closed)
    (ends : net.stopped s.after.world = true →
      ∃ f, x = .error f ∧ (f = .abortedNow ∨ s.failure = some f)) :
    Stops net o Own s.before p [s] c' x where
  leads := leads
  begins := by
    intro t ht
    obtain rfl := List.mem_singleton.mp ht
    exact began
  closes := by
    intro t ht
    obtain rfl := List.mem_singleton.mp ht
    exact closes
  idle := fun none_ => by cases none_
  ends := by
    intro t last
    cases last
    exact ends

theorem Stops.last (stops : Stops net o Own c p (pre ++ s :: steps) c' x) (lasts : StopLasts net o)
    (passes : s.Passes net o w) (stopped : net.stopped w = true) :
    steps = [] ∧ ∃ f, x = .error f ∧ (f = .abortedNow ∨ s.failure = some f) := by
  obtain ⟨real, _, left⟩ := stops.leads.split
  have late := lasts.after real passes stopped
  cases steps with
  | nil => exact ⟨rfl, stops.ends s (by simp) late⟩
  | cons t steps =>
    have began := stops.begins t (by simp)
    rw [left.next.1, late] at began
    cases began

theorem Stops.of_stopped (stops : Stops net o Own c p steps c' x)
    (stopped : net.stopped c.world = true) : steps = [] ∧ x = .error .abortedNow := by
  cases steps with
  | nil => exact ⟨rfl, (stops.idle rfl).2⟩
  | cons s steps =>
    have began := stops.begins s List.mem_cons_self
    rw [stops.leads.next.1, stopped] at began
    cases began

variable {headers : Headers} {call : Call} {payload : Payload}

theorem settled_stops (net : Network ω) (o : Options ω) (l : Lent) (headers : Headers)
    (call : Call) (payload : Payload) (c : Client ω)
    (own : ∀ e, OfCall (o.reading l) headers call e → Own e) :
    ∃ steps, Stops net o Own c payload steps
      (c.send net (o.reading l) headers call payload).settled.1
      (c.send net (o.reading l) headers call payload).settled.2.2 := by
  have told : (o.reading l).progress = o.progress := rfl
  rw [send_eq, told]
  by_cases stopped : net.stopped c.world = true
  · rw [if_pos stopped, Attempt.settled_error rfl]
    refine ⟨[], .refl c payload, fun s h => ?_, fun s h => ?_, fun _ => ⟨stopped, rfl⟩,
      fun s h => ?_⟩
    · cases h
    · cases h
    · cases h
  · rw [if_neg stopped]
    rcases sent : c.transmit net o.progress (exchangeOf (o.reading l) headers call c) payload with
      ⟨c₁, payload', came⟩
    have own := own (exchangeOf (o.reading l) headers call c) ⟨rfl, rfl, _, rfl⟩
    have began : net.stopped c.world = false := by simpa using stopped
    cases came with
    | error f =>
      rw [Attempt.settled_error rfl]
      refine ⟨_, .single (.sending payload c c₁ (.error f))
        (.sent own sent (.refl c₁ _)) began (fun r h => ?_) fun _ => ⟨f, rfl, .inr rfl⟩⟩
      cases h
    | ok r =>
      by_cases late : net.stopped c₁.world = true
      · simp only [Attempt.after, if_pos late]
        rw [Attempt.settled_error rfl]
        refine ⟨_, .single (.sending payload c c₁ (.ok r))
          (.sent own sent (.closed r.number (.refl _ _))) began (fun r' h _ => ?_)
          fun _ => ⟨.abortedNow, rfl, .inl rfl⟩⟩
        cases h
        exact List.mem_append_right _ List.mem_cons_self
      · simp only [Attempt.after, if_neg late]
        rw [Attempt.settled_ok rfl]
        exact ⟨_, .single (.sending payload c c₁ (.ok r)) (.sent own sent (.refl c₁ _)) began
          (fun _ _ h => absurd h late) fun h => absurd h late⟩

theorem sent_of_answered {r : Received}
    (answered : (c.send net o headers call payload).outcome = .ok r) :
    net.stopped c.world = false ∧
    c.transmit net o.progress (exchangeOf o headers call c) payload =
      ((c.send net o headers call payload).client, (c.send net o headers call payload).payload,
        .ok r) ∧
    net.stopped (c.send net o headers call payload).client.world = false := by
  rw [send_eq] at answered ⊢
  by_cases stopped : net.stopped c.world = true
  · rw [if_pos stopped] at answered
    cases answered
  · rw [if_neg stopped] at answered ⊢
    generalize c.transmit net o.progress (exchangeOf o headers call c) payload = sent at *
    obtain ⟨c₁, payload', f | r'⟩ := sent
    · cases answered
    · by_cases late : net.stopped c₁.world = true
      · simp only [Attempt.after, if_pos late] at answered
        cases answered
      · simp only [Attempt.after, if_neg late] at answered ⊢
        cases answered
        exact ⟨by simpa using stopped, rfl, by simpa using late⟩

theorem ofCall_refused (o' : Options ω) (headers' : Headers) :
    OfCall o' headers' (c.send net o headers call payload).refused = OfCall o' headers' call := by
  obtain ⟨url, guarded⟩ := @send_call ω net o headers call payload c
  funext e
  simp only [OfCall, Attempt.refused, url, guarded]

theorem run_stops (net : Network ω) (payload : Payload) (c : Client ω)
    (fresh : call.retried = false) (lent : (o.laid headers).2.toLent = o.lent) :
    ∃ steps, Stops net o (Belongs o o.recovery headers call) c payload steps
      (c.run net o o.recovery headers call payload).1
      (c.run net o o.recovery headers call payload).2.2 := by
  rcases @run_cases ω net o o.recovery headers call payload c fresh with
    ⟨_, once⟩ | ⟨r, recover, c', x, answered, some_, _, _, recovered, again⟩
  · rw [once]
    exact settled_stops net o o.lent headers call payload c fun _ => .first
  · -- The refusal came in time, so a recovery begins; only then can the second attempt be too late.
    obtain ⟨began, sends, going⟩ := sent_of_answered answered
    have own : Belongs o o.recovery headers call (exchangeOf o headers call c) :=
      .first ⟨rfl, rfl, _, rfl⟩
    have refused := @ofCall_refused ω net o c headers call payload
    generalize sent : c.send net o headers call payload = a at *
    rw [again]
    cases x with
    | some f =>
      let tried : Step ω := .recovery (a.client.close r.number) c' (some f)
      have failing : Stops net o (Belongs o o.recovery headers call) (a.client.close r.number)
          a.payload [tried] c' (.error f) :=
        .single tried (.recovered some_ recovered (.refl c' _)) going (fun _ h => by cases h)
          fun _ => ⟨f, rfl, .inr rfl⟩
      exact ⟨_, .cons (.sending payload c a.client (.ok r)) (failing.closed r.number)
        (.sent own sends) began fun _ => going⟩
    | none =>
      let left := recover.amend (a.client.close r.number) o.lent
      obtain ⟨steps, second⟩ := settled_stops net o left (o.mapped headers left) a.refused a.payload c'
        fun e ofCall => Belongs.left some_ _ (refused _ _ ▸ ofCall)
      rw [resend, Attempt.left, lent]
      let tried : Step ω := .recovery (a.client.close r.number) c' none
      have renewed : Stops net o (Belongs o o.recovery headers call) (a.client.close r.number)
          a.payload (tried :: steps) _ _ :=
        .cons tried second (.recovered some_ recovered) going fun h => absurd rfl h
      exact ⟨_, .cons (.sending payload c a.client (.ok r)) (renewed.closed r.number)
        (.sent own sends) began fun _ => going⟩

end

end Client

/-! ### Transfers -/

def Failure.reported : Failure → Failure
  | network fault message => noResponse ("Network error: " ++ message) (some fault)
  | f => f

theorem Client.concluded_error (kind : ResultKind) (call : Call) (f : Failure) :
    (Client.concluded kind call (.error f)).2 = .error f.reported := by
  cases f <;> rfl

namespace Stage

open FileGate.Client (Belongs Leads Step StopLasts)

variable {ω : Type} {net : Network ω} {path : String} {o : Options (Stage ω)}
  {c : Client (Stage ω)} {kind : ResultKind} {call : Call}

theorem transfer_of_start (prepared : c.prepare path o = .ok (kind, call))
    (early : c.world.plan.interrupt.map (·.1) = some .start) :
    Stage.transfer net path o c = ({ c with world := { c.world with stopped := true } },
      some { call with state := .failed }, .error .cancelled) := by
  rw [Stage.transfer, prepared]
  dsimp only
  rw [if_pos early]
  rfl

theorem transfer_of_begun (prepared : c.prepare path o = .ok (kind, call))
    (begun : c.world.plan.interrupt.map (·.1) ≠ some .start) :
    Stage.transfer net path o c = ((c.transfer (network net) kind o call).1,
      some (c.transfer (network net) kind o call).2.1,
      (c.transfer (network net) kind o call).2.2) := by
  rw [Stage.transfer, prepared]
  dsimp only
  rw [if_neg begun]

/-- A transfer that is cancelled before it starts sends nothing. Of one that has started, and whose
body can be sent, no sending and no recovery begins after it is told to stop, and a reply to it that
comes then is closed; the step in which it is told so is the last one, and the transfer ends with
the notice that it was stopped or with the failure of this very step. -/
theorem transfer_stops (prepared : c.prepare path o = .ok (kind, call)) :
    (c.world.plan.interrupt.map (·.1) = some .start →
      Stage.transfer net path o c = ({ c with world := { c.world with stopped := true } },
        some { call with state := .failed }, .error .cancelled)) ∧
    (c.world.plan.interrupt.map (·.1) ≠ some .start →
      (∀ f, o.body.encode o.headers true c.config.chunkSize = .error f →
        Stage.transfer net path o c = (c, some call, .error f)) ∧
      ∀ payload headers, o.body.encode o.headers true c.config.chunkSize = .ok (payload, headers) →
        ∃ steps, Leads (network net) o (Belongs o o.recovery headers call) c payload steps
            (Stage.transfer net path o c).1 ∧
          (∀ s ∈ steps, (network net).stopped s.before.world = false) ∧
          (∀ s ∈ steps, ∀ r, s.reply = some r → (network net).stopped s.after.world = true →
            r.number ∈ (Stage.transfer net path o c).1.closed) ∧
          (steps = [] ↔ (network net).stopped c.world = true) ∧
          (steps = [] → (Stage.transfer net path o c).2.2 = .error .abortedNow) ∧
          (StopLasts (network net) o → ∀ before s after w, steps = before ++ s :: after →
            s.Passes (network net) o w → (network net).stopped w = true →
            after = [] ∧ ∃ f, (Stage.transfer net path o c).2.2 = .error f.reported ∧
              (f = .abortedNow ∨ s.failure = some f))) := by
  refine ⟨transfer_of_start prepared, fun begun => ?_⟩
  rw [transfer_of_begun prepared begun]
  refine ⟨fun f failed => ?_, fun payload headers encoded => ?_⟩
  · rw [Client.transfer_of_error (network net) kind call failed]
  · have fresh := Client.fresh_of_start (Client.start_of_prepare prepared)
    obtain ⟨steps, stops⟩ :=
      Client.run_stops (network net) payload c fresh (Options.laid_lent encoded)
    rw [Client.transfer_eq (network net) kind o call c encoded]
    refine ⟨steps, stops.leads, stops.begins, stops.closes, ?_, ?_, ?_⟩
    · exact ⟨fun none_ => (stops.idle none_).1, fun stopped => (stops.of_stopped stopped).1⟩
    · intro none_
      rw [(stops.idle none_).2, Client.concluded_error]
      rfl
    · rintro lasts before s after w rfl passes stopped
      obtain ⟨last, f, failed, why⟩ := stops.last lasts passes stopped
      refine ⟨last, f, ?_, why⟩
      rw [failed, Client.concluded_error]

theorem reach_stopped {s : Stage ω} (stopped : (network net).stopped s = true) (m : Moment)
    (n : Nat) : (network net).stopped (reach m n s) = true := by
  unfold reach
  split
  · rfl
  · exact stopped

theorem stopLasts (host : ∀ q w, net.stopped w = true → net.stopped (net.answer q w).1 = true)
    (told : ∀ tell, o.progress = some tell → tell = Stage.progress) :
    StopLasts (network net) o where
  answer := by
    intro q w stopped
    apply reach_stopped
    simp only [network, Bool.or_eq_true] at stopped ⊢
    exact stopped.imp_right (host q w.host)
  progress := by
    intro tell there x w stopped
    rw [told tell there, Stage.progress]
    apply reach_stopped
    exact stopped

end Stage

open Client (scripted askCall)

def interrupted : Client (Stage (List (Except NetworkFault Reply))) :=
  { config := {}, credentials := .cookies, entries := []
    world := { host := [.ok { status := 200 }], plan := { interrupt := some (.response, 1) } } }

theorem Stage.transfer_stops_interrupted :
    (Stage.transfer scripted "/api/v1/files/a" {} interrupted).2.2 = .error .abortedNow ∧
      (Stage.transfer scripted "/api/v1/files/a" {} interrupted).1.closed = [0] := by
  have prepared : interrupted.prepare "/api/v1/files/a" {} = .ok (.bytes, askCall) := rfl
  have encoded : Body.encode .nothing [] true interrupted.config.chunkSize =
      .ok (.nothing, []) := rfl
  refine ⟨?_, by decide +kernel⟩
  obtain ⟨steps, leads, _, _, idle, _, last⟩ :=
    ((@Stage.transfer_stops _ scripted _ _ _ _ _ prepared).2 (by decide)).2 _ _ encoded
  cases steps with
  | nil => exact absurd (idle.mp rfl) (by decide)
  | cons s steps =>
    obtain ⟨world, real, _⟩ := leads.next
    obtain ⟨before, after, came, rfl⟩ := leads.payload rfl
    obtain ⟨e, left, _, sent⟩ := real
    have stays : Client.StopLasts (Stage.network scripted) {} :=
      Stage.stopLasts (fun _ _ h => by cases h) (fun _ h => by cases h)
    have answer (q : Request) : (Stage.network scripted).answer q before.world =
        ({ interrupted.world with host := [], stopped := true, answers := 1 },
          .ok { status := 200 }) := by
      have same : before.world = interrupted.world := world
      rw [same]
      rfl
    simp only [Client.transmit, Client.answered, answer, Prod.mk.injEq] at sent
    obtain ⟨rfl, _, rfl⟩ := sent
    obtain ⟨_, f, failed, rfl | other⟩ := last stays [] _ steps _ rfl (.done _) rfl
    · rw [failed]
      rfl
    · cases other

end FileGate
