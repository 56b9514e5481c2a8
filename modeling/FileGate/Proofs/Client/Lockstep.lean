import FileGate.Proofs.Client.Outcome
import Mathlib.Data.List.Forall2

/-! Fetches and transfers side by side. On a network that minds neither chunks nor time a transfer
does what a fetch does, step by step, and their outcomes correspond. -/
namespace FileGate

inductive Sent.Alike : Sent → Sent → Prop where
  | same (s : Sent) : Alike s s
  | chunked (cs : List Bytes) : Alike (.bytes cs.flatten) (.chunks cs cs.flatten.length true)

structure Exchange.Alike (e e' : Exchange) : Prop where
  method : e.method = e'.method
  url : e.url = e'.url
  headers : e.headers = e'.headers
  timeout : e.timeout = e'.timeout
  stream : e.stream = e'.stream
  sent : e.sent.Alike e'.sent
  answer : e.answer = e'.answer

theorem Sent.Alike.data {s s' : Sent} (alike : s.Alike s') : s.data = s'.data := by
  cases alike with
  | same => rfl
  | chunked cs => rfl

theorem Exchange.Alike.refl (e : Exchange) : e.Alike e :=
  ⟨rfl, rfl, rfl, rfl, rfl, .same _, rfl⟩

namespace Client

variable {ω : Type}

structure Alike (c c' : Client ω) : Prop where
  config : c.config = c'.config
  credentials : c.credentials = c'.credentials
  entries : c.entries = c'.entries
  world : c.world = c'.world
  replies : c.replies = c'.replies
  closed : c.closed = c'.closed
  journal : List.Forall₂ Exchange.Alike c.journal c'.journal

theorem Alike.refl (c : Client ω) : Alike c c :=
  ⟨rfl, rfl, rfl, rfl, rfl, rfl, List.forall₂_same.mpr fun e _ => .refl e⟩

theorem Alike.close {c c' : Client ω} (alike : Alike c c') (n : Nat) :
    Alike (c.close n) (c'.close n) :=
  { alike with closed := congrArg (· ++ [n]) alike.closed }

/-- A recovery that does not mind in which form data was sent. -/
def Blind (recover : Recovery ω) : Prop :=
  ∀ c c', Alike c c' → Alike (recover c).1 (recover c').1 ∧ (recover c).2 = (recover c').2 ∧
    ∀ l, recover.amend c l = recover.amend c' l

section
variable {c c' : Client ω} {e e' : Exchange}

theorem Alike.noted (alike : Alike c c') (like : e.Alike e') (w : ω) (n : Nat) :
    Alike { c with world := w, replies := n, journal := c.journal ++ [e] }
      { c' with world := w, replies := n, journal := c'.journal ++ [e'] } :=
  { alike with
    world := rfl
    replies := rfl
    journal := List.rel_append alike.journal (.cons like .nil) }

theorem Alike.answered (alike : Alike c c') (net : Network ω) (like : e.Alike e') (data : Bytes) :
    Alike (c.answered net e data).1 (c'.answered net e' data).1 ∧
      (c.answered net e data).2 = (c'.answered net e' data).2 := by
  have request : (⟨e.method, e.url, e.headers, data⟩ : Request) =
      ⟨e'.method, e'.url, e'.headers, data⟩ := by
    rw [like.method, like.url, like.headers]
  have world := alike.world
  have replies := alike.replies
  rcases came : net.answer ⟨e'.method, e'.url, e'.headers, data⟩ c'.world with ⟨w, f | r⟩
  · have came' := came
    rw [← request, ← world] at came'
    simp only [Client.answered, came, came']
    rw [← replies]
    exact ⟨alike.noted like w c.replies, trivial⟩
  · have came' := came
    rw [← request, ← world] at came'
    simp only [Client.answered, came, came']
    rw [← replies]
    have numbered : Exchange.Alike { e with answer := some c.replies }
        { e' with answer := some c.replies } := { like with answer := rfl }
    exact ⟨alike.noted numbered w (c.replies + 1), rfl⟩

theorem Alike.post (alike : Alike c c') (net : Network ω) (path : Value)
    (fields : List (String × Value)) :
    Alike (c.post net path fields).1 (c'.post net path fields).1 ∧
      (c.post net path fields).2 = (c'.post net path fields).2 := by
  rw [Client.post, Client.post, alike.config]
  cases c'.config.urlFor path.display with
  | error f => exact ⟨alike, rfl⟩
  | ok url =>
    dsimp only
    generalize Utf8.encode (Form.encode _) = body
    have answered (e : Exchange) := alike.answered net (.refl e) body
    exact ⟨(answered _).1, congrArg (Except.map (·.reply)) (answered _).2⟩

theorem blind_refresh (net : Network ω) : Blind (refresh net : Recovery ω) := by
  intro c c' alike
  have token : c.refreshToken = c'.refreshToken := by
    rw [refreshToken, refreshToken, alike.credentials, alike.world]
  have posted := alike.post net c.config.tokenPath
    [("grant_type", .text "refresh_token"), ("refresh_token", c.refreshToken),
      ("cookie_path", c.config.cookiePath)]
  suffices renewed : Alike (c.refresh net).1 (c'.refresh net).1 ∧
      (c.refresh net).2 = (c'.refresh net).2 from
    ⟨renewed.1, renewed.2, fun _ => rfl⟩
  rw [refresh, refresh, exchange, exchange, ← alike.config, ← token]
  generalize c.post net c.config.tokenPath _ = y at posted
  generalize c'.post net c.config.tokenPath _ = y' at posted
  obtain ⟨c₁, x⟩ := y
  obtain ⟨c₁', x'⟩ := y'
  obtain ⟨after, rfl⟩ := posted
  cases x with
  | error f => exact ⟨after, rfl⟩
  | ok r =>
    dsimp only
    split
    · exact ⟨{ after with entries := after.entries }, rfl⟩
    · exact ⟨{ after with entries := congrArg Session.clear after.entries }, rfl⟩

end

/-! ### Side by side -/

theorem Course.trans {net : Network ω} {recover : Recovery ω} {l l₁ l₂ : Lent}
    {c c₁ c₂ : Client ω} {es es' : List Event} (first : Course net recover l c es l₁ c₁)
    (second : Course net recover l₁ c₁ es' l₂ c₂) : Course net recover l c (es ++ es') l₂ c₂ := by
  induction first with
  | sent answers rest ih => exact .sent answers (ih second)
  | recovered n rest ih => exact .recovered n (ih second)
  | _ => exact second

/-- Two clients that have been lent the same have come where they are by the same events, to the same
result and alike. -/
structure Parallel {α : Type} (net : Network ω) (recover : Recovery ω) (l : Lent) (c c' : Client ω)
    (y y' : Lent × Client ω × α) : Prop where
  events : ∃ es, Course net recover l c es y.1 y.2.1 ∧ Course net recover l c' es y'.1 y'.2.1
  lent : y.1 = y'.1
  alike : Alike y.2.1 y'.2.1
  same : y.2.2 = y'.2.2

section
variable {net : Network ω} {recover : Recovery ω} {l : Lent} {c c' : Client ω}

theorem Parallel.refl {α : Type} (l : Lent) (alike : Alike c c') (a : α) :
    Parallel net recover l c c' (l, c, a) (l, c', a) :=
  ⟨⟨[], .over l c, .over l c'⟩, rfl, alike, rfl⟩

theorem Parallel.trans {α β : Type} {y y' : Lent × Client ω × α} {z z' : Lent × Client ω × β}
    (first : Parallel net recover l c c' y y')
    (second : Parallel net recover y.1 y.2.1 y'.2.1 z z') : Parallel net recover l c c' z z' := by
  obtain ⟨es, course, course'⟩ := first.events
  obtain ⟨es', further, further'⟩ := second.events
  rw [first.lent] at further'
  exact ⟨⟨es ++ es', course.trans further, course'.trans further'⟩, second.lent, second.alike,
    second.same⟩

theorem Parallel.recovery (blind : Blind recover) (l : Lent) (alike : Alike c c') (n : Nat) :
    Parallel net recover l c c' (recover.amend (c.close n) l, recover (c.close n))
      (recover.amend (c'.close n) l, recover (c'.close n)) := by
  obtain ⟨after, same, amended⟩ := blind _ _ (alike.close n)
  refine ⟨⟨[.recovered n (recover (c.close n)).2 (recover.amend (c.close n) l)],
    .recovered n (.over _ _), ?_⟩, amended l, after, same⟩
  rw [same, amended]
  exact .recovered n (.over _ _)

def sendAs (net : Network ω) (o : Options ω) (headers : Headers) (call : Call) (sent : Sent)
    (data : Bytes) (c : Client ω) : Client ω × Except Failure Received :=
  c.answered net { exchangeOf o headers call c with sent } data

theorem Parallel.answered {e e' : Exchange} (like : e.Alike e') (blank : e.answer = none)
    (l : Lent) (alike : Alike c c') {data : Bytes} (sent : e.sent.data = data) :
    Parallel net recover l c c' (l, c.answered net e data) (l, c'.answered net e' data) := by
  obtain ⟨after, same⟩ := alike.answered net like data
  have answers := answered_answers net sent blank c
  have answers' := answered_answers net (like.sent.data.symm.trans sent)
    (like.answer.symm.trans blank) c'
  rw [← same, ← like.method, ← like.url, ← like.headers] at answers'
  exact ⟨⟨_, .sent answers (.over l _), .sent answers' (.over l _)⟩, rfl, after, same⟩

theorem Parallel.sending {sent sent' : Sent} (like : sent.Alike sent') (l : Lent)
    (alike : Alike c c') (o : Options ω) (headers : Headers) (call : Call) {data : Bytes}
    (held : sent.data = data) :
    Parallel net recover l c c' (l, c.sendAs net o headers call sent data)
      (l, c'.sendAs net o headers call sent' data) := by
  have begun : exchangeOf o headers call c = exchangeOf o headers call c' := by
    simp only [exchangeOf, accessToken, alike.config, alike.credentials, alike.world]
  have like_ : Exchange.Alike { exchangeOf o headers call c' with sent }
      { exchangeOf o headers call c' with sent := sent' } := ⟨rfl, rfl, rfl, rfl, rfl, like, rfl⟩
  rw [sendAs, sendAs, begun]
  exact .answered like_ rfl l alike held

/-- Two calls whose sendings go side by side go side by side as a whole. -/
theorem fetched_parallel {send send' : Lent → Client ω → Client ω × Except Failure Received}
    (blind : Blind recover)
    (sends : ∀ l c c', Alike c c' → Parallel net recover l c c' (l, send l c) (l, send' l c'))
    (guarded : Bool) (settled : Received → Except Failure Received) (l : Lent)
    (alike : Alike c c') :
    Parallel net recover l c c' (fetched recover guarded settled send l c)
      (fetched recover guarded settled send' l c') := by
  have first := sends l c c' alike
  rcases came : send l c with ⟨c₁, x⟩
  rcases came' : send' l c' with ⟨c₁', x'⟩
  rw [came, came'] at first
  -- One outcome for both, so that both take the same way from here.
  obtain rfl : x = x' := first.same
  cases x with
  | error f =>
    simp only [fetched, came, came']
    exact first
  | ok r =>
    by_cases final : r.reply.status ≠ 401 ∨ guarded = false
    · simp only [fetched, came, came', if_pos final]
      exact first.trans (.refl l first.alike (settled r))
    · simp only [fetched, came, came', if_neg final]
      have second : Parallel net recover l c₁ c₁' _ _ := .recovery blind l first.alike r.number
      have amended : recover.amend (c₁.close r.number) l =
        recover.amend (c₁'.close r.number) l := second.lent
      dsimp only at second
      rw [← amended] at second ⊢
      generalize recover.amend (c₁.close r.number) l = left at second ⊢
      rcases tried : recover (c₁.close r.number) with ⟨c₂, y⟩
      rcases tried' : recover (c₁'.close r.number) with ⟨c₂', y'⟩
      rw [tried, tried'] at second
      obtain rfl : y = y' := second.same
      cases y with
      | some f =>
        exact first.trans (second.trans (.refl left second.alike (Except.error f)))
      | none => exact first.trans (second.trans (sends left c₂ c₂' second.alike))

end

end Client

/-! ### Data in chunks -/

theorem Receiver.run_silent {σ : Type} {r : Receiver σ} (going : ∀ s, r.stopped s = false)
    (silent : ∀ b s, r.receive b s = s) (quiet : r.progress = none) (total : Option Nat)
    (cs : List Bytes) (loaded : Nat) (s : σ) :
    (r.run total loaded s cs).received = cs ∧ (r.run total loaded s cs).failure = none ∧
      (r.run total loaded s cs).state = s := by
  induction cs generalizing loaded with
  | nil => exact ⟨rfl, rfl, rfl⟩
  | cons c cs ih =>
    have told : r.tell total (loaded + c.length) (r.receive c s) = (s, none) := by
      simp only [tell, quiet, silent]
    obtain ⟨received, failure, state⟩ := ih (loaded + c.length)
    simp only [run, going, told]
    exact ⟨congrArg (c :: ·) received, failure, state⟩

namespace Client

variable {ω : Type}

/-- A network that minds neither chunks nor time. -/
structure Calm (net : Network ω) : Prop where
  silent : ∀ b w, net.arrive b w = w
  going : ∀ w, net.stopped w = false

section
variable {net : Network ω} {o : Options ω} {n : Int}

theorem Calm.transmit (calm : Calm net) (some_ : 0 < n) (data : Bytes) (e : Exchange)
    (c : Client ω) :
    let sent := { e with sent := .chunks (blocks n.toNat data) data.length true }
    c.transmit net none e (.upload ⟨.memory data, n⟩) =
      ((c.answered net sent data).1, .upload ⟨.memory data, n⟩, (c.answered net sent data).2) := by
  intro sent
  have chunks : (Source.memory data).chunks n = .ok (blocks n.toNat data) := by
    rw [Source.chunks, if_neg (by omega)]
  have whole : (blocks n.toNat data).flatten = data := flatten_blocks (by omega) data
  obtain ⟨received, failure, state⟩ := @Receiver.run_silent ω
    ⟨net.stopped, net.arrive, none⟩ calm.going calm.silent rfl (some data.length)
    (blocks n.toNat data) 0 c.world
  rcases @transmit_upload ω ⟨.memory data, n⟩ _ net none e c chunks with
    ⟨f, failed, _⟩ | ⟨_, answered⟩
  · cases failure.symm.trans failed
  · rw [answered]
    have total : Upload.total ⟨.memory data, n⟩ = some data.length := rfl
    have length : Upload.length ⟨.memory data, n⟩ = data.length := rfl
    rw [total, received, failure, state, whole, length]
    rfl

theorem Calm.unstoppable (calm : Calm net) : net.unstoppable = net := by
  have never : net.stopped = fun _ => false := funext calm.going
  rw [Network.unstoppable, ← never]

theorem Calm.send_chunked (calm : Calm net) (quiet : o.progress = none) (some_ : 0 < n)
    (data : Bytes) (headers : Headers) (call : Call) (c : Client ω) :
    let came := c.sendAs net o headers call (.chunks (blocks n.toNat data) data.length true) data
    c.send net o headers call (.upload ⟨.memory data, n⟩) =
      ⟨came.1, Call.sentOnce call, .upload ⟨.memory data, n⟩, came.2⟩ := by
  intro came
  have stays : ¬ net.stopped c.world = true := by simp [calm.going]
  rw [send_eq, if_neg stays, quiet, calm.transmit some_]
  change Attempt.after net _ (came.1, _, came.2) = _
  rcases came with ⟨c₁, f | r⟩
  · rfl
  · simp [Attempt.after, calm.going]

end

end Client

theorem Body.encode_both {body : Body} {data : Bytes} (held : body.bytes? = some data)
    (h : Headers) (m n : Int) :
    ∃ p p' h', body.encode h false m = .ok (p, h') ∧ body.encode h true n = .ok (p', h') ∧
      p.bytes? = some data ∧
      (p' = p ∨ p' = .upload ⟨.memory data, n⟩ ∧ p.sent = .bytes data) := by
  have either (b : Bytes) (whole : Payload) (sent : whole.sent = .bytes b) :
      plain b whole true n = whole ∨
        plain b whole true n = .upload ⟨.memory b, n⟩ ∧ whole.sent = .bytes b := by
    rw [plain]
    split
    · exact .inr ⟨rfl, sent⟩
    · exact .inl rfl
  cases body with
  | nothing =>
    cases held
    exact ⟨_, _, _, rfl, rfl, rfl, .inl rfl⟩
  | bytes b =>
    cases held
    exact ⟨_, _, _, rfl, rfl, rfl, either _ (.bytes _) rfl⟩
  | buffer b =>
    cases held
    exact ⟨_, _, _, rfl, rfl, rfl, either _ (.buffer _) rfl⟩
  | text s =>
    cases held
    exact ⟨_, _, _, rfl, rfl, rfl, either _ (.bytes _) rfl⟩
  | form fields =>
    cases held
    exact ⟨_, _, _, rfl, rfl, rfl, either _ (.bytes _) rfl⟩
  | data source => cases held
  | other v => cases held

/-! ### Outcomes -/

theorem PathRule.occurs_error {v : Value} {s : String} {patterns : Patterns} {f : Failure}
    (failed : occurs v s patterns = .error f) : ¬ f.OfSending := by
  unfold occurs at failed
  split at failed
  · split at failed
    · cases failed
    · rename_i fault _
      cases failed
      cases fault with
      | malformed => exact fun sending => by cases sending
      | tooLarge => exact fun sending => by cases sending
  · cases failed
    exact fun sending => by cases sending

theorem Value.dropSlashes_error {v : Value} {f : Failure} (failed : v.dropSlashes = .error f) :
    ¬ f.OfSending := by
  unfold dropSlashes at failed
  split at failed
  · cases failed
  · cases failed
    exact fun sending => by cases sending
  · cases failed
    exact fun sending => by cases sending

theorem PathRule.requiresAuthorization_error {rule : PathRule} {path : String}
    {patterns : Patterns} {f : Failure}
    (failed : rule.requiresAuthorization path patterns = .error f) : ¬ f.OfSending := by
  rcases cases_of_bind_error failed with public_ | ⟨open_, failed⟩
  · exact occurs_error public_
  · cases open_ with
    | true => cases failed
    | false => exact occurs_error failed

theorem Config.urlFor_error {config : Config} {path : List Char} {f : Failure}
    (failed : config.urlFor path = .error f) : ¬ f.OfSending := by
  unfold urlFor at failed
  cases base : config.baseUrl.dropSlashes with
  | error g =>
    rw [base] at failed
    cases failed
    exact Value.dropSlashes_error base
  | ok s =>
    rw [base] at failed
    cases failed

namespace Client

variable {ω : Type}

theorem start_error {path : String} {c : Client ω} {f : Failure}
    (failed : c.start path = .error f) : ¬ f.OfSending := by
  rcases cases_of_bind_error failed with relative | ⟨_, failed⟩
  · unfold ensureAbsolute at relative
    split at relative
    · cases relative
    · cases relative
      exact fun sending => by cases sending
  · rcases cases_of_bind_error failed with rule | ⟨_, failed⟩
    · exact PathRule.requiresAuthorization_error rule
    · rcases cases_of_bind_error failed with address | ⟨_, failed⟩
      · exact Config.urlFor_error address
      · cases failed

/-- What a transfer has to say about the outcome of a fetch. -/
inductive Corresponds (kind : ResultKind) :
    Except Failure Received → Except Failure Outcome → Prop where
  | succeeded {r : Received} (success : isSuccess r.reply.status = true) :
    Corresponds kind (.ok r) ((r.reply.result kind).map (Outcome.ofResult r))
  | rejected {r : Received} (failure : isSuccess r.reply.status = false) :
    Corresponds kind (.ok r) (.error (.rejected r.reply.status r.reply.reason))
  | unanswered (fault : NetworkFault) (message : String) :
    Corresponds kind (.error (.network fault message))
      (.error (.noResponse ("Network error: " ++ message) (some fault)))
  | failed {f : Failure} (other : ∀ fault message, f ≠ .network fault message) :
    Corresponds kind (.error f) (.error f)

theorem corresponds_concluded (kind : ResultKind) (call : Call) (x : Except Failure Received) :
    Corresponds kind x (concluded kind call x).2 := by
  cases x with
  | error f =>
    cases f with
    | network fault message => exact .unanswered fault message
    | _ => exact .failed fun fault message same => by cases same
  | ok r =>
    rw [concluded]
    cases success : isSuccess r.reply.status with
    | true => exact .succeeded success
    | false => exact .rejected success

section
variable {net : Network ω} {path : String} {o : Options ω} {c : Client ω} {kind : ResultKind}
  {call : Call} {data : Bytes} {recover : Recovery ω}

theorem waited_of_error {f : Failure} (named : ResultKind.ofName? o.result = some kind)
    (failed : c.start path = .error f) : c.waitedLent net path o = (o.lent, c, .error f) := by
  have prepared : c.prepare path o = .error f := by
    simp only [prepare, named, failed]
    rfl
  rw [waitedLent, prepared]

theorem waited_of_start (named : ResultKind.ofName? o.result = some kind)
    (pooled : 0 < c.config.maxTransfers) (started : c.start path = .ok call) :
    c.waitedLent net path o = ((c.transferLent net kind o call).1,
      (c.transferLent net kind o call).2.1, (c.transferLent net kind o call).2.2.2) := by
  have prepared : c.prepare path o = .ok (kind, call) := by
    simp only [prepare, named, started, if_neg (Int.not_le.mpr pooled)]
    rfl
  rw [waitedLent, prepared]

theorem fetch_of_encoded (net : Network ω) {p : Payload} {headers : Headers}
    (started : c.start path = .ok call) (given : o.recovery = some recover)
    (encoded : o.body.encode o.headers false defaultChunkSize = .ok (p, headers))
    (whole : p.bytes? = some data) :
    c.fetchLent net path o = fetched recover call.guarded (fun r => (settle call r).2)
      (fun l => sendAs net (o.reading l) (o.mapped headers l) call p.sent data) o.lent c := by
  have chosen : o.recovery.getD (refresh net) = recover := by rw [given, Option.getD_some]
  rw [fetchLent_eq, started, encoded, ← chosen]
  exact run_whole whole net { o with progress := none } _ headers (fresh_of_start started)
    (Options.laid_lent encoded) c

theorem transfer_of_sends {p : Payload} {headers : Headers} {sent : Sent}
    (kind : ResultKind) (fresh : call.retried = false) (given : o.recovery = some recover)
    (encoded : o.body.encode o.headers true c.config.chunkSize = .ok (p, headers))
    (sends : ∀ (call : Call) (l : Lent) (c : Client ω),
      c.send net (o.reading l) (o.mapped headers l) call p =
        ⟨(c.sendAs net (o.reading l) (o.mapped headers l) call sent data).1, Call.sentOnce call, p,
          (c.sendAs net (o.reading l) (o.mapped headers l) call sent data).2⟩) :
    let ended := fetched recover call.guarded (fun r => (settle call r).2)
      (fun l => sendAs net (o.reading l) (o.mapped headers l) call sent data) o.lent c
    ∃ call', (c.transferLent net kind o call).1 = ended.1 ∧
      (c.transferLent net kind o call).2.1 = ended.2.1 ∧
      (c.transferLent net kind o call).2.2.2 = (concluded kind call' ended.2.2).2 := by
  intro ended
  have resends (call' : Call) (url : call'.url = call.url) (closed : call'.guarded = call.guarded) :
      (fun l => sendAs net (o.reading l) (o.mapped headers l) call' sent data) =
        fun l => sendAs net (o.reading l) (o.mapped headers l) call sent data := by
    funext l c
    simp only [sendAs, exchangeOf, url, closed]
  have ran : _ = ended := run_of_sends sends resends recover fresh (Options.laid_lent encoded) c
  rw [transferLent_eq, encoded, given, ← ran]
  exact ⟨_, rfl, rfl, rfl⟩

theorem Calm.sends (calm : Calm net) {n : Int} (some_ : 0 < n) {p p' : Payload}
    (whole : p.bytes? = some data)
    (form : p' = p ∨ p' = .upload ⟨.memory data, n⟩ ∧ p.sent = .bytes data) :
    ∃ sent, p.sent.Alike sent ∧ ∀ (o : Options ω), o.progress = none →
      ∀ (headers : Headers) (call : Call) (c : Client ω), c.send net o headers call p' =
        ⟨(c.sendAs net o headers call sent data).1, Call.sentOnce call, p',
          (c.sendAs net o headers call sent data).2⟩ := by
  rcases form with rfl | ⟨rfl, once⟩
  · refine ⟨p'.sent, .same _, fun o _ headers call c => ?_⟩
    have sends := send_whole whole net o headers call c
    rwa [calm.unstoppable] at sends
  · refine ⟨_, ?_, fun o quiet headers => calm.send_chunked quiet some_ data headers⟩
    have like := Sent.Alike.chunked (blocks n.toNat data)
    rwa [flatten_blocks (by omega), ← once] at like

/-- On a calm network a transfer of data at hand, recovered from by the same means, goes side by side
with a fetch: the same requests, the same replies, the same recoveries, and data in another form at
most. It comes to what corresponds to the outcome of the fetch. -/
theorem transfer_refines_fetch (calm : Calm net) (blind : Blind recover)
    (given : o.recovery = some recover) (quiet : o.progress = none)
    (named : ResultKind.ofName? o.result = some kind) (held : o.body.bytes? = some data)
    (chunked : 0 < c.config.chunkSize) (pooled : 0 < c.config.maxTransfers) (path : String) :
    (∃ events, Course net recover o.lent c events (c.fetchLent net path o).1
        (c.fetch net path o).1 ∧
      Course net recover o.lent c events (c.waitedLent net path o).1 (c.waited net path o).1) ∧
    (c.fetchLent net path o).1 = (c.waitedLent net path o).1 ∧
    Alike (c.fetch net path o).1 (c.waited net path o).1 ∧
    Corresponds kind (c.fetch net path o).2 (c.waited net path o).2 := by
  rw [fetch, waited]
  cases started : c.start path with
  | error f =>
    have stopped : c.fetchLent net path o = (o.lent, c, .error f) := by rw [fetchLent, started]
    rw [stopped, waited_of_error named started]
    refine ⟨⟨[], .over _ c, .over _ c⟩, rfl, .refl c, .failed fun fault message same => ?_⟩
    exact start_error started (same ▸ .network fault message)
  | ok call =>
    obtain ⟨p, p', headers, encoded, encoded', whole, form⟩ :=
      Body.encode_both held o.headers defaultChunkSize c.config.chunkSize
    obtain ⟨sent, like, sends⟩ := calm.sends chunked whole form
    obtain ⟨call', lent, moved, concludes⟩ :=
      transfer_of_sends kind (fresh_of_start started) given encoded'
        fun call l c => sends (o.reading l) quiet (o.mapped headers l) call c
    have parallel : Parallel net recover o.lent c c _ _ := fetched_parallel blind
      (fun l _ _ alike => .sending like l alike (o.reading l) (o.mapped headers l) call
        (Payload.data_sent whole)) call.guarded (fun r => (settle call r).2) o.lent (.refl c)
    rw [fetch_of_encoded net started given encoded whole, waited_of_start named pooled started,
      lent, moved, concludes, parallel.same]
    exact ⟨parallel.events, parallel.lent, parallel.alike, corresponds_concluded kind call' _⟩

end

def renewedOnce : Client (List Line) :=
  { config := { chunkSize := 1 }, credentials := .cookies, entries := [],
    world := [.reply { status := 401 }, .reply { status := 200 }, .reply { status := 201 }] }

def putPair : Options (List Line) :=
  { method := "PUT", body := .text "xy", recovery := some { act := refresh Line.network } }

theorem transfer_refines_fetch_renewed :
    Calm Line.network ∧ Blind (refresh Line.network : Recovery (List Line)) ∧ putPair.body.bytes? = some [120, 121] ∧
    (∃ events, Course Line.network (refresh Line.network) putPair.lent renewedOnce events
        (renewedOnce.fetchLent Line.network "/api/v1/files/a" putPair).1
        (renewedOnce.fetch Line.network "/api/v1/files/a" putPair).1 ∧
      Course Line.network (refresh Line.network) putPair.lent renewedOnce events
        (renewedOnce.waitedLent Line.network "/api/v1/files/a" putPair).1
        (renewedOnce.waited Line.network "/api/v1/files/a" putPair).1) ∧
    (renewedOnce.fetchLent Line.network "/api/v1/files/a" putPair).1 =
      (renewedOnce.waitedLent Line.network "/api/v1/files/a" putPair).1 ∧
    Alike (renewedOnce.fetch Line.network "/api/v1/files/a" putPair).1
      (renewedOnce.waited Line.network "/api/v1/files/a" putPair).1 ∧
    Corresponds .bytes (renewedOnce.fetch Line.network "/api/v1/files/a" putPair).2
      (renewedOnce.waited Line.network "/api/v1/files/a" putPair).2 := by
  have calm : Calm Line.network := ⟨fun _ _ => rfl, fun _ => rfl⟩
  have held : putPair.body.bytes? = some [120, 121] := by decide
  have refines := transfer_refines_fetch calm (blind_refresh Line.network) rfl rfl rfl held
    (by decide : 0 < renewedOnce.config.chunkSize)
    (by decide : 0 < renewedOnce.config.maxTransfers) "/api/v1/files/a"
  exact ⟨calm, blind_refresh Line.network, held, refines⟩

/-- Each of the two sendings goes in two chunks; between them the tokens are renewed. -/
example : (renewedOnce.waited Line.network "/api/v1/files/a" putPair).1.journal.map
    (fun e => match e.sent with
      | .chunks received _ _ => received
      | _ => []) = [[[120], [121]], [], [[120], [121]]] := by
  decide +kernel

def crowded : Client (List Line) := { renewedOnce with config := { maxTransfers := 0 } }

def putForXml : Options (List Line) := { putPair with result := "xml" }

/-- With no room for a transfer, or asked for an unknown form of the result, a transfer does nothing
where a fetch is answered. -/
theorem transfer_declined :
    ((crowded.fetch Line.network "/api/v1/files/a" putPair).2 = .ok ⟨{ status := 201 }, 2⟩ ∧
      crowded.waited Line.network "/api/v1/files/a" putPair = (crowded, .error .badValue) ∧
      ¬ Corresponds .bytes (crowded.fetch Line.network "/api/v1/files/a" putPair).2
        (crowded.waited Line.network "/api/v1/files/a" putPair).2) ∧
    (renewedOnce.fetch Line.network "/api/v1/files/a" putForXml).2 =
        .ok ⟨{ status := 201 }, 2⟩ ∧
      renewedOnce.waited Line.network "/api/v1/files/a" putForXml =
        (renewedOnce, .error (.unknownResult "xml")) := by
  have answered : (crowded.fetch Line.network "/api/v1/files/a" putPair).2 =
      .ok ⟨{ status := 201 }, 2⟩ := by
    decide +kernel
  have prepared : crowded.prepare "/api/v1/files/a" putPair = .error .badValue := rfl
  have declined : crowded.waited Line.network "/api/v1/files/a" putPair =
      (crowded, .error .badValue) := by
    rw [waited_eq, prepared]
  refine ⟨⟨answered, declined, fun corresponds => ?_⟩, by decide +kernel, rfl⟩
  rw [answered, declined] at corresponds
  generalize outcome : (Except.error Failure.badValue : Except Failure Outcome) = y at corresponds
  cases corresponds with
  | succeeded success => cases outcome
  | rejected failure => cases outcome

end Client
end FileGate
