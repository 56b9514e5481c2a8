import FileGate.Proofs.Client.Outcome
import FileGate.Proofs.Client.Requests

/-! Where a client's token goes. Each sending of a call on a protected path carries the token of its
own moment. On any other path the token is not even looked at: whatever credentials the client has,
all that it does and comes to is the same. -/
namespace FileGate

/-- Headers that bear a token: they are the others, but that the token and the wish that nothing be
stored stand under their own names. -/
structure Bears (token : Value) (headers sent : Headers) : Prop where
  authorization : Assoc.get? "Authorization" sent =
    some (String.ofList ("Bearer ".toList ++ token.display))
  cacheControl : Assoc.get? "Cache-Control" sent = some "no-store"
  others : ∀ name, name ≠ "Authorization" → name ≠ "Cache-Control" →
    Assoc.get? name sent = Assoc.get? name headers
  distinct : (Assoc.keys headers).Nodup → (Assoc.keys sent).Nodup

namespace Client

variable {ω : Type}

theorem bears_attemptHeaders (token : Value) (headers : Headers) :
    Bears token headers (attemptHeaders true token headers) := by
  have different : "Cache-Control" ≠ "Authorization" := by decide
  have built : attemptHeaders true token headers = Assoc.put "Cache-Control" "no-store"
      (Assoc.put "Authorization" (Authorization.bearer token) headers) := rfl
  constructor
  · rw [built, Assoc.get?_put_of_ne different, Assoc.get?_put_self]
    exact congrArg some rfl
  · rw [built, Assoc.get?_put_self]
  · intro name bearer store
    rw [built, Assoc.get?_put_of_ne store.symm, Assoc.get?_put_of_ne bearer.symm]
  · rw [built]
    exact fun distinct => Assoc.nodup_keys_put _ (Assoc.nodup_keys_put _ distinct)

/-! ### The sendings of a call -/

structure Sending (ω : Type) where
  client : Client ω
  lent : Lent
  exchange : Exchange

/-- These sendings lead from one client, with what it has been lent and with a payload to send, to
the other. Between them there are only recoveries and the closing of replies, and only a recovery
may change what has been lent. -/
inductive Sends (net : Network ω) (o : Options ω) (recovery : Option (Recovery ω)) :
    Lent → Client ω → Payload → List (Sending ω) → Lent → Client ω → Prop where
  | over (l : Lent) (c : Client ω) (p : Payload) : Sends net o recovery l c p [] l c
  | closed {l l' : Lent} {c c' : Client ω} {p : Payload} {ss : List (Sending ω)} (n : Nat)
    (rest : Sends net o recovery l (c.close n) p ss l' c') : Sends net o recovery l c p ss l' c'
  | sent {l l' : Lent} {c c' : Client ω} {p : Payload} {ss : List (Sending ω)} (e : Exchange)
    (rest : Sends net o recovery l (c.transmit net o.progress e p).1
      (c.transmit net o.progress e p).2.1 ss l' c') :
    Sends net o recovery l c p (⟨c, l, e⟩ :: ss) l' c'
  | recovered {l l' : Lent} {c c' : Client ω} {recover : Recovery ω} {p : Payload}
    {ss : List (Sending ω)} (there : recovery = some recover)
    (rest : Sends net o recovery (recover.amend c l) (recover c).1 p ss l' c') :
    Sends net o recovery l c p ss l' c'

def OnlyAmended (recovery : Option (Recovery ω)) (l l' : Lent) : Prop :=
  l' = l ∨ ∃ recover c, recovery = some recover ∧ l' = recover.amend c l

section
variable {net : Network ω} {o : Options ω} {recovery : Option (Recovery ω)} {headers : Headers}
  {call : Call} {p : Payload} {l l' : Lent} {c c' : Client ω} {ss : List (Sending ω)}

def OfMoment (o : Options ω) (headers : Headers) (guarded : Bool) (s : Sending ω) : Prop :=
  s.exchange.headers = attemptHeaders guarded s.client.accessToken (o.mapped headers s.lent)

theorem send_sends
    (rest : Sends net o recovery l
      (c.send net (o.reading l) (o.mapped headers l) call p).client
      (c.send net (o.reading l) (o.mapped headers l) call p).payload ss l' c')
    (all : ∀ s ∈ ss, OfMoment o headers call.guarded s) :
    ∃ ss, Sends net o recovery l c p ss l' c' ∧ ∀ s ∈ ss, OfMoment o headers call.guarded s := by
  have told : (o.reading l).progress = o.progress := rfl
  by_cases stopped : net.stopped c.world = true
  · rw [send_eq, if_pos stopped] at rest
    exact ⟨ss, rest, all⟩
  · rw [send_eq, if_neg stopped, told] at rest
    let e := exchangeOf (o.reading l) (o.mapped headers l) call c
    refine ⟨⟨c, l, e⟩ :: ss, .sent _ ?_, fun s there => ?_⟩
    · rcases came : c.transmit net o.progress e p with ⟨c₁, p₁, f | r⟩
      · rw [came] at rest
        exact rest
      · rw [came] at rest
        simp only [Attempt.after] at rest
        split at rest
        · exact .closed r.number rest
        · exact rest
    · rcases List.mem_cons.mp there with rfl | later
      · rfl
      · exact all s later

theorem run_sends (net : Network ω) (recovery : Option (Recovery ω)) (p : Payload) (c : Client ω)
    (fresh : call.retried = false) (lent : (o.laid headers).2.toLent = o.lent)
    (given : o.mapped headers o.lent = headers) :
    ∃ ss, Sends net o recovery o.lent c p ss (c.runLent net o recovery headers call p).1
        (c.run net o recovery headers call p).1 ∧
      ∀ s ∈ ss, OfMoment o headers call.guarded s := by
  have none_ (s : Sending ω) (there : s ∈ []) : OfMoment o headers call.guarded s := by cases there
  have same : c.send net (o.reading o.lent) (o.mapped headers o.lent) call p =
      c.send net o headers call p := by
    rw [given]
    rfl
  rw [run]
  rcases @runLent_cases ω net o recovery headers call p c fresh with
    ⟨-, once⟩ | ⟨r, recover, c₁, x, -, some_, -, -, recovered, again⟩
  · rw [once, lent]
    dsimp only
    rw [settled_client, ← same]
    exact send_sends (.over _ _ _) none_
  · rw [← same] at recovered again
    -- Between the two attempts the refused reply is closed and the recovery is tried.
    let first := c.send net (o.reading o.lent) (o.mapped headers o.lent) call p
    have resume {ss : List (Sending ω)} {l' : Lent} {c' : Client ω}
        (rest : Sends net o recovery (recover.amend (first.client.close r.number) o.lent) c₁
          first.payload ss l' c') :
        Sends net o recovery o.lent first.client first.payload ss l' c' := by
      refine .closed r.number (.recovered some_ ?_)
      rw [recovered]
      exact rest
    rw [again, Attempt.left, lent]
    cases x with
    | some f => exact send_sends (resume (.over _ c₁ _)) none_
    | none =>
      dsimp only
      rw [settled_client, resend, Attempt.left, lent]
      have guarded : first.refused.guarded = call.guarded := send_call.2
      obtain ⟨ss, second, all⟩ := @send_sends ω net o recovery headers first.refused first.payload
        (recover.amend (first.client.close r.number) o.lent) _ c₁ _ [] (.over _ _ _)
        fun s there => by cases there
      rw [guarded] at all
      exact send_sends (resume second) all

theorem runLent_amended (net : Network ω) (recovery : Option (Recovery ω)) (p : Payload)
    (c : Client ω) (fresh : call.retried = false) (lent : (o.laid headers).2.toLent = o.lent) :
    OnlyAmended recovery o.lent (c.runLent net o recovery headers call p).1 := by
  rcases @runLent_cases ω net o recovery headers call p c fresh with
    ⟨-, once⟩ | ⟨r, recover, c₁, x, -, some_, -, -, -, again⟩
  · rw [once]
    exact .inl lent
  · rw [again, Attempt.left, lent]
    exact .inr ⟨recover, _, some_, rfl⟩

end

theorem guarded_of_start {path : String} {c : Client ω} {call : Call}
    (started : c.start path = .ok call) :
    c.config.requiresAuthorization path = .ok call.guarded :=
  (start_eq_ok started).1

/-- A sending that bears the token of its moment just where the path needs one, and has the caller's
headers else, as they are then. -/
structure Confined (config : Config) (path : String) (o : Options ω) (s : Sending ω) : Prop where
  guarded : config.requiresAuthorization path = .ok true →
    Bears s.client.accessToken (o.mapped (o.body.headers o.headers) s.lent) s.exchange.headers
  free : config.requiresAuthorization path = .ok false →
    s.exchange.headers = o.mapped (o.body.headers o.headers) s.lent
  decided : ∃ guarded, config.requiresAuthorization path = .ok guarded

theorem OfMoment.confined {path : String} {o : Options ω} {c : Client ω} {call : Call}
    {s : Sending ω} (started : c.start path = .ok call)
    (moment : OfMoment o (o.body.headers o.headers) call.guarded s) :
    Confined c.config path o s := by
  have rule := guarded_of_start started
  refine ⟨fun closed => ?_, fun open_ => ?_, call.guarded, rule⟩
  · have guarded : call.guarded = true := Except.ok.inj (rule.symm.trans closed)
    rw [moment, guarded]
    exact bears_attemptHeaders _ _
  · have guarded : call.guarded = false := Except.ok.inj (rule.symm.trans open_)
    rw [moment, guarded]
    rfl

/-- How a call goes: each of its sendings is confined, and only a recovery changes what has been
lent. -/
structure Discreet (net : Network ω) (path : String) (o : Options ω) (recovery : Option (Recovery ω))
    (c : Client ω) (l' : Lent) (c' : Client ω) : Prop where
  sends : ∃ p ss, Sends net o recovery o.lent c p ss l' c' ∧ ∀ s ∈ ss, Confined c.config path o s
  amended : OnlyAmended recovery o.lent l'

theorem Discreet.nothing {net : Network ω} {path : String} {o : Options ω}
    {recovery : Option (Recovery ω)} (c : Client ω) : Discreet net path o recovery c o.lent c :=
  ⟨⟨.nothing, [], .over _ c _, fun _ there => by cases there⟩, .inl rfl⟩

theorem Discreet.of_run {path : String} {o : Options ω} {c : Client ω} {call : Call}
    (started : c.start path = .ok call) {streaming : Bool} {n : Int} {p : Payload}
    {headers : Headers} (encoded : o.body.encode o.headers streaming n = .ok (p, headers))
    (net : Network ω) (recovery : Option (Recovery ω)) :
    Discreet net path o recovery c (c.runLent net o recovery headers call p).1
      (c.run net o recovery headers call p).1 := by
  have lent := Options.laid_lent encoded
  have fresh := fresh_of_start started
  obtain ⟨ss, sends, all⟩ :=
    run_sends net recovery p c fresh lent (Options.mapped_lent encoded)
  rw [Body.headers_eq encoded] at all
  exact ⟨⟨p, ss, sends, fun s there => (all s there).confined started⟩,
    runLent_amended net recovery p c fresh lent⟩

theorem fetch_discreet (net : Network ω) (path : String) (o : Options ω) (c : Client ω) :
    Discreet net.unstoppable path { o with progress := none } (some (o.recovery.getD (refresh net))) c
      (c.fetchLent net path o).1 (c.fetch net path o).1 := by
  rw [fetch, fetchLent_eq]
  cases started : c.start path with
  | error f => exact .nothing c
  | ok call =>
    cases encoded : o.body.encode o.headers false defaultChunkSize with
    | error f => exact .nothing c
    | ok ready =>
      have same : ({ o with progress := none } : Options ω).body.encode o.headers false
        defaultChunkSize = .ok (ready.1, ready.2) := encoded
      exact .of_run started same net.unstoppable _

theorem waited_discreet (net : Network ω) (path : String) (o : Options ω) (c : Client ω) :
    Discreet net path o o.recovery c (c.waitedLent net path o).1 (c.waited net path o).1 := by
  rw [waited, waitedLent]
  cases prepared : c.prepare path o with
  | error f => exact .nothing c
  | ok ready =>
    obtain ⟨kind, call⟩ := ready
    dsimp only
    rw [transferLent_eq]
    cases encoded : o.body.encode o.headers true c.config.chunkSize with
    | error f => exact .nothing c
    | ok ready => exact .of_run (start_of_prepare prepared) encoded net o.recovery

/-! ### Other credentials -/

def bearing (k : Provider ω) (c : Client ω) : Client ω := { c with credentials := k }

/-- What was done and came, had the client had other credentials and not looked at them. -/
def alsoBearing {α : Type} (k : Provider ω) (x : Client ω × α) : Client ω × α :=
  (x.1.bearing k, x.2)

section
variable (net : Network ω) (o : Options ω) (recovery : Option (Recovery ω)) (headers : Headers)
  (p : Payload) (k : Provider ω) (c : Client ω)

theorem answered_bearing (e : Exchange) (body : Bytes) :
    (c.bearing k).answered net e body = alsoBearing k (c.answered net e body) := by
  have world : (c.bearing k).world = c.world := rfl
  rw [answered, answered, world]
  rcases net.answer ⟨e.method, e.url, e.headers, body⟩ c.world with ⟨w, f | r⟩
  · rfl
  · rfl

theorem transmit_bearing (progress : Option (Float → ω → ω × Option Failure)) (e : Exchange) :
    (c.bearing k).transmit net progress e p = alsoBearing k (c.transmit net progress e p) := by
  cases p with
  | nothing => simp only [transmit, answered_bearing, alsoBearing]
  | bytes b => simp only [transmit, answered_bearing, alsoBearing]
  | buffer b => simp only [transmit, answered_bearing, alsoBearing]
  | upload u =>
    have world : (c.bearing k).world = c.world := rfl
    rcases came : u.pass ⟨net.stopped, net.arrive, progress⟩ c.world with ⟨q, u'⟩
    cases failed : q.failure with
    | some f =>
      simp only [transmit, world, came, failed]
      rfl
    | none =>
      have moved : { c.bearing k with world := q.state } =
        bearing k { c with world := q.state } := rfl
      simp only [transmit, world, came, failed, moved, answered_bearing]
      rfl

def Attempt.bearing (k : Provider ω) (a : Attempt ω) : Attempt ω :=
  { a with client := a.client.bearing k }

variable {call : Call}

theorem send_bearing (free : call.guarded = false) :
    (c.bearing k).send net o headers call p = (c.send net o headers call p).bearing k := by
  have world : (c.bearing k).world = c.world := rfl
  -- The exchange is the one place where an attempt could read the credentials.
  have exchange : exchangeOf o headers call (c.bearing k) = exchangeOf o headers call c := by
    simp only [exchangeOf, free]
    rfl
  rw [send_eq, send_eq, world, exchange, transmit_bearing]
  split
  · rfl
  · rcases c.transmit net o.progress (exchangeOf o headers call c) p with ⟨c₁, p₁, f | r⟩
    · rfl
    · simp only [alsoBearing, Attempt.after]
      split
      · rename_i stopped
        have stopped : net.stopped c₁.world = true := stopped
        rw [if_pos stopped]
        rfl
      · rename_i going
        have going : ¬ net.stopped c₁.world = true := going
        rw [if_neg going]
        rfl

/-- Without a need for a token there is no recovery, so that a call is but one attempt. -/
theorem run_of_free (fresh : call.retried = false) (free : call.guarded = false) :
    c.run net o recovery headers call p = (c.send net o headers call p).settled := by
  rcases @run_cases ω net o recovery headers call p c fresh with
    ⟨-, once⟩ | ⟨_, _, _, _, -, -, -, closed, -⟩
  · exact once
  · rw [free] at closed
    cases closed

theorem run_bearing (fresh : call.retried = false) (free : call.guarded = false) :
    (c.bearing k).run net o recovery headers call p =
      alsoBearing k (c.run net o recovery headers call p) := by
  rw [run_of_free net o recovery headers p _ fresh free,
    run_of_free net o recovery headers p _ fresh free, send_bearing net o headers p k c free]
  rcases c.send net o headers call p with ⟨c₁, call₁, p₁, f | r⟩
  · rfl
  · rfl

end

section
variable {path : String} {c : Client ω}

theorem free_of_start {call : Call} (free : c.config.requiresAuthorization path = .ok false)
    (started : c.start path = .ok call) : call.guarded = false :=
  Except.ok.inj ((guarded_of_start started).symm.trans free)

theorem fetch_bearing (net : Network ω) (o : Options ω) (k : Provider ω)
    (free : c.config.requiresAuthorization path = .ok false) :
    (c.bearing k).fetch net path o = alsoBearing k (c.fetch net path o) := by
  have start_ : (c.bearing k).start path = c.start path := rfl
  rw [fetch_eq, fetch_eq, start_]
  cases started : c.start path with
  | error f => rfl
  | ok call =>
    cases encoded : o.body.encode o.headers false defaultChunkSize with
    | error f => rfl
    | ok ready =>
      obtain ⟨p, headers⟩ := ready
      simp only [run_bearing net.unstoppable { o with progress := none } _ headers p k c
        (fresh_of_start started) (free_of_start free started)]
      rfl

theorem waited_bearing (net : Network ω) (o : Options ω) (k : Provider ω)
    (free : c.config.requiresAuthorization path = .ok false) :
    (c.bearing k).waited net path o = alsoBearing k (c.waited net path o) := by
  have prepare_ : (c.bearing k).prepare path o = c.prepare path o := rfl
  have config : (c.bearing k).config = c.config := rfl
  rw [waited_eq, waited_eq, prepare_]
  cases prepared : c.prepare path o with
  | error f => rfl
  | ok ready =>
    obtain ⟨kind, call⟩ := ready
    have started := start_of_prepare prepared
    cases encoded : o.body.encode o.headers true c.config.chunkSize with
    | error f =>
      have encoded' : o.body.encode o.headers true (c.bearing k).config.chunkSize = .error f :=
        encoded
      simp only [transfer_of_error net kind call encoded, transfer_of_error net kind call encoded']
      rfl
    | ok ready =>
      obtain ⟨p, headers⟩ := ready
      have encoded' : o.body.encode o.headers true (c.bearing k).config.chunkSize =
        .ok (p, headers) := encoded
      simp only [transfer_eq net kind o call c encoded,
        transfer_eq net kind o call (c.bearing k) encoded', run_bearing net o o.recovery headers p
          k c (fresh_of_start started) (free_of_start free started)]
      rfl

end

/-- Each sending of a call on a protected path bears the token that the client has at that moment,
and all else in its headers is the caller's. On another path the headers are the caller's, and
clients that differ in their credentials do and come to the same. The caller's headers are changed by
the caller's own recovery if at all. -/
theorem token_confined (net : Network ω) (path : String) (o : Options ω) (c : Client ω) :
    Discreet net.unstoppable path { o with progress := none } (some (o.recovery.getD (refresh net))) c
      (c.fetchLent net path o).1 (c.fetch net path o).1 ∧
    Discreet net path o o.recovery c (c.waitedLent net path o).1 (c.waited net path o).1 ∧
    (c.config.requiresAuthorization path = .ok false → ∀ k,
      (c.bearing k).fetch net path o = alsoBearing k (c.fetch net path o) ∧
        (c.bearing k).waited net path o = alsoBearing k (c.waited net path o)) :=
  ⟨fetch_discreet net path o c, waited_discreet net path o c,
    fun free k => ⟨fetch_bearing net o k free, waited_bearing net o k free⟩⟩

theorem token_confined_login :
    refusedOnce.config.requiresAuthorization "/api/v1/auth/token" = .ok false ∧
      (refusedOnce.bearing (.given (.text "a") (.text "r"))).fetch Line.network
          "/api/v1/auth/token" putText =
        alsoBearing (.given (.text "a") (.text "r"))
          (refusedOnce.fetch Line.network "/api/v1/auth/token" putText) := by
  have free : refusedOnce.config.requiresAuthorization "/api/v1/auth/token" = .ok false := by
    have needed := PathRule.requiresAuthorization_default "/api/v1/auth/token"
    exact needed
  obtain ⟨-, -, alike⟩ := token_confined Line.network "/api/v1/auth/token" putText refusedOnce
  exact ⟨free, (alike free _).1⟩

def counting : Provider (List Line) :=
  .foreign (fun lines => .int lines.length) fun _ => .text "r"

/-- Each sending asks for the token anew. -/
example :
    ((refusedOnce.bearing counting).fetch Line.network "/api/v1/files/a" putText).1.journal.map
        (fun e => Assoc.get? "Authorization" e.headers) =
      [some "Bearer 2", some "Bearer 1"] := by
  decide +kernel

end Client
end FileGate
