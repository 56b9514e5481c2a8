import FileGate.Client.Flow

/-! Calls. A call on a protected path carries the access token; if it is refused with 401, recovery
is tried, and if that works the call is sent once more. There are two ways to make a call: a fetch
gives the reply whatever it is, a transfer sends in chunks, can be stopped, and gives what a
successful reply says. -/
namespace FileGate

inductive CallState where
  | idle
  | sent
  | succeeded
  | failed
  | unauthorized
  deriving DecidableEq, Repr

def CallState.name : CallState → String
  | idle => "idle"
  | sent => "sent"
  | succeeded => "succeeded"
  | failed => "failed"
  | unauthorized => "unauthorized"

/-- What a call has of its caller, who may change it while the call is under way: each attempt reads
it anew. -/
structure Lent where
  method : String
  stream : Bool
  headers : Headers
  deriving DecidableEq, Repr

/-- What is done about a refusal before a call is sent again: to the client, and to what the call
has been lent. -/
structure Recovery (ω : Type) where
  act : Client ω → Client ω × Option Failure
  amend : Client ω → Lent → Lent := fun _ l => l

namespace Recovery

variable {ω : Type}

instance : CoeFun (Recovery ω) fun _ => Client ω → Client ω × Option Failure := ⟨act⟩

instance : Coe (Client ω → Client ω × Option Failure) (Recovery ω) := ⟨fun act => { act }⟩

end Recovery

structure Options (ω : Type) where
  method : String := "GET"
  headers : Headers := []
  body : Body := .nothing
  stream : Bool := false
  /-- Who is told how far an upload has come. -/
  progress : Option (Float → ω → ω × Option Failure) := none
  recovery : Option (Recovery ω) := none
  result : String := "bytes"

def Options.lent {ω : Type} (o : Options ω) : Lent := ⟨o.method, o.stream, o.headers⟩

/-! ### Header mappings

The caller's mapping is one that others see. Whoever wants to write copies it first, and writes to
the copy. -/

inductive Mapping where
  | callers
  | copy (n : Nat)

/-- The mappings of a call, with the rest of what it has been lent. -/
structure Desk extends Lent where
  copies : List Headers := []

namespace Desk

def read (d : Desk) : Mapping → Headers
  | .callers => d.headers
  | .copy n => d.copies.getD n []

def write (h : Headers) (d : Desk) : Mapping → Desk
  | .callers => { d with headers := h }
  | .copy n => { d with copies := d.copies.set n h }

def put (m : Mapping) (name value : String) (d : Desk) : Desk :=
  d.write (Assoc.put name value (d.read m)) m

def copied (m : Mapping) (d : Desk) : Mapping × Desk :=
  (.copy d.copies.length, { d with copies := d.copies ++ [d.read m] })

def amended (f : Lent → Lent) (d : Desk) : Desk := { d with toLent := f d.toLent }

def encode (body : Body) (streaming : Bool) (chunkSize : Int) (d : Desk) :
    Except Failure (Payload × Mapping × Desk) :=
  match body with
  | .form _ =>
    let (own, d) := d.copied .callers
    (body.encode (d.read own) streaming chunkSize).map fun (p, h) => (p, own, d.write h own)
  | _ => (body.encode d.headers streaming chunkSize).map fun (p, _) => (p, .callers, d)

end Desk

structure Call where
  path : String
  url : String
  guarded : Bool
  state : CallState := .idle
  attempts : Nat := 0
  retried : Bool := false
  deriving DecidableEq, Repr

namespace Client

variable {ω : Type}

def start (path : String) (c : Client ω) : Except Failure Call := do
  let _ ← ensureAbsolute path
  let guarded ← c.config.requiresAuthorization path
  return { path, url := ← c.config.urlFor path.toList, guarded }

structure Attempt (ω : Type) where
  client : Client ω
  call : Call
  payload : Payload
  outcome : Except Failure Received

/-- The headers of one attempt stand in a copy: on a protected path with the token of this moment,
and with the wish that nothing be stored. -/
def ready (headers : Mapping) (guarded : Bool) (d : Desk) (c : Client ω) : Mapping × Desk :=
  let (own, d) := d.copied headers
  if guarded then
    (own, (d.put own "Authorization" (Authorization.bearer c.accessToken)).put own
      "Cache-Control" "no-store")
  else (own, d)

def attempt (net : Network ω) (o : Options ω) (headers : Mapping) (call : Call) (payload : Payload)
    (d : Desk) (c : Client ω) : Desk × Attempt ω :=
  if net.stopped c.world then (d, ⟨c, call, payload, .error .abortedNow⟩)
  else
    let (own, d) := c.ready headers call.guarded d
    let e : Exchange := ⟨d.method, call.url, d.read own, c.config.timeout, some d.stream, .nothing,
      none⟩
    let call := { call with state := .sent, attempts := call.attempts + 1 }
    match c.transmit net o.progress e payload with
    | (c, payload, .error f) => (d, ⟨c, call, payload, .error f⟩)
    | (c, payload, .ok r) =>
      if net.stopped c.world then (d, ⟨c.close r.number, call, payload, .error .abortedNow⟩)
      else (d, ⟨c, call, payload, .ok r⟩)

def Call.ended (call : Call) (status : Int) : Call :=
  { call with state := if isSuccess status then .succeeded else .failed }

def basicRefusal (r : Reply) : Bool :=
  Authorization.isBasicChallenge (header? "WWW-Authenticate" r.headers)

def settle (call : Call) (r : Received) : Call × Except Failure Received :=
  if r.reply.status = 401 && !call.guarded && basicRefusal r.reply then
    ({ call with state := .failed }, .error (.auth .basic))
  else (Call.ended call r.reply.status, .ok r)

/-- How a round of a call ends: with the outcome of the call, or with a recovery after which it is
to be sent again. -/
inductive Round (ω : Type) where
  | over (desk : Desk) (client : Client ω) (call : Call) (outcome : Except Failure Received)
  | again (desk : Desk) (client : Client ω) (call : Call) (payload : Payload)

def round (net : Network ω) (o : Options ω) (recovery : Option (Recovery ω)) (headers : Mapping)
    (call : Call) (payload : Payload) (d : Desk) (c : Client ω) : Round ω :=
  let (d, a) := c.attempt net o headers call payload d
  match a.outcome with
  | .error f => .over d a.client a.call (.error f)
  | .ok r =>
    match recovery with
    | none => .over d a.client (settle a.call r).1 (settle a.call r).2
    | some recover =>
      if r.reply.status ≠ 401 || !call.guarded || call.retried then
        .over d a.client (settle a.call r).1 (settle a.call r).2
      else
        let call := { a.call with state := .unauthorized, retried := true }
        let refused := a.client.close r.number
        let d := d.amended (recover.amend refused)
        match recover refused with
        | (c, some f) => .over d c { call with state := .failed } (.error f)
        | (c, none) => .again d c call a.payload

theorem retried_of_again {net : Network ω} {o : Options ω} {recovery : Option (Recovery ω)}
    {headers : Mapping} {call call' : Call} {payload payload' : Payload} {d d' : Desk}
    {c c' : Client ω}
    (h : c.round net o recovery headers call payload d = .again d' c' call' payload') :
    call.retried = false ∧ call'.retried = true := by
  simp only [round] at h
  split at h
  · cases h
  · split at h
    · cases h
    · split at h
      · cases h
      · rename_i fresh
        simp only [Bool.or_eq_true, not_or, Bool.not_eq_true] at fresh
        split at h
        · cases h
        · cases h
          exact ⟨fresh.2, rfl⟩

def rounds (net : Network ω) (o : Options ω) (recovery : Option (Recovery ω)) (headers : Mapping)
    (call : Call) (payload : Payload) (d : Desk) (c : Client ω) :
    Desk × Client ω × Call × Except Failure Received :=
  match _h : c.round net o recovery headers call payload d with
  | .over d c call outcome => (d, c, call, outcome)
  | .again d c call payload => c.rounds net o recovery headers call payload d
termination_by if call.retried then 0 else 1
decreasing_by
  have fresh := retried_of_again _h
  simp [fresh.1, fresh.2]

/-- Makes a call and gives its final reply, and what the caller has lent to it. Without a recovery
of its own the tokens are renewed. A fetch cannot be stopped and tells nobody how far it has
come. -/
def fetchLent (net : Network ω) (path : String) (o : Options ω) (c : Client ω) :
    Lent × Client ω × Except Failure Received :=
  match c.start path with
  | .error e => (o.lent, c, .error e)
  | .ok call =>
    match Desk.encode o.body false defaultChunkSize { o.lent with copies := [] } with
    | .error e => (o.lent, c, .error e)
    | .ok (payload, headers, d) =>
      let recovery := o.recovery.getD (refresh net)
      let (d, c, _, r) := c.rounds net.unstoppable { o with progress := none } (some recovery)
        headers call payload d
      (d.toLent, c, r)

def fetch (net : Network ω) (path : String) (o : Options ω) (c : Client ω) :
    Client ω × Except Failure Received :=
  (c.fetchLent net path o).2

inductive Outcome where
  | value (v : Value)
  | reply (r : Received)

def Outcome.ofResult (r : Received) : Result → Outcome
  | .value v => .value v
  | .reply _ => .reply r

/-- How the failure of a transfer is reported, and what it makes of the state of the call. -/
def transferFailure (call : Call) : Failure → Call × Failure
  | .network fault message =>
    ({ call with state := .failed }, .noResponse ("Network error: " ++ message) (some fault))
  | .aborted message => ({ call with state := .failed }, .aborted message)
  | f => (call, f)

def transferLent (net : Network ω) (kind : ResultKind) (o : Options ω) (call : Call)
    (c : Client ω) : Lent × Client ω × Call × Except Failure Outcome :=
  match Desk.encode o.body true c.config.chunkSize { o.lent with copies := [] } with
  | .error e => (o.lent, c, call, .error e)
  | .ok (payload, headers, d) =>
    match c.rounds net o o.recovery headers call payload d with
    | (d, c, call, .error f) =>
      let (call, f) := transferFailure call f
      (d.toLent, c, call, .error f)
    | (d, c, call, .ok r) =>
      if isSuccess r.reply.status then
        (d.toLent, c, call, (r.reply.result kind).map (Outcome.ofResult r))
      else (d.toLent, c, call, .error (.rejected r.reply.status r.reply.reason))

def transfer (net : Network ω) (kind : ResultKind) (o : Options ω) (call : Call) (c : Client ω) :
    Client ω × Call × Except Failure Outcome :=
  (c.transferLent net kind o call).2

def prepare (path : String) (o : Options ω) (c : Client ω) :
    Except Failure (ResultKind × Call) := do
  let kind ← match ResultKind.ofName? o.result with
    | some k => pure k
    | none => .error (.unknownResult o.result)
  let call ← c.start path
  if c.config.maxTransfers ≤ 0 then .error .badValue
  else return (kind, call)

def waitedLent (net : Network ω) (path : String) (o : Options ω) (c : Client ω) :
    Lent × Client ω × Except Failure Outcome :=
  match c.prepare path o with
  | .error f => (o.lent, c, .error f)
  | .ok (kind, call) =>
    let (l, c, _, r) := c.transferLent net kind o call
    (l, c, r)

def waited (net : Network ω) (path : String) (o : Options ω) (c : Client ω) :
    Client ω × Except Failure Outcome :=
  (c.waitedLent net path o).2

def cancelled (call : Call) : Call × Except Failure Outcome :=
  ({ call with state := .failed }, .error .cancelled)

end Client
end FileGate
