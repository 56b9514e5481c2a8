import FileGate.Body
import FileGate.Config
import FileGate.Credential
import FileGate.Reply
import FileGate.Session.Basic

/-! A client on a network. What lies beyond the client is a world of any type `ω`: it answers
requests, sees the chunks of a body arrive, and may tell the client to stop. -/
namespace FileGate

structure Request where
  method : String
  url : String
  headers : Headers
  body : Bytes
  deriving DecidableEq, Repr

structure Network (ω : Type) where
  /-- Answers a request after all of its body has come. -/
  answer : Request → ω → ω × Except Failure Reply
  arrive : Bytes → ω → ω
  /-- Whether the call under way has been told to stop. -/
  stopped : ω → Bool

namespace Network

def unstoppable {ω : Type} (net : Network ω) : Network ω := { net with stopped := fun _ => false }

end Network

inductive Sent where
  | nothing
  | bytes (b : Bytes)
  | form (fields : List (String × Value))
  /-- Chunks, the announced length, and whether they were all. -/
  | chunks (received : List Bytes) (length : Nat) (complete : Bool)

/-- One request as the network was asked to carry it out. Replies are numbered in the order in which
they came; without a number there was none. -/
structure Exchange where
  method : String
  url : String
  headers : Headers
  timeout : Option Float
  /-- Whether the reply's body was to be left unread, where that was said at all. -/
  stream : Option Bool
  sent : Sent
  answer : Option Nat

structure Received where
  reply : Reply
  number : Nat
  deriving DecidableEq, Repr

structure Client (ω : Type) where
  config : Config
  credentials : Provider ω
  entries : Session.Entries
  world : ω
  replies : Nat := 0
  closed : List Nat := []
  journal : List Exchange := []

namespace Client

variable {ω : Type}

def accessToken (c : Client ω) : Value := c.credentials.access c.world

def refreshToken (c : Client ω) : Value := c.credentials.refresh c.world

def close (n : Nat) (c : Client ω) : Client ω := { c with closed := c.closed ++ [n] }

def answered (net : Network ω) (e : Exchange) (body : Bytes) (c : Client ω) :
    Client ω × Except Failure Received :=
  match net.answer ⟨e.method, e.url, e.headers, body⟩ c.world with
  | (world, .ok reply) =>
    ({ c with world, replies := c.replies + 1,
              journal := c.journal ++ [{ e with answer := some c.replies }] },
      .ok ⟨reply, c.replies⟩)
  | (world, .error f) => ({ c with world, journal := c.journal ++ [e] }, .error f)

/-- Sends a payload. An upload goes chunk by chunk, and if it breaks off there is nothing to be
answered; what is left of it is given back. -/
def transmit (net : Network ω) (progress : Option (Float → ω → ω × Option Failure))
    (e : Exchange) (payload : Payload) (c : Client ω) :
    Client ω × Payload × Except Failure Received :=
  let whole (b : Bytes) :=
    let (c, r) := answered net { e with sent := .bytes b } b c
    (c, payload, r)
  match payload with
  | .nothing => let (c, r) := answered net e [] c; (c, payload, r)
  | .bytes b => whole b
  | .buffer b => whole b
  | .upload u =>
    let (p, u') := u.pass ⟨net.stopped, net.arrive, progress⟩ c.world
    let c := { c with world := p.state }
    let e := { e with sent := .chunks p.received u.length p.failure.isNone }
    match p.failure with
    | some f => ({ c with journal := c.journal ++ [e] }, .upload u', .error f)
    | none =>
      let (c, r) := answered net e p.received.flatten c
      (c, .upload u', r)

end Client
end FileGate
