import FileGate.Client.Files

namespace FileGate

inductive Moment where
  | start
  | progress
  | response
  | recovery
  | finish
  deriving DecidableEq, Repr

structure Plan where
  /-- Stops the transfer at the n-th moment of a kind. -/
  interrupt : Option (Moment × Nat) := none
  progressFailure : Option (Nat × Failure) := none

/-- A world in which a plan is followed; the counts are those of one step. -/
structure Stage (ω : Type) where
  host : ω
  plan : Plan := {}
  stopped : Bool := false
  answers : Nat := 0
  percentages : List Float := []
  recoveries : Nat := 0

namespace Stage

variable {ω : Type}

def reach (m : Moment) (n : Nat) (s : Stage ω) : Stage ω :=
  if s.plan.interrupt = some (m, n) then { s with stopped := true } else s

def next (plan : Plan) (s : Stage ω) : Stage ω := { host := s.host, plan }

/-- Answers come from the host; a transfer may be stopped before they are given. -/
def network (net : Network ω) : Network (Stage ω) where
  answer r s :=
    let (host, a) := net.answer r s.host
    (reach .response (s.answers + 1) { s with host, answers := s.answers + 1 }, a)
  arrive b s := { s with host := net.arrive b s.host }
  stopped s := s.stopped || net.stopped s.host

def progress (x : Float) (s : Stage ω) : Stage ω × Option Failure :=
  let n := s.percentages.length + 1
  let s := reach .progress n { s with percentages := s.percentages ++ [x] }
  (s, match s.plan.progressFailure with
    | some (k, e) => if k = n then some e else none
    | none => none)

def recovery (f : Client (Stage ω) → Client (Stage ω) × Option Failure) : Recovery (Stage ω) where
  act c :=
    let n := c.world.recoveries + 1
    f { c with world := reach .recovery n { c.world with recoveries := n } }

def transfer (net : Network ω) (path : String) (o : Options (Stage ω)) (c : Client (Stage ω)) :
    Client (Stage ω) × Option Call × Except Failure Client.Outcome :=
  match c.prepare path o with
  | .error e => (c, none, .error e)
  | .ok (kind, call) =>
    if (c.world.plan.interrupt.map (·.1)) = some .start then
      let (call, r) := Client.cancelled call
      ({ c with world := { c.world with stopped := true } }, some call, r)
    else
      let (c, call, r) := c.transfer (network net) kind o call
      (c, some call, r)

end Stage

inductive Line where
  | reply (r : Reply)
  | failure (f : Failure)

namespace Line

/-- A network that has one line for each request. A reply has to have headers that can be read. -/
def network : Network (List Line) where
  answer _ lines :=
    match lines with
    | [] => ([], .error .exhausted)
    | reply r :: rest => (rest, r.charsetName.map fun _ => r)
    | failure f :: rest => (rest, .error f)
  arrive _ lines := lines
  stopped _ := false

end Line
end FileGate
