import FileGate.Percent
import FileGate.Text.Blank

/-! Which part of a server a request goes to. A rule gives the segments of a path, and may take all
that follows them. Fixed segments go before such a tail. A path that only lacks or repeats slashes
is sent on to the one that is meant. -/
namespace FileGate.Route

abbrev Segment := List Char

inductive Endpoint where
  | static
  | token
  | revoke
  | files
  deriving DecidableEq, Repr

structure Rule where
  endpoint : Endpoint
  segments : List Segment
  /-- Whether the rest of the path belongs to the rule. -/
  tail : Bool
  methods : List String
  /-- Whether a slash at the end counts. -/
  strict : Bool := true
  deriving DecidableEq, Repr

inductive Target where
  | rule (r : Rule) (rest : List Char)
  /-- There is a rule for the path with a slash at its end. -/
  | slash
  deriving DecidableEq, Repr

/-- A target if there is one, and the methods of rules for which only the method was wrong. -/
structure Found where
  target : Option Target
  methods : List String
  deriving DecidableEq, Repr

def Found.nothing : Found := ⟨none, []⟩

def Found.orElse (a : Found) (b : Found) : Found :=
  if a.target.isSome then a else ⟨b.target, a.methods ++ b.methods⟩

abbrev State := List (List Segment × Rule)

def pick (method : String) (rest : List Char) : List Rule → Found
  | [] => .nothing
  | r :: rs =>
    if r.methods.contains method then ⟨some (.rule r rest), []⟩
    else
      let f := pick method rest rs
      ⟨f.target, r.methods ++ f.methods⟩

def ended (s : State) : List Rule := (s.filter fun (l, r) => l.isEmpty && !r.tail).map (·.2)
def tails (s : State) : List Rule := (s.filter fun (l, r) => l.isEmpty && r.tail).map (·.2)

def step (part : Segment) (s : State) : State :=
  s.filterMap fun (l, r) =>
    match l with
    | [] => none
    | p :: ps => if p == part then some (ps, r) else none

/-- Rests begin with no slash and have their line feeds, if any, at the very beginning. -/
def isRest : List Char → Bool
  | [] => false
  | c :: s => c != '/' && !s.contains '\n'

/-- Of rules that want one more slash, the first one for the method. -/
def withSlash (method : String) (s : State) : Found :=
  match (ended (step [] s)).find? fun r => r.methods.contains method with
  | some r => ⟨some (if r.strict then .slash else .rule r []), []⟩
  | none => .nothing

def search (method : String) (s : State) : List Segment → Found
  | [] => (pick method [] (ended s)).orElse (withSlash method s)
  | part :: parts =>
    let next := step part s
    let fixed := if next.isEmpty then .nothing else search method next parts
    let rest := Text.joinWith ['/'] (part :: parts)
    let behind := if isRest rest then pick method rest (tails s) else .nothing
    let loose := if part.isEmpty && parts.isEmpty
      then pick method [] ((ended s).filter (!·.strict)) else .nothing
    (fixed.orElse behind).orElse loose

def mergeSlashes : List Char → List Char
  | '/' :: '/' :: s => mergeSlashes ('/' :: s)
  | c :: s => c :: mergeSlashes s
  | [] => []

inductive Routing where
  | rule (r : Rule) (rest : List Char)
  | redirect (path : List Char)
  | notAllowed (methods : List String)
  | notFound
  deriving DecidableEq, Repr

def lookup (rules : List Rule) (method : String) (path : List Char) : Found :=
  search method (rules.map fun r => (r.segments, r)) (Text.splitAll '/' path)

def resolve (rules : List Rule) (method : String) (path : List Char) : Routing :=
  let path := '/' :: path.dropWhile (· == '/')
  let first := lookup rules method path
  match first.target with
  | some (.rule r rest) => .rule r rest
  | some .slash => .redirect (path ++ ['/'])
  | none =>
    let merged := mergeSlashes path
    let second := lookup rules method merged
    match second.target with
    | some (.rule _ _) => .redirect merged
    | some .slash => .redirect (merged ++ ['/'])
    | none =>
      match first.methods ++ second.methods with
      | [] => .notFound
      | ms => .notAllowed ms

def allowed (rules : List Rule) (path : List Char) : List String :=
  match resolve rules "" path with
  | .notAllowed ms => ms.eraseDups
  | _ => []

def location (path : List Char) : String :=
  String.ofList ("http://localhost".toList ++ Percent.encode "!$&'()*+,/:;=@".toList path)

end FileGate.Route
