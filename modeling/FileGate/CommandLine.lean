import FileGate.Assoc
import FileGate.Decimal.Numeral

namespace FileGate.CommandLine

structure Arguments where
  host : String := "127.0.0.1"
  port : Int := 8080
  users : List String := []
  shares : List String := []
  accessTimeout : Float := 300.0
  refreshTimeout : Float := 86400.0

inductive Stop where
  | help
  | misuse
  deriving DecidableEq, Repr

def Stop.code : Stop → Nat
  | help => 0
  | misuse => 2

inductive Switch where
  | help
  | host
  | port
  | user
  | share
  | accessTimeout
  | refreshTimeout
  deriving DecidableEq, Repr

def switches : List (List Char × Switch) :=
  [("--help".toList, .help), ("--host".toList, .host), ("--port".toList, .port),
    ("--user".toList, .user), ("--share".toList, .share),
    ("--access-timeout".toList, .accessTimeout), ("--refresh-timeout".toList, .refreshTimeout)]

inductive Word where
  | plain (s : List Char)
  | switch (o : Switch) (value : Option (List Char))
  | unknown
  deriving Repr

def isNegativeNumber (s : List Char) : Bool :=
  let whole := s.takeWhile Text.isDigit
  let rest := match s.dropWhile Text.isDigit with
    | '.' :: r => if (r.takeWhile Text.isDigit).isEmpty then '.' :: r else r.dropWhile Text.isDigit
    | r => if whole.isEmpty then '-' :: r else r
  rest.isEmpty || rest == ['\n']

/-- Letters after a minus sign. Any help wanted among them counts, unless a value is given to it. -/
def cluster : List Char → Except Stop Word
  | [] => .ok (.switch .help none)
  | '=' :: _ => .error .misuse
  | '-' :: _ => .error .misuse
  | 'h' :: s => cluster s
  | _ => .ok (.switch .help none)

def candidates (name : List Char) : List Switch :=
  match switches.find? (·.1 == name) with
  | some (_, o) => [o]
  | none => (switches.filter fun (n, _) => name.isPrefixOf n).map (·.2)

def notAnOption (s : List Char) : Word :=
  if isNegativeNumber (s.drop 1) || s.contains ' ' then .plain s else .unknown

def classify (s : List Char) : Except Stop Word :=
  match s with
  | '-' :: '-' :: _ =>
    let (name, value) := match Text.cut? '=' s with
      | some (n, v) => (n, some v)
      | none => (s, none)
    match candidates name with
    | [] => .ok (notAnOption s)
    | [o] => .ok (.switch o value)
    | _ => .error .misuse
  | ['-'] => .ok (.plain s)
  | '-' :: 'h' :: r =>
    match cluster r with
    | .ok w => .ok w
    | .error _ => .ok (.switch .help (some r))
  | '-' :: _ => .ok (notAnOption s)
  | _ => .ok (.plain s)

def number {α : Type} : Option α → Except Stop α
  | some x => .ok x
  | none => .error .misuse

def set (a : Arguments) (o : Switch) (s : List Char) : Except Stop Arguments :=
  match o with
  | .help => .error .misuse
  | .host => .ok { a with host := String.ofList s }
  | .port => (number (Decimal.integer? s)).map fun n => { a with port := n }
  | .user => .ok { a with users := a.users ++ [String.ofList s] }
  | .share => .ok { a with shares := a.shares ++ [String.ofList s] }
  | .accessTimeout => (number (Decimal.float? s)).map fun x => { a with accessTimeout := x }
  | .refreshTimeout => (number (Decimal.float? s)).map fun x => { a with refreshTimeout := x }

/-- Takes the words in turn. Words left over make the whole line wrong, but only at its end: help
that is asked for is given. -/
def follow (a : Arguments) (left : Bool) : List Word → Except Stop Arguments
  | [] => if left then .error .misuse else .ok a
  | .plain _ :: ws => follow a true ws
  | .unknown :: ws => follow a true ws
  | .switch .help none :: _ => .error .help
  | .switch o (some v) :: ws => do follow (← set a o v) left ws
  | .switch o none :: .plain v :: ws => do follow (← set a o v) left ws
  | .switch _ none :: _ => .error .misuse

/-- All words are looked at before any is followed. Nothing after `--` is an option, and as no
values stand by themselves, that makes the line wrong. -/
def read (words : List String) : Except Stop Arguments := do
  let ws := words.map String.toList
  let options := ws.takeWhile (· != ['-', '-'])
  let known ← options.mapM classify
  follow {} false (if options.length < ws.length then known ++ [.unknown] else known)

/-! ### What is served -/

structure Share where
  path : String
  password : Option String
  deriving DecidableEq, Repr

def users (a : Arguments) : List (String × String) :=
  Assoc.ofList (a.users.filterMap fun s =>
    (Text.cut? ':' s.toList).map fun (u, p) => (String.ofList u, String.ofList p))

def nonempty? (s : List Char) : Option String := if s.isEmpty then none else some (String.ofList s)

def shares (a : Arguments) : List (String × Share) :=
  Assoc.ofList (a.shares.map fun s =>
    let (id, rest) := Text.cut ':' s.toList
    let (path, password) := Text.cut ':' rest
    (String.ofList id, ⟨(nonempty? path).getD "/", nonempty? password⟩))

end FileGate.CommandLine
