import FileGate.Assoc
import FileGate.Decimal.Numeral
import FileGate.PathRule

/-! Settings of a client. Texts are taken as they are found and are looked at when they are used;
numbers are read at once. -/
namespace FileGate

structure Environment where
  baseUrl : Option String := none
  sessionFile : Option String := none
  timeout : Option String := none
  secretKey : Option String := none

structure Config where
  baseUrl : Value := .text "http://127.0.0.1:8080"
  tokenPath : Value := .text "/api/v1/auth/token"
  revokePath : Value := .text "/api/v1/auth/revoke"
  filesRoot : Value := .text "/api/v1/files"
  cookiePath : Value := .text "/api/v1/files"
  rule : PathRule := {}
  patterns : Patterns := .known
  sessionFile : Value := .null
  timeout : Option Float := none
  maxTransfers : Int := 4
  chunkSize : Int := 65536

namespace Value

def asciiText? (b : Bytes) : Option (List Char) :=
  if b.all (· < 128) then some (b.map fun x => Char.ofNat x.toNat) else none

def toFloat : Value → Except Failure Float
  | .float x => .ok x
  | .bool b => .ok (if b then 1.0 else 0.0)
  | .int n => match Decimal.ofInt? n with
    | some x => .ok x
    | none => .error .tooLarge
  | .text s => match Decimal.float? s.toList with
    | some x => .ok x
    | none => .error .badValue
  | .blob b => match (asciiText? b).bind Decimal.float? with
    | some x => .ok x
    | none => .error .badValue
  | _ => .error .wrongType

def toInt : Value → Except Failure Int
  | .int n => .ok n
  | .bool b => .ok (if b then 1 else 0)
  | .float x => match Decimal.truncate? x with
    | some n => .ok n
    | none => .error (if x.isNaN then .badValue else .tooLarge)
  | .text s => match Decimal.integer? s.toList with
    | some n => .ok n
    | none => .error .badValue
  | .blob b => match (asciiText? b).bind Decimal.integer? with
    | some n => .ok n
    | none => .error .badValue
  | _ => .error .wrongType

def dropSlashes : Value → Except Failure (List Char)
  | .text s => .ok (s.toList.reverse.dropWhile (· == '/')).reverse
  | .blob _ => .error .wrongType
  | _ => .error .noMember

end Value

namespace Config

/-- Entries of a mapping that are no settings are passed over, absent settings have their
defaults. -/
def ofEntries (m : List (Value × Value)) : Except Failure Config := do
  let c : Config := {}
  let get (k : String) (v : Value) : Value := (Value.lookup? k m).getD v
  let timeout ← match get "timeout" .null with
    | .null => pure none
    | v => some <$> v.toFloat
  let maxTransfers ← (get "max_transfers" (.int c.maxTransfers)).toInt
  let chunkSize ← (get "chunk_size" (.int c.chunkSize)).toInt
  return {
    baseUrl := get "base_url" c.baseUrl
    tokenPath := get "token_path" c.tokenPath
    revokePath := get "revoke_path" c.revokePath
    filesRoot := get "files_root" c.filesRoot
    cookiePath := get "cookie_path" c.cookiePath
    rule := ⟨get "protected_pattern" c.rule.protectedPattern,
      get "unprotected_pattern" c.rule.publicPattern⟩
    sessionFile := get "session_file" c.sessionFile
    timeout, maxTransfers, chunkSize }

def toFields (c : Config) : List (String × Value) :=
  [("base_url", c.baseUrl), ("token_path", c.tokenPath), ("revoke_path", c.revokePath),
    ("files_root", c.filesRoot), ("cookie_path", c.cookiePath),
    ("protected_pattern", c.rule.protectedPattern), ("unprotected_pattern", c.rule.publicPattern),
    ("session_file", c.sessionFile), ("timeout", (c.timeout.map Value.float).getD .null),
    ("max_transfers", .int c.maxTransfers), ("chunk_size", .int c.chunkSize)]

def urlFor (c : Config) (path : List Char) : Except Failure String :=
  c.baseUrl.dropSlashes.map fun base => String.ofList (base ++ path)

def requiresAuthorization (c : Config) (path : String) : Except Failure Bool :=
  c.rule.requiresAuthorization path c.patterns

end Config

/-- Key of the session file: the environment's if it has one, else the one in the settings. -/
def secretKey (env : Environment) (settings : Value) : Value :=
  match env.secretKey with
  | some k => .text k
  | none =>
    match settings with
    | .map m => (Value.lookup? "secret_key" m).getD .null
    | _ => .null

end FileGate
