import FileGate.Config
import FileGate.Session.Disk
import FileGate.Yaml.Meaning

/-! Settings from a YAML file and from the environment. A file that is not there, cannot be read or
is no well-formed YAML gives no settings; a file that is no text, or has numbers or dates in it that
are none, is a fault. -/
namespace FileGate.Settings

def empty : Value := .map []

def unifyLines : List Char → List Char
  | '\r' :: '\n' :: s => '\n' :: unifyLines s
  | '\r' :: s => '\n' :: unifyLines s
  | c :: s => c :: unifyLines s
  | [] => []

/-- Settings in a file. A document that says nothing holds none. -/
def ofBytes (b : Bytes) : Except Failure Value :=
  match Utf8.decode? b with
  | none => .error .badText
  | some s =>
    match Yaml.load (unifyLines s) with
    | .ok (some v) => .ok (if v.truthy then v else empty)
    | .ok none => .ok empty
    | .error .malformed => .ok empty
    | .error (.senseless cause) => .error cause

def load (path : String) (d : Disk) : Except Failure Value :=
  match d.read path with
  | .ok b => ofBytes b
  | .error _ => .ok empty

def overrides (env : Environment) : List (String × String) :=
  [("base_url", env.baseUrl), ("session_file", env.sessionFile), ("timeout", env.timeout)].filterMap
    fun (k, v) => (v.filter (· != "")).map fun v => (k, v)

/-- The configuration that settings and the environment make up. Settings that are no mapping do not
count. -/
def config (env : Environment) (settings : Value) : Except Failure Config :=
  let entries := match settings with
    | .map m => m
    | _ => []
  Config.ofEntries <|
    (overrides env).foldl (fun m (k, v) => Value.putEntry (.text k) (.text v) m) entries

end FileGate.Settings
