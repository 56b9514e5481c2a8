import FileGate.Failure
import FileGate.Pattern.Reader

namespace FileGate

structure PathRule where
  protectedPattern : Value := .text "^/api/v1/files"
  publicPattern : Value := .text "^/api/v1/files/shares/."

/-- A library of patterns says of the text of a pattern where the pattern occurs, or what is wrong
with it. -/
abbrev Patterns := String → Except Pattern.Fault (String → Bool)

def Patterns.known : Patterns := fun p =>
  match Pattern.read p.toList with
  | .ok p => .ok fun s => p.found s.toList
  | .error e => .error e

namespace PathRule

def occurs (pattern : Value) (s : String) (patterns : Patterns := .known) : Except Failure Bool :=
  match pattern with
  | .text p =>
    match patterns p with
    | .ok there => .ok (there s)
    | .error e => .error (.ofPattern e)
  | _ => .error .wrongType

/-- The protected pattern is looked at only where the public one does not occur. -/
def requiresAuthorization (r : PathRule) (path : String) (patterns : Patterns := .known) :
    Except Failure Bool := do
  if ← occurs r.publicPattern path patterns then return false
  occurs r.protectedPattern path patterns

end PathRule

def isAbsolute (path : String) : Bool := path.toList.head? == some '/'

def ensureAbsolute (path : String) : Except Failure String :=
  if isAbsolute path then .ok path else .error .relativePath

end FileGate
