import FileGate.Pattern.Reader
import FileGate.Text.Blank
import FileGate.Value

namespace FileGate

inductive AuthKind where
  | tokenRefresh
  | login
  | logout
  | basic
  deriving DecidableEq, Repr

namespace AuthKind

def name : AuthKind → String
  | tokenRefresh => "TOKEN_REFRESH"
  | login => "LOGIN"
  | logout => "LOGOUT"
  | basic => "BASIC"

def message : AuthKind → String
  | tokenRefresh => "Token refresh failed"
  | login => "Login failed"
  | logout => "Logout failed"
  | basic => "Requires Basic Authentication"

def all : List AuthKind := [tokenRefresh, login, logout, basic]

def ofName? (s : String) : Option AuthKind := all.find? (·.name == s)

def summary (k : AuthKind) : String := "AuthError(" ++ k.name ++ ")"

theorem ofName?_name (k : AuthKind) : ofName? k.name = some k := by cases k <;> decide

end AuthKind

inductive NetworkFault where
  | connection
  | timeout
  | redirects
  | other
  deriving DecidableEq, Repr

/-- Failures that come from whoever was called and are handed on as they are. -/
inductive ForeignFault where
  | program
  | system
  | key
  deriving DecidableEq, Repr

inductive Failure where
  | auth (kind : AuthKind)
  /-- The final response has a status that is no success. -/
  | rejected (status : Int) (reason : String)
  /-- There was no response; the network's own fault if it was one. -/
  | noResponse (message : String) (cause : Option NetworkFault)
  | aborted (message : String)
  | network (fault : NetworkFault) (message : String)
  | foreign (fault : ForeignFault) (message : String)
  /-- A transfer was stopped before it began. -/
  | cancelled
  | relativePath
  | unknownResult (name : String)
  | unsupportedBody (kind : String)
  | optionsTwice
  | badValue
  | wrongType
  | noMember
  | noKey
  | noIndex
  | badJson
  | badText
  | tooLarge
  | badPattern
  | badSeal
  | notSeekable
  | isDirectory
  | notFound
  /-- The network was asked for more than it has. -/
  | exhausted
  deriving DecidableEq, Repr

namespace Failure

def ofPattern : Pattern.Fault → Failure
  | .malformed => badPattern
  | .tooLarge => tooLarge

def abortedNow : Failure := aborted "Transfer aborted"

/-- The status and what the server said about it, blanks at the end cut off. -/
def rejection (status : Int) (reason : String) : String :=
  String.ofList (Text.trimRight
    ("Request failed with status: " ++ toString status ++ " " ++ reason).toList)

def message? : Failure → Option String
  | auth kind => some kind.message
  | rejected status reason => some (rejection status reason)
  | noResponse message _ => some message
  | aborted message => some message
  | network _ message => some message
  | foreign .key message => some (String.ofList (Value.quoted message))
  | foreign _ message => some message
  | relativePath => some "The path must be absolute"
  | unknownResult name => some ("Unknown response type: " ++ name)
  | unsupportedBody kind => some ("Unsupported request body type: " ++ kind)
  | optionsTwice => some "Pass either options or keyword arguments, not both"
  | _ => none

end Failure

theorem exists_of_bind_ok {ε α β : Type} {x : Except ε α} {f : α → Except ε β} {b : β}
    (h : (x >>= f) = .ok b) : ∃ a, x = .ok a ∧ f a = .ok b := by
  cases x with
  | error e => cases h
  | ok a => exact ⟨a, rfl, h⟩

theorem cases_of_bind_error {ε α β : Type} {x : Except ε α} {f : α → Except ε β} {e : ε}
    (h : (x >>= f) = .error e) : x = .error e ∨ ∃ a, f a = .error e := by
  cases x with
  | error e' =>
    cases h
    exact .inl rfl
  | ok a => exact .inr ⟨a, h⟩

end FileGate
