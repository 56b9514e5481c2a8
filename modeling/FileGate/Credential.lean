import FileGate.Assoc
import FileGate.Base64
import FileGate.Failure
import FileGate.Text.Utf8

namespace FileGate

/-- What to send in place of a token that the server itself keeps in a cookie. -/
def accessPlaceholder : String := "cookie:access_token"
def refreshPlaceholder : String := "cookie:refresh_token"

inductive Credentials where
  /-- The server holds them in cookies. -/
  | cookies
  | given (access refresh : Value)

namespace Credentials

def access : Credentials → Value
  | cookies => .text accessPlaceholder
  | given a _ => a

def refresh : Credentials → Value
  | cookies => .text refreshPlaceholder
  | given _ r => r

def ofFields (fields : List (String × Value)) : Except Failure Credentials :=
  if fields.any fun (k, _) => k != "access_token" && k != "refresh_token" then .error .wrongType
  else .ok (.given ((Assoc.get? "access_token" fields).getD (.text ""))
    ((Assoc.get? "refresh_token" fields).getD (.text "")))

/-- The new value of a token: absent and null leave it as it is. -/
def renewed (old : Value) : Option Value → Value
  | none => old
  | some .null => old
  | some v => v

def update (fields : List (String × Value)) : Credentials → Except Failure Credentials
  | cookies => .error .noMember
  | given a r =>
    if fields.any fun (k, _) => k != "access_token" && k != "refresh_token" then .error .wrongType
    else .ok (.given (renewed a (Assoc.get? "access_token" fields))
      (renewed r (Assoc.get? "refresh_token" fields)))

end Credentials

/-- Who is asked for the tokens, anew whenever one is needed. What is answered may change with the
world. -/
inductive Provider (ω : Type) where
  | own (k : Credentials)
  | foreign (access refresh : ω → Value)

namespace Provider

variable {ω : Type}

instance : Coe Credentials (Provider ω) := ⟨own⟩

def cookies : Provider ω := own .cookies
def given (access refresh : Value) : Provider ω := own (.given access refresh)

def access : Provider ω → ω → Value
  | own k, _ => k.access
  | foreign f _, w => f w

def refresh : Provider ω → ω → Value
  | own k, _ => k.refresh
  | foreign _ f, w => f w

def update (fields : List (String × Value)) : Provider ω → Except Failure (Provider ω)
  | own k => (k.update fields).map own
  | foreign _ _ => .error .noMember

end Provider

namespace Authorization

def bearer (token : Value) : String := String.ofList ("Bearer ".toList ++ token.display)

def basic (user password : String) : String :=
  String.ofList ("Basic ".toList ++
    Base64.encode (Utf8.encode (user.toList ++ ':' :: password.toList)))

def challengeScheme (challenge : Option String) : String :=
  match challenge with
  | none => ""
  | some s => String.ofList (s.toList.takeWhile (· != ' '))

def isBasicChallenge (challenge : Option String) : Bool := challengeScheme challenge == "Basic"

/-- Scheme and credentials. Without exactly two words there are no credentials. -/
def parse (header : Option String) : String × String :=
  match Text.words (header.getD "").toList with
  | [] => ("", "")
  | [scheme, credentials] => (String.ofList scheme, String.ofList credentials)
  | scheme :: _ => (String.ofList scheme, "")

def decodeBasic? (credentials : String) : Option (String × String) := do
  let b ← Base64.decodeStrict? credentials.toList
  let s ← Utf8.decode? b
  let (user, password) ← Text.cut? ':' s
  return (String.ofList user, String.ofList password)

end Authorization
end FileGate
