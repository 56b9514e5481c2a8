import FileGate.Assoc
import FileGate.Value

namespace FileGate.Session

abbrev Entries := List (String × Value)

def flagKey : String := "isLoggedIn"
def flagValue : Value := .text "yes"

def present : Option Value → Bool
  | none => false
  | some .null => false
  | some _ => true

def isLoggedIn (m : Entries) : Bool := present (Assoc.get? flagKey m)
def mark (m : Entries) : Entries := Assoc.put flagKey flagValue m
def clear (m : Entries) : Entries := Assoc.erase flagKey m

end FileGate.Session
