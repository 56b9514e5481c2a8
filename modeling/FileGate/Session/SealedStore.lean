import FileGate.Cipher.Seal
import FileGate.Json.Reader
import FileGate.Json.Writer
import FileGate.Session.Basic
import FileGate.Session.Disk

/-! Session entries in a sealed file. The file holds one JSON object; one that is not there, or
cannot be opened, or is no JSON, holds none. What opens to no text, or to JSON with a number that is
too long to be read, is a fault. -/
namespace FileGate

structure SealedStore where
  path : String
  lock : Seal

namespace SealedStore

def make (path secret : String) (d : Disk) : SealedStore × Disk :=
  (⟨path, Seal.ofSecret secret⟩, d.makeParent path)

def plain (s : SealedStore) (d : Disk) : Except Failure (List Char) := do
  match s.lock.open? (← d.read s.path) with
  | none => .error .badSeal
  | some b =>
    match Utf8.decode? b with
    | none => .error .badText
    | some t => .ok t

/-- The value in the file, which should be an object and may be any. -/
def read (s : SealedStore) (d : Disk) : Except Failure Value :=
  if !d.exists? s.path then .ok (.map [])
  else match s.plain d with
    | .error .badSeal => .ok (.map [])
    | .error e => .error e
    | .ok t =>
      match Json.read t with
      | .ok v => .ok v
      | .error .malformed => .ok (.map [])
      | .error .tooLong => .error .badValue

def write (s : SealedStore) (v : Value) (d : Disk) : Except Failure Disk :=
  d.write s.path (s.lock.close (Utf8.encode (Json.write Json.spaced v)))

def get (s : SealedStore) (key : Points) (d : Disk) : Except Failure (Option Value) := do
  match ← s.read d with
  | .map m => .ok (Value.lookup? key m)
  | _ => .error .noMember

def set (s : SealedStore) (key : Points) (v : Value) (d : Disk) : Except Failure Disk := do
  match ← s.read d with
  | .map m => s.write (.map (Value.putEntry (.ofPoints key) v m)) d
  | _ => .error .wrongType

def occursIn (key : Points) : Points → Bool
  | [] => key.isEmpty
  | c :: s => key.isPrefixOf (c :: s) || occursIn key s

/-- Removes an entry if there is one. In what is no object, a key that does not occur is simply not
there. -/
def remove (s : SealedStore) (key : Points) (d : Disk) : Except Failure Disk := do
  match ← s.read d with
  | .map m =>
    if (Value.lookup? key m).isSome then s.write (.map (Value.removeEntry key m)) d else .ok d
  | .list l => if l.any (·.points? == some key) then .error .wrongType else .ok d
  | v =>
    match v.points? with
    | some t => if occursIn key t then .error .wrongType else .ok d
    | none => .error .wrongType

end SealedStore

inductive SessionStore where
  | memory (entries : List (Points × Value))
  | sealed (s : SealedStore)

namespace SessionStore

def get (key : Points) (d : Disk) : SessionStore → Except Failure (Option Value)
  | memory m => .ok (Assoc.get? key m)
  | sealed s => s.get key d

def set (key : Points) (v : Value) (d : Disk) : SessionStore → Except Failure (SessionStore × Disk)
  | memory m => .ok (memory (Assoc.put key v m), d)
  | sealed s => (s.set key v d).map fun d => (sealed s, d)

def remove (key : Points) (d : Disk) : SessionStore → Except Failure (SessionStore × Disk)
  | memory m => .ok (memory (Assoc.erase key m), d)
  | sealed s => (s.remove key d).map fun d => (sealed s, d)

def isLoggedIn (d : Disk) (s : SessionStore) : Except Failure Bool :=
  (s.get Session.flagKey d).map Session.present

def mark (d : Disk) (s : SessionStore) : Except Failure (SessionStore × Disk) :=
  s.set Session.flagKey Session.flagValue d

def clear (d : Disk) (s : SessionStore) : Except Failure (SessionStore × Disk) :=
  s.remove Session.flagKey d

end SessionStore
end FileGate
