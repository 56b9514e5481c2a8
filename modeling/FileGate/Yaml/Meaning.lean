import FileGate.Base64
import FileGate.Text.Case
import FileGate.Yaml.Node
import FileGate.Yaml.Number

namespace FileGate.Yaml

/-- Result for a part of a document. A fault has the number of levels that lie between it and the
part: of several faults the least deep one counts, and of those the first. -/
abbrev Outcome (α : Type) := Except (Nat × Fault) α

namespace Outcome

def here {α : Type} : Except Fault α → Outcome α
  | .ok a => .ok a
  | .error e => .error (0, e)

def inside {α : Type} (e : Fault) : Outcome α := .error (1, e)

def first? {α : Type} : List (Outcome α) → Option (Nat × Fault)
  | [] => none
  | .ok _ :: l => first? l
  | .error e :: l =>
    match first? l with
    | some f => if f.1 < e.1 then some f else some e
    | none => some e

def gather {α : Type} (l : List (Outcome α)) : Outcome (List α) :=
  match first? l with
  | some (n, e) => .error (n + 1, e)
  | none => .ok (l.filterMap Except.toOption)

end Outcome

def truth (s : List Char) : Except Fault Value :=
  match Assoc.get? (String.ofList (s.map Text.lower)) Tag.truths with
  | some b => .ok (.bool b)
  | none => .error (.senseless .noKey)

def binary (s : List Char) : Except Fault Value :=
  if s.all (·.toNat < 128) then
    match Base64.decodeLenient? s with
    | some b => .ok (.blob b)
    | none => .error .malformed
  else .error .malformed

def moment (s : List Char) : Except Fault Value :=
  match Moment.read? s with
  | some m => m.value
  | none => .error (.senseless .noMember)

def scalarValue (tag : Tag) (s : List Char) : Except Fault Value :=
  match tag with
  | .null => .ok .null
  | .bool => truth s
  | .int => (Number.int s).map .int
  | .float => (Number.float s).map .float
  | .binary => binary s
  | .timestamp => moment s
  | .str => .ok (.text (String.ofList s))
  | _ => .error .malformed

structure Entry where
  key : Outcome Value
  value : Outcome Value

/-- What is inside of a key does not count if the key cannot be one. -/
def asKey : Outcome Value → Outcome Value
  | .ok v => if v.keyable then .ok v else .error (0, .malformed)
  | .error (0, e) => .error (0, e)
  | .error _ => .error (0, .malformed)

def Entry.parts (e : Entry) : List (Outcome Value) := [asKey e.key, e.value]

def pairUp : List Value → List (Value × Value)
  | k :: v :: l => (k, v) :: pairUp l
  | _ => []

def mappingValue : Option (List Entry × List Entry) → Outcome (List (Value × Value))
  | none => .inside .malformed
  | some (taken, own) =>
    (Outcome.gather ((taken ++ own).flatMap Entry.parts)).map fun l => Value.mergeEntries (pairUp l)

def pairValue (k v : Outcome Value) : Outcome Value :=
  match Outcome.first? [k, v] with
  | some f => .error f
  | none => .ok (.list ([k, v].filterMap Except.toOption))

namespace Node

def scalarText? : Node → Option (List Char)
  | scalar _ s => some s
  | sequence _ _ => none
  | mapping _ es => standIn? es
where
  standIn? : List (Node × Node) → Option (List Char)
    | [] => none
    | (k, v) :: es => if k.tag = .value then scalarText? v else standIn? es

mutual

def value : Node → Outcome Value
  | scalar tag s => .here (scalarValue tag s)
  | sequence tag ns =>
    match tag with
    | .seq => (Outcome.gather (values ns)).map .list
    | .omap => (Outcome.gather (couples ns)).map .list
    | .pairs => (Outcome.gather (couples ns)).map .list
    | .map => .inside .malformed
    | .set => .inside .malformed
    | _ => .error (0, .malformed)
  | mapping tag es =>
    match tag with
    | .map => (mappingValue (entries es)).map .map
    | .set => (mappingValue (entries es)).map fun m => .set (m.map (·.1))
    | .seq => .inside .malformed
    | .omap => .inside .malformed
    | .pairs => .inside .malformed
    | tag =>
      match scalarText? (mapping tag es) with
      | some s => .here (scalarValue tag s)
      | none => .error (0, .malformed)

def values : List Node → List (Outcome Value)
  | [] => []
  | n :: ns => value n :: values ns

def couples : List Node → List (Outcome Value)
  | [] => []
  | n :: ns =>
    (match n with
    | mapping _ [(k, v)] => pairValue (value k) (value v)
    | _ => .error (0, .malformed)) :: couples ns

/-- Entries taken over from other mappings, and a mapping's own ones; nothing if something is to be
taken over from what is no mapping. -/
def entries : List (Node × Node) → Option (List Entry × List Entry)
  | [] => some ([], [])
  | (k, v) :: es =>
    if k.tag = .merge then
      match v with
      | mapping _ fs => do
        let (a, b) ← entries fs
        let (taken, own) ← entries es
        return (a ++ b ++ taken, own)
      | sequence _ ns => do
        let l ← takenEntries ns
        let (taken, own) ← entries es
        return (l ++ taken, own)
      | scalar _ _ => none
    else do
      let (taken, own) ← entries es
      let key : Outcome Value :=
        if k.tag = .value then
          match k with
          | scalar _ s => .ok (.text (String.ofList s))
          | _ => .error (0, .malformed)
        else value k
      return (taken, ⟨key, value v⟩ :: own)

def takenEntries : List Node → Option (List Entry)
  | [] => some []
  | n :: ns =>
    match n with
    | mapping _ fs => do
      let (a, b) ← entries fs
      return (← takenEntries ns) ++ (a ++ b)
    | _ => none

end

end Node

def load (s : List Char) : Except Fault (Option Value) := do
  if !s.all isAllowed then .error .malformed
  match Node.ofTokens? (← Token.ofText s) with
  | none => .error .malformed
  | some none => return none
  | some (some n) =>
    match n.value with
    | .ok v => return some v
    | .error (_, e) => .error e

end FileGate.Yaml
