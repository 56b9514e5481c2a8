import FileGate.Yaml.Layout
import FileGate.Yaml.Tag

namespace FileGate.Yaml

inductive Node where
  | scalar (tag : Tag) (text : List Char)
  | sequence (tag : Tag) (items : List Node)
  | mapping (tag : Tag) (entries : List (Node × Node))

namespace Node

def tag : Node → Tag
  | scalar t _ => t
  | sequence t _ => t
  | mapping t _ => t

def nothing : Node := .scalar .null []

/-- What is left to read, and what is known by then. -/
structure Reading where
  tokens : List Token
  /-- Anchored nodes; none yet for those that are still being read. -/
  anchors : List (List Char × Option Node) := []
  /-- Handles of tags, and what they stand for. -/
  handles : List (List Char × List Char) := []

abbrev Reader := StateT Reading Option

namespace Reader

def peek : Reader (Option Token) := do return (← get).tokens.head?
def drop : Reader Unit := modify fun r => { r with tokens := r.tokens.tail }

def expect (t : Token) : Reader Unit := do
  if (← peek) == some t then drop else failure

def nextIs (l : List Token) : Reader Bool := do
  match ← peek with
  | some t => return l.contains t
  | none => return false

def anchor? : Reader (Option (List Char)) := do
  match ← peek with
  | some (.anchor a) => drop; return some a
  | _ => return none

def tag? : Reader (Option (List Char)) := do
  match ← peek with
  | some (.tag none t) => drop; return some t
  | some (.tag (some h) t) =>
    drop
    return some ((← StateT.lift (Assoc.get? h (← get).handles)) ++ t)
  | _ => return none

def properties : Reader (Option (List Char) × Option (List Char)) := do
  match ← anchor? with
  | some a => return (some a, ← tag?)
  | none =>
    let t ← tag?
    return (← anchor?, t)

def beginAnchor (a : Option (List Char)) : Reader Unit := do
  match a with
  | none => return
  | some a =>
    if Assoc.contains a (← get).anchors then failure
    modify fun r => { r with anchors := Assoc.put a none r.anchors }

def endAnchor (a : Option (List Char)) (n : Node) : Reader Node := do
  match a with
  | none => return n
  | some a =>
    modify fun r => { r with anchors := Assoc.put a (some n) r.anchors }
    return n

def anchored (a : List Char) : Reader Node := do
  StateT.lift (Assoc.get? a (← get).anchors).join

end Reader

open Reader

/-- The tag by which a scalar is read: a single mark asks for what a plain scalar would be. -/
def scalarTag (plain : Bool) (tag : Option (List Char)) (text : List Char) : Tag :=
  match tag with
  | none => if plain then .ofPlain text else .str
  | some ['!'] => .ofPlain text
  | some t => .ofText t

def collectionTag (default : Tag) (tag : Option (List Char)) : Tag :=
  match tag with
  | none => default
  | some ['!'] => default
  | some t => .ofText t

def unlessNext (l : List Token) (n : Reader Node) : Reader Node := do
  if ← nextIs l then return nothing else n

def valueUnless (l : List Token) (n : Reader Node) : Reader Node := do
  if (← peek) == some .value then
    drop
    unlessNext l n
  else return nothing

mutual

/-- A node. Collections in blocks are allowed with `block`, and entries of a sequence that is not
indented with `entries`. -/
def read (block entries : Bool) : Nat → Reader Node
  | 0 => failure
  | fuel + 1 => do
    if let some (.alias a) ← peek then
      drop
      return ← anchored a
    let (anchor, tag) ← properties
    beginAnchor anchor
    let sequence := Node.sequence (collectionTag .seq tag)
    let mapping := Node.mapping (collectionTag .map tag)
    let n ← match ← peek with
      | some (.scalar plain t) => drop; pure (.scalar (scalarTag plain tag t) t)
      | some .flowSequence => drop; sequence <$> flowItems true fuel
      | some .flowMapping => drop; mapping <$> flowEntries true fuel
      | t =>
        if t == some .blockEntry && entries then sequence <$> looseItems fuel
        else if t == some .blockSequence && block then do
          drop
          sequence <$> blockItems fuel
        else if t == some .blockMapping && block then do
          drop
          mapping <$> blockEntries fuel
        else if anchor.isSome || tag.isSome then pure (.scalar (scalarTag true tag []) [])
        else failure
    endAnchor anchor n

def blockItems : Nat → Reader (List Node)
  | 0 => failure
  | fuel + 1 => do
    if (← peek) == some .blockEntry then
      drop
      let n ← unlessNext [.blockEntry, .blockEnd] (read true false fuel)
      return n :: (← blockItems fuel)
    else
      expect .blockEnd
      return []

/-- Items of a sequence that is not indented below its key. -/
def looseItems : Nat → Reader (List Node)
  | 0 => failure
  | fuel + 1 => do
    if (← peek) == some .blockEntry then
      drop
      let n ← unlessNext [.blockEntry, .key, .value, .blockEnd] (read true false fuel)
      return n :: (← looseItems fuel)
    else return []

def blockEntries : Nat → Reader (List (Node × Node))
  | 0 => failure
  | fuel + 1 => do
    if (← peek) == some .key then
      drop
      let k ← unlessNext [.key, .value, .blockEnd] (read true true fuel)
      let v ← valueUnless [.key, .value, .blockEnd] (read true true fuel)
      return (k, v) :: (← blockEntries fuel)
    else
      expect .blockEnd
      return []

def flowItems (first : Bool) : Nat → Reader (List Node)
  | 0 => failure
  | fuel + 1 => do
    if (← peek) != some .flowSequenceEnd && !first then expect .flowEntry
    if (← peek) == some .flowSequenceEnd then
      drop
      return []
    let n ←
      if (← peek) == some .key then do
        drop
        let k ← unlessNext [.value, .flowEntry, .flowSequenceEnd] (read false false fuel)
        let v ← valueUnless [.flowEntry, .flowSequenceEnd] (read false false fuel)
        pure (.mapping .map [(k, v)])
      else read false false fuel
    return n :: (← flowItems false fuel)

def flowEntries (first : Bool) : Nat → Reader (List (Node × Node))
  | 0 => failure
  | fuel + 1 => do
    if (← peek) != some .flowMappingEnd && !first then expect .flowEntry
    if (← peek) == some .flowMappingEnd then
      drop
      return []
    let e ←
      if (← peek) == some .key then do
        drop
        let k ← unlessNext [.value, .flowEntry, .flowMappingEnd] (read false false fuel)
        let v ← valueUnless [.flowEntry, .flowMappingEnd] (read false false fuel)
        pure (k, v)
      else pure (← read false false fuel, nothing)
    return e :: (← flowEntries false fuel)

end

def commonHandles : List (List Char × List Char) := [(['!'], ['!']), (['!', '!'], Tag.root)]

/-- What is behind the directives before a document. There is one version at most, which is the
first, and handles differ. -/
def directives (versioned : Bool) (handles : List (List Char × List Char)) :
    List Token → Option Reading
  | .directive (.version major) :: ts =>
    if versioned || major != 1 then none else directives true handles ts
  | .directive (.handle h t) :: ts =>
    if Assoc.contains h handles then none else directives versioned (handles ++ [(h, t)]) ts
  | .directive .other :: ts => directives versioned handles ts
  | ts => some {
      tokens := ts
      handles := handles ++ commonHandles.filter fun e => !Assoc.contains e.1 handles }

def isBoundary (ts : List Token) : Bool :=
  match ts with
  | [] => true
  | .directive _ :: _ => true
  | t :: _ => t == .documentStart || t == .documentEnd

def ofTokens? (ts : List Token) : Option (Option Node) := do
  if ts.isEmpty then return none
  let marked := isBoundary ts && ts.head? != some .documentEnd
  let start : Reader Unit := do
    if marked then
      set (← StateT.lift (directives false [] (← get).tokens))
      expect .documentStart
  let node : Reader Node := do
    start
    if marked && isBoundary (← get).tokens then return nothing
    else read true false (4 * ts.length + 4)
  let (n, r) ← node.run { tokens := ts, handles := commonHandles }
  if (r.tokens.dropWhile (· == .documentEnd)).isEmpty then some (some n) else none

end Node
end FileGate.Yaml
