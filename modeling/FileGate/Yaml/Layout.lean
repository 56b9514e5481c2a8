import FileGate.Assoc
import FileGate.Yaml.Scalar
import FileGate.Yaml.Token

namespace FileGate.Yaml

/-- A token that turns out to be a key if a colon follows it. -/
structure Candidate where
  number : Nat
  /-- Nothing but a key may stand there. -/
  required : Bool
  place : Spot
  deriving DecidableEq, Repr

namespace Candidate

def limit : Nat := 1024

/-- A key stands on one line with its colon and is not too long. -/
def isStale (place : Spot) (k : Candidate) : Bool :=
  k.place.line != place.line || k.place.index + limit < place.index

end Candidate

structure Layout where
  /-- Tokens, the last one first. -/
  tokens : List Token := []
  /-- Number of brackets and braces that are open. -/
  flow : Nat := 0
  /-- Column of the innermost block, and of those around it. -/
  indent : Int := -1
  outer : List Int := []
  /-- Whether a key may begin here. -/
  keyAllowed : Bool := true
  /-- The last candidate inside each number of brackets and braces. -/
  candidates : List (Nat × Candidate) := []

namespace Layout

def push (t : Token) (l : Layout) : Layout := { l with tokens := t :: l.tokens }

def insert (n : Nat) (t : Token) (l : Layout) : Layout :=
  let later := l.tokens.length - n
  { l with tokens := l.tokens.take later ++ t :: l.tokens.drop later }

def dropStale (place : Spot) (l : Layout) : Except Fault Layout :=
  if l.candidates.any fun (_, k) => k.isStale place && k.required then .error .malformed
  else .ok { l with candidates := l.candidates.filter fun (_, k) => !k.isStale place }

def dropCandidate (l : Layout) : Except Fault Layout :=
  match Assoc.get? l.flow l.candidates with
  | some k =>
    if k.required then .error .malformed
    else .ok { l with candidates := Assoc.erase l.flow l.candidates }
  | none => .ok l

def addCandidate (place : Spot) (l : Layout) : Except Fault Layout := do
  if !l.keyAllowed then return l
  let l ← l.dropCandidate
  let k : Candidate := ⟨l.tokens.length, l.flow == 0 && l.indent == place.column, place⟩
  return { l with candidates := Assoc.put l.flow k l.candidates }

def closeDeeper (column : Int) : Nat → Layout → Layout
  | 0, l => l
  | n + 1, l =>
    if l.indent ≤ column then l
    else closeDeeper column n { l with
      tokens := .blockEnd :: l.tokens
      indent := l.outer.headD (-1)
      outer := l.outer.tail }

def closeBlocks (column : Int) (l : Layout) : Layout :=
  if l.flow == 0 then closeDeeper column l.outer.length l else l

def openBlock (column : Nat) (add : Layout → Layout) (l : Layout) : Layout :=
  if l.flow == 0 && l.indent < column then
    add { l with outer := l.indent :: l.outer, indent := column }
  else l

def boundary (l : Layout) : Except Fault Layout := do
  let l ← (l.closeBlocks (-1)).dropCandidate
  return { l with keyAllowed := false }

def flowStart (t : Token) (place : Spot) (l : Layout) : Except Fault Layout := do
  let l ← l.addCandidate place
  return { l with tokens := t :: l.tokens, flow := l.flow + 1, keyAllowed := true }

def flowEnd (t : Token) (l : Layout) : Except Fault Layout := do
  if l.flow == 0 then .error .malformed
  let l ← l.dropCandidate
  return { l with tokens := t :: l.tokens, flow := l.flow - 1, keyAllowed := false }

def flowEntry (l : Layout) : Except Fault Layout := do
  let l ← l.dropCandidate
  return { l with tokens := .flowEntry :: l.tokens, keyAllowed := true }

def blockEntry (place : Spot) (l : Layout) : Except Fault Layout := do
  if l.flow == 0 && !l.keyAllowed then .error .malformed
  let l ← (l.openBlock place.column (push .blockSequence)).dropCandidate
  return { l with tokens := .blockEntry :: l.tokens, keyAllowed := true }

def key (place : Spot) (l : Layout) : Except Fault Layout := do
  if l.flow == 0 && !l.keyAllowed then .error .malformed
  let l ← (l.openBlock place.column (push .blockMapping)).dropCandidate
  return { l with tokens := .key :: l.tokens, keyAllowed := l.flow == 0 }

/-- A colon. What came before it on its line was a key; otherwise it ends a marked one. -/
def value (place : Spot) (l : Layout) : Except Fault Layout :=
  match Assoc.get? l.flow l.candidates with
  | some k =>
    let l := { l with candidates := Assoc.erase l.flow l.candidates }
    let l := (l.insert k.number .key).openBlock k.place.column (insert k.number .blockMapping)
    .ok { l with tokens := .value :: l.tokens, keyAllowed := false }
  | none => do
    if l.flow == 0 && !l.keyAllowed then .error .malformed
    let l ← (l.openBlock place.column (push .blockMapping)).dropCandidate
    return { l with tokens := .value :: l.tokens, keyAllowed := l.flow == 0 }

def content (place : Spot) (read : Except Fault (Token × Source)) (l : Layout) :
    Except Fault (Layout × Source) := do
  let l ← l.addCandidate place
  let (t, s) ← read
  return ({ l with tokens := t :: l.tokens, keyAllowed := false }, s)

def plainScalar (place : Spot) (s : Source) (l : Layout) : Except Fault (Layout × Source) := do
  let l ← l.addCandidate place
  let (t, ended, s) := plain (l.flow != 0) l.indent [] false (s.length + 1) s
  return ({ l with tokens := .scalar true t :: l.tokens, keyAllowed := ended }, s)

def blockScalar (folded : Bool) (s : Source) (l : Layout) : Except Fault (Layout × Source) := do
  let l ← l.dropCandidate
  let (t, s) ← block folded l.indent s
  return ({ l with tokens := .scalar false t :: l.tokens, keyAllowed := true }, s)

def indicators : List Char := "-?:,[]\x7b\x7d#&*!|>'\"%@\x60".toList

def startsPlain (flow : Bool) (c : Char) (s : Source) : Bool :=
  !indicators.contains c || (!Source.atGap s && (c == '-' || (!flow && (c == '?' || c == ':'))))

def next (p : Spot) (s : Source) (l : Layout) : Except Fault (Layout × Source) :=
  let flow := l.flow != 0
  let here := p :: s
  let one (r : Except Fault Layout) : Except Fault (Layout × Source) := r.map (·, s)
  let mark (t : Token) : Except Fault (Layout × Source) :=
    l.boundary.map fun l => (l.push t, here.drop 3)
  let named (t : List Char → Token) : Except Fault (Layout × Source) :=
    l.content p ((anchorName s).map fun (n, s) => (t n, s))
  let inMarks (double : Bool) : Except Fault (Layout × Source) :=
    l.content p ((quoted double (s.length + 1) s).map fun (t, s) => (.scalar false t, s))
  if p.char == '%' && p.column == 0 then do
    let l ← l.boundary
    let (t, s) ← directive s
    return (l.push t, s)
  else if p.column == 0 && Source.isMark '-' here then mark .documentStart
  else if p.column == 0 && Source.isMark '.' here then mark .documentEnd
  else match p.char with
  | '[' => one (l.flowStart .flowSequence p)
  | '\x7b' => one (l.flowStart .flowMapping p)
  | ']' => one (l.flowEnd .flowSequenceEnd)
  | '\x7d' => one (l.flowEnd .flowMappingEnd)
  | ',' => one l.flowEntry
  | '*' => named .alias
  | '&' => named .anchor
  | '!' => l.content p (tag p s)
  | '\'' => inMarks false
  | '"' => inMarks true
  | c =>
    if c == '-' && Source.atGap s then one (l.blockEntry p)
    else if c == '?' && (flow || Source.atGap s) then one (l.key p)
    else if c == ':' && (flow || Source.atGap s) then one (l.value p)
    else if c == '|' && !flow then l.blockScalar false s
    else if c == '>' && !flow then l.blockScalar true s
    else if startsPlain flow c s then l.plainScalar p here
    else .error .malformed

/-- Reads tokens to the end of the text; `fuel` is more than the number of its characters. -/
def run : Nat → Source → Layout → Except Fault Layout
  | 0, _, _ => .error .malformed
  | fuel + 1, s, l =>
    let (fresh, s) := Source.skip false s
    let l := if fresh && l.flow == 0 then { l with keyAllowed := true } else l
    match s with
    | [] => l.boundary
    | p :: s => do
      let l ← l.dropStale p
      let (l, s) ← (l.closeBlocks p.column).next p s
      run fuel s l

end Layout

def Token.ofText (s : List Char) : Except Fault (List Token) :=
  let source := Source.ofText s
  (Layout.run (source.length + 1) source {}).map (·.tokens.reverse)

end FileGate.Yaml
