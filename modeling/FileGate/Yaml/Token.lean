import FileGate.Text.Utf8
import FileGate.Yaml.Source

namespace FileGate.Yaml

inductive Directive where
  | version (major : Nat)
  | handle (name meaning : List Char)
  | other
  deriving DecidableEq, Repr

inductive Token where
  | directive (d : Directive)
  | documentStart
  | documentEnd
  | blockSequence
  | blockMapping
  | blockEnd
  | flowSequence
  | flowSequenceEnd
  | flowMapping
  | flowMappingEnd
  | blockEntry
  | flowEntry
  | key
  | value
  | alias (name : List Char)
  | anchor (name : List Char)
  /-- A tag's handle, if it has one, and its suffix. -/
  | tag (handle : Option (List Char)) (suffix : List Char)
  | scalar (plain : Bool) (text : List Char)
  deriving DecidableEq, Repr

def isNameChar (c : Char) : Bool :=
  ('0' ≤ c && c ≤ '9') || ('A' ≤ c && c ≤ 'Z') || ('a' ≤ c && c ≤ 'z') || c == '-' || c == '_'

def isTagChar (c : Char) : Bool := isNameChar c || ";/?:@&=+$,.!~*'()[]".toList.contains c

def nameEnds : List Char := ['?', ':', ',', ']', '\x7d', '%', '@', '\x60']

def anchorName (s : Source) : Except Fault (List Char × Source) :=
  let (name, s) := s.upTo isNameChar
  let ends := Source.atGap s || ((Source.next? s).map nameEnds.contains).getD false
  if name.isEmpty || !ends then .error .malformed else .ok (name, s)

def escapedBytes : Source → Except Fault (Bytes × Source)
  | [] => .ok ([], [])
  | p :: s =>
    if p.char != '%' then .ok ([], p :: s)
    else match s with
      | a :: b :: s =>
        match Bytes.hexValue? a.char, Bytes.hexValue? b.char with
        | some x, some y =>
          (escapedBytes s).map fun (bs, r) => (UInt8.ofNat (16 * x + y) :: bs, r)
        | _, _ => .error .malformed
      | _ => .error .malformed

def tagChars : Nat → Source → Except Fault (List Char × Source)
  | 0, s => .ok ([], s)
  | fuel + 1, s => do
    let (t, s) := s.upTo isTagChar
    if Source.next? s != some '%' then return (t, s)
    let (bytes, s) ← escapedBytes s
    match Utf8.decode? bytes with
    | none => .error .malformed
    | some u =>
      let (v, s) ← tagChars fuel s
      return (t ++ u ++ v, s)

def tagText (s : Source) : Except Fault (List Char × Source) := do
  let (t, s) ← tagChars (s.length + 1) s
  if t.isEmpty then .error .malformed else return (t, s)

/-- A tag's handle: a name between two exclamation marks, or the first of them alone before a
space. -/
def tagHandle (s : Source) : Except Fault (List Char × Source) :=
  match s with
  | [] => .error .malformed
  | p :: r =>
    if p.char != '!' then .error .malformed
    else if Source.next? r = some ' ' then .ok (['!'], r)
    else
      let (name, r) := Source.upTo isNameChar r
      if Source.next? r = some '!' then .ok ('!' :: name ++ ['!'], r.tail) else .error .malformed

def tag (mark : Spot) (s : Source) : Except Fault (Token × Source) := do
  let (t, s) ←
    if Source.next? s = some '<' then
      let (suffix, s) ← tagText s.tail
      if Source.next? s != some '>' then .error .malformed
      pure (Token.tag none suffix, s.tail)
    else if Source.atGap s then pure (Token.tag none ['!'], s)
    else
      let word := s.takeWhile fun p => p.char != ' ' && !isLineEnd p.char
      let (handle, s) ← if word.any (·.char == '!') then tagHandle (mark :: s) else pure (['!'], s)
      let (suffix, s) ← tagText s
      pure (Token.tag (some handle) suffix, s)
  if Source.atSpace s then return (t, s) else .error .malformed

def versionNumber (s : Source) : Except Fault (Nat × Source) :=
  let (ds, s) := s.upTo Char.isDigit
  if ds.isEmpty then .error .malformed
  else .ok (ds.foldl (fun n c => n * 10 + (c.toNat - 48)) 0, s)

def directive (s : Source) : Except Fault (Token × Source) := do
  let (name, s) := s.upTo isNameChar
  if name.isEmpty || !Source.atSpace s then .error .malformed
  let (d, s) ←
    if name == "YAML".toList then
      let (major, s) ← versionNumber (Source.dropSpaces s)
      if Source.next? s != some '.' then .error .malformed
      let (_, s) ← versionNumber s.tail
      if !Source.atSpace s then .error .malformed
      pure (Directive.version major, s)
    else if name == "TAG".toList then
      let (handle, s) ← tagHandle (Source.dropSpaces s)
      if Source.next? s != some ' ' then .error .malformed
      let (meaning, s) ← tagText (Source.dropSpaces s)
      if !Source.atSpace s then .error .malformed
      pure (Directive.handle handle meaning, s)
    else pure (Directive.other, s.dropWhile fun p => !isLineEnd p.char)
  return (.directive d, ← Source.dropComment s)

end FileGate.Yaml
