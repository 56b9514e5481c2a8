import FileGate.Assoc
import FileGate.Yaml.Source

/-! Scalars as they are written: plain, in quotation marks, or as indented blocks of lines. Inside
the first two a single line end is a space, and of several the first is dropped. -/
namespace FileGate.Yaml

/-- What a line end, and the line ends of empty lines after it, stand for. -/
def fold (first more : List Char) : List Char :=
  if first != ['\n'] then first ++ more else if more.isEmpty then [' '] else more

/-! ### Quoted scalars -/

/-- Line ends of empty lines, blanks passed over. With `fresh` a line begins here, and no mark
between documents may begin it. -/
def emptyLines (fresh : Bool) : Source → Except Fault (List Char × Source)
  | [] => .ok ([], [])
  | p :: s =>
    if fresh && Source.atMark (p :: s) then .error .malformed
    else if isBlank p.char then emptyLines false s
    else match lineEnd? p.char with
      | some b => (emptyLines true s).map fun (bs, r) => (b :: bs, r)
      | none => .ok ([], p :: s)

def quotedGap (s : Source) : Except Fault (List Char × Source) := do
  let (blanks, s) := s.upTo isBlank
  if s.isEmpty then .error .malformed
  let (first, s) := s.lineBreak
  if first.isEmpty then return (blanks, s)
  let (more, s) ← emptyLines true s
  return (fold first more, s)

def simpleEscapes : List (Char × Char) :=
  [('0', '\x00'), ('a', '\x07'), ('b', '\x08'), ('t', '\t'), ('\t', '\t'), ('n', '\n'),
    ('v', '\x0b'), ('f', '\x0c'), ('r', '\x0d'), ('e', '\x1b'), (' ', ' '), ('"', '"'),
    ('\\', '\\'), ('/', '/'), ('N', '\u0085'), ('_', '\u00a0'), ('L', '\u2028'), ('P', '\u2029')]

def codeEscapes : List (Char × Nat) := [('x', 2), ('u', 4), ('U', 8)]

def hexNumber (n : Nat) (s : Source) : Except Fault (Nat × Source) :=
  match (Source.text (s.take n)).mapM Bytes.hexValue? with
  | some ds =>
    if ds.length = n then .ok (ds.foldl (fun m d => m * 16 + d) 0, s.drop n) else .error .malformed
  | none => .error .malformed

/-- The character of a code. Numbers that no machine word holds are told apart from others that are
no code; half of a pair of units is replaced. -/
def ofCode (n : Nat) : Except Fault Char :=
  if 0x7FFFFFFF < n then .error (.senseless .tooLarge)
  else if 0x10FFFF < n then .error (.senseless .badValue)
  else if 0xD800 ≤ n && n < 0xE000 then .ok '\ufffd'
  else .ok (Char.ofNat n)

def escape : Source → Except Fault (List Char × Source)
  | [] => .error .malformed
  | p :: s =>
    match Assoc.get? p.char simpleEscapes, Assoc.get? p.char codeEscapes with
    | some c, _ => .ok ([c], s)
    | none, some n => do
      let (code, s) ← hexNumber n s
      return ([← ofCode code], s)
    | none, none => if isLineEnd p.char then emptyLines true s else .error .malformed

def quoted (double : Bool) : Nat → Source → Except Fault (List Char × Source)
  | 0, _ => .error .malformed
  | _, [] => .error .malformed
  | fuel + 1, p :: s => do
    let c := p.char
    let isMark := c == (if double then '"' else '\'')
    if isMark && (double || Source.next? s != some '\'') then return ([], s)
    let (t, s) ←
      if isGap c then quotedGap (p :: s)
      else if isMark then pure (['\''], s.tail)
      else if double && c == '\\' then escape s
      else pure ([c], s)
    let (u, s) ← quoted double fuel s
    return (t ++ u, s)

/-! ### Plain scalars -/

def flowSigns : List Char := ",?[]\x7b\x7d".toList
def valueSigns : List Char := ",[]\x7b\x7d".toList

def plainWord (flow : Bool) : Source → List Char × Source
  | [] => ([], [])
  | p :: s =>
    let colonEnds := Source.atGap s ||
      (flow && ((Source.next? s).map valueSigns.contains).getD false)
    if isGap p.char || (p.char == ':' && colonEnds) || (flow && flowSigns.contains p.char) then
      ([], p :: s)
    else
      let (w, r) := plainWord flow s
      (p.char :: w, r)

def plainBreaks (fresh : Bool) : Source → Option (List Char) × Source
  | [] => (some [], [])
  | p :: s =>
    if fresh && Source.atMark (p :: s) then (none, p :: s)
    else if p.char == ' ' then plainBreaks false s
    else match lineEnd? p.char with
      | some b =>
        let (bs, r) := plainBreaks true s
        (bs.map (b :: ·), r)
      | none => (some [], p :: s)

/-- What stands after a plain word: what it counts for, whether there was a line end, and the rest.
If it counts for nothing, the scalar has ended. -/
def plainGap (s : Source) : List Char × Bool × Source :=
  let (blanks, s) := s.upTo (· == ' ')
  match s.lineBreak with
  | ([], _) => (blanks, false, s)
  | (first, s) =>
    match plainBreaks true s with
    | (some more, s) => (fold first more, true, s)
    | (none, s) => ([], true, s)

/-- The rest of a plain scalar after `gap`: words as long as they stand deep enough. Also tells
whether a line end was passed after the last word. -/
def plain (flow : Bool) (indent : Int) (gap : List Char) (ended : Bool) :
    Nat → Source → List Char × Bool × Source
  | 0, s => ([], ended, s)
  | fuel + 1, s =>
    if s.next? = some '#' then ([], ended, s)
    else
      let (w, r) := plainWord flow s
      if w.isEmpty then ([], ended, s)
      else
        let (after, ended, r) := plainGap r
        let shallow := (r.head?.map fun p => decide ((p.column : Int) ≤ indent)).getD false
        if after.isEmpty || (!flow && shallow) then (gap ++ w, ended, r)
        else
          let (t, ended, r) := plain flow indent after ended fuel r
          (gap ++ w ++ t, ended, r)

/-! ### Block scalars -/

inductive Tail where
  | strip
  | clip
  | keep
  deriving DecidableEq, Repr

def Tail.ofSign? : Char → Option Tail
  | '-' => some .strip
  | '+' => some .keep
  | _ => none

def tailSign (s : Source) : Tail × Source :=
  match s.next?.bind Tail.ofSign? with
  | some t => (t, s.tail)
  | none => (.clip, s)

def depthSign (s : Source) : Except Fault (Option Nat × Source) :=
  match s.next? with
  | some c =>
    if c == '0' then .error .malformed
    else if '1' ≤ c && c ≤ '9' then .ok (some (c.toNat - 48), s.tail)
    else .ok (none, s)
  | none => .ok (none, s)

def blockSigns (s : Source) : Except Fault (Tail × Option Nat × Source) := do
  let (tail, s) := tailSign s
  let (depth, s) ← depthSign s
  let (tail, s) := if tail == .clip && depth.isSome then tailSign s else (tail, s)
  if s.atSpace then return (tail, depth, s) else .error .malformed

def blockBreaks (indent : Nat) : Source → List Char × Source
  | [] => ([], [])
  | p :: s =>
    if p.char == ' ' && p.column < indent then blockBreaks indent s
    else match lineEnd? p.char with
      | some b =>
        let (bs, r) := blockBreaks indent s
        (b :: bs, r)
      | none => ([], p :: s)

def blockIndent (widest : Nat) : Source → List Char × Nat × Source
  | [] => ([], widest, [])
  | p :: s =>
    if p.char == ' ' then blockIndent (max widest (p.column + 1)) s
    else match lineEnd? p.char with
      | some b =>
        let (bs, w, r) := blockIndent widest s
        (b :: bs, w, r)
      | none => ([], widest, p :: s)

/-- Lines of a block that begin at column `indent`: their text, the end of the last line, the
empty lines after it, and the rest. A folded line end is a space between lines that begin with
no blank. -/
def blockLines (folded : Bool) (indent : Nat) (breaks : List Char) :
    Nat → Source → List Char × List Char × List Char × Source
  | 0, s => ([], [], breaks, s)
  | _, [] => ([], [], breaks, [])
  | fuel + 1, p :: s =>
    if p.column != indent then ([], [], breaks, p :: s)
    else
      let (line, r) := Source.upTo (fun c => !isLineEnd c) (p :: s)
      let (ending, r) := r.lineBreak
      let (more, r) := blockBreaks indent r
      match r with
      | [] => (breaks ++ line, ending, more, [])
      | q :: r =>
        if q.column != indent then (breaks ++ line, ending, more, q :: r)
        else
          let joint :=
            if folded && ending == ['\n'] && !isBlank p.char && !isBlank q.char then
              if more.isEmpty then [' '] else []
            else ending
          let (t, rest) := blockLines folded indent more fuel (q :: r)
          (breaks ++ line ++ joint ++ t, rest)

def block (folded : Bool) (indent : Int) (s : Source) : Except Fault (List Char × Source) := do
  let (tail, depth, s) ← blockSigns s
  let s ← s.dropComment
  let least := (max (indent + 1) 1).toNat
  let (breaks, indent, s) := match depth with
    | some n =>
      let (breaks, s) := blockBreaks (least + n - 1) s
      (breaks, least + n - 1, s)
    | none =>
      let (breaks, widest, s) := blockIndent 0 s
      (breaks, max least widest, s)
  let (t, ending, more, s) := blockLines folded indent breaks s.length s
  return (match tail with
    | .strip => t
    | .clip => t ++ ending
    | .keep => t ++ ending ++ more, s)

end FileGate.Yaml
