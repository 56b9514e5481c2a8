import FileGate.Failure

namespace FileGate.Yaml

inductive Fault where
  /-- It is not one well-formed document. -/
  | malformed
  /-- It is well-formed, but something written in it stands for nothing. -/
  | senseless (cause : Failure)
  deriving DecidableEq, Repr

structure Spot where
  char : Char
  index : Nat
  line : Nat
  column : Nat
  deriving DecidableEq, Repr

abbrev Source := List Spot

def lineEnd? (c : Char) : Option Char :=
  if c == '\n' || c == '\u0085' then some '\n'
  else if c == '\u2028' || c == '\u2029' then some c
  else none

def isLineEnd (c : Char) : Bool := (lineEnd? c).isSome
def isBlank (c : Char) : Bool := c == ' ' || c == '\t'
def isGap (c : Char) : Bool := isBlank c || isLineEnd c

def isAllowed (c : Char) : Bool :=
  let n := c.toNat
  n = 9 || n = 10 || n = 13 || (32 ≤ n && n ≤ 126) || n = 0x85 || (0xA0 ≤ n && n ≤ 0xFFFD) ||
    0x10000 ≤ n

namespace Source

def byteOrderMark : Char := '\ufeff'

/-- Byte order marks take no column. -/
def place (index line column : Nat) : List Char → Source
  | [] => []
  | c :: s => ⟨c, index, line, column⟩ ::
    (if isLineEnd c then place (index + 1) (line + 1) 0 s
    else place (index + 1) line (if c == byteOrderMark then column else column + 1) s)

def ofText (s : List Char) : Source :=
  match place 0 0 0 s with
  | p :: r => if p.char == byteOrderMark then r else p :: r
  | [] => []

def text (s : Source) : List Char := s.map (·.char)

def atGap : Source → Bool
  | [] => true
  | p :: _ => isGap p.char

def atLineEnd : Source → Bool
  | [] => true
  | p :: _ => isLineEnd p.char

def atSpace : Source → Bool
  | [] => true
  | p :: _ => p.char == ' ' || isLineEnd p.char

def next? (s : Source) : Option Char := s.head?.map (·.char)

def isMark (c : Char) (s : Source) : Bool :=
  text (s.take 3) == [c, c, c] && atGap (s.drop 3)

def atMark (s : Source) : Bool := s.isMark '-' || s.isMark '.'

def upTo (p : Char → Bool) (s : Source) : List Char × Source :=
  (text (s.takeWhile fun a => p a.char), s.dropWhile fun a => p a.char)

def dropSpaces (s : Source) : Source := s.dropWhile (·.char == ' ')

def lineBreak : Source → List Char × Source
  | [] => ([], [])
  | p :: s =>
    match lineEnd? p.char with
    | some b => ([b], s)
    | none => ([], p :: s)

def dropComment (s : Source) : Except Fault Source :=
  let s := s.dropSpaces
  let s : Source := if s.next? = some '#' then s.dropWhile fun p => !isLineEnd p.char else s
  if s.atLineEnd then .ok s.lineBreak.2 else .error .malformed

def skip (comment : Bool) : Source → Bool × Source
  | [] => (false, [])
  | p :: s =>
    if isLineEnd p.char then (true, (skip false s).2)
    else if comment || p.char == ' ' then skip comment s
    else if p.char == '#' then skip true s
    else (false, p :: s)

end Source
end FileGate.Yaml
