import FileGate.Bytes
import FileGate.Pattern.Basic

/-! Reading of patterns from their usual notation: classes, groups, alternatives, repetition,
looking ahead, and flags. A repetition that prefers few or gives nothing back is read as a plain
one. References to groups are not part of the notation. -/
namespace FileGate.Pattern

inductive Fault where
  | malformed
  | tooLarge
  deriving DecidableEq, Repr

structure Flags where
  anyCase : Bool := false
  lines : Bool := false
  dotAll : Bool := false
  ascii : Bool := false
  verbose : Bool := false

inductive Standing where
  | plain
  | place
  | repeated
  deriving DecidableEq

structure Rest where
  text : List Char
  names : List (List Char)

def malformed {α : Type} : Except Fault α := .error .malformed

def countLimit : Nat := 4294967295

def isDigit (c : Char) : Bool := '0' ≤ c && c ≤ '9'
def isOctal (c : Char) : Bool := '0' ≤ c && c ≤ '7'
def isLetter (c : Char) : Bool := ('a' ≤ c && c ≤ 'z') || ('A' ≤ c && c ≤ 'Z')

def numeral (base : Nat) (ds : List Char) : Nat :=
  ds.foldl (fun n c => n * base + (Bytes.hexValue? c).getD 0) 0

def upTo (f : Char → Bool) : Nat → List Char → List Char × List Char
  | n + 1, c :: s => if f c then let (a, r) := upTo f n s; (c :: a, r) else ([], c :: s)
  | _, s => ([], s)

def controlEscape? : Char → Option Char
  | 'a' => some '\x07'
  | 'f' => some '\x0c'
  | 'n' => some '\n'
  | 'r' => some '\r'
  | 't' => some '\t'
  | 'v' => some '\x0b'
  | '\\' => some '\\'
  | _ => none

def classEscape? : Char → Option Member
  | 'd' => some (.digit true)
  | 'D' => some (.digit false)
  | 's' => some (.blank true)
  | 'S' => some (.blank false)
  | 'w' => some (.word true)
  | 'W' => some (.word false)
  | _ => none

def hexEscape (n : Nat) (s : List Char) : Except Fault (Char × List Char) :=
  let (ds, r) := upTo (fun c => (Bytes.hexValue? c).isSome) n s
  let v := numeral 16 ds
  if ds.length = n && v < 0x110000 then .ok (Char.ofNat v, r) else malformed

def charEscape (c : Char) (s : List Char) : Except Fault (Char × List Char) :=
  if c == 'x' then hexEscape 2 s
  else if c == 'u' then hexEscape 4 s
  else if c == 'U' then hexEscape 8 s
  else if isLetter c || isDigit c then malformed
  else .ok (c, s)

def octalEscape (c : Char) (s : List Char) : Except Fault (Char × List Char) :=
  let (ds, r) := upTo isOctal 2 s
  let v := numeral 8 (c :: ds)
  if v ≤ 255 then .ok (Char.ofNat v, r) else malformed

/-- A numeric escape outside a class: octal after a zero or with three octal digits. -/
def numberEscape (c : Char) (s : List Char) : Except Fault (Char × List Char) :=
  if c == '0' then
    let (ds, r) := upTo isOctal 2 s
    .ok (Char.ofNat (numeral 8 ds), r)
  else
    match s with
    | d :: e :: r => if isOctal c && isOctal d && isOctal e && numeral 8 [c, d, e] ≤ 255
        then .ok (Char.ofNat (numeral 8 [c, d, e]), r) else malformed
    | _ => malformed

def single (f : Flags) (m : Member) : Pattern := .one ⟨[m], false, f.anyCase, f.ascii⟩
def char (f : Flags) (c : Char) : Pattern := single f (.range c c)

def escaped (f : Flags) : List Char → Except Fault (Standing × Pattern × List Char)
  | [] => malformed
  | c :: s =>
    match classEscape? c, controlEscape? c with
    | some m, _ => .ok (.plain, single f m, s)
    | none, some d => .ok (.plain, char f d, s)
    | none, none =>
      if c == 'A' then .ok (.place, .start false, s)
      else if c == 'Z' then .ok (.place, .finish, s)
      else if c == 'b' then .ok (.place, .edge true f.ascii, s)
      else if c == 'B' then .ok (.place, .edge false f.ascii, s)
      else do
        let (d, r) ← if isDigit c then numberEscape c s else charEscape c s
        return (.plain, char f d, r)

def classPart : List Char → Except Fault ((Char ⊕ Member) × List Char)
  | [] => malformed
  | '\\' :: c :: s =>
    match classEscape? c, controlEscape? c with
    | some m, _ => .ok (.inr m, s)
    | none, some d => .ok (.inl d, s)
    | none, none => do
      if c == 'b' then return (.inl '\x08', s)
      let (d, r) ← if isOctal c then octalEscape c s else charEscape c s
      return (.inl d, r)
  | '\\' :: [] => malformed
  | c :: s => .ok (.inl c, s)

def asMember : Char ⊕ Member → Member
  | .inl c => .range c c
  | .inr m => m

/-- Members of a class up to its closing bracket, which stands for itself in front of all others. -/
def classMembers : Nat → List Member → List Char → Except Fault (List Member × List Char)
  | 0, _, _ => malformed
  | fuel + 1, members, s =>
    match s with
    | [] => malformed
    | c :: s' =>
      if c == ']' && !members.isEmpty then .ok (members, s')
      else do
        let (a, r) ← classPart s
        match r with
        | '-' :: ']' :: r => return (members ++ [asMember a, .range '-' '-'], r)
        | '-' :: r =>
          let (b, r) ← classPart r
          match a, b with
          | .inl x, .inl y =>
            if x ≤ y then classMembers fuel (members ++ [.range x y]) r else malformed
          | _, _ => malformed
        | r => classMembers fuel (members ++ [asMember a]) r

def bracketed (f : Flags) (s : List Char) : Except Fault (Pattern × List Char) := do
  let (inverted, s) := match s with
    | '^' :: s => (true, s)
    | s => (false, s)
  let (members, r) ← classMembers (s.length + 1) [] s
  return (.one ⟨members, inverted, f.anyCase, f.ascii⟩, r)

/-- Bounds in braces after the opening one; `none` if the brace stands for itself. -/
def braces? (s : List Char) : Except Fault (Option (Nat × Option Nat × List Char)) :=
  if s.head? == some '\x7d' then .ok none
  else
    let (lo, r) := (s.takeWhile isDigit, s.dropWhile isDigit)
    let (hi, r) := match r with
      | ',' :: r => (r.takeWhile isDigit, r.dropWhile isDigit)
      | r => (lo, r)
    match r with
    | '\x7d' :: r =>
      let low := numeral 10 lo
      let high := if hi.isEmpty then none else some (numeral 10 hi)
      if countLimit ≤ low || countLimit ≤ high.getD 0 then .error .tooLarge
      else if high.any (fun n => decide (n < low)) then malformed
      else .ok (some (low, high, r))
    | _ => .ok none

def setFlag (f : Flags) (on : Bool) : Char → Option Flags
  | 'i' => some { f with anyCase := on }
  | 'm' => some { f with lines := on }
  | 's' => some { f with dotAll := on }
  | 'x' => some { f with verbose := on }
  | 'a' => if on then some { f with ascii := true } else none
  | 'u' => if on then some { f with ascii := false } else none
  | _ => none

def flagRun (ends : List Char) (on : Bool) :
    Flags → List Char → Except Fault (Flags × Char × List Char)
  | _, [] => malformed
  | f, c :: s =>
    if ends.contains c then .ok (f, c, s)
    else match setFlag f on c with
      | some f => flagRun ends on f s
      | none => malformed

/-- Flags of a group after its question mark: those set, then those taken back, up to the colon. -/
def groupFlags (f : Flags) (s : List Char) : Except Fault (Flags × List Char) := do
  let (g, c, r) ← flagRun [':', '-'] true f s
  if c == ':' then return (g, r)
  if (r.head?.map isLetter).getD false then
    let (g, _, r) ← flagRun [':'] false g r
    return (g, r)
  else malformed

def isNameStart (c : Char) : Bool := c == '_' || (Text.isAlphanumeric c && !Text.isDigit c)

def dropLine (s : List Char) : List Char := s.dropWhile (· != '\n')

def joined : List (Standing × Pattern) → Pattern
  | [] => .empty
  | [(_, p)] => p
  | (_, p) :: l => .seq p (joined l)

inductive Opening where
  | comment
  | group (f : Flags)
  | look (isIn : Bool)

def opening (f : Flags) (r : Rest) : Except Fault (Opening × Rest) :=
  match r.text with
  | '?' :: ':' :: s => .ok (.group f, ⟨s, r.names⟩)
  | '?' :: '>' :: s => .ok (.group f, ⟨s, r.names⟩)
  | '?' :: '=' :: s => .ok (.look true, ⟨s, r.names⟩)
  | '?' :: '!' :: s => .ok (.look false, ⟨s, r.names⟩)
  | '?' :: '#' :: s =>
    match Text.cut? ')' s with
    | some (_, s) => .ok (.comment, ⟨s, r.names⟩)
    | none => malformed
  | '?' :: 'P' :: '<' :: s =>
    match Text.cut? '>' s with
    | some (name, s) =>
      if (name.head?.map isNameStart).getD false && name.all Text.isWord && !r.names.contains name
      then .ok (.group f, ⟨s, name :: r.names⟩) else malformed
    | none => malformed
  | '?' :: s => do
    let (g, s) ← groupFlags f s
    return (.group g, ⟨s, r.names⟩)
  | s => .ok (.group f, ⟨s, r.names⟩)

def repeatLast (items : List (Standing × Pattern)) (low : Nat) (high : Option Nat) (s : List Char) :
    Except Fault (List (Standing × Pattern) × List Char) :=
  match items.reverse with
  | (.plain, p) :: l =>
    let s := match s with
      | '?' :: s => s
      | '+' :: s => s
      | s => s
    .ok (l.reverse ++ [(.repeated, .rep p low high)], s)
  | _ => malformed

mutual

def alternatives : Nat → Flags → Rest → Except Fault (Pattern × Rest)
  | 0, _, _ => malformed
  | fuel + 1, f, r => do
    let (items, r) ← sequence fuel f [] r
    let p := joined items
    match r.text with
    | '|' :: s =>
      let (q, r) ← alternatives fuel f ⟨s, r.names⟩
      return (.alt p q, r)
    | _ => return (p, r)

def sequence : Nat → Flags → List (Standing × Pattern) → Rest →
    Except Fault (List (Standing × Pattern) × Rest)
  | 0, _, _, _ => malformed
  | fuel + 1, f, items, r =>
    match r.text with
    | [] => .ok (items, r)
    | c :: s =>
      let more (i : Standing × Pattern) (s : List Char) :=
        sequence fuel f (items ++ [i]) ⟨s, r.names⟩
      let again (low : Nat) (high : Option Nat) (s : List Char) := do
        let (items, s) ← repeatLast items low high s
        sequence fuel f items ⟨s, r.names⟩
      if c == '|' || c == ')' then .ok (items, r)
      else if f.verbose && (c == ' ' || (9 ≤ c.toNat && c.toNat ≤ 13)) then
        sequence fuel f items ⟨s, r.names⟩
      else if f.verbose && c == '#' then sequence fuel f items ⟨dropLine s, r.names⟩
      else if c == '\\' then do
        let (k, p, s) ← escaped f s
        more (k, p) s
      else if c == '[' then do
        let (p, s) ← bracketed f s
        more (.plain, p) s
      else if c == '.' then
        let members := if f.dotAll then [] else [Member.range '\n' '\n']
        more (.plain, .one ⟨members, true, false, f.ascii⟩) s
      else if c == '^' then more (.place, .start f.lines) s
      else if c == '$' then more (.place, .stop f.lines) s
      else if c == '?' then again 0 (some 1) s
      else if c == '*' then again 0 none s
      else if c == '+' then again 1 none s
      else if c == '\x7b' then do
        match ← braces? s with
        | some (low, high, s) => again low high s
        | none => more (.plain, char f c) s
      else if c == '(' then do
        let (o, r) ← opening f ⟨s, r.names⟩
        match o with
        | .comment => sequence fuel f items r
        | .group g =>
          let (p, r) ← alternatives fuel g r
          match r.text with
          | ')' :: s => sequence fuel f (items ++ [(.plain, p)]) ⟨s, r.names⟩
          | _ => malformed
        | .look isIn =>
          let (p, r) ← alternatives fuel f r
          match r.text with
          | ')' :: s => sequence fuel f (items ++ [(.plain, .ahead p isIn)]) ⟨s, r.names⟩
          | _ => malformed
      else more (.plain, char f c) s

end

/-- Flags for the whole pattern, which stand in front of everything but comments. -/
def leadingFlags : Nat → Flags → List Char → Flags × List Char
  | 0, f, s => (f, s)
  | fuel + 1, f, s =>
    match s with
    | '(' :: '?' :: '#' :: r =>
      match Text.cut? ')' r with
      | some (_, r) => leadingFlags fuel f r
      | none => (f, s)
    | '(' :: '?' :: c :: r =>
      if isLetter c then
        match flagRun [')'] true f (c :: r) with
        | .ok (g, _, r) => leadingFlags fuel g r
        | .error _ => (f, s)
      else (f, s)
    | _ => (f, s)

def read (s : List Char) : Except Fault Pattern := do
  let (f, s) := leadingFlags (s.length + 1) {} s
  let (p, r) ← alternatives (2 * s.length + 2) f ⟨s, []⟩
  if r.text.isEmpty then return p else malformed

end FileGate.Pattern
