import FileGate.Text.Blank
import FileGate.Text.Case
import FileGate.Text.Digit
import FileGate.Text.Word

/-! Patterns that are searched for in a text. Only whether there is a match matters, so a pattern
means the set of places that its matches can lead to. -/
namespace FileGate

namespace Pattern

inductive Member where
  | range (first last : Char)
  | digit (isIn : Bool)
  | blank (isIn : Bool)
  | word (isIn : Bool)
  deriving DecidableEq, Repr

/-- A class of characters. With `ascii`, digits, blanks and word characters are those of ASCII. -/
structure Class where
  members : List Member
  inverted : Bool
  anyCase : Bool
  ascii : Bool
  deriving DecidableEq, Repr

def asciiOnly (ascii : Bool) (c : Char) (b : Bool) : Bool := if ascii then c.toNat < 128 && b else b

def Member.holds (ascii : Bool) (c : Char) : Member → Bool
  | range a b => a ≤ c && c ≤ b
  | digit isIn => asciiOnly ascii c (Text.isDigit c) == isIn
  | blank isIn =>
    (if ascii then c == ' ' || (9 ≤ c.toNat && c.toNat ≤ 13) else Text.isBlank c) == isIn
  | word isIn => asciiOnly ascii c (Text.isWord c) == isIn

def Class.holds (k : Class) (c : Char) : Bool :=
  let one (m : Member) : Bool :=
    match m with
    | .range _ _ => (if k.anyCase then Text.caseVariants c else [c]).any fun d => m.holds k.ascii d
    | m => m.holds k.ascii c
  k.members.any one != k.inverted

end Pattern

inductive Pattern where
  | empty
  | one (k : Pattern.Class)
  /-- The beginning of the text, or of a line of it. -/
  | start (ofLine : Bool)
  /-- The end of the text or before a line feed that ends it; with `ofLine` the end of any line. -/
  | stop (ofLine : Bool)
  | finish
  /-- Between a word character and another one or none; or anywhere else, if not `isIn`, but not in
  an empty text. -/
  | edge (isIn ascii : Bool)
  | seq (p q : Pattern)
  | alt (p q : Pattern)
  /-- `p` at least `low` times, at most `high` times if there is a bound. -/
  | rep (p : Pattern) (low : Nat) (high : Option Nat)
  /-- A match of `p`, or none, lies ahead. -/
  | ahead (p : Pattern) (isIn : Bool)
  deriving Repr

namespace Pattern

/-- A place in a text: its position, the character before it and the text after it. -/
structure Place where
  position : Nat
  before : Option Char
  after : List Char
  deriving DecidableEq, Repr

def Place.next? (p : Place) : Option (Char × Place) :=
  match p.after with
  | [] => none
  | c :: s => some (c, ⟨p.position + 1, some c, s⟩)

def Place.wordAhead (ascii : Bool) (c : Option Char) : Bool :=
  (c.map fun c => asciiOnly ascii c (Text.isWord c)).getD false

def distinct (l : List Place) : List Place :=
  l.foldl (fun m p => if m.any (·.position == p.position) then m else m ++ [p]) []

def spread (f : List Place → List Place) : Nat → List Place → List Place
  | 0, l => l
  | n + 1, l =>
    let more := f l
    if more.isEmpty then l else distinct (l ++ spread f n more)

def repeated (f : List Place → List Place) : Nat → List Place → List Place
  | 0, l => l
  | n + 1, l => repeated f n (f l)

/-- Places reached by matches of the pattern from any of the given places. -/
def reach : Pattern → List Place → List Place
  | empty, l => l
  | one k, l => l.filterMap fun p => p.next?.bind fun (c, q) => if k.holds c then some q else none
  | start ofLine, l => l.filter fun p => p.before.isNone || (ofLine && p.before == some '\n')
  | stop ofLine, l => l.filter fun p =>
      p.after == [] || p.after == ['\n'] || (ofLine && p.after.head? == some '\n')
  | finish, l => l.filter fun p => p.after == []
  | edge isIn ascii, l => l.filter fun p =>
      (p.before.isSome || !p.after.isEmpty) &&
        (Place.wordAhead ascii p.before != Place.wordAhead ascii p.after.head?) == isIn
  | seq p q, l => reach q (reach p l)
  | alt p q, l => distinct (reach p l ++ reach q l)
  | rep p low high, l =>
      let from_ := repeated (fun m => distinct (reach p m)) low l
      let bound := match high with
        | some n => n - low
        | none => (l.head?.map fun q => q.after.length + q.position).getD 0 + 1
      spread (fun m => distinct (reach p m)) bound from_
  | ahead p isIn, l => l.filter fun q => !(reach p [q]).isEmpty == isIn

def places (position : Nat) (before : Option Char) : List Char → List Place
  | [] => [⟨position, before, []⟩]
  | c :: s => ⟨position, before, c :: s⟩ :: places (position + 1) (some c) s

def found (p : Pattern) (s : List Char) : Bool := !(p.reach (places 0 none s)).isEmpty

end Pattern
end FileGate
