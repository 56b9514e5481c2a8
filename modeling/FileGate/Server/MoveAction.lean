import FileGate.Text.Blank
import FileGate.Percent

namespace FileGate.MoveAction

def expect (word s : List Char) : Option (List Char) :=
  let s := Text.trimLeft s
  if word.isPrefixOf s then some (s.drop word.length) else none

/-- A line feed may only stand at the very end, and does not belong to the target then. -/
def lastLine? (s : List Char) : Option (List Char) :=
  match s.dropWhile (· != '\n') with
  | [] => some s
  | ['\n'] => some (s.takeWhile (· != '\n'))
  | _ => none

/-- Source and target as they are written. The source has no comma. -/
def read? (s : List Char) : Option (List Char × List Char) := do
  let s ← expect "path=".toList (← expect "move-from;".toList s)
  let (source, s) ← Text.cut? ',' s
  let s ← expect "path=".toList (← expect "move-to;".toList s)
  return (source, ← lastLine? s)

def marks : List Char := "!~*'()".toList

def write (source target : List Char) : List Char :=
  "move-from; path=".toList ++ Percent.encode marks source ++
    ", move-to; path=".toList ++ Percent.encode marks target

end FileGate.MoveAction
