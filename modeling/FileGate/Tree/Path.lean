import FileGate.Text.Blank

/-! Paths of the file tree. A path in normal form is a slash followed by its segments, none of them
empty, `.` or `..`, with slashes between them. -/
namespace FileGate

abbrev Path := List Char

namespace Path

/-- Segments left over when `.` stands for nothing and `..` takes back the one before it; `done` is
reversed. -/
def resolve (done : List Path) : List Path → List Path
  | [] => done.reverse
  | s :: ss =>
    if s.isEmpty || s == ['.'] then resolve done ss
    else if s == ['.', '.'] then resolve done.tail ss
    else resolve (s :: done) ss

def segments (p : Path) : List Path := resolve [] (Text.splitAll '/' p)

def ofSegments (ss : List Path) : Path := '/' :: Text.joinWith ['/'] ss

/-- Normal form, seen from the root whether `p` begins with a slash or not. -/
def normalize (p : Path) : Path := ofSegments (segments p)

def parent (p : Path) : Path :=
  let head := p.take (p.length - (p.reverse.takeWhile (· != '/')).length)
  if head.all (· == '/') then head else (head.reverse.dropWhile (· == '/')).reverse

def name (p : Path) : Path := (p.reverse.takeWhile (· != '/')).reverse

def join (a b : Path) : Path :=
  if b.head? == some '/' then b
  else if a.isEmpty || a.getLast? == some '/' then a ++ b
  else a ++ '/' :: b

def within (p root : Path) : Bool :=
  root == ['/'] || p == root || (root ++ ['/']).isPrefixOf p

end Path
end FileGate
