import FileGate.Assoc
import FileGate.Bytes
import FileGate.Tree.Path

namespace FileGate

structure FileTree where
  dirs : List Path := [['/']]
  files : List (Path × Bytes) := []
  deriving DecidableEq, Repr

inductive EntryKind where
  | dir
  | file
  deriving DecidableEq, Repr

structure Entry where
  name : Path
  kind : EntryKind
  size : Nat
  deriving DecidableEq, Repr

inductive Change where
  | created
  | done
  /-- What it was about, or the directory for it, is not there. -/
  | missing
  /-- Something else is in the way. -/
  | conflict
  deriving DecidableEq, Repr

def Change.status : Change → Nat
  | created => 201
  | done => 204
  | missing => 404
  | conflict => 409

namespace Path

def le : Path → Path → Bool
  | [], _ => true
  | _ :: _, [] => false
  | a :: p, b :: q => if a = b then le p q else a.toNat < b.toNat

def below (p : Path) : Path := (p.reverse.dropWhile (· == '/')).reverse ++ ['/']

end Path

namespace FileTree

def isDir (t : FileTree) (p : Path) : Bool := t.dirs.contains p
def isFile (t : FileTree) (p : Path) : Bool := Assoc.contains p t.files

def read (t : FileTree) (p : Path) : Option Bytes := Assoc.get? p t.files

def paths (t : FileTree) : List Path := t.dirs ++ (Assoc.keys t.files).filter fun p => !t.isDir p

def children (t : FileTree) (p : Path) : List Path :=
  let head := Path.below p
  t.paths.filter fun q => q != p && head.isPrefixOf q && !(q.drop head.length).contains '/'

def entry (t : FileTree) (p : Path) : Entry :=
  ⟨Path.name p, if t.isDir p then .dir else .file, ((t.read p).getD []).length⟩

def listing (t : FileTree) (p : Path) : Option (List Entry) :=
  if t.isDir p then some (((t.children p).mergeSort Path.le).map t.entry) else none

def mkdir (t : FileTree) (p : Path) : Change × FileTree :=
  if t.isDir p || t.isFile p then (.conflict, t)
  else if !t.isDir (Path.parent p) then (.missing, t)
  else (.created, { t with dirs := t.dirs ++ [p] })

def write (t : FileTree) (p : Path) (b : Bytes) : Change × FileTree :=
  if t.isDir p then (.conflict, t)
  else if !t.isDir (Path.parent p) then (.missing, t)
  else (if t.isFile p then .done else .created, { t with files := Assoc.put p b t.files })

def nested (p q : Path) : Bool := (p ++ ['/']).isPrefixOf q

def remove (t : FileTree) (p : Path) (recursive : Bool) : Change × FileTree :=
  if t.isFile p then (.done, { t with files := Assoc.erase p t.files })
  else if p == ['/'] then (.conflict, t)
  else if !t.isDir p then (.missing, t)
  else if t.paths.any (nested p) && !recursive then (.conflict, t)
  else (.done, ⟨t.dirs.filter fun q => q != p && !nested p q,
    t.files.filter fun e => !nested p e.1⟩)

/-- Where a path is once `source` is at `target`. -/
def moved (source target p : Path) : Path :=
  if p == source || nested source p then target ++ p.drop source.length else p

def move (t : FileTree) (source target : Path) : Change × FileTree :=
  if !t.isFile source && (!t.isDir source || source == ['/']) then (.missing, t)
  else if t.isFile target || t.isDir target then (.conflict, t)
  else if !t.isDir (Path.parent target) then (.missing, t)
  else match t.read source with
    | some b => (.done, { t with files := Assoc.put target b (Assoc.erase source t.files) })
    | none =>
      if nested source target then (.conflict, t)
      else (.done, ⟨(t.dirs.map (moved source target)).eraseDups,
        Assoc.ofList (t.files.map fun e => (moved source target e.1, e.2))⟩)

end FileTree
end FileGate
