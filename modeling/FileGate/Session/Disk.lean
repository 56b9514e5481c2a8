import FileGate.Failure
import FileGate.Tree.FileTree

namespace FileGate

abbrev Disk := FileTree

namespace Disk

def locate (path : String) : Path := Path.normalize path.toList

def exists? (d : Disk) (path : String) : Bool := d.isDir (locate path) || d.isFile (locate path)

def read (d : Disk) (path : String) : Except Failure Bytes :=
  match FileTree.read d (locate path) with
  | some b => .ok b
  | none => .error (if d.isDir (locate path) then .isDirectory else .notFound)

def write (d : Disk) (path : String) (b : Bytes) : Except Failure Disk :=
  match FileTree.write d (locate path) b with
  | (.created, d) => .ok d
  | (.done, d) => .ok d
  | (.missing, _) => .error .notFound
  | (.conflict, _) => .error .isDirectory

def makeDirs (d : Disk) (p : Path) : Disk :=
  let ss := Path.segments p
  (List.range (ss.length + 1)).foldl (fun d n => (d.mkdir (Path.ofSegments (ss.take n))).2) d

def makeParent (d : Disk) (path : String) : Disk := d.makeDirs (Path.parent (locate path))

end Disk
end FileGate
