import FileGate.Client.Call
import FileGate.Server.MoveAction
import FileGate.Tree.Path

namespace FileGate.Client

variable {ω : Type}

def filePath (c : Client ω) (path : List Char) : Except Failure String :=
  c.config.filesRoot.dropSlashes.map fun root => String.ofList (root ++ path)

def fetchFile (net : Network ω) (path : List Char) (o : Options ω) (c : Client ω) :
    Client ω × Except Failure Received :=
  match c.filePath path with
  | .error e => (c, .error e)
  | .ok p => c.fetch net p o

def mkdir (net : Network ω) (path : String) (c : Client ω) : Client ω × Except Failure Received :=
  c.fetchFile net path.toList { method := "PUT", headers := [("X-FZ-Action", "mkdir")] }

def remove (net : Network ω) (path : String) (recursive : Bool) (c : Client ω) :
    Client ω × Except Failure Received :=
  c.fetchFile net path.toList
    { method := "DELETE", headers := if recursive then [("X-FZ-Recursive", "true")] else [] }

def before (path : Path) : Path := path.take (path.length - (Path.name path).length - 1)

/-- The directory is asked to move what is in it under the name. -/
def rename (net : Network ω) (source target : String) (c : Client ω) :
    Client ω × Except Failure Received :=
  match ensureAbsolute source with
  | .error e => (c, .error e)
  | .ok _ =>
    let action := MoveAction.write (Path.name source.toList) target.toList
    c.fetchFile net (before source.toList)
      { method := "POST", headers := [("X-FZ-Action", String.ofList action)] }

def uploadOptions (net : Network ω) (body : Body)
    (progress : Option (Float → ω → ω × Option Failure)) (recovery : Option (Recovery ω)) :
    Options ω :=
  { method := "PUT", headers := [(contentType, "application/octet-stream")], body, progress,
    recovery := some (recovery.getD (refresh net)) }

def upload (net : Network ω) (path : List Char) (body : Body)
    (progress : Option (Float → ω → ω × Option Failure)) (recovery : Option (Recovery ω))
    (c : Client ω) : Client ω × Except Failure Outcome :=
  match c.filePath path with
  | .error e => (c, .error e)
  | .ok p => c.waited net p (uploadOptions net body progress recovery)

end FileGate.Client
