import FileGate.Body
import FileGate.Json.Writer
import FileGate.Server.Cookie
import FileGate.Tree.FileTree

namespace FileGate

structure Response where
  status : Nat
  type : String := "text/html; charset=utf-8"
  body : Bytes := []
  headers : Headers := []
  /-- Methods that are allowed, where that is said. -/
  allow : List String := []
  cookies : List Cookie := []
  deriving DecidableEq, Repr

namespace Response

def ofStatus (n : Nat) : Response := { status := n }

/-- A page for people; what it says is of no account. -/
def page (n : Nat) : Response := { status := n, body := Bytes.ofString "html" }

def octets (b : Bytes) : Response :=
  { status := 200, type := "application/octet-stream", body := b }

def json (status : Nat) (v : Value) : Response :=
  { status, type := "application/json", body := Utf8.encode (Json.write Json.compact v ++ ['\n']) }

def sortedFields (l : List (String × Value)) : Value :=
  Value.ofFields (l.mergeSort fun a b => Path.le a.1.toList b.1.toList)

def error (name : String) (description : Option String) : Response :=
  json 400 (sortedFields (("error", .text name) ::
    (match description with
      | some d => [("description", .text d)]
      | none => [])))

def unauthorized (challenge : String) : Response :=
  { status := 401, type := "text/plain; charset=utf-8", body := Bytes.ofString "Unauthorized\n",
    headers := [("WWW-Authenticate", challenge)] }

def entryValue (e : Entry) : Value :=
  sortedFields [("name", .text (String.ofList e.name)),
    ("type", .text (match e.kind with
      | .dir => "dir"
      | .file => "file")),
    ("size", .int e.size)]

def listing (l : List Entry) : Response := json 200 (.list (l.map entryValue))

def phrases : List (Nat × String) :=
  [(200, "OK"), (201, "CREATED"), (204, "NO CONTENT"), (308, "PERMANENT REDIRECT"),
    (400, "BAD REQUEST"), (401, "UNAUTHORIZED"), (404, "NOT FOUND"), (405, "METHOD NOT ALLOWED"),
    (409, "CONFLICT"), (415, "UNSUPPORTED MEDIA TYPE"), (500, "INTERNAL SERVER ERROR")]

def reason (r : Response) : String := (Assoc.get? r.status phrases).getD "UNKNOWN"

end Response
end FileGate
