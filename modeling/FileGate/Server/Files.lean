import FileGate.Credential
import FileGate.Server.Asked
import FileGate.Server.Basic
import FileGate.Server.MoveAction
import FileGate.Server.Response

namespace FileGate

def sharePart? (rest : List Char) : Option (List Char) :=
  let word := "shares/".toList
  if word.isPrefixOf rest && word.length < rest.length then some (rest.drop word.length) else none

namespace Server

variable {τ : Type}

def serveRead (t : FileTree) (p : Path) : Response :=
  match t.read p with
  | some b => .octets b
  | none =>
    match t.listing p with
    | some l => .listing l
    | none => .ofStatus 404

/-- Whether a request may read from a share: there is no password, or it comes with Basic
credentials that hold it. -/
def admits (share : Shared) (r : Asked) : Except Breakdown Bool :=
  let password := share.password.getD ""
  let (scheme, credentials) := Authorization.parse (r.header? "Authorization")
  let decoded := if scheme == "Basic" then Authorization.decodeBasic? credentials else none
  if password.isEmpty then .ok true
  else match decoded with
    | none => .ok false
    | some (_, p) => sameSecret p password

/-- Asks for the password of a share. A header with the end of a line in it cannot be written. -/
def challenge (id : List Char) : Except Breakdown Response :=
  if id.any fun c => c == '\n' || c == '\r' then .error .unwritable
  else .ok (.unauthorized ("Basic realm=\"Password needed for " ++ String.ofList id ++ "\""))

/-- Reads from a share. Its own password opens it; whatever is asked for, nothing outside the shared
directory is read. -/
def serveShare (s : Server τ) (r : Asked) (part : List Char) : Except Breakdown Response :=
  let (id, rest) := Text.cut '/' part
  match Assoc.get? (String.ofList id) s.shares with
  | none => .ok (.ofStatus 404)
  | some share =>
    if r.method != "GET" then .ok { status := 405, allow := ["GET"] }
    else match admits share r with
      | .error e => .error e
      | .ok false => challenge id
      | .ok true =>
        let path := share.path.getD ""
        let root := Path.normalize (if path.isEmpty then ['/'] else path.toList)
        let target := Path.normalize (Path.join root rest)
        if Path.within target root then .ok (serveRead s.tree target) else .ok (.ofStatus 404)

variable [LE τ] [DecidableLE τ]

def user? (s : Server τ) (r : Asked) : Option String :=
  let (scheme, token) := Authorization.parse (r.header? "Authorization")
  if scheme != "Bearer" then none
  else s.tokens.checkAccess s.now (r.cookieOr token accessPlaceholder "access_token")

def change (s : Server τ) (c : Change × FileTree) : Response × Server τ :=
  (.ofStatus c.1.status, { s with tree := c.2 })

def serveMove (s : Server τ) (path : Path) (action : List Char) : Response × Server τ :=
  match MoveAction.read? action with
  | none => (.error "invalid_request" (some "unsupported action"), s)
  | some (source, target) =>
    let source := Path.normalize (Path.join path (Percent.decode source))
    let target := Percent.decode (Text.trim target)
    s.change (s.tree.move source (Path.normalize (Path.join path target)))

def serveFiles (s : Server τ) (r : Asked) (rest : List Char) :
    Except Breakdown (Response × Server τ) :=
  match sharePart? rest with
  | some part => (s.serveShare r part).map fun a => (a, s)
  | none =>
    if (s.user? r).isNone then .ok (.unauthorized "Bearer", s)
    else
      let path := Path.normalize rest
      let action := (r.header? "X-FZ-Action").getD ""
      match r.method with
      | "GET" => .ok (serveRead s.tree path, s)
      | "PUT" =>
        .ok (s.change (if action == "mkdir" then s.tree.mkdir path else s.tree.write path r.body))
      | "DELETE" =>
        let recursive := (r.header? "X-FZ-Recursive").map lowerText == some "true".toList
        .ok (s.change (s.tree.remove path recursive))
      | _ => .ok (s.serveMove path action.toList)

end Server
end FileGate
