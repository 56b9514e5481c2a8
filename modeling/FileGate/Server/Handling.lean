import FileGate.Config
import FileGate.Server.Files
import FileGate.Server.Tokens

namespace FileGate

namespace Server

variable {τ : Type} [LE τ] [DecidableLE τ] [Add τ]

def serve (s : Server τ) (r : Asked) (e : Route.Endpoint) (rest : List Char) :
    Except Breakdown Response × Server τ :=
  match e with
  | .static => (.ok (.page 404), s)
  | .token => s.serveToken r
  | .revoke => let (a, s) := s.serveRevoke r; (.ok a, s)
  | .files =>
    match s.serveFiles r rest with
    | .ok (a, s) => (.ok a, s)
    | .error e => (.error e, s)

/-- A request from its arrival to the response. One for the options of a path is answered without
the endpoint, and one for the head of a response gets no body. -/
def handle (s : Server τ) (r : Asked) : Response × Server τ :=
  let (a, s) : Response × Server τ := match Route.resolve s.rules r.method r.path with
    | .notFound => (.page 404, s)
    | .notAllowed ms => ({ Response.page 405 with allow := ms.eraseDups }, s)
    | .redirect p => ({ Response.page 308 with headers := [("Location", Route.location p)] }, s)
    | .rule rule rest =>
      if r.method == "OPTIONS" then
        ({ status := 200, allow := Route.allowed s.rules r.path }, s)
      else match s.serve r rule.endpoint rest with
        | (.ok a, s) => (a, s)
        | (.error _, s) => (.page 500, s)
  (if r.method == "HEAD" then { a with body := [] } else a, s)

/-! ### Building a server -/

def rulePath (p : List Char) : Except Failure (List Char) :=
  if p.head? == some '/' then .ok (Route.mergeSlashes p) else .error .badValue

def textOf : Value → Except Failure (List Char)
  | .text s => .ok s.toList
  | .blob _ => .error .wrongType
  | _ => .error .noMember

/-- Rules for static files, which there are none of, for both token endpoints and for the files. The
root of the files is one path with and without a slash at its end. -/
def rulesFor (c : Config) : Except Failure (List Route.Rule) := do
  let root ← c.filesRoot.dropSlashes
  let post := ["OPTIONS", "POST"]
  let all := ["GET", "PUT", "DELETE", "POST", "HEAD", "OPTIONS"]
  let segments (p : List Char) := Text.splitAll '/' p
  let token ← rulePath (← textOf c.tokenPath)
  let revoke ← rulePath (← textOf c.revokePath)
  let files ← rulePath (root ++ ['/'])
  return [
    ⟨.static, ["".toList, "static".toList], true, ["GET", "HEAD", "OPTIONS"], true⟩,
    ⟨.token, segments token, false, post, true⟩,
    ⟨.revoke, segments revoke, false, post, true⟩,
    ⟨.files, segments files, false, all, false⟩,
    ⟨.files, (segments files).dropLast, true, all, true⟩]

end Server
end FileGate
