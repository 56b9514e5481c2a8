import FileGate.Client.Basic
import FileGate.Server.Handling

namespace FileGate

structure Site (τ : Type) where
  server : Server τ
  /-- Nothing, if the client keeps no cookies. -/
  jar : Option Jar := some []
  /-- What addresses begin with before their path. -/
  base : List Char := []

namespace Site

variable {τ : Type} [Add τ] [LE τ] [DecidableLE τ]

/-- Headers as they are sent; the jar decides about cookies if there is one. -/
def withCookies (jar : Option Jar) (target : List Char) (h : Headers) : Headers :=
  match jar with
  | none => h
  | some j =>
    let h := h.filter fun e => lowerText e.1 != "cookie".toList
    match j.header? (Cookie.requestPath (Asked.pathOf target)) with
    | some c => h ++ [("Cookie", c)]
    | none => h

def ask (s : Site τ) (method : String) (target : List Char) (headers : Headers) (body : Bytes) :
    Response × Site τ :=
  let (a, server) := s.server.handle
    (.ofRequest method target (withCookies s.jar target headers) body)
  (a, { s with server, jar := s.jar.map fun j => a.cookies.foldl Jar.set j })

def reply (a : Response) : Reply :=
  { status := a.status, reason := a.reason, headers := (contentType, a.type) :: a.headers,
    body := a.body }

def network : Network (Site τ) where
  answer r s :=
    let (a, s) := s.ask r.method (r.url.toList.drop s.base.length) r.headers r.body
    (s, .ok (reply a))
  arrive _ s := s
  stopped _ := false

end Site
end FileGate
