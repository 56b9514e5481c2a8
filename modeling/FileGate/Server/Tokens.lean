import FileGate.Credential
import FileGate.Server.Asked
import FileGate.Server.Basic
import FileGate.Server.Response

namespace FileGate.Server

variable {τ : Type}

def tokenName (n : Nat) : String := "t" ++ toString n

/-- Forgets a token: a refresh token with its access token, or an access token alone. The cookies go
too if the refresh token came from one and the hint does not speak against it. -/
def serveRevoke (s : Server τ) (r : Asked) : Response × Server τ :=
  if r.mediaType != formType.toList then (.ofStatus 415, s)
  else
    let given := r.field "token"
    if given.isEmpty then (.error "invalid_request" (some "token is absent"), s)
    else
      let token :=
        if given == accessPlaceholder then (r.cookie? "access_token").getD given
        else r.cookieOr given refreshPlaceholder "refresh_token"
      let fromCookie := given == refreshPlaceholder &&
        ((r.cookie? "refresh_token").map (!·.isEmpty)).getD false
      let (revoked, tokens) := s.tokens.revokeRefresh token
      let tokens := if revoked then tokens else (tokens.revokeAccess token).2
      let hint := r.field "token_type_hint"
      let erase := revoked && fromCookie && (hint.isEmpty || hint == "refresh_token")
      let cookies := if erase then [s.tokenPath, s.revokePath].map fun p =>
          ⟨"refresh_token", "", Cookie.pathText p, 0, s.secureCookies⟩
        else []
      ({ status := 200, cookies }, { s with tokens })

variable [LE τ] [DecidableLE τ]
variable [Add τ]

/-- Issues a pair of tokens. Where the client has no path for cookies it gets the tokens themselves,
else cookies for that path and for the paths that renew and revoke tokens. -/
def sendTokens (s : Server τ) (user cookiePath : String) (previous : Option String) :
    Except Breakdown Response × Server τ :=
  let access := tokenName (s.issued + 1)
  let refresh := tokenName (s.issued + 2)
  let tokens := s.tokens.issue ⟨s.accessLife.span, s.refreshLife.span⟩ s.now user previous access
    refresh
  let s' := { s with tokens, issued := s.issued + 2 }
  let body (a r : String) (expires : Int) : Response :=
    { Response.json 200 (Response.sortedFields [("token_type", .text "bearer"),
        ("expires_in", .int expires), ("access_token", .text a), ("refresh_token", .text r)]) with
      headers := [("Cache-Control", "no-store"), ("Pragma", "no-cache")] }
  let cookie (name value : String) (life : Lifetime τ) (path : List Char) :
      Except Breakdown Cookie :=
    match life.dated? s.calendar with
    | some n => .ok ⟨name, value, Cookie.pathText path, n, s.secureCookies⟩
    | none => .error .undated
  let response := do
    match s.accessLife.seconds with
    | none => .error .undated
    | some expires =>
      if cookiePath.isEmpty then return body access refresh expires
      return { body accessPlaceholder refreshPlaceholder expires with
        cookies := [
          ← cookie "access_token" access s.accessLife cookiePath.toList,
          ← cookie "refresh_token" refresh s.refreshLife s.tokenPath,
          ← cookie "access_token" access s.accessLife s.revokePath,
          ← cookie "refresh_token" refresh s.refreshLife s.revokePath] }
  (response, s')

def serveToken (s : Server τ) (r : Asked) : Except Breakdown Response × Server τ :=
  if r.mediaType != formType.toList then (.ok (.ofStatus 415), s)
  else
    let cookiePath := r.field "cookie_path"
    match r.field "grant_type" with
    | "password" =>
      let user := r.field "username"
      if user.isEmpty then
        (.ok (.error "invalid_request" (some "username empty or absent")), s)
      else
        match Assoc.get? user s.users with
        | none => (.ok (.unauthorized "Bearer"), s)
        | some expected =>
          match sameSecret expected (r.field "password") with
          | .error e => (.error e, s)
          | .ok false => (.ok (.unauthorized "Bearer"), s)
          | .ok true => s.sendTokens user cookiePath none
    | "refresh_token" =>
      let token := r.cookieOr (r.field "refresh_token") refreshPlaceholder "refresh_token"
      match s.tokens.checkRefresh s.now token with
      | none => (.ok (.error "invalid_request" (some "refresh token corrupted or absent")), s)
      | some user => s.sendTokens user cookiePath (some token)
    | _ => (.ok (.error "unsupported_grant_type" none), s)

end FileGate.Server
