import FileGate.Client.Basic

namespace FileGate.Client

variable {ω : Type}

def post (net : Network ω) (path : Value) (fields : List (String × Value)) (c : Client ω) :
    Client ω × Except Failure Reply :=
  match c.config.urlFor path.display with
  | .error e => (c, .error e)
  | .ok url =>
    let e : Exchange := ⟨"POST", url, [(contentType, formType)], c.config.timeout, none,
      .form fields, none⟩
    let body := Utf8.encode (Form.encode (fields.map fun (k, v) => (k.toList, v.display)))
    let (c, r) := c.answered net e body
    (c, r.map (·.reply))

def exchange (net : Network ω) (path : Value) (fields : List (String × Value)) (kind : AuthKind)
    (accepted refused : Session.Entries → Session.Entries) (c : Client ω) :
    Client ω × Option Failure :=
  match c.post net path fields with
  | (c, .error e) => (c, some e)
  | (c, .ok r) =>
    if isSuccess r.status then ({ c with entries := accepted c.entries }, none)
    else ({ c with entries := refused c.entries }, some (.auth kind))

def login (net : Network ω) (user password : Value) (c : Client ω) : Client ω × Option Failure :=
  c.exchange net c.config.tokenPath
    [("grant_type", .text "password"), ("username", user), ("password", password),
      ("cookie_path", c.config.cookiePath)] .login Session.mark id

/-- A refusal means that the login has ended. -/
def refresh (net : Network ω) (c : Client ω) : Client ω × Option Failure :=
  c.exchange net c.config.tokenPath
    [("grant_type", .text "refresh_token"), ("refresh_token", c.refreshToken),
      ("cookie_path", c.config.cookiePath)] .tokenRefresh id Session.clear

def logout (net : Network ω) (c : Client ω) : Client ω × Option Failure :=
  c.exchange net c.config.revokePath
    [("token", c.refreshToken), ("hint", .text "access_token")] .logout Session.clear id

def update (fields : List (String × Value)) (c : Client ω) : Client ω × Option Failure :=
  match c.credentials.update fields with
  | .ok credentials => ({ c with credentials }, none)
  | .error e => (c, some e)

end FileGate.Client
