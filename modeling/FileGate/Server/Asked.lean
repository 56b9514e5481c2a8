import FileGate.Form
import FileGate.Reply
import FileGate.Server.Cookie

namespace FileGate

structure Asked where
  method : String
  /-- Path with its escapes resolved. -/
  path : List Char
  headers : Headers
  body : Bytes
  deriving DecidableEq, Repr

namespace Asked

def pathOf (target : List Char) : List Char :=
  Percent.decode (target.takeWhile fun c => c != '?' && c != '#')

def ofRequest (method : String) (target : List Char) (headers : Headers) (body : Bytes) : Asked :=
  ⟨String.ofList (method.toList.map Char.toUpper), pathOf target, headers, body⟩

def values (r : Asked) (name : String) : List String :=
  (r.headers.filter fun (k, _) => lowerText k == lowerText name).map (·.2)

/-- Values of one name are one text. -/
def header? (r : Asked) (name : String) : Option String :=
  match r.values name with
  | [] => none
  | vs => some (String.intercalate ", " vs)

def cookie? (r : Asked) (name : String) : Option String := Cookie.get? name (r.header? "Cookie")

def mediaType (r : Asked) : List Char :=
  let s := ((r.values contentType).headD "").toList
  (Text.trim (s.takeWhile (· != ';'))).map Text.lower

/-- Form fields; none if they are no UTF-8. -/
def form (r : Asked) : List (List Char × List Char) :=
  ((Utf8.decode? r.body).map Form.decode).getD []

def field? (r : Asked) (name : String) : Option String :=
  (Assoc.get? name.toList r.form).map String.ofList

def field (r : Asked) (name : String) : String := (r.field? name).getD ""

/-- What a placeholder stands for: the cookie of that name, unless it is empty or not there. -/
def cookieOr (r : Asked) (value placeholder name : String) : String :=
  if value == placeholder then
    match r.cookie? name with
    | some c => if c.isEmpty then value else c
    | none => value
  else value

end Asked

end FileGate
