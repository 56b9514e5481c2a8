import FileGate.Body
import FileGate.Json.Reader
import FileGate.Text.Case
import FileGate.Text.Charset

namespace FileGate

def lowerText (s : String) : List Char := s.toList.map Text.lower

def header? (name : String) (h : Headers) : Option String :=
  (h.reverse.find? fun (k, _) => lowerText k == lowerText name).map (·.2)

def isSuccess (status : Int) : Bool := 200 ≤ status && status < 300

structure Reply where
  status : Int
  reason : String := ""
  headers : Headers := []
  body : Bytes := []
  deriving DecidableEq, Repr

namespace Reply

def strip (marks s : List Char) : List Char :=
  ((s.dropWhile marks.contains).reverse.dropWhile marks.contains).reverse

def parameter (s : List Char) : List Char × Option (List Char) :=
  let marks := "\"' ".toList
  match Text.cut? '=' s with
  | some (k, v) => ((strip marks k).map Text.lower, some (strip marks v))
  | none => (s.map Text.lower, none)

def contains (word : List Char) : List Char → Bool
  | [] => word.isEmpty
  | c :: s => word.isPrefixOf (c :: s) || contains word s

/-- Name of the character set: the one declared, else what the media type implies. -/
def charsetName (r : Reply) : Except Failure (Option (List Char)) :=
  match header? contentType r.headers with
  | none => .ok none
  | some "" => .ok none
  | some s =>
    let parts := Text.splitAll ';' s.toList
    let media := Text.trim (parts.headD [])
    let params := ((parts.drop 1).map Text.trim).filter (!·.isEmpty)
    match (params.map parameter).reverse.find? (·.1 == "charset".toList) with
    | some (_, some v) => .ok (some (strip "'\"".toList v))
    | some (_, none) => .error .noMember
    | none =>
      if contains "text".toList media then .ok (some "ISO-8859-1".toList)
      else if contains "application/json".toList media then .ok (some "utf-8".toList)
      else .ok none

/-- The text in the named character set; in UTF-8 if there is no such set. -/
def textIn (name : Option (List Char)) (b : Bytes) : List Char :=
  let set := (name.bind fun n => Charset.ofName? (String.ofList n)).getD .utf8
  set.decode b

def text (r : Reply) : Except Failure (List Char) := r.charsetName.map fun n => textIn n r.body

def readJson (s : List Char) : Except Failure Value :=
  match Json.read s with
  | .ok v => .ok v
  | .error .malformed => .error .badJson
  | .error .tooLong => .error .badValue

/-- Without a character set it is told from the first bytes, as long as there are more than three
and all of them fit it. -/
def json (r : Reply) : Except Failure Value := do
  if r.body.isEmpty then return .null
  let name ← r.charsetName
  let told := if (name.getD []).isEmpty && 3 < r.body.length then
      (Charset.ofJson? r.body).bind fun k => k.decodeStrict? r.body
    else none
  readJson (told.getD (textIn name r.body))

end Reply

inductive ResultKind where
  | bytes
  | text
  | json
  | reply
  deriving DecidableEq, Repr

namespace ResultKind

def ofName? : String → Option ResultKind
  | "bytes" => some bytes
  | "text" => some text
  | "json" => some json
  | "response" => some reply
  | _ => none

end ResultKind

inductive Result where
  | value (v : Value)
  | reply (r : Reply)

namespace Reply

def result (r : Reply) : ResultKind → Except Failure Result
  | .bytes => .ok (.value (.blob r.body))
  | .text => r.text.map fun s => .value (.text (String.ofList s))
  | .json => r.json.map .value
  | .reply => .ok (.reply r)

end Reply
end FileGate
