import FileGate.Assoc
import FileGate.Form
import FileGate.Upload

namespace FileGate

abbrev Headers := List (String × String)

def contentType : String := "Content-Type"
def formType : String := "application/x-www-form-urlencoded"

inductive Body where
  | nothing
  | bytes (b : Bytes)
  /-- Bytes that their owner could still change. -/
  | buffer (b : Bytes)
  | text (s : String)
  | form (fields : List (Value × Value))
  | data (source : Source)
  | other (v : Value)

inductive Payload where
  | nothing
  | bytes (b : Bytes)
  | buffer (b : Bytes)
  | upload (u : Upload)

namespace Body

def ofValue : Value → Body
  | .null => nothing
  | .text s => text s
  | .blob b => bytes b
  | .map m => form m
  | v => other v

def formText (fields : List (Value × Value)) : List Char :=
  Form.encode ((Value.mergeEntries fields).map fun (k, v) => (k.display, v.display))

/-- Adds a header unless there is one of that very name. -/
def withDefault (name value : String) (h : Headers) : Headers :=
  if Assoc.contains name h then h else Assoc.put name value h

/-- Sends data at once, or in chunks where that is asked for and there are any. -/
def plain (b : Bytes) (whole : Payload) (streaming : Bool) (chunkSize : Int) : Payload :=
  if streaming && !b.isEmpty then .upload ⟨.memory b, chunkSize⟩ else whole

def encode (body : Body) (headers : Headers) (streaming : Bool) (chunkSize : Int) :
    Except Failure (Payload × Headers) :=
  match body with
  | nothing => .ok (.nothing, headers)
  | bytes b => .ok (plain b (.bytes b) streaming chunkSize, headers)
  | buffer b => .ok (plain b (.buffer b) streaming chunkSize, headers)
  | text s =>
    let b := Bytes.ofString s
    .ok (plain b (.bytes b) streaming chunkSize, headers)
  | form fields =>
    let b := Utf8.encode (formText fields)
    .ok (plain b (.bytes b) streaming chunkSize, withDefault contentType formType headers)
  | data s => .ok (.upload ⟨s, chunkSize⟩, headers)
  | other v => .error (.unsupportedBody v.kind)

def source : Body → Source
  | bytes b => .memory b
  | buffer b => .memory b
  | text s => .memory (Bytes.ofString s)
  | data s => s
  | _ => .unreadable

end Body

def defaultChunkSize : Int := 65536

end FileGate
