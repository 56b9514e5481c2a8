import FileGate.Assoc
import FileGate.Percent
import FileGate.Text.Blank

namespace FileGate

structure Cookie where
  name : String
  value : String
  /-- Path below which it is returned, percent-encoded. -/
  path : List Char
  /-- Seconds after which it is no longer returned; with 0 it is dropped at once. -/
  maxAge : Int
  secure : Bool
  deriving DecidableEq, Repr

namespace Cookie

/-- Escapes in a path may be there already and stay as they are. -/
def pathText (path : List Char) : List Char := Percent.encode "%!$&'()*+,/:=@".toList path

def requestPath (path : List Char) : List Char :=
  '/' :: Percent.encode "%!$&'()*+,/:;=@".toList (path.dropWhile (· == '/'))

def isBlank (c : Char) : Bool := c == ' ' || (9 ≤ c.toNat && c.toNat ≤ 13)

def quoted? : List Char → Option (List Char × List Char)
  | [] => none
  | '"' :: s => some ([], s)
  | ['\\'] => none
  | '\\' :: c :: s =>
    if c == '\n' then none else (quoted? s).map fun (t, r) => ('\\' :: c :: t, r)
  | c :: s => (quoted? s).map fun (t, r) => (c :: t, r)

def octal? (a b c : Char) : Option Nat :=
  let digit (x : Char) (top : Nat) : Option Nat :=
    if 48 ≤ x.toNat && x.toNat ≤ 48 + top then some (x.toNat - 48) else none
  do return (← digit a 3) * 64 + (← digit b 7) * 8 + (← digit c 7)

/-- Bytes of a quoted value: a backslash comes before three octal digits or before a byte that
stands for itself. -/
def unescape : List Char → Bytes
  | [] => []
  | '\\' :: a :: b :: c :: s =>
    match octal? a b c with
    | some n => UInt8.ofNat n :: unescape s
    | none => Utf8.encodeChar a ++ unescape (b :: c :: s)
  | '\\' :: a :: s => Utf8.encodeChar a ++ unescape s
  | c :: s => Utf8.encodeChar c ++ unescape s
termination_by s => s.length

def unquote (v : List Char) : List Char :=
  match v with
  | '"' :: s =>
    if s.getLast? == some '"' then Utf8.decodeLossy (unescape s.dropLast) else v
  | _ => v

def takeValue (s : List Char) : List Char × List Char :=
  let plain := (s.takeWhile (· != ';'), (s.dropWhile (· != ';')).drop 1)
  match s with
  | '"' :: r =>
    match quoted? r with
    | some (t, r) =>
      match r.dropWhile isBlank with
      | [] => ('"' :: t ++ ['"'], [])
      | ';' :: r => ('"' :: t ++ ['"'], r)
      | _ => plain
    | none => plain
  | _ => plain

def pairs : Nat → List Char → List (List Char × List Char)
  | 0, _ => []
  | fuel + 1, s =>
    if s.isEmpty then []
    else
      let name := s.takeWhile fun c => c != '=' && c != ';'
      match s.dropWhile fun c => c != '=' && c != ';' with
      | '=' :: r =>
        let (v, r) := takeValue (r.dropWhile isBlank)
        (Text.trim name, unquote (Text.trim v)) :: pairs fuel (r.dropWhile isBlank)
      | r => (Text.trim name, []) :: pairs fuel ((r.drop 1).dropWhile isBlank)

def headerText (s : List Char) : List Char :=
  if s.all (·.toNat < 256) then Utf8.decodeLossy (s.map fun c => UInt8.ofNat c.toNat) else s

/-- Cookies that came with a request. Of several with one name the first counts. -/
def read (header : String) : List (String × String) :=
  let s := headerText header.toList
  ((pairs (s.length + 1) s).filter (!·.1.isEmpty)).map fun (n, v) =>
    (String.ofList n, String.ofList v)

def get? (name : String) (header : Option String) : Option String :=
  Assoc.get? name (read (header.getD ""))

end Cookie

/-- What a client keeps of cookies: values by path and name. -/
abbrev Jar := List ((List Char × String) × String)

namespace Jar

def set (j : Jar) (c : Cookie) : Jar :=
  if c.maxAge = 0 then Assoc.erase (c.path, c.name) j else Assoc.put (c.path, c.name) c.value j

def covers (path target : List Char) : Bool :=
  path == target || (path.isPrefixOf target &&
    (path.getLast? == some '/' || (target.drop path.length).head? == some '/'))

def header? (j : Jar) (target : List Char) : Option String :=
  let l := (j.filter fun ((p, _), _) => covers p target).map fun ((_, n), v) => n ++ "=" ++ v
  if l.isEmpty then none else some (String.intercalate "; " l)

end Jar
end FileGate
