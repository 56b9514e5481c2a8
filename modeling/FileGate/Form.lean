import FileGate.Percent
import FileGate.Text.Blank

namespace FileGate.Form

def encodeChar (c : Char) : List Char := if c == ' ' then ['+'] else Percent.encodeChar [] c

def encodeText (s : List Char) : List Char := s.flatMap encodeChar

def encodeField (f : List Char × List Char) : List Char := encodeText f.1 ++ '=' :: encodeText f.2

def encode (fields : List (List Char × List Char)) : List Char :=
  Text.joinWith ['&'] (fields.map encodeField)

def plusToBlank (c : Char) : Char := if c == '+' then ' ' else c

def decodeText (s : List Char) : List Char := Percent.decodeKeeping (s.map plusToBlank)

/-- A piece without an equals sign is a name with an empty value. -/
def decodeField (s : List Char) : List Char × List Char :=
  let (k, v) := Text.cut '=' s
  (decodeText k, decodeText v)

def decode (s : List Char) : List (List Char × List Char) :=
  ((Text.splitAll '&' s).filter (!·.isEmpty)).map decodeField

end FileGate.Form
