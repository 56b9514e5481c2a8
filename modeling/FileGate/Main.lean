import FileGate.CommandLine
import FileGate.Json.Writer

namespace FileGate.CommandLine

def Share.value (s : Share) : Value :=
  .ofFields [("path", .text s.path), ("password", (s.password.map Value.text).getD .null)]

def summary (a : Arguments) : Value :=
  .ofFields [("host", .text a.host), ("port", .int a.port),
    ("users", .ofFields ((users a).map fun (u, p) => (u, .text p))),
    ("shares", .ofFields ((shares a).map fun (i, s) => (i, s.value))),
    ("access_timeout", .float a.accessTimeout), ("refresh_timeout", .float a.refreshTimeout)]

def usage : String :=
  "usage: [-h] [--host HOST] [--port PORT] [--user NAME:PASSWORD] [--share ID:PATH[:PASSWORD]]" ++
    " [--access-timeout SECONDS] [--refresh-timeout SECONDS]"

end FileGate.CommandLine

open FileGate in
def main (words : List String) : IO UInt32 := do
  match CommandLine.read words with
  | .ok a =>
    (← IO.getStdout).putStrLn (String.ofList (Json.write Json.spaced (CommandLine.summary a)))
    return 0
  | .error stop =>
    (← if stop = .help then IO.getStdout else IO.getStderr).putStrLn CommandLine.usage
    return UInt32.ofNat stop.code
