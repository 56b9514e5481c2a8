import FileGate.Failure
import FileGate.Text.Utf8

/-! Uploads: data that is sent in chunks and can be sent again as far as its source allows it. One
pass over an upload hands its chunks to a receiver, who may stop it between two chunks and is told
how far it has come. -/
namespace FileGate

/-- A text file, by what its reads yield and the end that it reports: characters are counted for a
text in memory, stored bytes for one on disk. -/
structure TextFile where
  content : List Char
  size : Nat
  bare : size = 0 → content = []

def TextFile.inMemory (s : List Char) : TextFile := ⟨s, s.length, List.eq_nil_of_length_eq_zero⟩

instance : Coe (List Char) TextFile := ⟨.inMemory⟩

inductive Source where
  | memory (b : Bytes)
  /-- A file that is read from its beginning on each pass. -/
  | file (b : Bytes)
  /-- The same for text; it is cut in characters and sent as UTF-8. -/
  | textFile (f : TextFile)
  /-- A stream that yields these pieces in turn and cannot go back. An empty piece ends a pass, and
  so does the end of the pieces. -/
  | stream (pieces : List Bytes)
  /-- A stream that claims to go back to its beginning and cannot. -/
  | pipe
  /-- A thing that cannot be read at all. -/
  | unreadable

namespace Source

def size? : Source → Option Nat
  | memory b => some b.length
  | file b => some b.length
  | textFile f => some f.size
  | _ => none

/-- What a file yields in pieces of `n`: everything at once for a negative `n`, nothing for 0. -/
def readAll {α : Type} (n : Int) (l : List α) : List (List α) :=
  if n < 0 then blocks l.length l else blocks n.toNat l

def chunks (n : Int) : Source → Except Failure (List Bytes)
  | memory b => if n = 0 then .error .badValue else .ok (blocks n.toNat b)
  | file b => .ok (readAll n b)
  | textFile f => .ok ((readAll n f.content).map Utf8.encode)
  | stream pieces => .ok (pieces.takeWhile (!·.isEmpty))
  | pipe => .error .notSeekable
  | unreadable => .error .noMember

/-- What is left for later passes after `taken` chunks, or after all of them and the end that
followed. -/
def after (taken : Nat) (ended : Bool) : Source → Source
  | stream pieces => stream (pieces.drop (if ended then taken + 1 else taken))
  | s => s

end Source

structure Upload where
  source : Source
  chunkSize : Int

/-- Whoever takes the chunks of an upload. `stopped` is asked before each chunk; `progress` is told
the percentage after it, and may fail. -/
structure Receiver (σ : Type) where
  stopped : σ → Bool
  receive : Bytes → σ → σ
  progress : Option (Float → σ → σ × Option Failure)

/-- What came of a pass: the chunks received and their length, the failure that ended it if one did,
the receiver's state, and how many chunks were taken from the source. -/
structure Pass (σ : Type) where
  received : List Bytes
  loaded : Nat
  failure : Option Failure
  state : σ
  taken : Nat

def percentage (loaded total : Nat) : Float := Float.ofNat loaded / Float.ofNat total * 100.0

def Receiver.tell {σ : Type} (r : Receiver σ) (total : Option Nat) (loaded : Nat) (s : σ) :
    σ × Option Failure :=
  match r.progress, total with
  | some f, some (t + 1) => f (percentage loaded (t + 1)) s
  | _, _ => (s, none)

/-- Hands over the chunks in turn, `loaded` bytes being there already. A chunk that is not received
because the receiver stopped has been taken from the source all the same. -/
def Receiver.run {σ : Type} (r : Receiver σ) (total : Option Nat) (loaded : Nat) (s : σ) :
    List Bytes → Pass σ
  | [] => ⟨[], loaded, none, s, 0⟩
  | c :: cs =>
    if r.stopped s then ⟨[], loaded, some .abortedNow, s, 1⟩
    else
      let loaded := loaded + c.length
      match r.tell total loaded (r.receive c s) with
      | (s, some e) => ⟨[c], loaded, some e, s, 1⟩
      | (s, none) =>
        let p := r.run total loaded s cs
        { p with received := c :: p.received, taken := p.taken + 1 }

namespace Upload

def total (u : Upload) : Option Nat := u.source.size?

def length (u : Upload) : Nat := u.total.getD 0

def pass {σ : Type} (u : Upload) (r : Receiver σ) (s : σ) : Pass σ × Upload :=
  match u.source.chunks u.chunkSize with
  | .error e => (⟨[], 0, some e, s, 0⟩, u)
  | .ok cs =>
    let p := r.run u.total 0 s cs
    (p, { u with source := u.source.after p.taken p.failure.isNone })

end Upload
end FileGate
