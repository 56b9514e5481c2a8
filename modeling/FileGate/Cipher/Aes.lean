import FileGate.Bytes

namespace FileGate.Aes

def double (a : UInt8) : UInt8 := (a <<< 1) ^^^ (if a &&& 0x80 == 0 then 0 else 0x1b)

def mulBits : Nat → UInt8 → UInt8 → UInt8
  | 0, _, _ => 0
  | n + 1, a, b => (if b &&& 1 == 0 then 0 else a) ^^^ mulBits n (double a) (b >>> 1)

def mul (a b : UInt8) : UInt8 := mulBits 8 a b

def power (a : UInt8) : Nat → UInt8
  | 0 => 1
  | n + 1 => mul a (power a n)

def rotate (a n : UInt8) : UInt8 := (a <<< n) ||| (a >>> (8 - n))

/-- Substitution of a byte: its inverse in the field, or zero, under an affine map. -/
def substitute (a : UInt8) : UInt8 :=
  let b := power a 254
  b ^^^ rotate b 1 ^^^ rotate b 2 ^^^ rotate b 3 ^^^ rotate b 4 ^^^ 0x63

def allBytes : List UInt8 := (List.range 256).map UInt8.ofNat

def box : Array UInt8 := (allBytes.map substitute).toArray

def inverseBox : Array UInt8 :=
  allBytes.foldl (fun t a => t.setIfInBounds (substitute a).toNat a) (Array.replicate 256 0)

def sub (a : UInt8) : UInt8 := box.getD a.toNat 0
def unsub (a : UInt8) : UInt8 := inverseBox.getD a.toNat 0

def xor (a b : Bytes) : Bytes := List.zipWith (· ^^^ ·) a b

/-- The next round key: its first word from the last word of this one, turned by a byte. -/
def nextKey (constant : UInt8) : Bytes → Bytes
  | [a, b, c, d, e, f, g, h, i, j, k, l, m, n, o, p] =>
    let w0 := [a ^^^ sub n ^^^ constant, b ^^^ sub o, c ^^^ sub p, d ^^^ sub m]
    let w1 := xor w0 [e, f, g, h]
    let w2 := xor w1 [i, j, k, l]
    w0 ++ w1 ++ w2 ++ xor w2 [m, n, o, p]
  | key => key

def keysFrom : Nat → UInt8 → Bytes → List Bytes
  | 0, _, _ => []
  | n + 1, constant, key => key :: keysFrom n (double constant) (nextKey constant key)

def roundKeys (key : Bytes) : List Bytes := keysFrom 11 1 key

def shiftRows : Bytes → Bytes
  | [a, b, c, d, e, f, g, h, i, j, k, l, m, n, o, p] =>
    [a, f, k, p, e, j, o, d, i, n, c, h, m, b, g, l]
  | b => b

def unshiftRows : Bytes → Bytes
  | [a, b, c, d, e, f, g, h, i, j, k, l, m, n, o, p] =>
    [a, n, k, h, e, b, o, l, i, f, c, p, m, j, g, d]
  | b => b

def mixColumns (p q r s : UInt8) : Bytes → Bytes
  | a :: b :: c :: d :: rest =>
    (mul p a ^^^ mul q b ^^^ mul r c ^^^ mul s d) ::
    (mul s a ^^^ mul p b ^^^ mul q c ^^^ mul r d) ::
    (mul r a ^^^ mul s b ^^^ mul p c ^^^ mul q d) ::
    (mul q a ^^^ mul r b ^^^ mul s c ^^^ mul p d) :: mixColumns p q r s rest
  | _ => []

def mix : Bytes → Bytes := mixColumns 2 3 1 1
def unmix : Bytes → Bytes := mixColumns 14 11 13 9

def rounds (b : Bytes) : List Bytes → Bytes
  | [] => b
  | [k] => xor (shiftRows (b.map sub)) k
  | k :: ks => rounds (xor (mix (shiftRows (b.map sub))) k) ks

def encryptBlock (keys : List Bytes) (b : Bytes) : Bytes :=
  rounds (xor b (keys.headD [])) (keys.drop 1)

def unround (b k : Bytes) : Bytes := (unshiftRows (unmix (xor b k))).map unsub

def decryptBlock (keys : List Bytes) (b : Bytes) : Bytes :=
  match keys.reverse with
  | [] => b
  | last :: ks =>
    let b := (unshiftRows (xor b last)).map unsub
    xor (ks.dropLast.foldl unround b) (ks.getLastD [])

def encryptChain (keys : List Bytes) (before : Bytes) : List Bytes → Bytes
  | [] => []
  | b :: bs =>
    let c := encryptBlock keys (xor b before)
    c ++ encryptChain keys c bs

def decryptChain (keys : List Bytes) (before : Bytes) : List Bytes → Bytes
  | [] => []
  | c :: cs => xor (decryptBlock keys c) before ++ decryptChain keys c cs

/-- Each block is mixed with the one before it, the first one with `start`. -/
def encrypt (key start message : Bytes) : Bytes :=
  encryptChain (roundKeys key) start (blocks 16 message)

def decrypt (key start message : Bytes) : Bytes :=
  decryptChain (roundKeys key) start (blocks 16 message)

end FileGate.Aes
