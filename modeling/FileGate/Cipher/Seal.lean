import FileGate.Base64
import FileGate.Cipher.Aes
import FileGate.Cipher.Sha256
import FileGate.Text.Utf8

/-! Sealed data: encrypted, and signed so that no change goes unnoticed. A sealed text is in the
Base64 of addresses and holds a version, a time, a start value, the encrypted data and a keyed
digest of all that. -/
namespace FileGate

structure Seal where
  close : Bytes → Bytes
  open? : Bytes → Option Bytes

namespace Seal

structure Keys where
  sign : Bytes
  encrypt : Bytes
  deriving DecidableEq, Repr

def Keys.ofSecret (secret : String) : Keys :=
  let d := Sha256.digest (Bytes.ofString secret)
  ⟨d.take 16, d.drop 16⟩

def pad (b : Bytes) : Bytes :=
  let n := 16 - b.length % 16
  b ++ List.replicate n (UInt8.ofNat n)

def unpad? (b : Bytes) : Option Bytes :=
  match b.getLast? with
  | none => none
  | some x =>
    let n := x.toNat
    let keep := b.length - n
    if 0 < n && n ≤ 16 && b.length % 16 = 0 && b.drop keep == List.replicate n x then
      some (b.take keep)
    else none

def version : UInt8 := 0x80

/-- Seals at a given time with a given start value of 16 bytes. -/
def closeAt (k : Keys) (time : Nat) (start message : Bytes) : Bytes :=
  let head := version :: Bytes.ofNat 8 time ++ start ++ Aes.encrypt k.encrypt start (pad message)
  Utf8.encode (Base64.encodeUrlSafe (head ++ Sha256.keyed k.sign head))

def openWith? (k : Keys) (sealed : Bytes) : Option Bytes := do
  let data ← Base64.decodeUrlSafe? (sealed.map fun b => Char.ofNat b.toNat)
  let size := data.length - 32
  let head := data.take size
  if data.head? != some version || data.length < 9 then none
  else if data.drop size != Sha256.keyed k.sign head then none
  else if head.length < 25 || head.length % 16 != 9 then none
  else unpad? (Aes.decrypt k.encrypt ((head.drop 9).take 16) (head.drop 25))

/-- The seal of a secret. Its time and start value are always zero, so that equal data are equal
when sealed. -/
def ofSecret (secret : String) : Seal :=
  let k := Keys.ofSecret secret
  ⟨closeAt k 0 (List.replicate 16 0), openWith? k⟩

end Seal
end FileGate
