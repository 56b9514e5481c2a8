/-! Code points. A text may hold halves of surrogate pairs besides characters. A half by itself is no
character, and has no form in UTF-8. -/
namespace FileGate

inductive Point where
  | char (c : Char)
  -- each half has ten bits of its pair
  | high (bits : Fin 1024)
  | low (bits : Fin 1024)
  deriving DecidableEq

abbrev Points := List Point

instance : Coe String Points := ⟨fun s => s.toList.map .char⟩

namespace Point

def code : Point → Nat
  | char c => c.toNat
  | high b => 0xD800 + b
  | low b => 0xDC00 + b

def ofUnit (n : Nat) : Point :=
  if h : 0xD800 ≤ n ∧ n < 0xDC00 then high ⟨n - 0xD800, by omega⟩
  else if h : 0xDC00 ≤ n ∧ n < 0xE000 then low ⟨n - 0xDC00, by omega⟩
  else char (Char.ofNat n)

def isHalf : Point → Bool
  | char _ => false
  | _ => true

/-- The character that a half is shown as is the one for what cannot be shown. -/
def shown : Point → Char
  | char c => c
  | _ => Char.ofNat 0xFFFD

end Point

/-- A text with a half in it. -/
structure BrokenText where
  points : Points
  broken : points.any Point.isHalf = true
  deriving DecidableEq

end FileGate
