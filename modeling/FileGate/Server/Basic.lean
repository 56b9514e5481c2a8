import FileGate.Decimal.Binary
import FileGate.Server.Route
import FileGate.Server.TokenStore
import FileGate.Tree.FileTree

namespace FileGate

/-- How many seconds from now the first and the last date are that can be written. -/
structure Calendar where
  first : Int := -63900000000
  last : Int := 251600000000
  deriving DecidableEq, Repr

/-- A span of time, and its whole seconds if there are any to speak of. -/
structure Lifetime (τ : Type) where
  span : τ
  seconds : Option Int
  deriving DecidableEq, Repr

namespace Lifetime

def ofFloat (x : Float) : Lifetime Float := ⟨x, Decimal.truncate? x⟩
def ofInt (n : Int) : Lifetime Float := ⟨(Decimal.ofInt? n).getD 0.0, some n⟩

def dated? {τ : Type} (l : Lifetime τ) (c : Calendar) : Option Int :=
  l.seconds.bind fun n => if c.first ≤ n && n ≤ c.last then some n else none

end Lifetime

structure Shared where
  path : Option String := none
  password : Option String := none
  deriving DecidableEq, Repr

structure Server (τ : Type) where
  users : List (String × String) := []
  shares : List (String × Shared) := []
  accessLife : Lifetime τ
  refreshLife : Lifetime τ
  calendar : Calendar := {}
  secureCookies : Bool := false
  tokenPath : List Char
  revokePath : List Char
  rules : List Route.Rule
  now : τ
  issued : Nat := 0
  tokens : TokenStore τ := {}
  tree : FileTree := {}

inductive Breakdown where
  | uncomparable
  | undated
  | unwritable
  deriving DecidableEq, Repr

/-- Secrets are compared in constant time, which works on ASCII only. -/
def sameSecret (a b : String) : Except Breakdown Bool :=
  if a.toList.all (·.toNat < 128) && b.toList.all (·.toNat < 128) then .ok (a == b)
  else .error .uncomparable

end FileGate
