import FileGate.Assoc

/-! Tokens that a server has issued. They come in pairs: a refresh token, and the access token that
goes with it and does not outlive the refresh token's withdrawal. Times are of any type with an
order and a sum, so that the laws of the store do not hang on the arithmetic of a clock. -/
namespace FileGate

/-- Whom a token stands for, and the time from which it is no longer good. -/
structure Grant (τ : Type) where
  user : String
  expires : τ
  deriving DecidableEq, Repr

structure TokenStore (τ : Type) where
  access : List (String × Grant τ) := []
  refresh : List (String × Grant τ) := []
  pairs : List (String × String) := []
  deriving DecidableEq, Repr

namespace TokenStore

variable {τ : Type}

def dropRefresh (token : String) (s : TokenStore τ) : TokenStore τ :=
  if !Assoc.contains token s.refresh then s
  else
    let access := match Assoc.get? token s.pairs with
      | some a => if a.isEmpty then s.access else Assoc.erase a s.access
      | none => s.access
    ⟨access, Assoc.erase token s.refresh, Assoc.erase token s.pairs⟩

def revokeRefresh (token : String) (s : TokenStore τ) : Bool × TokenStore τ :=
  (Assoc.contains token s.refresh, s.dropRefresh token)

def revokeAccess (token : String) (s : TokenStore τ) : Bool × TokenStore τ :=
  (Assoc.contains token s.access, { s with access := Assoc.erase token s.access })

variable [LE τ] [DecidableLE τ]

def expired (now : τ) (grants : List (String × Grant τ)) : List String :=
  (grants.filter fun (_, g) => decide (g.expires ≤ now)).map (·.1)

/-- Removes what is no longer good, access tokens of refresh tokens that are not among it. -/
def prune (now : τ) (s : TokenStore τ) : TokenStore τ :=
  let s := (expired now s.refresh).foldl (fun s t => s.dropRefresh t) s
  { s with access := (expired now s.access).foldl (fun m t => Assoc.erase t m) s.access }

def valid? (grants : List (String × Grant τ)) (now : τ) (token : String) : Option String :=
  if token.isEmpty then none
  else match Assoc.get? token grants with
    | none => none
    | some g => if g.expires ≤ now then none else some g.user

def checkAccess (s : TokenStore τ) : τ → String → Option String := valid? s.access
def checkRefresh (s : TokenStore τ) : τ → String → Option String := valid? s.refresh

structure Lifetimes (τ : Type) where
  access : τ
  refresh : τ
  deriving DecidableEq, Repr

def issue [Add τ] (life : Lifetimes τ) (now : τ) (user : String) (previous : Option String)
    (access refresh : String) (s : TokenStore τ) : TokenStore τ :=
  let s := s.prune now
  let s := match previous with
    | some p => if p.isEmpty then s else s.dropRefresh p
    | none => s
  ⟨Assoc.put access ⟨user, now + life.access⟩ s.access,
    Assoc.put refresh ⟨user, now + life.refresh⟩ s.refresh,
    Assoc.put refresh access s.pairs⟩

def expireAccess [OfNat τ 0] (s : TokenStore τ) : TokenStore τ :=
  { s with access := s.access.map fun (t, g) => (t, { g with expires := 0 }) }

end TokenStore
end FileGate
