import Mathlib.Logic.Function.Basic
import FileGate.Proofs.Server.Grants

/-! Renewals that run side by side. A renewal looks at its refresh token and later issues a new pair;
each of the two is done at one stroke, but others may come between them. -/
namespace FileGate.Server

/-- A pair that was issued, and the answer that it went into. -/
structure Renewal (τ : Type) where
  time : τ
  user : String
  refresh : String
  answer : Except Breakdown Response

inductive Phase (τ : Type) where
  | waiting
  | refused
  | found (user : String)
  | renewed (n : Renewal τ)

def Phase.user? {τ : Type} : Phase τ → Option String
  | waiting => none
  | refused => none
  | found user => some user
  | renewed n => some n.user

def Phase.ofCheck {τ : Type} : Option String → Phase τ
  | none => refused
  | some user => found user

@[simp] theorem Phase.user?_found {τ : Type} (user : String) :
    (Phase.found user : Phase τ).user? = some user := rfl

@[simp] theorem Phase.user?_renewed {τ : Type} (n : Renewal τ) :
    (Phase.renewed n).user? = some n.user := rfl

@[simp] theorem Phase.user?_ofCheck {τ : Type} (o : Option String) :
    (Phase.ofCheck o : Phase τ).user? = o := by
  cases o with
  | none => rfl
  | some user => rfl

@[simp] theorem Phase.ofCheck_ne_waiting {τ : Type} (o : Option String) :
    (Phase.ofCheck o : Phase τ) ≠ .waiting := by
  cases o <;> simp [ofCheck]

@[simp] theorem Phase.ofCheck_ne_renewed {τ : Type} (o : Option String) (n : Renewal τ) :
    Phase.ofCheck o ≠ .renewed n := by
  cases o <;> simp [ofCheck]

structure Race (ι τ : Type) where
  server : Server τ
  phase : ι → Phase τ

inductive Move (ι τ : Type) where
  | look (i : ι)
  | issue (i : ι)
  | clock (now : τ)

def clockAfter {ι τ : Type} (now : τ) (ms : List (Move ι τ)) : τ :=
  ms.foldl (fun t m => match m with
    | .clock t' => t'
    | .look _ => t
    | .issue _ => t) now

variable {ι τ : Type} [DecidableEq ι]

def Race.start (s : Server τ) : Race ι τ := ⟨s, fun _ => .waiting⟩

section
variable [LE τ] [DecidableLE τ]

def Race.look (q : ι → Asked) (i : ι) (c : Race ι τ) : Race ι τ :=
  let found := c.server.tokens.checkRefresh c.server.now (presented (q i))
  { c with phase := Function.update c.phase i (.ofCheck found) }

def Race.issue [Add τ] (q : ι → Asked) (i : ι) (user : String) (c : Race ι τ) : Race ι τ :=
  let sent := c.server.sendTokens user ((q i).field "cookie_path") (some (presented (q i)))
  ⟨sent.2, Function.update c.phase i
    (.renewed ⟨c.server.now, user, tokenName (c.server.issued + 2), sent.1⟩)⟩

@[simp] theorem Race.look_self (q : ι → Asked) (i : ι) (c : Race ι τ) :
    (c.look q i).phase i =
      .ofCheck (c.server.tokens.checkRefresh c.server.now (presented (q i))) :=
  Function.update_self ..

theorem Race.look_of_ne (q : ι → Asked) {i j : ι} (c : Race ι τ) (other : j ≠ i) :
    (c.look q i).phase j = c.phase j :=
  Function.update_of_ne other ..

@[simp] theorem Race.issue_self [Add τ] (q : ι → Asked) (i : ι) (user : String) (c : Race ι τ) :
    (c.issue q i user).phase i = .renewed ⟨c.server.now, user, tokenName (c.server.issued + 2),
      (c.server.sendTokens user ((q i).field "cookie_path") (some (presented (q i)))).1⟩ :=
  Function.update_self ..

theorem Race.issue_of_ne [Add τ] (q : ι → Asked) {i j : ι} (user : String) (c : Race ι τ)
    (other : j ≠ i) : (c.issue q i user).phase j = c.phase j :=
  Function.update_of_ne other ..

/-- A move of one of the requests, or of the clock, which never goes back. -/
inductive Step [Add τ] (q : ι → Asked) : Race ι τ → Move ι τ → Race ι τ → Prop where
  | look {c : Race ι τ} (i : ι) (waiting : c.phase i = .waiting) : Step q c (.look i) (c.look q i)
  | issue {c : Race ι τ} (i : ι) {user : String} (found : c.phase i = .found user) :
      Step q c (.issue i) (c.issue q i user)
  | clock {c : Race ι τ} {now : τ} (later : c.server.now ≤ now) :
      Step q c (.clock now) { c with server := { c.server with now } }

inductive Run [Add τ] (q : ι → Asked) (first : Race ι τ) : List (Move ι τ) → Race ι τ → Prop where
  | start : Run q first [] first
  | step {ms : List (Move ι τ)} {m : Move ι τ} {c c' : Race ι τ} (before : Run q first ms c)
      (step : Step q c m c') : Run q first (ms ++ [m]) c'

theorem serveToken_of_alone [Add τ] {q : ι → Asked} {i : ι} {c : Race ι τ}
    (seeks : Seeks (q i) "refresh_token") :
    ((c.look q i).phase i = .refused ∧ (c.server.serveToken (q i)).2 = c.server ∧
      ∃ a, (c.server.serveToken (q i)).1 = .ok a ∧ a.status = 400) ∨
    ∃ user, (c.look q i).phase i = .found user ∧
      (c.server.serveToken (q i)).2 = ((c.look q i).issue q i user).server ∧
      ((c.look q i).issue q i user).phase i = .renewed
        ⟨c.server.now, user, tokenName (c.server.issued + 2), (c.server.serveToken (q i)).1⟩ := by
  rw [serveToken_of_refresh seeks, Race.look_self]
  cases c.server.tokens.checkRefresh c.server.now (presented (q i)) with
  | none => exact .inl ⟨rfl, rfl, _, rfl, rfl⟩
  | some user => exact .inr ⟨user, rfl, rfl, Race.issue_self ..⟩

/-- A request looks before any pair is issued, at a time when the token is good. -/
def InTime (s : Server τ) (token : String) (ms : List (Move ι τ)) (i : ι) : Prop :=
  ∃ before later, ms = before ++ .look i :: later ∧ (∀ j, .issue j ∉ before) ∧
    ∃ user, s.tokens.checkRefresh (clockAfter s.now before) token = some user

omit [DecidableEq ι] in
theorem inTime_snoc {s : Server τ} {token : String} {ms : List (Move ι τ)} {m : Move ι τ} {i : ι} :
    InTime s token (ms ++ [m]) i ↔
      InTime s token ms i ∨ m = .look i ∧ (∀ j, .issue j ∉ ms) ∧
        ∃ user, s.tokens.checkRefresh (clockAfter s.now ms) token = some user := by
  constructor
  · rintro ⟨before, later, whole, first, good⟩
    -- The look is the last move, or it was there before.
    rcases List.eq_nil_or_concat later with rfl | ⟨later, last, rfl⟩
    · obtain ⟨rfl, same⟩ := List.append_inj' whole rfl
      cases same
      exact .inr ⟨rfl, first, good⟩
    · rw [List.concat_eq_append, ← List.cons_append, ← List.append_assoc] at whole
      obtain ⟨rfl, _⟩ := List.append_inj' whole rfl
      exact .inl ⟨before, later, rfl, first, good⟩
  · rintro (⟨before, later, rfl, first, good⟩ | ⟨rfl, first, good⟩)
    · exact ⟨before, later ++ [m], by simp, first, good⟩
    · exact ⟨ms, [], rfl, first, good⟩

end

end FileGate.Server
