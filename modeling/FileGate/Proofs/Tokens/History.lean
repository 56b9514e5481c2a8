import Mathlib.Data.List.Induction
import Mathlib.Data.List.Pairwise
import Mathlib.Order.Lattice
import FileGate.Server.TokenStore

namespace FileGate.TokenStore

inductive Operation where
  /-- The new tokens come with the issue that makes them. -/
  | issue (user : String) (previous : Option String) (access refresh : String)
  | checkAccess (token : String)
  | checkRefresh (token : String)
  | revokeAccess (token : String)
  | revokeRefresh (token : String)
  | expireAccess
  deriving DecidableEq

def Operation.pair? : Operation → Option (String × String)
  | issue _ _ access refresh => some (access, refresh)
  | _ => none

structure Event (τ : Type) where
  time : τ
  operation : Operation

namespace Event

variable {τ : Type}

def apply [LE τ] [DecidableLE τ] [Add τ] [OfNat τ 0] (life : Lifetimes τ) (s : TokenStore τ)
    (e : Event τ) : TokenStore τ :=
  match e.operation with
  | .issue user previous access refresh => s.issue life e.time user previous access refresh
  | .checkAccess _ => s
  | .checkRefresh _ => s
  | .revokeAccess token => (s.revokeAccess token).2
  | .revokeRefresh token => (s.revokeRefresh token).2
  | .expireAccess => s.expireAccess

def IsIssue (e : Event τ) : Prop :=
  ∃ user previous access refresh, e.operation = .issue user previous access refresh

def WithdrawsRefresh (r : String) (e : Event τ) : Prop :=
  e.operation = .revokeRefresh r ∨
    ∃ user access refresh, e.operation = .issue user (some r) access refresh

/-- The events after which a refresh token that is good until `ends` is no longer kept. -/
def ClearsRefresh [LE τ] (r : String) (ends : τ) (e : Event τ) : Prop :=
  e.WithdrawsRefresh r ∨ e.IsIssue ∧ ends ≤ e.time

/-- The events that end an access token before its time; its refresh token takes it along. -/
def WithdrawsAccess [LE τ] (a r : String) (ends : τ) (e : Event τ) : Prop :=
  e.operation = .revokeAccess a ∨ e.operation = .expireAccess ∨ e.ClearsRefresh r ends

section
variable [LE τ] {a r x user : String} {ends t : τ} {previous : Option String}

@[simp] theorem clearsRefresh_issue {access refresh : String} :
    ClearsRefresh r ends ⟨t, .issue user previous access refresh⟩ ↔
      previous = some r ∨ ends ≤ t := by
  simp [ClearsRefresh, WithdrawsRefresh, IsIssue]

@[simp] theorem clearsRefresh_revokeRefresh :
    ClearsRefresh r ends ⟨t, .revokeRefresh x⟩ ↔ x = r := by
  simp [ClearsRefresh, WithdrawsRefresh, IsIssue]

@[simp] theorem withdrawsAccess_issue {access refresh : String} :
    WithdrawsAccess a r ends ⟨t, .issue user previous access refresh⟩ ↔
      previous = some r ∨ ends ≤ t := by
  simp [WithdrawsAccess]

@[simp] theorem withdrawsAccess_revokeRefresh :
    WithdrawsAccess a r ends ⟨t, .revokeRefresh x⟩ ↔ x = r := by
  simp [WithdrawsAccess]

theorem not_clearsRefresh {op : Operation} (other : op.pair? = none)
    (quiet : ∀ x, op ≠ .revokeRefresh x) : ¬ ClearsRefresh r ends ⟨t, op⟩ := by
  rintro ((h | ⟨u, a, r', h⟩) | ⟨⟨u, p, a, r', h⟩, _⟩)
  · exact quiet r h
  · cases h
    cases other
  · cases h
    cases other

theorem withdrawsAccess_iff {op : Operation} (other : op.pair? = none)
    (quiet : ∀ x, op ≠ .revokeRefresh x) :
    WithdrawsAccess a r ends ⟨t, op⟩ ↔ op = .revokeAccess a ∨ op = .expireAccess := by
  simp only [WithdrawsAccess, not_clearsRefresh other quiet, or_false]

end

def Apart (e f : Event τ) : Prop :=
  ∀ p ∈ e.operation.pair?, ∀ q ∈ f.operation.pair?, p.1 ≠ q.1 ∧ p.2 ≠ q.2

instance : DecidableRel (@Apart τ) := fun e f =>
  inferInstanceAs (Decidable (∀ p ∈ e.operation.pair?, ∀ q ∈ f.operation.pair?, _))

theorem Apart.symm {e f : Event τ} (h : Apart e f) : Apart f e :=
  fun p hp q hq => ⟨(h q hq p hp).1.symm, (h q hq p hp).2.symm⟩

theorem eq_of_not_apart {h : List (Event τ)} {e f : Event τ} (new : h.Pairwise Apart) (he : e ∈ h)
    (hf : f ∈ h) (together : ¬ Apart e f) : e = f := by
  have : Std.Symm (Apart (τ := τ)) := ⟨fun _ _ apart => apart.symm⟩
  exact Classical.byContradiction fun other => together (new.forall he hf other)

end Event

variable {τ : Type}

def after [LE τ] [DecidableLE τ] [Add τ] [OfNat τ 0] (life : Lifetimes τ) (h : List (Event τ)) :
    TokenStore τ :=
  h.foldl (Event.apply life) {}

theorem after_snoc [LE τ] [DecidableLE τ] [Add τ] [OfNat τ 0] (life : Lifetimes τ)
    (h : List (Event τ)) (e : Event τ) :
    after life (h ++ [e]) = e.apply life (after life h) := by
  rw [after, List.foldl_append]
  rfl

/-- An event of a run after which there was no event of a kind. -/
def Since (h : List (Event τ)) (e : Event τ) (Kind : Event τ → Prop) : Prop :=
  ∃ before later, h = before ++ e :: later ∧ ∀ f ∈ later, ¬ Kind f

section
variable {h : List (Event τ)} {e f : Event τ} {Kind Kind' : Event τ → Prop}
variable {t t' : τ} {user user' a r access refresh : String} {previous : Option String}

theorem Since.mem (since : Since h e Kind) : e ∈ h := by
  obtain ⟨before, later, rfl, _⟩ := since
  simp

theorem Since.mono (since : Since h e Kind) (weaker : ∀ f ∈ h, Kind' f → Kind f) :
    Since h e Kind' := by
  obtain ⟨before, later, rfl, none_⟩ := since
  exact ⟨before, later, rfl, fun f hf kind => none_ f hf (weaker f (by simp [hf]) kind)⟩

theorem not_since_nil : ¬ Since [] e Kind := by
  rintro ⟨before, later, split, _⟩
  simp at split

theorem since_snoc : Since (h ++ [f]) e Kind ↔ f = e ∨ Since h e Kind ∧ ¬ Kind f := by
  constructor
  · rintro ⟨before, later, split, none_⟩
    rcases List.eq_nil_or_concat later with rfl | ⟨later, g, rfl⟩
    · have last := List.append_inj_right' split rfl
      exact .inl (List.head_eq_of_cons_eq last)
    · rw [List.concat_eq_append] at split none_
      rw [← List.cons_append, ← List.append_assoc] at split
      obtain ⟨whole, last⟩ := List.append_inj' split rfl
      have last : f = g := List.head_eq_of_cons_eq last
      refine .inr ⟨⟨before, later, whole, fun f hf => none_ f (by simp [hf])⟩, ?_⟩
      exact last ▸ none_ g (by simp)
  · rintro (rfl | ⟨⟨before, later, rfl, none_⟩, other⟩)
    · exact ⟨h, [], rfl, fun _ hf => by cases hf⟩
    · refine ⟨before, later ++ [f], by simp, fun g hg => ?_⟩
      rcases List.mem_append.mp hg with hg | hg
      · exact none_ g hg
      · rw [List.mem_singleton.mp hg]
        exact other

theorem since_snoc_of_not_issue {op : Operation} (other : op.pair? = none) :
    Since (h ++ [⟨t', op⟩]) ⟨t, .issue user previous a r⟩ Kind ↔
      Since h ⟨t, .issue user previous a r⟩ Kind ∧ ¬ Kind ⟨t', op⟩ := by
  rw [since_snoc, or_iff_right]
  intro same
  cases same
  cases other

theorem since_snoc_issue :
    (∃ p, Since (h ++ [⟨t', .issue user' previous access refresh⟩]) ⟨t, .issue user p a r⟩ Kind) ↔
      (t = t' ∧ user = user' ∧ a = access ∧ r = refresh) ∨
      (∃ p, Since h ⟨t, .issue user p a r⟩ Kind) ∧
        ¬ Kind ⟨t', .issue user' previous access refresh⟩ := by
  constructor
  · rintro ⟨p, since⟩
    rcases since_snoc.mp since with same | ⟨since, other⟩
    · cases same
      exact .inl ⟨rfl, rfl, rfl, rfl⟩
    · exact .inr ⟨⟨p, since⟩, other⟩
  · rintro (⟨rfl, rfl, rfl, rfl⟩ | ⟨⟨p, since⟩, other⟩)
    · exact ⟨previous, since_snoc.mpr (.inl rfl)⟩
    · exact ⟨p, since_snoc.mpr (.inr ⟨since, other⟩)⟩

theorem Since.of_append {h' : List (Event τ)} (since : Since (h ++ h') e Kind) (first : e ∉ h') :
    Since h e Kind := by
  -- From the end of the run, where `since_snoc` tells what one event more changes.
  induction h' using List.reverseRecOn with
  | nil => simpa using since
  | append_singleton h' f ih =>
    rw [List.mem_append, not_or, List.mem_singleton] at first
    rw [← List.append_assoc, since_snoc] at since
    rcases since with rfl | ⟨since, _⟩
    · exact absurd rfl first.2
    · exact ih since first.1

end

/-- A run on a clock that begins at zero or later and never goes back, in which every token that is
issued is new. At the end the clock shows `now`. -/
structure Proper [LE τ] [OfNat τ 0] (h : List (Event τ)) (now : τ) : Prop where
  clock : (0 :: (h.map (·.time) ++ [now])).Pairwise (· ≤ ·)
  new : h.Pairwise Event.Apart
  nonempty : ∀ e ∈ h, ∀ p ∈ e.operation.pair?, p.1 ≠ "" ∧ p.2 ≠ ""

namespace Proper

variable [LinearOrder τ] [Zero τ] {h : List (Event τ)} {e f : Event τ} {now : τ}

theorem zero_le (proper : Proper h now) : 0 ≤ now :=
  List.rel_of_pairwise_cons proper.clock (by simp)

theorem time_le (proper : Proper h now) (he : e ∈ h) : e.time ≤ now := by
  have clock := (List.pairwise_append.mp (List.pairwise_cons.mp proper.clock).2).2.2
  exact clock e.time (List.mem_map_of_mem he) now (List.mem_singleton_self now)

theorem of_append {h' : List (Event τ)} (proper : Proper (h ++ f :: h') now) : Proper h f.time := by
  refine ⟨?_, (List.pairwise_append.mp proper.new).1,
    fun e he => proper.nonempty e (List.mem_append_left _ he)⟩
  have clock := proper.clock
  rw [List.map_append, List.map_cons] at clock
  have start : 0 :: (h.map (·.time) ++ [f.time]) <+:
      0 :: (h.map (·.time) ++ f.time :: h'.map (·.time) ++ [now]) :=
    ⟨h'.map (·.time) ++ [now], by simp⟩
  exact clock.sublist start.sublist

theorem apart_of_append {h' : List (Event τ)} (proper : Proper (h ++ h') now) (he : e ∈ h)
    (hf : f ∈ h') : Event.Apart e f :=
  (List.pairwise_append.mp proper.new).2.2 e he f hf

end Proper
end FileGate.TokenStore
