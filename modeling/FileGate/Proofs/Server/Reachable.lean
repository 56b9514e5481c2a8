import FileGate.Proofs.Server.Effect

namespace FileGate

/-- The tokens a server set last for a client; empty where it set none or took them back. -/
structure Held where
  access : String := ""
  refresh : String := ""
  deriving DecidableEq, Repr

namespace Held

def put (h : Held) (name value : String) : Held :=
  if name = "access_token" then { h with access := value }
  else if name = "refresh_token" then { h with refresh := value }
  else h

def take (h : Held) (a : Response) : Held := a.cookies.foldl (fun h c => h.put c.name c.value) h

def All (P : String → Prop) (h : Held) : Prop := P h.access ∧ P h.refresh

theorem All.put {P : String → Prop} {h : Held} (all : h.All P) (name : String) {value : String}
    (good : P value) : (h.put name value).All P := by
  unfold Held.put
  split
  · exact ⟨good, all.2⟩
  · split
    · exact ⟨all.1, good⟩
    · exact all

theorem All.take {P : String → Prop} {h : Held} (all : h.All P) (a : Response)
    (good : ∀ c ∈ a.cookies, P c.value) : (h.take a).All P := by
  unfold Held.take
  generalize a.cookies = cs at good
  induction cs generalizing h with
  | nil => exact all
  | cons c cs ih =>
    apply ih (all.put c.name (good c List.mem_cons_self))
    exact fun c' hc' => good c' (List.mem_cons_of_mem c hc')

theorem take_nothing (h : Held) {a : Response} (none_ : a.cookies = []) : h.take a = h := by
  rw [take, none_, List.foldl_nil]

theorem take_pair {τ : Type} (h : Held) {a : Response} {s : Server τ}
    (pair : a.cookies.map (fun c => (c.name, c.value)) = s.pairCookies) :
    h.take a = ⟨Server.tokenName (s.issued + 1), Server.tokenName (s.issued + 2)⟩ := by
  have whole : h.take a =
      (a.cookies.map fun c => (c.name, c.value)).foldl (fun h e => h.put e.1 e.2) h := by
    rw [take, List.foldl_map]
  rw [whole, pair]
  rfl

end Held

namespace Server

variable {τ : Type} [LE τ] [DecidableLE τ] [Add τ] [OfNat τ 0]

structure Fresh (s : Server τ) : Prop where
  rules : rulesFor {} = .ok s.rules
  tokens : s.tokens = {}
  tree : s.tree = {}

/-- States of a server and of a client. Requests come from the client, which keeps what they set, or
from others; meanwhile the clock may be moved and access tokens may be made to expire. -/
inductive Reachable : Server τ → Held → Prop where
  | fresh (s : Server τ) (h : s.Fresh) : Reachable s {}
  | own {s : Server τ} {h : Held} (r : Asked) (before : Reachable s h) :
      Reachable (s.handle r).2 (h.take (s.handle r).1)
  | other {s : Server τ} {h : Held} (r : Asked) (before : Reachable s h) :
      Reachable (s.handle r).2 h
  | clock {s : Server τ} {h : Held} (now : τ) (before : Reachable s h) :
      Reachable { s with now } h
  | expire {s : Server τ} {h : Held} (before : Reachable s h) :
      Reachable { s with tokens := s.tokens.expireAccess } h

structure Sound (s : Server τ) (h : Held) : Prop where
  rules : rulesFor {} = .ok s.rules
  named : s.tokens.Named
  dated : h.All fun v => v = "" ∨ s.Dated

omit [LE τ] [DecidableLE τ] [Add τ] [OfNat τ 0] in
theorem Sound.keeps {s s' : Server τ} {h : Held} (sound : Sound s h) (keeps : Keeps s s') :
    Sound s' h := by
  refine ⟨?_, keeps.named sound.named, ?_⟩
  · rw [keeps.rules]
    exact sound.rules
  · rw [keeps.dated]
    exact sound.dated

omit [OfNat τ 0] in
theorem Sound.take {s : Server τ} {h : Held} (sound : Sound s h) (r : Asked) :
    Sound (s.handle r).2 (h.take (s.handle r).1) := by
  obtain ⟨keeps, sets⟩ := s.handle_effect r
  have kept := sound.keeps keeps
  refine ⟨kept.rules, kept.named, kept.dated.take _ fun c hc => ?_⟩
  rw [keeps.dated]
  exact (sets c hc).imp_right And.right

theorem Reachable.sound {s : Server τ} {h : Held} (reached : Reachable s h) : Sound s h := by
  induction reached with
  | fresh s fresh =>
    refine ⟨fresh.rules, ?_, .inl rfl, .inl rfl⟩
    rw [fresh.tokens]
    exact TokenStore.empty_named
  | own r _ ih => exact ih.take r
  | @other s _ r _ ih => exact ih.keeps (s.handle_effect r).1
  | clock now _ ih => exact ih.keeps ⟨rfl, rfl, rfl, rfl, fun named => named⟩
  | expire _ ih => exact ih.keeps ⟨rfl, rfl, rfl, rfl, fun named => named.expireAccess⟩

end Server
end FileGate
