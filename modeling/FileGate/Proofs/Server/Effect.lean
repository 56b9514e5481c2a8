import FileGate.Server.Handling
import FileGate.Proofs.Server.Files
import FileGate.Proofs.Server.TokenNames

namespace FileGate.Server

variable {τ : Type}

structure Dated (s : Server τ) : Prop where
  seconds : ∃ n, s.accessLife.seconds = some n
  access : ∃ n, s.accessLife.dated? s.calendar = some n
  refresh : ∃ n, s.refreshLife.dated? s.calendar = some n

/-- What a server has in common with itself before a request. -/
structure Keeps (s s' : Server τ) : Prop where
  rules : s'.rules = s.rules
  accessLife : s'.accessLife = s.accessLife
  refreshLife : s'.refreshLife = s.refreshLife
  calendar : s'.calendar = s.calendar
  named : s.tokens.Named → s'.tokens.Named

def Sets (s : Server τ) (a : Response) : Prop :=
  ∀ c ∈ a.cookies, c.value = "" ∨ IsTokenName c.value ∧ s.Dated

theorem Keeps.refl (s : Server τ) : Keeps s s := ⟨rfl, rfl, rfl, rfl, fun h => h⟩

theorem keeps_tree (s : Server τ) (t : FileTree) : Keeps s { s with tree := t } :=
  ⟨rfl, rfl, rfl, rfl, fun h => h⟩

theorem sets_nothing (s : Server τ) {a : Response} (h : a.cookies = []) : s.Sets a := by
  intro c hc
  rw [h] at hc
  cases hc

theorem Keeps.dated {s s' : Server τ} (h : Keeps s s') : s'.Dated ↔ s.Dated := by
  constructor
  · rintro ⟨h1, h2, h3⟩
    rw [h.accessLife] at h1 h2
    rw [h.refreshLife] at h3
    rw [h.calendar] at h2 h3
    exact ⟨h1, h2, h3⟩
  · rintro ⟨h1, h2, h3⟩
    rw [← h.accessLife] at h1 h2
    rw [← h.refreshLife] at h3
    rw [← h.calendar] at h2 h3
    exact ⟨h1, h2, h3⟩

theorem serveRevoke_effect (s : Server τ) (r : Asked) :
    Keeps s (s.serveRevoke r).2 ∧ s.Sets (s.serveRevoke r).1 := by
  unfold serveRevoke
  split
  · exact ⟨.refl s, s.sets_nothing rfl⟩
  · dsimp only
    split
    · exact ⟨.refl s, s.sets_nothing rfl⟩
    · generalize (if r.field "token" == accessPlaceholder then _ else _) = token
      refine ⟨⟨rfl, rfl, rfl, rfl, fun named => ?_⟩, ?_⟩
      · dsimp only
        split
        · exact named.dropRefresh token
        · exact (named.dropRefresh token).revokeAccess token
      · intro c hc
        left
        dsimp only at hc
        split at hc
        · simp only [List.map_cons, List.map_nil, List.mem_cons, List.not_mem_nil, or_false] at hc
          rcases hc with rfl | rfl <;> rfl
        · cases hc

variable [LE τ] [DecidableLE τ]

theorem serveFiles_effect {s s' : Server τ} {r : Asked} {rest : List Char} {a : Response}
    (h : s.serveFiles r rest = .ok (a, s')) : Keeps s s' ∧ s.Sets a := by
  cases hp : sharePart? rest with
  | some part =>
    rw [serveFiles, hp] at h
    cases hs : s.serveShare r part with
    | error e =>
      simp only [hs] at h
      cases h
    | ok b =>
      simp only [hs] at h
      cases h
      exact ⟨.refl s, s.sets_nothing (serveShare_cookies hs)⟩
  | none =>
    by_cases user : s.user? r = none
    · rw [serveFiles_of_none hp user] at h
      cases h
      exact ⟨.refl s, s.sets_nothing rfl⟩
    · rw [serveFiles_of_user hp user] at h
      cases h
      exact ⟨s.keeps_tree _, s.sets_nothing (FileTree.serve_response _ _ _ _ _ _).2⟩

variable [Add τ]

def pairCookies (s : Server τ) : List (String × String) :=
  [("access_token", tokenName (s.issued + 1)), ("refresh_token", tokenName (s.issued + 2)),
    ("access_token", tokenName (s.issued + 1)), ("refresh_token", tokenName (s.issued + 2))]

theorem sendTokens_response {s : Server τ} {user cookiePath : String} {previous : Option String}
    {a : Response} (h : (s.sendTokens user cookiePath previous).1 = .ok a) :
    a.cookies = [] ∨ s.Dated ∧ a.cookies.map (fun c => (c.name, c.value)) = s.pairCookies := by
  unfold sendTokens at h
  dsimp only at h
  cases hs : s.accessLife.seconds with
  | none => rw [hs] at h; cases h
  | some seconds =>
    rw [hs] at h
    by_cases here : cookiePath.isEmpty = true
    · simp only [here] at h
      cases h
      exact .inl rfl
    · cases ha : s.accessLife.dated? s.calendar with
      | none => simp only [here, ha] at h; cases h
      | some access =>
        cases hr : s.refreshLife.dated? s.calendar with
        | none => simp only [here, ha, hr] at h; cases h
        | some refresh =>
          simp only [here, ha, hr] at h
          cases h
          exact .inr ⟨⟨⟨seconds, hs⟩, ⟨access, ha⟩, ⟨refresh, hr⟩⟩, rfl⟩

theorem sendTokens_of_dated {s : Server τ} (dated : s.Dated) (user cookiePath : String)
    (here : cookiePath.isEmpty = false) (previous : Option String) :
    ∃ a, (s.sendTokens user cookiePath previous).1 = .ok a ∧ a.status = 200 ∧
      a.cookies.map (fun c => (c.name, c.value)) = s.pairCookies := by
  obtain ⟨⟨seconds, hs⟩, ⟨access, ha⟩, ⟨refresh, hr⟩⟩ := dated
  unfold sendTokens
  dsimp only
  rw [hs]
  simp only [here, ha, hr]
  exact ⟨_, rfl, rfl, rfl⟩

theorem sendTokens_keeps (s : Server τ) (user cookiePath : String) (previous : Option String) :
    Keeps s (s.sendTokens user cookiePath previous).2 :=
  ⟨rfl, rfl, rfl, rfl, fun named => named.issue _ _ _ _ _ _⟩

theorem sendTokens_sets {s : Server τ} {user cookiePath : String} {previous : Option String}
    {a : Response} (h : (s.sendTokens user cookiePath previous).1 = .ok a) : s.Sets a := by
  rcases sendTokens_response h with none_ | ⟨dated, pair⟩
  · exact s.sets_nothing none_
  · intro c hc
    have there : (c.name, c.value) ∈ s.pairCookies := by
      rw [← pair]
      exact List.mem_map_of_mem hc
    have named : ∀ e ∈ s.pairCookies, IsTokenName e.2 := by
      intro e he
      simp only [pairCookies, List.mem_cons, List.not_mem_nil, or_false] at he
      rcases he with rfl | rfl | rfl | rfl <;> exact isTokenName_tokenName _
    exact .inr ⟨named _ there, dated⟩

theorem serveToken_effect (s : Server τ) (r : Asked) :
    Keeps s (s.serveToken r).2 ∧ ∀ a, (s.serveToken r).1 = .ok a → s.Sets a := by
  have unchanged {x : Except Breakdown Response}
      (plain : ∀ a, x = .ok a → a.cookies = []) :
      Keeps s (x, s).2 ∧ ∀ a, (x, s).1 = .ok a → s.Sets a :=
    ⟨.refl s, fun a ha => s.sets_nothing (plain a ha)⟩
  unfold serveToken
  split
  · exact unchanged fun a ha => by cases ha; rfl
  · dsimp only
    split
    · split
      · exact unchanged fun a ha => by cases ha; rfl
      · split
        · exact unchanged fun a ha => by cases ha; rfl
        · split
          · exact unchanged fun a ha => by cases ha
          · exact unchanged fun a ha => by cases ha; rfl
          · exact ⟨s.sendTokens_keeps _ _ _, fun a ha => sendTokens_sets ha⟩
    · split
      · exact unchanged fun a ha => by cases ha; rfl
      · exact ⟨s.sendTokens_keeps _ _ _, fun a ha => sendTokens_sets ha⟩
    · exact unchanged fun a ha => by cases ha; rfl

theorem serve_effect (s : Server τ) (r : Asked) (endpoint : Route.Endpoint) (rest : List Char) :
    Keeps s (s.serve r endpoint rest).2 ∧
      ∀ a, (s.serve r endpoint rest).1 = .ok a → s.Sets a := by
  unfold serve
  cases endpoint with
  | static =>
    refine ⟨.refl s, fun a ha => s.sets_nothing ?_⟩
    rw [← Except.ok.inj ha]
    rfl
  | token => exact s.serveToken_effect r
  | revoke =>
    obtain ⟨keeps, sets⟩ := s.serveRevoke_effect r
    refine ⟨keeps, fun a ha => ?_⟩
    rw [← Except.ok.inj ha]
    exact sets
  | files =>
    dsimp only
    cases h : s.serveFiles r rest with
    | error e => exact ⟨.refl s, fun a ha => by cases ha⟩
    | ok x =>
      obtain ⟨keeps, sets⟩ := serveFiles_effect h
      refine ⟨keeps, fun a ha => ?_⟩
      rw [← Except.ok.inj ha]
      exact sets

/-- No request does more to a server than this. -/
theorem handle_effect (s : Server τ) (r : Asked) :
    Keeps s (s.handle r).2 ∧ s.Sets (s.handle r).1 := by
  have headless (a : Response) (s' : Server τ) (h : Keeps s s' ∧ s.Sets a) :
      Keeps s s' ∧ s.Sets (if r.method == "HEAD" then { a with body := [] } else a) := by
    split
    · exact h
    · exact h
  unfold handle
  dsimp only
  apply headless
  cases Route.resolve s.rules r.method r.path with
  | notFound => exact ⟨.refl s, s.sets_nothing rfl⟩
  | notAllowed ms => exact ⟨.refl s, s.sets_nothing rfl⟩
  | redirect p => exact ⟨.refl s, s.sets_nothing rfl⟩
  | rule rule rest =>
    dsimp only
    split
    · exact ⟨.refl s, s.sets_nothing rfl⟩
    · have served := s.serve_effect r rule.endpoint rest
      rcases h : s.serve r rule.endpoint rest with ⟨x, s'⟩
      rw [h] at served
      cases x with
      | ok a => exact ⟨served.1, served.2 a rfl⟩
      | error e => exact ⟨served.1, s.sets_nothing rfl⟩

end FileGate.Server
