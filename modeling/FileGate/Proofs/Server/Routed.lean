import FileGate.Proofs.Server.Effect

namespace FileGate

def Response.sent (a : Response) (method : String) : Response :=
  if method == "HEAD" then { a with body := [] } else a

@[simp] theorem Response.sent_status (a : Response) (method : String) :
    (a.sent method).status = a.status := by
  unfold sent
  split
  · rfl
  · rfl

@[simp] theorem Response.sent_cookies (a : Response) (method : String) :
    (a.sent method).cookies = a.cookies := by
  unfold sent
  split
  · rfl
  · rfl

theorem sharePart?_eq_some_iff {rest part : List Char} :
    sharePart? rest = some part ↔ rest = "shares/".toList ++ part ∧ part ≠ [] := by
  unfold sharePart?
  simp only [Bool.and_eq_true, List.isPrefixOf_iff_prefix, decide_eq_true_eq]
  constructor
  · intro h
    split at h
    · rename_i share
      obtain ⟨⟨tail, rfl⟩, longer⟩ := share
      rw [List.drop_left, Option.some.injEq] at h
      subst h
      refine ⟨rfl, ?_⟩
      rintro rfl
      simp at longer
    · cases h
  · rintro ⟨rfl, longer⟩
    have share : "shares/".toList <+: "shares/".toList ++ part ∧
        "shares/".toList.length < ("shares/".toList ++ part).length := by
      refine ⟨List.prefix_append _ _, ?_⟩
      have := List.length_pos_iff.mpr longer
      rw [List.length_append]
      omega
    rw [if_pos share, List.drop_left]

namespace Server

variable {τ : Type} {s : Server τ} {r : Asked} {rest part : List Char}

/-- A request for the files, with what its path has behind their root. -/
def ForFiles (s : Server τ) (r : Asked) (rest : List Char) : Prop :=
  ∃ rule : Route.Rule, rule.endpoint = .files ∧
    Route.resolve s.rules r.method r.path = .rule rule rest

theorem ForFiles.congr {s' : Server τ} (files : s.ForFiles r rest) (rules : s'.rules = s.rules) :
    s'.ForFiles r rest := by
  rw [ForFiles, rules]
  exact files

theorem serveRevoke_tree (s : Server τ) (r : Asked) : (s.serveRevoke r).2.tree = s.tree := by
  unfold serveRevoke
  split
  · rfl
  · dsimp only
    split
    · rfl
    · rfl

variable [LE τ] [DecidableLE τ] [Add τ]

theorem serveToken_tree (s : Server τ) (r : Asked) : (s.serveToken r).2.tree = s.tree := by
  unfold serveToken
  split
  · rfl
  · dsimp only
    split
    · split
      · rfl
      · split
        · rfl
        · split
          · rfl
          · rfl
          · rfl
    · split
      · rfl
      · rfl
    · rfl

theorem handle_options (files : s.ForFiles r rest) (method : r.method = "OPTIONS") :
    s.handle r = ({ status := 200, allow := Route.allowed s.rules r.path }, s) := by
  obtain ⟨rule, _, routed⟩ := files
  have noHead : ("OPTIONS" == "HEAD") = false := by decide
  rw [method] at routed
  rw [handle, method, routed]
  simp only [beq_self_eq_true, if_true, noHead, Bool.false_eq_true, if_false]

theorem handle_forFiles (files : s.ForFiles r rest) (method : r.method ≠ "OPTIONS") :
    s.handle r = match s.serveFiles r rest with
      | .ok (a, s') => (a.sent r.method, s')
      | .error _ => ((Response.page 500).sent r.method, s) := by
  obtain ⟨rule, endpoint, routed⟩ := files
  have noOptions : (r.method == "OPTIONS") = false := by simpa using method
  rw [handle, routed]
  simp only [noOptions, Bool.false_eq_true, if_false, endpoint, serve]
  cases s.serveFiles r rest with
  | error e => rfl
  | ok x => rfl

theorem handle_share (files : s.ForFiles r rest) (method : r.method ≠ "OPTIONS")
    (share : sharePart? rest = some part) :
    s.handle r = match s.serveShare r part with
      | .ok a => (a.sent r.method, s)
      | .error _ => ((Response.page 500).sent r.method, s) := by
  have served : s.serveFiles r rest = (s.serveShare r part).map fun a => (a, s) := by
    rw [serveFiles, share]
  rw [handle_forFiles files method, served]
  cases s.serveShare r part with
  | error e => rfl
  | ok a => rfl

theorem handle_share_unchanged (files : s.ForFiles r rest)
    (share : sharePart? rest = some part) : (s.handle r).2 = s := by
  by_cases method : r.method = "OPTIONS"
  · rw [handle_options files method]
  · rw [handle_share files method share]
    cases s.serveShare r part with
    | error e => rfl
    | ok a => rfl

theorem handle_plain (files : s.ForFiles r rest) (method : r.method ≠ "OPTIONS")
    (plain : sharePart? rest = none) :
    s.handle r =
      if s.user? r = none then ((Response.unauthorized "Bearer").sent r.method, s)
      else ((s.tree.answer r rest).1.sent r.method,
        { s with tree := (s.tree.answer r rest).2 }) := by
  rw [handle_forFiles files method]
  by_cases user : s.user? r = none
  · rw [serveFiles_of_none plain user, if_pos user]
  · rw [serveFiles_of_user plain user, if_neg user]

/-- A request that comes as far as the tree. -/
structure Touches (s : Server τ) (r : Asked) (rest : List Char) : Prop where
  files : s.ForFiles r rest
  method : r.method ≠ "OPTIONS"
  plain : sharePart? rest = none
  user : s.user? r ≠ none

theorem Touches.handle (h : s.Touches r rest) :
    s.handle r =
      ((s.tree.answer r rest).1.sent r.method, { s with tree := (s.tree.answer r rest).2 }) := by
  rw [handle_plain h.files h.method h.plain, if_neg h.user]

theorem serve_tree (s : Server τ) (r : Asked) {endpoint : Route.Endpoint}
    (other : endpoint ≠ .files) (rest : List Char) :
    (s.serve r endpoint rest).2.tree = s.tree := by
  cases endpoint with
  | static => rfl
  | token => rw [serve, s.serveToken_tree r]
  | revoke => simp only [serve, s.serveRevoke_tree r]
  | files => exact absurd rfl other

theorem handle_state (s : Server τ) (r : Asked) :
    (s.handle r).2 = s ∨ ∃ rule rest, Route.resolve s.rules r.method r.path = .rule rule rest ∧
      r.method ≠ "OPTIONS" ∧ (s.handle r).2 = (s.serve r rule.endpoint rest).2 := by
  unfold handle
  dsimp only
  cases routed : Route.resolve s.rules r.method r.path with
  | notFound => exact .inl rfl
  | notAllowed ms => exact .inl rfl
  | redirect p => exact .inl rfl
  | rule rule rest =>
    dsimp only
    split
    · exact .inl rfl
    · rename_i method
      refine .inr ⟨rule, rest, rfl, by simpa using method, ?_⟩
      rcases s.serve r rule.endpoint rest with ⟨_ | _, s'⟩
      · rfl
      · rfl

theorem status_of_unrouted
    (stray : ∀ rule rest, Route.resolve s.rules r.method r.path ≠ .rule rule rest) :
    (s.handle r).1.status ≠ 200 := by
  have answered : ∃ a : Response, a.status ≠ 200 ∧ s.handle r = (a.sent r.method, s) := by
    cases routed : Route.resolve s.rules r.method r.path with
    | notFound =>
      refine ⟨Response.page 404, by decide, ?_⟩
      rw [handle, routed]
      rfl
    | notAllowed ms =>
      refine ⟨{ Response.page 405 with allow := ms.eraseDups }, by simp [Response.page], ?_⟩
      rw [handle, routed]
      rfl
    | redirect p =>
      refine ⟨{ Response.page 308 with headers := [("Location", Route.location p)] },
        by simp [Response.page], ?_⟩
      rw [handle, routed]
      rfl
    | rule rule rest => exact absurd routed (stray rule rest)
  obtain ⟨a, status, same⟩ := answered
  rw [same, Response.sent_status]
  exact status

theorem handle_tree (s : Server τ) (r : Asked) :
    (∃ rest, s.Touches r rest) ∨ (s.handle r).2.tree = s.tree := by
  rcases s.handle_state r with same | ⟨rule, rest, routed, method, served⟩
  · right
    rw [same]
  by_cases endpoint : rule.endpoint = .files
  · have files : s.ForFiles r rest := ⟨rule, endpoint, routed⟩
    cases share : sharePart? rest with
    | some part =>
      right
      rw [handle_share_unchanged files share]
    | none =>
      by_cases user : s.user? r = none
      · right
        rw [handle_plain files method share, if_pos user]
      · exact .inl ⟨rest, files, method, share, user⟩
  · right
    rw [served, serve_tree s r endpoint]

end Server
end FileGate
