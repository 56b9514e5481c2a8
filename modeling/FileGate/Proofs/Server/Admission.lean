import FileGate.Proofs.Server.Routed

namespace FileGate

/-- The access token of a request: the word after `Bearer`, or the cookie that this word stands for.
-/
def Asked.Carries (r : Asked) (token : String) : Prop :=
  ∃ given, Authorization.parse (r.header? "Authorization") = ("Bearer", given) ∧
    ((given = accessPlaceholder ∧ r.cookie? "access_token" = some token ∧ token ≠ "") ∨
      (¬ (given = accessPlaceholder ∧ ∃ c, r.cookie? "access_token" = some c ∧ c ≠ "") ∧
        token = given))

namespace Server

variable {τ : Type} [LE τ] [DecidableLE τ] {s : Server τ} {r : Asked} {rest : List Char}

def Admits (s : Server τ) (r : Asked) : Prop :=
  ∃ token user, r.Carries token ∧ s.tokens.checkAccess s.now token = some user

theorem cookieOr_carries {given : String}
    (bearer : Authorization.parse (r.header? "Authorization") = ("Bearer", given))
    (token : String) :
    r.Carries token ↔ token = r.cookieOr given accessPlaceholder "access_token" := by
  have only : r.Carries token ↔
      (given = accessPlaceholder ∧ r.cookie? "access_token" = some token ∧ token ≠ "") ∨
      (¬ (given = accessPlaceholder ∧ ∃ c, r.cookie? "access_token" = some c ∧ c ≠ "") ∧
        token = given) := by
    constructor
    · rintro ⟨given', bearer', h⟩
      rw [bearer] at bearer'
      cases bearer'
      exact h
    · exact fun h => ⟨given, bearer, h⟩
  rw [only]
  by_cases placeholder : given = accessPlaceholder
  · cases cookie : r.cookie? "access_token" with
    | none => simp [Asked.cookieOr, placeholder, cookie]
    | some c =>
      by_cases empty : c = ""
      · simp [Asked.cookieOr, placeholder, cookie, empty]
      · have same : c = token ∧ token ≠ "" ↔ token = c :=
          ⟨fun h => h.1.symm, fun h => ⟨h.symm, h ▸ empty⟩⟩
        simp [Asked.cookieOr, placeholder, cookie, empty, same]
  · simp [Asked.cookieOr, placeholder]

theorem user?_ne_none_iff : s.user? r ≠ none ↔ s.Admits r := by
  rcases parsed : Authorization.parse (r.header? "Authorization") with ⟨scheme, given⟩
  by_cases bearer : scheme = "Bearer"
  · subst bearer
    have known : s.user? r =
        s.tokens.checkAccess s.now (r.cookieOr given accessPlaceholder "access_token") := by
      rw [user?, parsed]
      simp
    rw [known, Option.ne_none_iff_exists']
    constructor
    · rintro ⟨user, good⟩
      exact ⟨_, user, (cookieOr_carries parsed _).mpr rfl, good⟩
    · rintro ⟨token, user, carries, good⟩
      rw [(cookieOr_carries parsed token).mp carries] at good
      exact ⟨user, good⟩
  · have unknown : s.user? r = none := by
      rw [user?, parsed]
      simp [bearer]
    simp only [unknown, ne_eq, not_true_eq_false, false_iff]
    rintro ⟨token, user, ⟨given', h, _⟩, _⟩
    rw [parsed] at h
    cases h
    exact bearer rfl

variable [Add τ]

theorem handle_of_not_admits (files : s.ForFiles r rest) (method : r.method ≠ "OPTIONS")
    (plain : sharePart? rest = none) (stranger : ¬ s.Admits r) :
    s.handle r = ((Response.unauthorized "Bearer").sent r.method, s) := by
  have unknown : s.user? r = none :=
    Classical.byContradiction fun user => stranger (user?_ne_none_iff.mp user)
  rw [handle_plain files method plain, if_pos unknown]

theorem Admits.status (admitted : s.Admits r) (files : s.ForFiles r rest)
    (method : r.method ≠ "OPTIONS") (plain : sharePart? rest = none) :
    (s.handle r).1.status ≠ 401 := by
  rw [handle_plain files method plain, if_neg (user?_ne_none_iff.mpr admitted),
    Response.sent_status]
  exact (FileTree.serve_response _ _ _ _ _ _).1

theorem admits_of_tree_ne (changed : (s.handle r).2.tree ≠ s.tree) : s.Admits r := by
  rcases s.handle_tree r with ⟨_, touches⟩ | same
  · exact user?_ne_none_iff.mp touches.user
  · exact absurd same changed

/-! ### Runs -/

variable [OfNat τ 0]

/-- What happens to a server: a request, another time on its clock, or the expiry of all access
tokens. -/
inductive Happening (τ : Type) where
  | request (r : Asked)
  | clock (now : τ)
  | expire

def Happening.apply (s : Server τ) : Happening τ → Server τ
  | request r => (s.handle r).2
  | clock now => { s with now }
  | expire => { s with tokens := s.tokens.expireAccess }

def run (s : Server τ) (hs : List (Happening τ)) : Server τ := hs.foldl Happening.apply s

theorem run_snoc (s : Server τ) (hs : List (Happening τ)) (h : Happening τ) :
    s.run (hs ++ [h]) = h.apply (s.run hs) := by
  rw [run, List.foldl_append]
  rfl

theorem Happening.admits_of_tree_ne {h : Happening τ} (changed : (h.apply s).tree ≠ s.tree) :
    ∃ r, h = .request r ∧ s.Admits r := by
  cases h with
  | request r => exact ⟨r, rfl, Server.admits_of_tree_ne changed⟩
  | clock now => exact absurd rfl changed
  | expire => exact absurd rfl changed

theorem run_tree (s : Server τ) (hs : List (Happening τ))
    (strangers : ∀ before r after, hs = before ++ .request r :: after → ¬ (s.run before).Admits r) :
    (s.run hs).tree = s.tree := by
  induction hs generalizing s with
  | nil => rfl
  | cons h hs ih =>
    have first : (h.apply s).tree = s.tree := by
      refine Classical.byContradiction fun changed => ?_
      obtain ⟨r, rfl, admitted⟩ := Happening.admits_of_tree_ne changed
      exact strangers [] r hs rfl admitted
    have rest : ((h.apply s).run hs).tree = (h.apply s).tree := by
      refine ih _ fun before r after split => strangers (h :: before) r after ?_
      rw [split, List.cons_append]
    exact rest.trans first

/-- Without a good access token a request for files, and for no share, is answered with the
challenge whatever the tree is, and changes nothing; with one it never is. Hence a run changes the
tree only in requests with an access token that is good when they come. -/
theorem files_guarded (s : Server τ) :
    (∀ r rest, s.ForFiles r rest → r.method ≠ "OPTIONS" → sharePart? rest = none →
      (¬ s.Admits r → ∀ t : FileTree, handle { s with tree := t } r =
        ((Response.unauthorized "Bearer").sent r.method, { s with tree := t })) ∧
      (s.Admits r → (s.handle r).1.status ≠ 401)) ∧
    (∀ hs h, (s.run (hs ++ [h])).tree ≠ (s.run hs).tree →
      ∃ r, h = .request r ∧ (s.run hs).Admits r) ∧
    (∀ hs, (∀ before r after, hs = before ++ .request r :: after → ¬ (s.run before).Admits r) →
      (s.run hs).tree = s.tree) := by
  refine ⟨fun r rest files method plain => ⟨fun stranger t => ?_, fun admitted => ?_⟩,
    fun hs h changed => ?_, fun hs => s.run_tree hs⟩
  · have files' : ForFiles { s with tree := t } r rest := files.congr rfl
    exact handle_of_not_admits files' method plain stranger
  · exact admitted.status files method plain
  · rw [run_snoc] at changed
    exact Happening.admits_of_tree_ne changed

def guarding : Server Int where
  accessLife := ⟨1, some 1⟩
  refreshLife := ⟨2, some 2⟩
  tokenPath := "/api/v1/auth/token".toList
  revokePath := "/api/v1/auth/revoke".toList
  rules := [⟨.files, ["", "f"].map String.toList, true, ["PUT"], true⟩]
  now := 4
  tokens := { access := [("t1", ⟨"u", 5⟩)] }

def askDirectory (token : String) : Asked :=
  ⟨"PUT", "/f/d".toList, [("Authorization", "Bearer cookie:access_token"),
    ("Cookie", "access_token=" ++ token), ("X-FZ-Action", "mkdir")], []⟩

theorem files_guarded_guarding :
    guarding.handle (askDirectory "t2") = (.unauthorized "Bearer", guarding) ∧
      (guarding.handle (askDirectory "t1")).1.status ≠ 401 ∧
      guarding.Admits (askDirectory "t1") ∧
      (guarding.run [.request (askDirectory "t2"), .expire, .request (askDirectory "t1")]).tree =
        guarding.tree := by
  let rule : Route.Rule := ⟨.files, ["", "f"].map String.toList, true, ["PUT"], true⟩
  have routed : Route.resolve [rule] "PUT" "/f/d".toList = .rule rule "d".toList := by
    decide +kernel
  have files (token : String) : guarding.ForFiles (askDirectory token) "d".toList :=
    ⟨rule, rfl, routed⟩
  have known : guarding.user? (askDirectory "t1") = some "u" := by decide +kernel
  have unknown : guarding.user? (askDirectory "t2") = none := by decide +kernel
  have admitted : guarding.Admits (askDirectory "t1") := user?_ne_none_iff.mp (by simp [known])
  have stranger : ¬ guarding.Admits (askDirectory "t2") := by
    rw [← user?_ne_none_iff]
    simp [unknown]
  obtain ⟨single, _, whole⟩ := files_guarded guarding
  have view (token : String) := single _ _ (files token) (by decide : "PUT" ≠ "OPTIONS") (by decide)
  refine ⟨(view "t2").1 stranger guarding.tree, (view "t1").2 admitted, admitted, whole _ ?_⟩
  have expired : (guarding.run [.request (askDirectory "t2"), .expire]).user? (askDirectory "t1") =
      none := by decide +kernel
  intro before r after split
  match before with
  | [] =>
    cases split
    exact stranger
  | [_] => simp at split
  | [_, _] =>
    simp only [List.cons_append, List.nil_append, List.cons.injEq, Happening.request.injEq] at split
    obtain ⟨rfl, rfl, rfl, _⟩ := split
    rw [← user?_ne_none_iff]
    simp [expired]
  | _ :: _ :: _ :: _ => simp at split

end Server
end FileGate
