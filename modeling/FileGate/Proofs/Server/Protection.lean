import FileGate.Proofs.Pattern.Anchored
import FileGate.Proofs.Server.FilesRoot
import FileGate.Proofs.Server.SafeMethods

/-! Which paths are protected. The client tells it by the pattern of public paths, the server by
what stands behind its files root. The two agree on every path that is routed to the files. -/
namespace FileGate

namespace PathRule

theorem sharesPath_below (rest : List Char) :
    sharesPath ("/api/v1/files/".toList ++ rest) = true ↔
      ∃ c part, rest = "shares/".toList ++ c :: part ∧ c ≠ '\n' := by
  have root : "/api/v1/files/shares/".toList = "/api/v1/files/".toList ++ "shares/".toList := rfl
  have tail : ("/api/v1/files/".toList ++ rest).drop 21 = rest.drop 7 := rfl
  rw [sharesPath, Bool.and_eq_true, List.isPrefixOf_iff_prefix, root, List.prefix_append_right_inj,
    tail]
  constructor
  · rintro ⟨⟨part, rfl⟩, more⟩
    have behind : ("shares/".toList ++ part).drop 7 = part := rfl
    rw [behind] at more
    cases part with
    | nil => cases more
    | cons c part => exact ⟨c, part, rfl, by simpa using more⟩
  · rintro ⟨c, part, rfl, other⟩
    refine ⟨List.prefix_append _ _, ?_⟩
    have behind : ("shares/".toList ++ c :: part).drop 7 = c :: part := rfl
    rw [behind]
    simpa using other

theorem requiresAuthorization_below (rest : String) :
    ({} : PathRule).requiresAuthorization ("/api/v1/files/" ++ rest) = .ok true ↔
      ¬ ∃ c part, rest.toList = "shares/".toList ++ c :: part ∧ c ≠ '\n' := by
  have files : "/api/v1/files".toList.isPrefixOf ("/api/v1/files/".toList ++ rest.toList) = true :=
    List.isPrefixOf_iff_prefix.mpr ⟨'/' :: rest.toList, rfl⟩
  rw [requiresAuthorization_default, String.toList_append, files, Bool.and_true,
    ← sharesPath_below, Except.ok.injEq, Bool.not_eq_true', Bool.not_eq_true]

end PathRule

namespace Server

variable {τ : Type} {s : Server τ} {rest part : List Char}

theorem serveShare_challenge {r : Asked} : s.serveShare r part ≠ .ok (.unauthorized "Bearer") := by
  unfold serveShare
  dsimp only
  split
  · intro same
    cases same
  · split
    · intro same
      cases same
    · split
      · intro same
        cases same
      · intro same
        rcases challenge_cases (Text.cut '/' part).1 with refused | asked
        · cases refused.symm.trans same
        have headers := congrArg Response.headers (Except.ok.inj (asked.symm.trans same))
        have challenge : _ = "Bearer" := (Prod.mk.inj (List.cons.inj headers).1).2
        -- A share asks for `Basic`, which differs from `Bearer` in its second letter.
        have second := congrArg (fun t => t.toList[1]?) challenge
        simp [String.toList_append] at second
      · intro same
        generalize Path.within _ _ = inside at same
        cases inside with
        | false => cases same
        | true => exact FileTree.read_status _ _ (congrArg Response.status (Except.ok.inj same))

variable [LE τ] [DecidableLE τ]

/-- Without a good token, nothing but a request for one is the answer. -/
def Demands (s : Server τ) (rest : List Char) : Prop :=
  ∀ r : Asked, ¬ s.Admits r → s.serveFiles r rest = .ok (.unauthorized "Bearer", s)

/-- Whatever comes with a request, it is taken for one to a share. -/
def OpensShare (s : Server τ) (rest : List Char) : Prop :=
  ∃ part, rest = "shares/".toList ++ part ∧
    ∀ r : Asked, s.serveFiles r rest = (s.serveShare r part).map fun a => (a, s)

theorem not_admits_bare (s : Server τ) : ¬ s.Admits ⟨"GET", [], [], []⟩ := by
  rintro ⟨_, _, ⟨_, bearer, _⟩, _⟩
  have scheme : (Authorization.parse none).1 = "Bearer" := congrArg Prod.fst bearer
  exact absurd scheme (by decide)

theorem opensShare_of_some (share : sharePart? rest = some part) : s.OpensShare rest := by
  refine ⟨part, (sharePart?_eq_some_iff.mp share).1, fun r => ?_⟩
  rw [serveFiles, share]

theorem demands_of_none (plain : sharePart? rest = none) : s.Demands rest := by
  intro r stranger
  have unknown : s.user? r = none :=
    Classical.byContradiction fun user => stranger (user?_ne_none_iff.mp user)
  exact serveFiles_of_none plain unknown

theorem not_demands_of_opensShare (opens : s.OpensShare rest) : ¬ s.Demands rest := by
  intro demands
  obtain ⟨part, _, shared⟩ := opens
  have asked := (shared _).symm.trans (demands _ (not_admits_bare s))
  cases answer : s.serveShare ⟨"GET", [], [], []⟩ part with
  | error f =>
    rw [answer] at asked
    cases asked
  | ok a =>
    rw [answer] at asked
    have bearer : a = .unauthorized "Bearer" := congrArg Prod.fst (Except.ok.inj asked)
    exact serveShare_challenge (bearer ▸ answer)

theorem demands_iff : s.Demands rest ↔ sharePart? rest = none := by
  constructor
  · intro demands
    cases share : sharePart? rest with
    | none => rfl
    | some part => exact absurd demands (not_demands_of_opensShare (opensShare_of_some share))
  · exact demands_of_none

theorem opensShare_iff_not_demands : s.OpensShare rest ↔ ¬ s.Demands rest := by
  refine ⟨not_demands_of_opensShare, fun open_ => ?_⟩
  rw [demands_iff] at open_
  obtain ⟨part, share⟩ := Option.ne_none_iff_exists'.mp open_
  exact opensShare_of_some share

theorem demands_iff_not_below :
    s.Demands rest ↔ ¬ ∃ c part, rest = "shares/".toList ++ c :: part := by
  rw [demands_iff]
  constructor
  · rintro plain ⟨c, part, below⟩
    have share := sharePart?_eq_some_iff.mpr ⟨below, List.cons_ne_nil c part⟩
    cases plain.symm.trans share
  · intro apart
    cases share : sharePart? rest with
    | none => rfl
    | some part =>
      obtain ⟨below, more⟩ := sharePart?_eq_some_iff.mp share
      obtain ⟨c, part, rfl⟩ := List.exists_cons_of_ne_nil more
      exact absurd ⟨c, part, below⟩ apart

/-- The pattern takes each character behind `shares/` for the beginning of a share's name but a line
feed. -/
theorem requiresAuthorization_iff_demands (s : Server τ) (rest : String) :
    (({} : PathRule).requiresAuthorization ("/api/v1/files/" ++ rest) = .ok true ↔
      s.Demands rest.toList) ↔ ¬ "shares/\n".toList <+: rest.toList := by
  have word : "shares/\n".toList = "shares/".toList ++ ['\n'] := rfl
  rw [PathRule.requiresAuthorization_below, demands_iff_not_below, not_iff_not]
  constructor
  · rintro alike ⟨part, line⟩
    have below : ∃ c part, rest.toList = "shares/".toList ++ c :: part := by
      refine ⟨'\n', part, ?_⟩
      rw [← line, word, List.append_assoc, List.singleton_append]
    obtain ⟨c, part', below', other⟩ := alike.mpr below
    rw [word, List.append_assoc, below', List.append_cancel_left_eq, List.singleton_append,
      List.cons.injEq] at line
    exact other line.1.symm
  · intro plain
    constructor
    · rintro ⟨c, part, below, _⟩
      exact ⟨c, part, below⟩
    · rintro ⟨c, part, below⟩
      refine ⟨c, part, below, ?_⟩
      rintro rfl
      refine plain ⟨part, ?_⟩
      rw [below, word, List.append_assoc, List.singleton_append]

omit [LE τ] [DecidableLE τ] in
theorem ForFiles.rest_cases {r : Asked} (files : s.ForFiles r rest) :
    rest = [] ∨ Route.isRest rest = true := by
  obtain ⟨rule, _, routed⟩ := files
  rw [Route.resolve_eq_rule_iff] at routed
  obtain ⟨rule', _, _, target⟩ := Route.lookup_eq_some routed
  rcases target with ⟨rest', same, takes⟩ | ⟨slash, _⟩
  · cases same
    exact takes.rest_cases
  · cases slash

/-- Client and server agree on what is protected wherever a request is routed to the files. The two
tests by themselves differ just where a line feed stands behind `shares/`, and the router lets none
through. -/
theorem protected_alike (s : Server τ) (rest : String) :
    ((({} : PathRule).requiresAuthorization ("/api/v1/files/" ++ rest) = .ok true ↔
      s.Demands rest.toList) ↔ ¬ "shares/\n".toList <+: rest.toList) ∧
    ("shares/\n".toList <+: rest.toList →
      ({} : PathRule).requiresAuthorization ("/api/v1/files/" ++ rest) = .ok true ∧
        s.OpensShare rest.toList) ∧
    (s.OpensShare rest.toList ↔ ¬ s.Demands rest.toList) ∧
    ∀ r, s.ForFiles r rest.toList →
      (({} : PathRule).requiresAuthorization ("/api/v1/files/" ++ rest) = .ok true ↔
        s.Demands rest.toList) := by
  have agree := requiresAuthorization_iff_demands s rest
  refine ⟨agree, fun line => ?_, opensShare_iff_not_demands, fun r files => ?_⟩
  · have open_ : ¬ s.Demands rest.toList := by
      rw [demands_iff_not_below, not_not]
      obtain ⟨part, line⟩ := line
      exact ⟨'\n', part, line.symm⟩
    refine ⟨?_, opensShare_iff_not_demands.mpr open_⟩
    by_contra free
    exact agree.mp (iff_of_false free open_) line
  · refine agree.mpr ?_
    rintro ⟨part, line⟩
    rcases files.rest_cases with empty | plain
    · rw [empty] at line
      cases line
    · rw [← line] at plain
      simp [Route.isRest] at plain

def askNamed : Asked := ⟨"GET", "/api/v1/files/shares/s".toList, [], []⟩

theorem protected_alike_share :
    keeping.ForFiles askNamed "shares/s".toList ∧ ¬ keeping.Demands "shares/s".toList := by
  have files : keeping.ForFiles askNamed "shares/s".toList :=
    ⟨belowRule (["api", "v1", "files"].map String.toList), rfl, by decide +kernel⟩
  obtain ⟨-, -, -, agree⟩ := protected_alike keeping "shares/s"
  refine ⟨files, fun demands => ?_⟩
  have closed := (agree askNamed files).mpr demands
  rw [PathRule.requiresAuthorization_below] at closed
  exact closed ⟨'s', [], rfl, by decide⟩

end Server
end FileGate
