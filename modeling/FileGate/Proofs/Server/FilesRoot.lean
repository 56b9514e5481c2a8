import FileGate.Proofs.Server.Routed
import FileGate.Proofs.Server.Routing
import FileGate.Proofs.Text.Decoding
import FileGate.Proofs.Tree.NormalForm

namespace FileGate

theorem Text.joinWith_splitAll (sep : Char) (s : List Char) :
    joinWith [sep] (splitAll sep s) = s := by
  induction s with
  | nil => rfl
  | cons c s ih =>
    rw [splitAll]
    rcases pieces : splitAll sep s with _ | ⟨w, ws⟩
    · exact absurd pieces (splitAll_ne_nil sep s)
    rw [pieces] at ih
    by_cases same : c = sep
    · simp [same, joinWith, ih]
    · have kept : joinWith [sep] ((c :: w) :: ws) = c :: joinWith [sep] (w :: ws) := by
        cases ws with
        | nil => rfl
        | cons v ws => simp [joinWith]
      simp [same, kept, ih]

namespace Path

variable {ss : List Path}

theorem splitAll_spell_append {s : Path} (hs : '/' ∉ s) (h : AreSegments ss) (y : List Char) :
    Text.splitAll '/' (s ++ (spell ss ++ '/' :: y)) = s :: (ss ++ Text.splitAll '/' y) := by
  induction ss generalizing s with
  | nil => exact Text.splitAll_append hs y
  | cons t ss ih =>
    obtain ⟨ht, hss⟩ := areSegments_cons.mp h
    rw [spell_cons, List.cons_append, List.append_assoc, Text.splitAll_append hs,
      ih ht.no_slash hss]
    rfl

theorem segments_slash (y : List Char) : segments ('/' :: y) = segments y := by
  simp [segments, Text.splitAll, resolve]

@[simp] theorem normalize_slash (y : List Char) : normalize ('/' :: y) = normalize y := by
  rw [normalize, segments_slash, normalize]

theorem normalize_dropSlashes (y : List Char) :
    normalize (y.dropWhile (· == '/')) = normalize y := by
  induction y with
  | nil => rfl
  | cons c y ih =>
    by_cases slash : c = '/'
    · simp [slash, ih]
    · simp [slash]

theorem mergeSlashes_run {s : Path} (hs : '/' ∉ s) (rest : List Char) :
    Route.mergeSlashes (s ++ rest) = s ++ Route.mergeSlashes rest := by
  induction s with
  | nil => rfl
  | cons c s ih =>
    rw [List.mem_cons, not_or] at hs
    rw [List.cons_append, Route.mergeSlashes, ih hs.2]
    · rfl
    · rintro r rfl
      exact absurd rfl hs.1

theorem mergeSlashes_spell (h : AreSegments ss) :
    Route.mergeSlashes (spell ss ++ ['/']) = spell ss ++ ['/'] := by
  induction ss with
  | nil => rfl
  | cons s ss ih =>
    obtain ⟨hs, hss⟩ := areSegments_cons.mp h
    obtain ⟨c, w, rfl⟩ := List.exists_cons_of_ne_nil hs.nonempty
    have hc : c ≠ '/' := fun same => hs.no_slash (by simp [same])
    have first (rest : List Char) :
        Route.mergeSlashes ('/' :: c :: rest) = '/' :: Route.mergeSlashes (c :: rest) := by
      rw [Route.mergeSlashes]
      rintro r _ same
      exact hc (List.cons.inj same).1
    have run := mergeSlashes_run hs.no_slash (spell ss ++ ['/'])
    rw [ih hss] at run
    simp only [spell_cons, List.cons_append, List.append_assoc] at run ⊢
    rw [first, run]

end Path

namespace Asked

/-- Text that stands for itself in an address. -/
def IsPlain (s : List Char) : Prop := '?' ∉ s ∧ '#' ∉ s ∧ '%' ∉ s

instance (s : List Char) : Decidable (IsPlain s) := inferInstanceAs (Decidable (_ ∧ _ ∧ _))

theorem pathOf_append {s : List Char} (plain : IsPlain s) (t : List Char) :
    pathOf (s ++ t) = s ++ pathOf t := by
  obtain ⟨query, fragment, escape⟩ := plain
  have kept : ∀ c ∈ s, (c != '?' && c != '#') = true := by
    intro c hc
    have noQuery : c ≠ '?' := fun same => query (same ▸ hc)
    have noFragment : c ≠ '#' := fun same => fragment (same ▸ hc)
    simp [noQuery, noFragment]
  rw [pathOf, List.takeWhile_append_of_pos kept, Percent.decode_append escape, pathOf]

theorem pathOf_of_plain {s : List Char} (plain : IsPlain s) : pathOf s = s := by
  have whole := pathOf_append plain []
  have nothing : pathOf [] = [] := Percent.decode_nil
  rwa [List.append_nil, nothing, List.append_nil] at whole

theorem pathOf_slash (y : List Char) : pathOf ('/' :: y) = '/' :: pathOf y :=
  pathOf_append (by decide : IsPlain ['/']) y

end Asked

namespace Server

open FileGate.Path (AreSegments spell)

variable {c : Config} {rules : List Route.Rule} {ss : List Path} {rule : Route.Rule}

def defaultRoot : List Path := ["api".toList, "v1".toList, "files".toList]

theorem filesRoot_default : ({} : Config).filesRoot.dropSlashes = .ok (spell defaultRoot) := by
  decide +kernel

theorem defaultRoot_areSegments : AreSegments defaultRoot := by
  have segment (s : Path) (plain : s ≠ [] ∧ s ≠ ['.'] ∧ s ≠ ['.', '.'] ∧ '/' ∉ s) :
      Path.IsSegment s := ⟨plain.1, plain.2.1, plain.2.2.1, plain.2.2.2⟩
  simp only [defaultRoot, Path.areSegments_cons, Path.areSegments_nil, and_true]
  exact ⟨segment _ (by decide), segment _ (by decide), segment _ (by decide)⟩

def fileMethods : List String := ["GET", "PUT", "DELETE", "POST", "HEAD", "OPTIONS"]

def rootRule (ss : List Path) : Route.Rule :=
  ⟨.files, [] :: (ss ++ [[]]), false, fileMethods, false⟩

def belowRule (ss : List Path) : Route.Rule := ⟨.files, [] :: ss, true, fileMethods, true⟩

theorem rulesFor_cases (h : rulesFor c = .ok rules) :
    ∃ (root files : List Char) (token revoke : List Route.Segment),
      c.filesRoot.dropSlashes = .ok root ∧ rulePath (root ++ ['/']) = .ok files ∧ rules =
        [⟨.static, ["".toList, "static".toList], true, ["GET", "HEAD", "OPTIONS"], true⟩,
          ⟨.token, token, false, ["OPTIONS", "POST"], true⟩,
          ⟨.revoke, revoke, false, ["OPTIONS", "POST"], true⟩,
          ⟨.files, Text.splitAll '/' files, false, fileMethods, false⟩,
          ⟨.files, (Text.splitAll '/' files).dropLast, true, fileMethods, true⟩] := by
  unfold rulesFor at h
  obtain ⟨root, dropped, h⟩ := exists_of_bind_ok h
  obtain ⟨_, _, h⟩ := exists_of_bind_ok h
  obtain ⟨token, _, h⟩ := exists_of_bind_ok h
  obtain ⟨_, _, h⟩ := exists_of_bind_ok h
  obtain ⟨revoke, _, h⟩ := exists_of_bind_ok h
  obtain ⟨files, spelt, h⟩ := exists_of_bind_ok h
  exact ⟨root, files, _, _, dropped, spelt, (Except.ok.inj h).symm⟩

theorem rulesFor_eq_ok (h : rulesFor c = .ok rules)
    (root : c.filesRoot.dropSlashes = .ok (spell ss)) (hs : AreSegments ss) :
    ∃ token revoke : List Route.Segment, rules =
      [⟨.static, ["".toList, "static".toList], true, ["GET", "HEAD", "OPTIONS"], true⟩,
        ⟨.token, token, false, ["OPTIONS", "POST"], true⟩,
        ⟨.revoke, revoke, false, ["OPTIONS", "POST"], true⟩, rootRule ss, belowRule ss] := by
  have files : rulePath (spell ss ++ ['/']) = .ok (spell ss ++ ['/']) := by
    have absolute : ((spell ss ++ ['/']).head? == some '/') = true := by
      cases ss with
      | nil => rfl
      | cons s ss => simp
    rw [rulePath, if_pos absolute, Path.mergeSlashes_spell hs]
  have split : Text.splitAll '/' (spell ss ++ ['/']) = [] :: (ss ++ [[]]) := by
    cases ss with
    | nil => rfl
    | cons s ss =>
      obtain ⟨hs, hss⟩ := Path.areSegments_cons.mp hs
      have whole := Path.splitAll_spell_append hs.no_slash hss []
      simpa [Text.splitAll] using whole
  obtain ⟨_, _, token, revoke, root', files', listed⟩ := rulesFor_cases h
  rw [root] at root'
  cases root'
  rw [files] at files'
  cases files'
  have front : ([] :: (ss ++ [[]])).dropLast = [] :: ss := by
    rw [← List.cons_append, List.dropLast_concat]
  rw [split, front] at listed
  exact ⟨token, revoke, listed⟩

theorem rules_of_files (h : rulesFor c = .ok rules)
    (root : c.filesRoot.dropSlashes = .ok (spell ss)) (hs : AreSegments ss) :
    rootRule ss ∈ rules ∧ belowRule ss ∈ rules ∧ ∀ r ∈ rules,
      (r.endpoint = .files ∨ r.methods.contains "PUT" = true ∨
        r.methods.contains "DELETE" = true) → r = rootRule ss ∨ r = belowRule ss := by
  obtain ⟨token, revoke, rfl⟩ := rulesFor_eq_ok h root hs
  refine ⟨by simp, by simp, fun r there files => ?_⟩
  simp only [List.mem_cons, List.not_mem_nil, or_false] at there
  rcases there with rfl | rfl | rfl | rfl | rfl
  · simp at files
  · simp at files
  · simp at files
  · exact .inl rfl
  · exact .inr rfl

theorem head_of_isRest {y : List Char} (plain : Route.isRest y = true ∨ y = []) :
    y.head? ≠ some '/' := by
  rcases plain with rest | rfl
  · cases y with
    | nil => cases rest
    | cons c y =>
      intro same
      cases same
      simp [Route.isRest] at rest
  · simp

theorem below_root (hs : AreSegments ss) (y : List Char) :
    ∃ y', '/' :: (spell ss ++ '/' :: y).dropWhile (· == '/') = spell ss ++ '/' :: y' ∧
      Path.normalize y' = Path.normalize y ∧ (y.head? ≠ some '/' → y' = y) := by
  cases ss with
  | nil =>
    refine ⟨y.dropWhile (· == '/'), by simp, Path.normalize_dropSlashes y, fun other => ?_⟩
    cases y with
    | nil => rfl
    | cons c y =>
      have other : c ≠ '/' := by simpa using other
      simp [other]
  | cons s ss =>
    obtain ⟨hs, _⟩ := Path.areSegments_cons.mp hs
    obtain ⟨c, w, rfl⟩ := List.exists_cons_of_ne_nil hs.nonempty
    have other : c ≠ '/' := fun same => hs.no_slash (by simp [same])
    exact ⟨y, by simp [other], rfl, fun _ => rfl⟩

theorem splitAll_below_root (hs : AreSegments ss) (y : List Char) :
    Text.splitAll '/' (spell ss ++ '/' :: y) = [] :: (ss ++ Text.splitAll '/' y) := by
  simpa using Path.splitAll_spell_append (s := []) (by simp) hs y

theorem rest_of_takes {y rest : List Char} (files : rule = rootRule ss ∨ rule = belowRule ss)
    (takes : Route.Takes rule rule.segments ([] :: (ss ++ Text.splitAll '/' y)) rest) :
    rest = y ∨ y = ['/'] ∧ rest = [] := by
  have whole : Text.joinWith ['/'] (Text.splitAll '/' y) = y := Text.joinWith_splitAll '/' y
  have some_ : Text.splitAll '/' y ≠ [] := Text.splitAll_ne_nil '/' y
  generalize parts_ : Text.splitAll '/' y = parts at takes whole some_
  generalize left : rule.segments = l at takes
  generalize path : [] :: (ss ++ parts) = p at takes
  -- A rule without a tail is the one for the root, and one with a tail the one for what is below.
  have root (fixed : rule.tail = false) : l = [] :: (ss ++ [[]]) := by
    rcases files with rfl | rfl
    · exact left.symm
    · cases fixed
  cases takes with
  | whole fixed =>
    rw [root fixed] at path
    have last : parts = [[]] := by simpa using path
    rw [← whole, last]
    exact .inl rfl
  | lacking fixed loose =>
    rw [← path] at root
    have none_ : parts = [] := by simpa using root fixed
    exact absurd none_ some_
  | extra fixed loose =>
    rw [root fixed] at path
    have last : parts = [[], []] := by simpa using path
    rw [← whole, last]
    exact .inr ⟨rfl, rfl⟩
  | @behind l parts' open_ more rest =>
    have below : l = [] :: ss := by
      rcases files with rfl | rfl
      · cases open_
      · exact left.symm
    rw [below] at path
    have same : parts = parts' := by simpa using path
    rw [← whole, same]
    exact .inl rfl

theorem begins_of_takes {parts : List Route.Segment} {rest : List Char}
    (files : rule = rootRule ss ∨ rule = belowRule ss)
    (takes : Route.Takes rule rule.segments parts rest) : [] :: ss <+: parts := by
  generalize left : rule.segments = l at takes
  have root (fixed : rule.tail = false) : l = [] :: ss ++ [[]] := by
    rcases files with rfl | rfl
    · exact left.symm
    · cases fixed
  cases takes with
  | whole fixed =>
    rw [root fixed]
    exact List.prefix_append _ _
  | lacking fixed loose =>
    have same : parts = [] :: ss := List.append_cancel_right (root fixed)
    exact same ▸ List.prefix_rfl
  | extra fixed loose =>
    rw [root fixed, List.append_assoc]
    exact List.prefix_append _ _
  | behind open_ more rest =>
    have below : l = [] :: ss := by
      rcases files with rfl | rfl
      · cases open_
      · exact left.symm
    rw [below]
    exact List.prefix_append _ _

variable {τ : Type} {s : Server τ} {r : Asked} {y rest : List Char}

theorem ForFiles.normalize_rest (rules : rulesFor c = .ok s.rules)
    (root : c.filesRoot.dropSlashes = .ok (spell ss)) (hs : AreSegments ss)
    (path : r.path = spell ss ++ '/' :: y) (files : s.ForFiles r rest) :
    Path.normalize rest = Path.normalize y := by
  obtain ⟨rule, endpoint, routed⟩ := files
  obtain ⟨_, _, only⟩ := rules_of_files rules root hs
  obtain ⟨y', once, same, _⟩ := below_root hs y
  rw [path, Route.resolve_eq_rule_iff, once] at routed
  obtain ⟨rule, there, _, ⟨rest, found, takes⟩ | ⟨found, _⟩⟩ := Route.lookup_eq_some routed
  · cases found
    rw [splitAll_below_root hs] at takes
    rw [← same]
    rcases rest_of_takes (only rule there (.inl endpoint)) takes with rfl | ⟨rfl, rfl⟩
    · rfl
    · rfl
  · cases found

theorem fileMethods_contains {m : String} (change : m = "PUT" ∨ m = "DELETE") :
    fileMethods.contains m = true := by
  rcases change with h | h <;> rw [h] <;> decide

theorem exists_takes {m : String} (built : rulesFor c = .ok rules)
    (root : c.filesRoot.dropSlashes = .ok (spell ss)) (hs : AreSegments ss)
    (change : m = "PUT" ∨ m = "DELETE") (plain : Route.isRest y = true ∨ y = []) :
    ∃ t, (Route.lookup rules m (spell ss ++ '/' :: y)).target = some t := by
  obtain ⟨rootThere, belowThere, _⟩ := rules_of_files built root hs
  have split := splitAll_below_root hs y
  rcases plain with rest | rfl
  · have whole := Text.joinWith_splitAll '/' y
    have takes := @Route.Takes.behind (belowRule ss) ([] :: ss) (Text.splitAll '/' y) rfl
      (Text.splitAll_ne_nil '/' y) (whole.symm ▸ rest)
    rw [List.cons_append, ← split] at takes
    exact Route.exists_lookup belowThere (fileMethods_contains change) takes
  · have takes : Route.Takes (rootRule ss) (rootRule ss).segments
        (Text.splitAll '/' (spell ss ++ ['/'])) [] := by
      rw [split]
      exact .whole rfl
    exact Route.exists_lookup rootThere (fileMethods_contains change) takes

/-- A request that changes files goes to them if its path is one that a rule can take. -/
theorem forFiles_of_isRest (rules : rulesFor c = .ok s.rules)
    (root : c.filesRoot.dropSlashes = .ok (spell ss)) (hs : AreSegments ss)
    (path : r.path = spell ss ++ '/' :: y) (change : r.method = "PUT" ∨ r.method = "DELETE")
    (plain : Route.isRest y = true ∨ y = []) : s.ForFiles r y := by
  obtain ⟨_, _, only⟩ := rules_of_files rules root hs
  obtain ⟨y', once, _, same⟩ := below_root hs y
  obtain rfl := same (head_of_isRest plain)
  obtain ⟨t, found⟩ := exists_takes rules root hs change plain
  obtain ⟨rule, there, allowed, target⟩ := Route.lookup_eq_some found
  have files : rule = rootRule ss ∨ rule = belowRule ss := by
    refine only rule there (.inr ?_)
    rcases change with h | h
    · exact .inl (h ▸ allowed)
    · exact .inr (h ▸ allowed)
  rcases target with ⟨rest, rfl, takes⟩ | ⟨_, strict, fixed⟩
  · refine ⟨rule, ?_, ?_⟩
    · rcases files with rfl | rfl <;> rfl
    · rw [path, Route.resolve_eq_rule_iff, once, found]
      rw [splitAll_below_root hs] at takes
      rcases rest_of_takes files takes with rfl | ⟨rfl, _⟩
      · rfl
      · simp [Route.isRest] at plain
  · rcases files with rfl | rfl
    · cases strict
    · cases fixed

/-- No rule but those of the files can take a path below their root. -/
def Alone (rules : List Route.Rule) (ss : List Path) : Prop :=
  ∀ rule ∈ rules, rule.endpoint ≠ .files → ∀ parts, [] :: ss <+: parts →
    ¬ rule.segments <+: parts ∧ rule.segments ≠ parts ++ [[]]

theorem ForFiles.of_method {r' : Asked} (rules : rulesFor c = .ok s.rules)
    (root : c.filesRoot.dropSlashes = .ok (spell ss)) (hs : AreSegments ss)
    (alone : Alone s.rules ss) (files : s.ForFiles r rest) (path : r'.path = r.path)
    (method : fileMethods.contains r'.method = true) : s.ForFiles r' rest := by
  obtain ⟨rule, endpoint, routed⟩ := files
  obtain ⟨_, _, only⟩ := rules_of_files rules root hs
  have methods (rule : Route.Rule) (there : rule ∈ s.rules) (files : rule.endpoint = .files) :
      rule.methods = fileMethods := by
    rcases only rule there (.inl files) with rfl | rfl
    · rfl
    · rfl
  rw [Route.resolve_eq_rule_iff] at routed
  obtain ⟨rule, there, allowed, ⟨rest, found, takes⟩ | ⟨found, _⟩⟩ := Route.lookup_eq_some routed
  · cases found
    have begins := begins_of_takes (only rule there (.inl endpoint)) takes
    refine ⟨rule, endpoint, ?_⟩
    rw [path, Route.resolve_eq_rule_iff, ← routed]
    congr 1
    apply Route.lookup_congr
    intro other mem near
    have files : other.endpoint = .files := by
      refine Classical.byContradiction fun stranger => ?_
      obtain ⟨shorter, longer⟩ := alone other mem stranger _ begins
      exact near.elim shorter longer
    rw [methods rule there endpoint] at allowed
    rw [methods other mem files, method, allowed]
  · cases found

end Server
end FileGate
