import Mathlib.Data.List.Find
import FileGate.Server.Route

namespace FileGate.Route

/-- A rule that has these segments left takes the rest of a path, and the last text belongs to it.
-/
inductive Takes (r : Rule) : List Segment → List Segment → List Char → Prop where
  | whole {l : List Segment} (fixed : r.tail = false) : Takes r l l []
  /-- The path lacks a slash at its end. -/
  | lacking {parts : List Segment} (fixed : r.tail = false) (loose : r.strict = false) :
    Takes r (parts ++ [[]]) parts []
  /-- The path has a slash more at its end. -/
  | extra {l : List Segment} (fixed : r.tail = false) (loose : r.strict = false) :
    Takes r l (l ++ [[]]) []
  | behind {l parts : List Segment} (open_ : r.tail = true) (more : parts ≠ [])
    (rest : isRest (Text.joinWith ['/'] parts) = true) :
    Takes r l (l ++ parts) (Text.joinWith ['/'] parts)

section
variable {m : String} {s : State} {r : Rule} {rs : List Rule} {l parts : List Segment}
variable {part : Segment} {rest : List Char} {t : Target}

theorem Takes.cons (takes : Takes r l parts rest) (part : Segment) :
    Takes r (part :: l) (part :: parts) rest := by
  cases takes with
  | whole fixed => exact .whole fixed
  | @lacking parts fixed loose => exact @Takes.lacking r (part :: parts) fixed loose
  | extra fixed loose => exact .extra (l := part :: l) fixed loose
  | behind open_ more rest => exact .behind (l := part :: l) open_ more rest

theorem Takes.of_nil (takes : Takes r l [] rest) :
    r.tail = false ∧ (l = [] ∨ l = [[]] ∧ r.strict = false) := by
  -- The path is an index of `Takes`; the cases need a variable in its place.
  generalize empty : ([] : List Segment) = parts at takes
  cases takes with
  | whole fixed =>
    subst empty
    exact ⟨fixed, .inl rfl⟩
  | lacking fixed loose =>
    subst empty
    exact ⟨fixed, .inr ⟨rfl, loose⟩⟩
  | extra fixed loose => simp at empty
  | behind open_ more rest => exact absurd (List.append_eq_nil_iff.mp empty.symm).2 more

theorem Takes.near (takes : Takes r l parts rest) : l <+: parts ∨ l = parts ++ [[]] := by
  cases takes with
  | whole fixed => exact .inl List.prefix_rfl
  | lacking fixed loose => exact .inr rfl
  | extra fixed loose => exact .inl (List.prefix_append _ _)
  | behind open_ more rest => exact .inl (List.prefix_append _ _)

theorem Takes.rest_cases (takes : Takes r l parts rest) : rest = [] ∨ isRest rest = true := by
  cases takes with
  | whole fixed => exact .inl rfl
  | lacking fixed loose => exact .inl rfl
  | extra fixed loose => exact .inl rfl
  | behind open_ more rest => exact .inr rest

theorem Takes.of_cons (takes : Takes r l (part :: parts) rest) :
    (∃ l', l = part :: l' ∧ Takes r l' parts rest) ∨
      (l = [] ∧ r.tail = false ∧ r.strict = false ∧ part = [] ∧ parts = []) ∨
      (l = [] ∧ r.tail = true ∧ isRest (Text.joinWith ['/'] (part :: parts)) = true) := by
  generalize whole : part :: parts = all at takes
  cases takes with
  | whole fixed => exact .inl ⟨parts, whole.symm, .whole fixed⟩
  | lacking fixed loose =>
    subst whole
    exact .inl ⟨parts ++ [[]], rfl, .lacking fixed loose⟩
  | extra fixed loose =>
    cases l with
    | nil =>
      obtain ⟨rfl, rfl⟩ := List.cons.inj whole
      exact .inr (.inl ⟨rfl, fixed, loose, rfl, rfl⟩)
    | cons p l =>
      obtain ⟨rfl, rfl⟩ := List.cons.inj whole
      exact .inl ⟨l, rfl, .extra fixed loose⟩
  | behind open_ more rest =>
    cases l with
    | nil =>
      rw [List.nil_append] at whole
      subst whole
      exact .inr (.inr ⟨rfl, open_, rest⟩)
    | cons p l =>
      obtain ⟨rfl, rfl⟩ := List.cons.inj whole
      exact .inl ⟨l, rfl, .behind open_ more rest⟩

theorem mem_step : (l, r) ∈ step part s ↔ (part :: l, r) ∈ s := by
  simp only [step, List.mem_filterMap, Prod.exists]
  constructor
  · rintro ⟨k, r', there, h⟩
    split at h
    · cases h
    · rename_i p ps
      by_cases same : p = part
      · simp only [same, beq_self_eq_true, if_true, Option.some.injEq, Prod.mk.injEq] at h
        obtain ⟨rfl, rfl⟩ := h
        exact same ▸ there
      · simp [same] at h
  · exact fun there => ⟨part :: l, r, there, by simp⟩

theorem mem_ended : r ∈ ended s ↔ ([], r) ∈ s ∧ r.tail = false := by
  simp only [ended, List.mem_map, List.mem_filter, Bool.and_eq_true, List.isEmpty_iff,
    Bool.not_eq_true']
  constructor
  · rintro ⟨⟨l, r⟩, ⟨there, rfl, fixed⟩, rfl⟩
    exact ⟨there, fixed⟩
  · rintro ⟨there, fixed⟩
    exact ⟨([], r), ⟨there, rfl, fixed⟩, rfl⟩

theorem mem_tails : r ∈ tails s ↔ ([], r) ∈ s ∧ r.tail = true := by
  simp only [tails, List.mem_map, List.mem_filter, Bool.and_eq_true, List.isEmpty_iff]
  constructor
  · rintro ⟨⟨l, r⟩, ⟨there, rfl, open_⟩, rfl⟩
    exact ⟨there, open_⟩
  · rintro ⟨there, open_⟩
    exact ⟨([], r), ⟨there, rfl, open_⟩, rfl⟩

theorem Found.orElse_eq_some {a b : Found} (h : (a.orElse b).target = some t) :
    a.target = some t ∨ b.target = some t := by
  unfold Found.orElse at h
  split at h
  · exact .inl h
  · exact .inr h

theorem Found.isSome_orElse {a b : Found} :
    (a.orElse b).target.isSome = true ↔ a.target.isSome = true ∨ b.target.isSome = true := by
  unfold Found.orElse
  by_cases found : a.target.isSome = true
  · simp [found]
  · simp [found]

theorem pick_eq_some (h : (pick m rest rs).target = some t) :
    ∃ r ∈ rs, r.methods.contains m = true ∧ t = .rule r rest := by
  induction rs with
  | nil => cases h
  | cons r rs ih =>
    rw [pick] at h
    split at h
    · rename_i allowed
      cases h
      exact ⟨r, List.mem_cons_self, allowed, rfl⟩
    · obtain ⟨r', there, allowed, same⟩ := ih h
      exact ⟨r', List.mem_cons_of_mem r there, allowed, same⟩

theorem isSome_pick (there : r ∈ rs) (allowed : r.methods.contains m = true) :
    (pick m rest rs).target.isSome = true := by
  induction rs with
  | nil => cases there
  | cons r' rs ih =>
    rw [pick]
    split
    · rfl
    · rename_i other
      rcases List.mem_cons.mp there with rfl | there
      · exact absurd allowed other
      · exact ih there

theorem withSlash_eq_some (h : (withSlash m s).target = some t) :
    ∃ r, ([[]], r) ∈ s ∧ r.tail = false ∧ r.methods.contains m = true ∧
      t = if r.strict then .slash else .rule r [] := by
  unfold withSlash at h
  split at h
  · rename_i r found
    cases h
    obtain ⟨there, fixed⟩ := mem_ended.mp (List.mem_of_find?_eq_some found)
    have allowed := List.find?_some found
    exact ⟨r, mem_step.mp there, fixed, allowed, rfl⟩
  · cases h

theorem isSome_withSlash (there : ([[]], r) ∈ s) (fixed : r.tail = false)
    (allowed : r.methods.contains m = true) : (withSlash m s).target.isSome = true := by
  unfold withSlash
  have last : r ∈ ended (step [] s) := mem_ended.mpr ⟨mem_step.mpr there, fixed⟩
  split
  · rfl
  · rename_i none_
    exact absurd allowed (List.find?_eq_none.mp none_ r last)

theorem search_eq_some (h : (search m s parts).target = some t) :
    ∃ r l, (l, r) ∈ s ∧ r.methods.contains m = true ∧
      ((∃ rest, t = .rule r rest ∧ Takes r l parts rest) ∨
        t = .slash ∧ r.strict = true ∧ r.tail = false ∧ l = parts ++ [[]]) := by
  -- On the path, for every state: a step takes the first segment off the path and off the rules.
  induction parts generalizing s with
  | nil =>
    rw [search] at h
    rcases Found.orElse_eq_some h with h | h
    · obtain ⟨r, there, allowed, rfl⟩ := pick_eq_some h
      obtain ⟨there, fixed⟩ := mem_ended.mp there
      exact ⟨r, [], there, allowed, .inl ⟨[], rfl, .whole fixed⟩⟩
    · obtain ⟨r, there, fixed, allowed, rfl⟩ := withSlash_eq_some h
      refine ⟨r, [[]], there, allowed, ?_⟩
      cases strict : r.strict with
      | true => exact .inr ⟨rfl, rfl, fixed, rfl⟩
      | false => exact .inl ⟨[], rfl, @Takes.lacking r [] fixed strict⟩
  | cons part parts ih =>
    rw [search] at h
    rcases Found.orElse_eq_some h with h | h
    · rcases Found.orElse_eq_some h with h | h
      · split at h
        · cases h
        · obtain ⟨r, l, there, allowed, found⟩ := ih h
          refine ⟨r, part :: l, mem_step.mp there, allowed, ?_⟩
          rcases found with ⟨rest, same, takes⟩ | ⟨same, strict, fixed, rfl⟩
          · exact .inl ⟨rest, same, takes.cons part⟩
          · exact .inr ⟨same, strict, fixed, rfl⟩
      · split at h
        · rename_i rest
          obtain ⟨r, there, allowed, rfl⟩ := pick_eq_some h
          obtain ⟨there, open_⟩ := mem_tails.mp there
          have takes := Takes.behind (l := []) open_ (List.cons_ne_nil part parts) rest
          exact ⟨r, [], there, allowed, .inl ⟨_, rfl, takes⟩⟩
        · cases h
    · split at h
      · rename_i last
        obtain ⟨r, there, allowed, rfl⟩ := pick_eq_some h
        simp only [Bool.and_eq_true, List.isEmpty_iff] at last
        obtain ⟨rfl, rfl⟩ := last
        obtain ⟨there, loose⟩ := List.mem_filter.mp there
        obtain ⟨there, fixed⟩ := mem_ended.mp there
        have takes := Takes.extra (l := []) fixed (by simpa using loose)
        exact ⟨r, [], there, allowed, .inl ⟨_, rfl, takes⟩⟩
      · cases h

theorem isSome_search_step (there : (l, r) ∈ step part s)
    (found : (search m (step part s) parts).target.isSome = true) :
    (search m s (part :: parts)).target.isSome = true := by
  have some_ : (step part s).isEmpty = false := by
    rw [List.isEmpty_eq_false_iff]
    exact List.ne_nil_of_mem there
  rw [search, some_]
  exact Found.isSome_orElse.mpr (.inl (Found.isSome_orElse.mpr (.inl found)))

theorem isSome_search_extra (there : ([], r) ∈ s) (fixed : r.tail = false)
    (loose : r.strict = false) (allowed : r.methods.contains m = true) :
    (search m s [[]]).target.isSome = true := by
  have last : r ∈ (ended s).filter (!·.strict) :=
    List.mem_filter.mpr ⟨mem_ended.mpr ⟨there, fixed⟩, by simp [loose]⟩
  rw [search]
  exact Found.isSome_orElse.mpr (.inr (isSome_pick last allowed))

theorem isSome_search_behind (there : ([], r) ∈ s) (open_ : r.tail = true)
    (rest : isRest (Text.joinWith ['/'] (part :: parts)) = true)
    (allowed : r.methods.contains m = true) :
    (search m s (part :: parts)).target.isSome = true := by
  have last : r ∈ tails s := mem_tails.mpr ⟨there, open_⟩
  rw [search, if_pos rest]
  exact Found.isSome_orElse.mpr (.inl (Found.isSome_orElse.mpr (.inr (isSome_pick last allowed))))

theorem isSome_search (there : (l, r) ∈ s) (allowed : r.methods.contains m = true)
    (takes : Takes r l parts rest) : (search m s parts).target.isSome = true := by
  induction parts generalizing s l with
  | nil =>
    obtain ⟨fixed, rfl | ⟨rfl, _⟩⟩ := takes.of_nil
    · exact Found.isSome_orElse.mpr (.inl (isSome_pick (mem_ended.mpr ⟨there, fixed⟩) allowed))
    · exact Found.isSome_orElse.mpr (.inr (isSome_withSlash there fixed allowed))
  | cons part parts ih =>
    rcases takes.of_cons with ⟨l, rfl, next⟩ | ⟨rfl, fixed, loose, rfl, rfl⟩ | ⟨rfl, open_, rest⟩
    · have left := mem_step.mpr there
      exact isSome_search_step left (ih left next)
    · exact isSome_search_extra there fixed loose allowed
    · exact isSome_search_behind there open_ rest allowed

theorem lookup_eq_some {rules : List Rule} {path : List Char}
    (h : (lookup rules m path).target = some t) :
    ∃ r ∈ rules, r.methods.contains m = true ∧
      ((∃ rest, t = .rule r rest ∧ Takes r r.segments (Text.splitAll '/' path) rest) ∨
        t = .slash ∧ r.strict = true ∧ r.tail = false) := by
  obtain ⟨r, l, there, allowed, found⟩ := search_eq_some h
  obtain ⟨_, mem, same⟩ := List.mem_map.mp there
  cases same
  exact ⟨r, mem, allowed, found.imp_right fun ⟨same, strict, fixed, _⟩ => ⟨same, strict, fixed⟩⟩

theorem exists_lookup {rules : List Rule} {path : List Char} (there : r ∈ rules)
    (allowed : r.methods.contains m = true)
    (takes : Takes r r.segments (Text.splitAll '/' path) rest) :
    ∃ t, (lookup rules m path).target = some t :=
  Option.isSome_iff_exists.mp (isSome_search (List.mem_map_of_mem there) allowed takes)

theorem resolve_eq_rule_iff {rules : List Rule} {path : List Char} :
    resolve rules m path = .rule r rest ↔
      (lookup rules m ('/' :: path.dropWhile (· == '/'))).target = some (.rule r rest) := by
  unfold resolve
  dsimp only
  constructor
  · intro h
    split at h
    · rename_i found
      cases h
      exact found
    · cases h
    · split at h
      · cases h
      · cases h
      · split at h
        · cases h
        · cases h
  · intro h
    rw [h]

/-! ### Methods that are alike -/

variable {m' : String}

theorem pick_congr (rest : List Char)
    (alike : ∀ r ∈ rs, r.methods.contains m = r.methods.contains m') :
    pick m rest rs = pick m' rest rs := by
  induction rs with
  | nil => rfl
  | cons r rs ih =>
    have first := alike r List.mem_cons_self
    have others := ih fun r hr => alike r (List.mem_cons_of_mem _ hr)
    simp only [pick, first, others]

theorem withSlash_congr
    (alike : ∀ r, ([[]], r) ∈ s → r.methods.contains m = r.methods.contains m') :
    withSlash m s = withSlash m' s := by
  have wanted : (ended (step [] s)).find? (fun r => r.methods.contains m) =
      (ended (step [] s)).find? (fun r => r.methods.contains m') := by
    apply List.find?_congr
    intro r hr
    exact alike r (mem_step.mp (mem_ended.mp hr).1)
  unfold withSlash
  rw [wanted]

/-- Only rules that begin the path, or are the path with a slash more, say what is found for it. -/
theorem search_congr
    (alike : ∀ l r, (l, r) ∈ s → l <+: parts ∨ l = parts ++ [[]] →
      r.methods.contains m = r.methods.contains m') :
    search m s parts = search m' s parts := by
  induction parts generalizing s with
  | nil =>
    have here : pick m [] (ended s) = pick m' [] (ended s) :=
      pick_congr [] fun r hr => alike [] r (mem_ended.mp hr).1 (.inl List.nil_prefix)
    have slash : withSlash m s = withSlash m' s :=
      withSlash_congr fun r hr => alike [[]] r hr (.inr rfl)
    simp only [search, here, slash]
  | cons part parts ih =>
    have fixed : search m (step part s) parts = search m' (step part s) parts := by
      apply ih
      intro l r there begins
      refine alike (part :: l) r (mem_step.mp there) ?_
      rcases begins with before | whole
      · exact .inl ((List.prefix_cons_inj part).mpr before)
      · exact .inr (by rw [whole, List.cons_append])
    have behind (rest : List Char) : pick m rest (tails s) = pick m' rest (tails s) :=
      pick_congr rest fun r hr => alike [] r (mem_tails.mp hr).1 (.inl List.nil_prefix)
    have loose : pick m [] ((ended s).filter (!·.strict)) =
        pick m' [] ((ended s).filter (!·.strict)) := by
      apply pick_congr
      intro r hr
      exact alike [] r (mem_ended.mp (List.mem_filter.mp hr).1).1 (.inl List.nil_prefix)
    simp only [search, fixed, behind, loose]

theorem lookup_congr {rules : List Rule} {path : List Char}
    (alike : ∀ r ∈ rules, r.segments <+: Text.splitAll '/' path ∨
      r.segments = Text.splitAll '/' path ++ [[]] →
      r.methods.contains m = r.methods.contains m') :
    lookup rules m path = lookup rules m' path := by
  apply search_congr
  intro l r there begins
  obtain ⟨r, mem, same⟩ := List.mem_map.mp there
  cases same
  exact alike r mem begins

theorem resolve_congr {rules : List Rule}
    (alike : ∀ r ∈ rules, r.methods.contains m = r.methods.contains m') (path : List Char) :
    resolve rules m path = resolve rules m' path := by
  have same (path : List Char) : lookup rules m path = lookup rules m' path :=
    lookup_congr fun r hr _ => alike r hr
  simp only [resolve, same]

end
end FileGate.Route
