import FileGate.PathRule

namespace FileGate

namespace Pattern

def reachAll (ps : List Pattern) (l : List Place) : List Place := ps.foldl (fun l p => p.reach l) l

theorem reach_joined (items : List (Standing × Pattern)) (l : List Place) :
    (joined items).reach l = reachAll (items.map (·.2)) l := by
  induction items generalizing l with
  | nil => rfl
  | cons i items ih =>
    cases items with
    | nil => rfl
    | cons j items => exact ih (i.2.reach l)

theorem char_holds (c d : Char) (inverted : Bool) :
    Class.holds ⟨[.range c c], inverted, false, false⟩ d = ((d == c) != inverted) := by
  have same : (decide (c ≤ d) && decide (d ≤ c)) = (d == c) := by
    rw [Bool.eq_iff_iff, Bool.and_eq_true, decide_eq_true_eq, decide_eq_true_eq, beq_iff_eq]
    exact ⟨fun h => Char.le_antisymm h.2 h.1, fun h => h ▸ ⟨Char.le_refl d, Char.le_refl d⟩⟩
  simp [Class.holds, Member.holds, same]

theorem reach_char (c : Char) (n : Nat) (b : Option Char) (s : List Char) :
    (char {} c).reach [⟨n, b, c :: s⟩] = [⟨n + 1, some c, s⟩] := by
  simp [char, single, reach, Place.next?, char_holds]

theorem reach_char_of_ne {c d : Char} (h : c ≠ d) (n : Nat) (b : Option Char) (s : List Char) :
    (char {} c).reach [⟨n, b, d :: s⟩] = [] := by
  simp [char, single, reach, Place.next?, char_holds, Ne.symm h]

theorem reachAll_nil (word : List Char) : reachAll (word.map (char {})) [] = [] := by
  induction word with
  | nil => rfl
  | cons c word ih => exact ih

theorem reachAll_word (word : List Char) (n : Nat) (b : Option Char) (s : List Char) :
    reachAll (word.map (char {})) [⟨n, b, s⟩] =
      if word.isPrefixOf s then
        [⟨n + word.length, word.foldl (fun _ c => some c) b, s.drop word.length⟩]
      else [] := by
  induction word generalizing n b s with
  | nil => simp [reachAll]
  | cons c word ih =>
    cases s with
    | nil =>
      have none_ : (char {} c).reach [⟨n, b, []⟩] = [] := by
        simp [char, single, reach, Place.next?]
      rw [List.map_cons, reachAll, List.foldl_cons, none_]
      exact reachAll_nil word
    | cons d s =>
      rw [List.map_cons, reachAll, List.foldl_cons]
      by_cases h : c = d
      · subst h
        rw [reach_char]
        have rest := ih (n + 1) (some c) s
        rw [reachAll] at rest
        rw [rest]
        simp [Nat.add_assoc, Nat.add_comm 1]
      · rw [reach_char_of_ne h]
        have nowhere := reachAll_nil word
        rw [reachAll] at nowhere
        rw [nowhere]
        simp [h]

theorem places_after (n : Nat) (c : Char) (s : List Char) :
    (start false).reach (places n (some c) s) = [] := by
  induction s generalizing n c with
  | nil => rfl
  | cons d s ih => exact ih (n + 1) d

theorem reach_start (s : List Char) : (start false).reach (places 0 none s) = [⟨0, none, s⟩] := by
  cases s with
  | nil => rfl
  | cons c s => exact congrArg (⟨0, none, c :: s⟩ :: ·) (places_after 1 c s)

/-- The pattern of a text that begins with a word and goes on as `more` says. -/
def anchored (word : List Char) (more : List Pattern) : Pattern :=
  joined ((.place, .start false) ::
    ((word.map (char {})) ++ more).map fun p => (Standing.plain, p))

theorem reach_anchored (word : List Char) (more : List Pattern) (s : List Char) :
    (anchored word more).reach (places 0 none s) = reachAll more (if word.isPrefixOf s then
      [⟨word.length, word.foldl (fun _ c => some c) none, s.drop word.length⟩] else []) := by
  have items : (((word.map (char {})) ++ more).map fun p => (Standing.plain, p)).map (·.2) =
      word.map (char {}) ++ more := by
    rw [List.map_map]
    exact List.map_id _
  rw [anchored, reach_joined, List.map_cons, items, reachAll, List.foldl_cons, reach_start,
    List.foldl_append]
  have word_ := reachAll_word word 0 none s
  rw [reachAll] at word_
  rw [word_, Nat.zero_add]
  rfl

theorem found_word (word s : List Char) : (anchored word []).found s = word.isPrefixOf s := by
  rw [found, reach_anchored]
  cases h : word.isPrefixOf s <;> simp [reachAll]

def anyOnLine : Pattern := .one ⟨[.range '\n' '\n'], true, false, false⟩

theorem found_word_and_more (word s : List Char) :
    (anchored word [anyOnLine]).found s =
      (word.isPrefixOf s && (s.drop word.length).head?.any (· != '\n')) := by
  rw [found, reach_anchored]
  cases h : word.isPrefixOf s with
  | false => rfl
  | true =>
    cases hs : s.drop word.length with
    | nil => simp [reachAll, anyOnLine, reach, Place.next?]
    | cons c rest =>
      have differs := char_holds '\n' c true
      cases hc : c == '\n' <;>
        simp [reachAll, anyOnLine, reach, Place.next?, differs, hc, bne]

end Pattern

namespace PathRule

def sharesPath (path : List Char) : Bool :=
  "/api/v1/files/shares/".toList.isPrefixOf path && (path.drop 21).head?.any (· != '\n')

/-- By the rule that is used unless the configuration says otherwise, all files need a token but
those of the shares. -/
theorem requiresAuthorization_default (path : String) :
    ({} : PathRule).requiresAuthorization path =
      .ok (!sharesPath path.toList && "/api/v1/files".toList.isPrefixOf path.toList) := by
  have closed : Pattern.read "^/api/v1/files".toList =
    .ok (Pattern.anchored "/api/v1/files".toList []) := rfl
  have open_ : Pattern.read "^/api/v1/files/shares/.".toList =
    .ok (Pattern.anchored "/api/v1/files/shares/".toList [Pattern.anyOnLine]) := rfl
  have shares : occurs (.text "^/api/v1/files/shares/.") path = .ok (sharesPath path.toList) := by
    rw [occurs, Patterns.known, open_]
    exact congrArg Except.ok (Pattern.found_word_and_more _ _)
  have files : occurs (.text "^/api/v1/files") path =
      .ok ("/api/v1/files".toList.isPrefixOf path.toList) := by
    rw [occurs, Patterns.known, closed]
    exact congrArg Except.ok (Pattern.found_word _ _)
  rw [requiresAuthorization, shares, files]
  cases sharesPath path.toList <;> rfl

end PathRule
end FileGate
