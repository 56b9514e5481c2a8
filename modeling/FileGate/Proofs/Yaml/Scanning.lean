import FileGate.Proofs.Yaml.Reading
import FileGate.Yaml.Layout

namespace FileGate.Yaml

variable {s : Source} {f : Failure}

/-! ### Names, tags and directives -/

theorem anchorName_leaves (s : Source) : Leaves s (anchorName s) := by
  unfold anchorName
  exact .ite (fun _ => .malformed) fun _ => .ok (s.upTo_suffix isNameChar)

theorem escapedBytes_leaves : ∀ s : Source, Leaves s (escapedBytes s)
  | [] => .done _
  | [_] => .ite (fun _ => Leaves.done _) fun _ => .malformed
  | [_, _] => .ite (fun _ => Leaves.done _) fun _ => .malformed
  | p :: a :: b :: s => by
    have passed : s <:+ p :: a :: b :: s := List.suffix_append [p, a, b] s
    rw [escapedBytes]
    refine .ite (fun _ => Leaves.done _) fun _ => ?_
    split
    · exact ((escapedBytes_leaves s).within passed).map fun _ => rfl
    · exact .malformed

theorem tagChars_leaves (fuel : Nat) (s : Source) : Leaves s (tagChars fuel s) := by
  induction fuel generalizing s with
  | zero => exact .done _
  | succ fuel ih =>
    rw [tagChars]
    refine Leaves.within (r := (s.upTo isTagChar).2) ?_ (s.upTo_suffix isTagChar)
    refine .ite (fun _ => Leaves.done _) fun _ => (escapedBytes_leaves _).andThen fun bytes r => ?_
    dsimp only
    split
    · exact .malformed
    · exact (ih r).andThen fun _ _ => .done _

theorem tagText_leaves (s : Source) : Leaves s (tagText s) := by
  unfold tagText
  exact (tagChars_leaves _ s).andThen fun _ _ => .ite (fun _ => .malformed) fun _ => Leaves.done _

theorem tagHandle_leaves (s : Source) : Leaves s (tagHandle s) := by
  unfold tagHandle
  split
  · exact .malformed
  · rename_i p r
    have passed : r <:+ p :: r := List.suffix_cons p r
    have name := (Source.upTo_suffix isNameChar r).trans passed
    exact .ite (fun _ => .malformed) fun _ => .ite (fun _ => .ok passed) fun _ =>
      .ite (fun _ => .ok ((List.tail_suffix _).trans name)) fun _ => .malformed

theorem tag_leaves (mark : Spot) (s : Source) : Leaves (mark :: s) (tag mark s) := by
  have passed : s <:+ mark :: s := List.suffix_cons mark s
  unfold tag
  extract_lets finish word further
  have ends (a : Token × Source) : Leaves a.2 (finish a) :=
    .ite (fun _ => Leaves.done _) fun _ => .malformed
  refine .ite (fun _ => ?_) fun _ => .ite (fun _ => (ends (_, s)).within passed) fun _ => ?_
  · have inside : s.tail <:+ mark :: s := (List.tail_suffix s).trans passed
    refine ((tagText_leaves s.tail).andThen fun suffix r => ?_).within inside
    exact .ite (fun _ => .malformed) fun _ =>
      (ends (Token.tag none suffix, r.tail)).within (List.tail_suffix r)
  · have goOn (x : Except Fault (List Char × Source)) (h : Leaves (mark :: s) x) :
        Leaves (mark :: s) (x >>= further) :=
      h.andThen fun handle r => (tagText_leaves r).andThen fun suffix r =>
        ends (Token.tag (some handle) suffix, r)
    exact .ite (fun _ => goOn _ (tagHandle_leaves (mark :: s))) fun _ => goOn _ (.ok passed)

theorem versionNumber_leaves (s : Source) : Leaves s (versionNumber s) := by
  unfold versionNumber
  exact .ite (fun _ => .malformed) fun _ => .ok (s.upTo_suffix Char.isDigit)

theorem directive_leaves (s : Source) : Leaves s (directive s) := by
  have spaces (r : Source) : r.dropSpaces <:+ r := r.dropSpaces_suffix
  unfold directive
  refine Leaves.within (r := (s.upTo isNameChar).2) ?_ (s.upTo_suffix isNameChar)
  generalize s.upTo isNameChar = named
  obtain ⟨name, s⟩ := named
  refine .ite (fun _ => .malformed) fun _ => ?_
  extract_lets finish
  have ends (a : Directive × Source) : Leaves a.2 (finish a) :=
    (Source.dropComment_reads a.2).bind fun _ rest => .ok rest
  split
  · refine ((versionNumber_leaves s.dropSpaces).andThen fun major r => ?_).within (spaces s)
    refine .ite (fun _ => .malformed) fun _ => ?_
    refine ((versionNumber_leaves r.tail).andThen fun minor r => ?_).within (List.tail_suffix r)
    exact .ite (fun _ => .malformed) fun _ => ends (Directive.version major, r)
  · split
    · refine ((tagHandle_leaves s.dropSpaces).andThen fun handle r => ?_).within (spaces s)
      refine .ite (fun _ => .malformed) fun _ => ?_
      refine ((tagText_leaves r.dropSpaces).andThen fun meaning r => ?_).within (spaces r)
      exact .ite (fun _ => .malformed) fun _ => ends (Directive.handle handle meaning, r)
    · exact (ends (Directive.other, _)).within (List.dropWhile_suffix _)

/-! ### Layout -/

namespace Layout

theorem dropStale_keeps (p : Spot) (l : Layout) : Keeps (l.dropStale p) := by
  intro s
  unfold dropStale
  exact .ite (fun _ => .malformed) fun _ => .ok trivial

theorem dropCandidate_keeps (l : Layout) : Keeps l.dropCandidate := by
  intro s
  unfold dropCandidate
  split
  · exact .ite (fun _ => .malformed) fun _ => .ok trivial
  · exact .ok trivial

theorem addCandidate_keeps (p : Spot) (l : Layout) : Keeps (l.addCandidate p) := by
  intro s
  unfold addCandidate
  exact .ite (fun _ => .ok trivial) fun _ => (dropCandidate_keeps l s).bind fun _ _ => .ok trivial

theorem boundary_keeps (l : Layout) : Keeps l.boundary := fun s =>
  (dropCandidate_keeps _ s).bind fun _ _ => .ok trivial

theorem flowStart_keeps (t : Token) (p : Spot) (l : Layout) : Keeps (l.flowStart t p) := fun s =>
  (addCandidate_keeps p l s).bind fun _ _ => .ok trivial

theorem flowEnd_keeps (t : Token) (l : Layout) : Keeps (l.flowEnd t) := by
  intro s
  unfold flowEnd
  exact .ite (fun _ => .malformed) fun _ => (dropCandidate_keeps l s).bind fun _ _ => .ok trivial

theorem flowEntry_keeps (l : Layout) : Keeps l.flowEntry := fun s =>
  (dropCandidate_keeps l s).bind fun _ _ => .ok trivial

theorem blockEntry_keeps (p : Spot) (l : Layout) : Keeps (l.blockEntry p) := by
  intro s
  unfold blockEntry
  exact .ite (fun _ => .malformed) fun _ => (dropCandidate_keeps _ s).bind fun _ _ => .ok trivial

theorem key_keeps (p : Spot) (l : Layout) : Keeps (l.key p) := by
  intro s
  unfold key
  exact .ite (fun _ => .malformed) fun _ => (dropCandidate_keeps _ s).bind fun _ _ => .ok trivial

theorem value_keeps (p : Spot) (l : Layout) : Keeps (l.value p) := by
  intro s
  unfold value
  split
  · exact .ok trivial
  · exact .ite (fun _ => .malformed) fun _ => (dropCandidate_keeps _ s).bind fun _ _ => .ok trivial

theorem content_leaves {x : Except Fault (Token × Source)} (p : Spot) (l : Layout)
    (read : Leaves s x) : Leaves s (l.content p x) :=
  (addCandidate_keeps p l s).bind fun _ _ => read.andThen fun _ _ => .done _

theorem plainScalar_leaves (p : Spot) (s : Source) (l : Layout) : Leaves s (l.plainScalar p s) :=
  (addCandidate_keeps p l s).bind fun l _ =>
    .ok (plain_suffix (l.flow != 0) l.indent [] false (s.length + 1) s)

theorem blockScalar_leaves (folded : Bool) (s : Source) (l : Layout) :
    Leaves s (l.blockScalar folded s) :=
  (dropCandidate_keeps l s).bind fun l _ => (block_leaves folded l.indent s).andThen fun _ _ =>
    .done _

theorem next_leaves (p : Spot) (s : Source) (l : Layout) : Leaves (p :: s) (l.next p s) := by
  have passed : s <:+ p :: s := List.suffix_cons p s
  unfold next
  extract_lets flow here one mark named inMarks
  have kept {x : Except Fault Layout} (h : Keeps x) : Leaves here (one x) :=
    (h here).map fun _ _ => passed
  have marked (t : Token) : Leaves here (mark t) :=
    (boundary_keeps l here).map fun _ _ => List.drop_suffix 3 here
  have name (t : List Char → Token) : Leaves here (named t) :=
    content_leaves p l (((anchorName_leaves s).within passed).map fun _ => rfl)
  have marks (double : Bool) : Leaves here (inMarks double) :=
    content_leaves p l (((quoted_leaves double _ s).within passed).map fun _ => rfl)
  refine .ite (fun _ => ?_) fun _ => .ite (fun _ => marked _) fun _ => .ite (fun _ => marked _)
    fun _ => ?_
  · exact (boundary_keeps l here).bind fun l _ =>
      ((directive_leaves s).within passed).andThen fun _ _ => .done _
  · split
    · exact kept (flowStart_keeps _ p l)
    · exact kept (flowStart_keeps _ p l)
    · exact kept (flowEnd_keeps _ l)
    · exact kept (flowEnd_keeps _ l)
    · exact kept (flowEntry_keeps l)
    · exact name _
    · exact name _
    · exact content_leaves p l (tag_leaves p s)
    · exact marks false
    · exact marks true
    · exact .ite (fun _ => kept (blockEntry_keeps p l)) fun _ =>
        .ite (fun _ => kept (key_keeps p l)) fun _ =>
        .ite (fun _ => kept (value_keeps p l)) fun _ =>
        .ite (fun _ => (blockScalar_leaves false s l).within passed) fun _ =>
        .ite (fun _ => (blockScalar_leaves true s l).within passed) fun _ =>
        .ite (fun _ => plainScalar_leaves p here l) fun _ => .malformed

theorem run_reads (fuel : Nat) (s : Source) (l : Layout) :
    Reads s (fun _ => True) (run fuel s l) := by
  induction fuel generalizing s l with
  | zero => exact .malformed
  | succ fuel ih =>
    have rest := Source.skip_suffix false s
    rw [run]
    generalize Source.skip false s = skipped at rest ⊢
    obtain ⟨fresh, r⟩ := skipped
    cases r with
    | nil => exact boundary_keeps _ s
    | cons p r =>
      refine (dropStale_keeps p _ s).bind fun l _ => ?_
      refine ((next_leaves p r _).within rest).bind fun (l, r) left => ?_
      exact (ih r l).mono left fun _ h => h

end Layout

theorem Source.text_place (index line column : Nat) (s : List Char) :
    (Source.place index line column s).text = s := by
  induction s generalizing index line column with
  | nil => rfl
  | cons c s ih =>
    rw [Source.place, Source.text, List.map_cons]
    split
    · exact congrArg _ (ih ..)
    · exact congrArg _ (ih ..)

theorem Source.text_ofText_suffix (s : List Char) : Source.text (Source.ofText s) <:+ s := by
  have all := Source.text_place 0 0 0 s
  unfold Source.ofText
  split
  · rename_i p r placed
    rw [placed] at all
    split
    · rw [← all]
      exact (List.suffix_cons p r).map _
    · exact all ▸ List.suffix_refl _
  · exact List.nil_suffix

/-- A text that fails as tokens for another reason than its form has an escape in it that is no
character's. -/
theorem Token.farEscape_of_ofText {s : List Char}
    (failed : Token.ofText s = .error (.senseless f)) : FarEscape s f := by
  have reads : Reads (Source.ofText s) (fun _ => True) (Token.ofText s) :=
    (Layout.run_reads _ _ _).map fun _ _ => trivial
  rw [failed] at reads
  cases reads with
  | far h => exact h.mono (Source.text_ofText_suffix s).isInfix

end FileGate.Yaml
