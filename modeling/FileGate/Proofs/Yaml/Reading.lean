import FileGate.Yaml.Scalar
import Mathlib.Algebra.Group.Nat.Defs
import Mathlib.Data.List.Infix

/-! What reading a part of a text leaves, and how it fails. Every reader leaves an end of what it
was given, and refuses it for its form, or for an escape in it whose number is no character's. Here
are the judgement and the readers of scalars. -/
namespace FileGate.Yaml

variable {α β : Type} {s r : Source} {f : Failure}

def hexCode? (ds : List Char) : Option Nat :=
  (ds.mapM Bytes.hexValue?).map (·.foldl (fun m d => m * 16 + d) 0)

/-- A text with an escape of eight digits whose number is no character's, and what comes of it. -/
def FarEscape (s : List Char) (f : Failure) : Prop :=
  ∃ ds n, '\\' :: 'U' :: ds <:+: s ∧ ds.length = 8 ∧ hexCode? ds = some n ∧
    ofCode n = .error (.senseless f)

/-- What comes of reading `s`: something of a kind, or a failure that the text is a reason for. -/
inductive Reads (s : Source) (kind : α → Prop) : Except Fault α → Prop where
  | ok {a : α} (h : kind a) : Reads s kind (.ok a)
  | malformed : Reads s kind (.error .malformed)
  | far {f : Failure} (h : FarEscape s.text f) : Reads s kind (.error (.senseless f))

abbrev Leaves (s : Source) (x : Except Fault (α × Source)) : Prop :=
  Reads s (fun a => a.2 <:+ s) x

/-- Nothing of the text is used up, and nothing in it can be a reason for a failure. -/
abbrev Keeps (x : Except Fault α) : Prop := ∀ s : Source, Reads s (fun _ => True) x

theorem FarEscape.mono {s t : List Char} (h : FarEscape s f) (within : s <:+: t) :
    FarEscape t f := by
  obtain ⟨ds, n, escape, digits, code, none_⟩ := h
  exact ⟨ds, n, escape.trans within, digits, code, none_⟩

namespace Reads

variable {P Q : α → Prop} {x : Except Fault α}

theorem mono (h : Reads r P x) (rest : r <:+ s) (weaken : ∀ a, P a → Q a) : Reads s Q x := by
  cases h with
  | ok h => exact .ok (weaken _ h)
  | malformed => exact .malformed
  | far h => exact .far (h.mono (rest.isInfix.map _))

theorem bind {R : β → Prop} {k : α → Except Fault β} (h : Reads s P x)
    (next : ∀ a, P a → Reads s R (k a)) : Reads s R (x >>= k) := by
  cases h with
  | ok h => exact next _ h
  | malformed => exact .malformed
  | far h => exact .far h

theorem map {R : β → Prop} {g : α → β} (h : Reads s P x) (next : ∀ a, P a → R (g a)) :
    Reads s R (x.map g) := by
  cases h with
  | ok h => exact .ok (next _ h)
  | malformed => exact .malformed
  | far h => exact .far h

theorem ite {c : Prop} [Decidable c] {y : Except Fault α} (yes : c → Reads s P x)
    (no : ¬c → Reads s P y) : Reads s P (if c then x else y) := by
  split
  · exact yes ‹c›
  · exact no ‹¬c›

end Reads

namespace Leaves

variable {x : Except Fault (α × Source)}

theorem done (a : α) : Leaves s (.ok (a, s)) := .ok (List.suffix_refl s)

theorem within (h : Leaves r x) (rest : r <:+ s) : Leaves s x :=
  h.mono rest fun _ left => left.trans rest

theorem andThen {k : α × Source → Except Fault (β × Source)} (h : Leaves s x)
    (next : ∀ a r, Leaves r (k (a, r))) : Leaves s (x >>= k) :=
  h.bind fun (a, r) rest => (next a r).within rest

theorem map {g : α × Source → β × Source} (h : Leaves s x) (same : ∀ a, (g a).2 = a.2) :
    Leaves s (x.map g) :=
  Reads.map h fun a rest => by rwa [same a]

end Leaves

namespace Source

theorem upTo_suffix (p : Char → Bool) (s : Source) : (s.upTo p).2 <:+ s := List.dropWhile_suffix _

theorem dropSpaces_suffix (s : Source) : s.dropSpaces <:+ s := List.dropWhile_suffix _

theorem lineBreak_suffix (s : Source) : s.lineBreak.2 <:+ s := by
  unfold lineBreak
  split
  · exact List.suffix_refl _
  · split
    · exact List.suffix_cons _ _
    · exact List.suffix_refl _

theorem dropComment_reads (s : Source) : Reads s (· <:+ s) s.dropComment := by
  unfold dropComment
  extract_lets spaced rest
  have inside : rest <:+ s := by
    refine List.IsSuffix.trans ?_ (dropSpaces_suffix s)
    unfold rest
    split
    · exact List.dropWhile_suffix _
    · exact List.suffix_refl _
  split
  · exact .ok ((lineBreak_suffix rest).trans inside)
  · exact .malformed

theorem skip_suffix (comment : Bool) (s : Source) : (skip comment s).2 <:+ s := by
  fun_induction skip comment s with
  | case1 => exact List.suffix_refl _
  | case2 _ p s _ ih => exact ih.trans (List.suffix_cons p s)
  | case3 _ p s _ _ ih => exact ih.trans (List.suffix_cons p s)
  | case4 _ p s _ _ _ ih => exact ih.trans (List.suffix_cons p s)
  | case5 => exact List.suffix_refl _

end Source

/-! ### Quoted scalars -/

theorem emptyLines_leaves (fresh : Bool) (s : Source) : Leaves s (emptyLines fresh s) := by
  fun_induction emptyLines fresh s with
  | case1 => exact .done _
  | case2 => exact .malformed
  | case3 _ p s _ _ ih => exact ih.within (List.suffix_cons p s)
  | case4 _ p s _ _ b _ ih => exact (ih.within (List.suffix_cons p s)).map fun _ => rfl
  | case5 => exact .done _

theorem quotedGap_leaves (s : Source) : Leaves s (quotedGap s) := by
  unfold quotedGap
  refine Leaves.within (r := (s.upTo isBlank).2) ?_ (s.upTo_suffix isBlank)
  dsimp only
  split
  · exact .malformed
  · refine .within ?_ (Source.lineBreak_suffix _)
    split
    · exact .done _
    · exact (emptyLines_leaves true _).andThen fun _ _ => .done _

theorem hexValue?_lt {c : Char} {d : Nat} (value : Bytes.hexValue? c = some d) : d < 16 := by
  unfold Bytes.hexValue? at value
  grind

theorem digits_bounded {ds : List Char} {vs : List Nat} (values : ds.mapM Bytes.hexValue? = some vs)
    (m : Nat) :
    vs.length = ds.length ∧ vs.foldl (fun m d => m * 16 + d) m < (m + 1) * 16 ^ ds.length := by
  induction ds generalizing vs m with
  | nil =>
    cases values
    simp
  | cons c ds ih =>
    rw [List.mapM_cons] at values
    obtain ⟨d, value, rest⟩ := Option.bind_eq_some_iff.mp values
    obtain ⟨ws, others, same⟩ := Option.bind_eq_some_iff.mp rest
    cases same
    obtain ⟨length, bound⟩ := ih others (m * 16 + d)
    refine ⟨congrArg (· + 1) length, bound.trans_le ?_⟩
    rw [List.length_cons, Nat.pow_succ', ← Nat.mul_assoc]
    exact Nat.mul_le_mul_right _ (by have := hexValue?_lt value; omega)

theorem hexNumber_cases (n : Nat) (s : Source) :
    hexNumber n s = .error .malformed ∨ ∃ m, hexNumber n s = .ok (m, s.drop n) ∧
      (Source.text (s.take n)).length = n ∧ hexCode? (Source.text (s.take n)) = some m := by
  unfold hexNumber
  cases values : (Source.text (s.take n)).mapM Bytes.hexValue? with
  | none => exact .inl rfl
  | some vs =>
    dsimp only
    split
    · rename_i all
      refine .inr ⟨_, rfl, ?_, by rw [hexCode?, values, Option.map_some]⟩
      rw [← (digits_bounded values 0).1, all]
    · exact .inl rfl

theorem ofCode_ok {n : Nat} (low : n ≤ 0x10FFFF) : ∃ c, ofCode n = .ok c := by
  rw [ofCode, if_neg (by omega), if_neg (by omega)]
  split
  · exact ⟨_, rfl⟩
  · exact ⟨_, rfl⟩

theorem ofCode_reads (n : Nat)
    (reason : ∀ f, ofCode n = .error (.senseless f) → FarEscape s.text f) :
    Reads s (fun _ => True) (ofCode n) := by
  cases code : ofCode n with
  | ok c => exact .ok trivial
  | error e =>
    cases e with
    | malformed => exact .malformed
    | senseless f => exact .far (reason f code)

theorem codeEscapes_cases {c : Char} {n : Nat} (coded : Assoc.get? c codeEscapes = some n) :
    n ≤ 4 ∨ c = 'U' ∧ n = 8 := by
  simp only [codeEscapes, Assoc.get?] at coded
  grind

/-- Only the escape with eight digits can have a number that is no character's. -/
theorem code_reads {p q : Spot} {n m : Nat} (mark : p.char = '\\')
    (coded : Assoc.get? q.char codeEscapes = some n)
    (digits : (Source.text (s.take n)).length = n)
    (code : hexCode? (Source.text (s.take n)) = some m) :
    Reads (p :: q :: s) (fun _ => True) (ofCode m) := by
  refine ofCode_reads m fun f none_ => ?_
  rcases codeEscapes_cases coded with short | ⟨letter, rfl⟩
  · obtain ⟨vs, values, rfl⟩ := Option.map_eq_some_iff.mp code
    have bound := (digits_bounded values 0).2
    have power : 16 ^ (Source.text (s.take n)).length ≤ 16 ^ 4 :=
      Nat.pow_le_pow_right (by decide) (digits.trans_le short)
    obtain ⟨c, ok⟩ := ofCode_ok (n := vs.foldl (fun m d => m * 16 + d) 0) (by omega)
    rw [ok] at none_
    cases none_
  · refine ⟨_, m, ?_, digits, code, none_⟩
    rw [← letter, ← mark]
    exact ((List.take_prefix 10 (p :: q :: s)).map Spot.char).isInfix

theorem escape_reads {p : Spot} (mark : p.char = '\\') (s : Source) :
    Reads (p :: s) (fun a => a.2 <:+ s) (escape s) := by
  unfold escape
  split
  · exact .malformed
  · rename_i q s
    have passed : s <:+ q :: s := List.suffix_cons q s
    split
    · exact .ok passed
    · rename_i n _ coded
      rcases hexNumber_cases n s with refused | ⟨m, number, digits, code⟩
      · rw [refused]
        exact .malformed
      · rw [number]
        change Reads _ _ (ofCode m >>= fun c => .ok ([c], s.drop n))
        exact (code_reads mark coded digits code).bind fun _ _ =>
          .ok ((List.drop_suffix n s).trans passed)
    · split
      · exact (emptyLines_leaves true s).mono (passed.trans (List.suffix_cons p _)) fun _ h =>
          h.trans passed
      · exact .malformed

theorem quoted_leaves (double : Bool) (fuel : Nat) (s : Source) :
    Leaves s (quoted double fuel s) := by
  induction fuel generalizing s with
  | zero => exact .malformed
  | succ fuel ih =>
    cases s with
    | nil => exact .malformed
    | cons p s =>
      have passed : s <:+ p :: s := List.suffix_cons p s
      rw [quoted]
      extract_lets further
      have goOn (x : Except Fault (List Char × Source)) (h : Leaves (p :: s) x) :
          Leaves (p :: s) (x >>= further) :=
        h.andThen fun _ r => (ih r).andThen fun _ _ => .done _
      refine .ite (fun _ => .ok passed) fun _ =>
        .ite (fun _ => goOn _ (quotedGap_leaves _)) fun _ =>
        .ite (fun _ => goOn _ (.ok ((List.tail_suffix s).trans passed))) fun _ =>
        .ite (fun escaped => ?_) fun _ => goOn _ (.ok passed)
      have mark : p.char = '\\' := by
        rw [Bool.and_eq_true, beq_iff_eq] at escaped
        exact escaped.2
      exact goOn _ ((escape_reads mark s).mono (List.suffix_refl _) fun _ h => h.trans passed)

/-! ### Plain scalars -/

theorem plainWord_suffix (flow : Bool) (s : Source) : (plainWord flow s).2 <:+ s := by
  fun_induction plainWord flow s with
  | case1 => exact List.suffix_refl _
  | case2 => exact List.suffix_refl _
  | case3 p s _ _ _ _ word ih =>
    rw [word] at ih
    exact ih.trans (List.suffix_cons p s)

theorem plainBreaks_suffix (fresh : Bool) (s : Source) : (plainBreaks fresh s).2 <:+ s := by
  fun_induction plainBreaks fresh s with
  | case1 => exact List.suffix_refl _
  | case2 => exact List.suffix_refl _
  | case3 _ p s _ _ ih => exact ih.trans (List.suffix_cons p s)
  | case4 _ p s _ _ _ _ _ _ breaks ih =>
    rw [breaks] at ih
    exact ih.trans (List.suffix_cons p s)
  | case5 => exact List.suffix_refl _

theorem plainGap_suffix (s : Source) : (plainGap s).2.2 <:+ s := by
  unfold plainGap
  have gap : (s.upTo (· == ' ')).2 <:+ s := s.upTo_suffix _
  have line := Source.lineBreak_suffix (s.upTo (· == ' ')).2
  dsimp only
  split
  · exact gap
  · rename_i first r _ broken
    rw [broken] at line
    have breaks := plainBreaks_suffix true r
    split
    · rename_i read
      rw [read] at breaks
      exact breaks.trans (line.trans gap)
    · rename_i read
      rw [read] at breaks
      exact breaks.trans (line.trans gap)

theorem plain_suffix (flow : Bool) (indent : Int) (gap : List Char) (ended : Bool) (fuel : Nat)
    (s : Source) : (plain flow indent gap ended fuel s).2.2 <:+ s := by
  fun_induction plain flow indent gap ended fuel s with
  | case1 => exact List.suffix_refl _
  | case2 => exact List.suffix_refl _
  | case3 => exact List.suffix_refl _
  | case4 _ _ _ s _ w r word _ _ _ _ read =>
    have first := plainWord_suffix flow s
    have second := plainGap_suffix r
    rw [word] at first
    rw [read] at second
    exact second.trans first
  | case5 _ _ _ s _ w r word _ _ _ _ read _ _ _ _ _ more ih =>
    have first := plainWord_suffix flow s
    have second := plainGap_suffix r
    rw [word] at first
    rw [read] at second
    rw [more] at ih
    exact ih.trans (second.trans first)

/-! ### Block scalars -/

theorem tailSign_suffix (s : Source) : (tailSign s).2 <:+ s := by
  unfold tailSign
  split
  · exact List.tail_suffix s
  · exact List.suffix_refl s

theorem depthSign_leaves (s : Source) : Leaves s (depthSign s) := by
  unfold depthSign
  split
  · split
    · exact .malformed
    · split
      · exact .ok (List.tail_suffix s)
      · exact .done _
  · exact .done _

theorem blockSigns_reads (s : Source) : Reads s (fun a => a.2.2 <:+ s) (blockSigns s) := by
  have first := tailSign_suffix s
  unfold blockSigns
  refine ((depthSign_leaves (tailSign s).2).within first).bind fun (depth, r) rest => ?_
  have again : (if ((tailSign s).1 == .clip && depth.isSome) = true then tailSign r
      else ((tailSign s).1, r)).2 <:+ r := by
    split
    · exact tailSign_suffix r
    · exact List.suffix_refl r
  exact .ite (fun _ => .ok (again.trans rest)) fun _ => .malformed

theorem blockBreaks_suffix (indent : Nat) (s : Source) : (blockBreaks indent s).2 <:+ s := by
  fun_induction blockBreaks indent s with
  | case1 => exact List.suffix_refl _
  | case2 p s _ ih => exact ih.trans (List.suffix_cons p s)
  | case3 p s _ _ _ _ _ breaks ih =>
    rw [breaks] at ih
    exact ih.trans (List.suffix_cons p s)
  | case4 => exact List.suffix_refl _

theorem blockIndent_suffix (widest : Nat) (s : Source) : (blockIndent widest s).2.2 <:+ s := by
  fun_induction blockIndent widest s with
  | case1 => exact List.suffix_refl _
  | case2 _ p s _ ih => exact ih.trans (List.suffix_cons p s)
  | case3 _ p s _ _ _ _ _ _ breaks ih =>
    rw [breaks] at ih
    exact ih.trans (List.suffix_cons p s)
  | case4 => exact List.suffix_refl _

theorem line_suffix (indent : Nat) (s : Source) :
    (blockBreaks indent (s.upTo (!isLineEnd ·)).2.lineBreak.2).2 <:+ s :=
  ((blockBreaks_suffix indent _).trans (Source.lineBreak_suffix _)).trans (s.upTo_suffix _)

theorem blockLines_suffix (folded : Bool) (indent : Nat) (breaks : List Char) (fuel : Nat)
    (s : Source) : (blockLines folded indent breaks fuel s).2.2.2 <:+ s := by
  fun_induction blockLines folded indent breaks fuel s with
  | case1 => exact List.suffix_refl _
  | case2 => exact List.suffix_refl _
  | case3 => exact List.suffix_refl _
  | case4 => exact List.nil_suffix
  | case5 _ _ p s _ w r line e q broken m _ _ _ breaks =>
    have rest := line_suffix indent (p :: s)
    rw [line, broken, breaks] at rest
    exact rest
  | case6 _ _ p s _ w r line e q broken m _ _ _ _ _ _ further breaks ih =>
    have rest := line_suffix indent (p :: s)
    rw [line, broken, breaks] at rest
    rw [further] at ih
    exact ih.trans rest

theorem block_leaves (folded : Bool) (indent : Int) (s : Source) :
    Leaves s (block folded indent s) := by
  unfold block
  refine (blockSigns_reads s).bind fun (tail, depth, r) signs => ?_
  refine ((Source.dropComment_reads r).mono signs fun _ h => h.trans signs).bind fun r line => ?_
  have breaks (n : Nat) := (blockBreaks_suffix n r).trans line
  have indented := (blockIndent_suffix 0 r).trans line
  refine .ok ((blockLines_suffix ..).trans ?_)
  cases depth with
  | some n => exact breaks _
  | none => exact indented

end FileGate.Yaml
