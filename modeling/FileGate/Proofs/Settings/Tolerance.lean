import FileGate.Proofs.Text.Decoding
import FileGate.Proofs.Yaml.Construction
import FileGate.Proofs.Yaml.Scanning
import FileGate.Settings

/-! What becomes of a settings file whose contents are broken. Most of them count as no settings.
Three kinds are failures: bytes that are no text, an escape in an ill-formed document whose number
is no character's, and a scalar in a document that stands for nothing. -/
namespace FileGate

namespace Yaml

/-- A text is one well-formed document, which has this root or is empty. -/
def Composes (s : List Char) (root : Option Node) : Prop :=
  s.all isAllowed = true ∧ ∃ ts, Token.ofText s = .ok ts ∧ Node.ofTokens? ts = some root

variable {s : List Char} {f : Failure}

theorem load_of_composes {n : Node} (composes : Composes s (some n)) :
    load s = match n.value with
      | .ok v => .ok (some v)
      | .error (_, e) => .error e := by
  obtain ⟨allowed, ts, tokens, root⟩ := composes
  unfold load
  rw [allowed, tokens]
  dsimp only [bind, Except.bind]
  rw [root]
  rfl

theorem load_of_composes_nothing (composes : Composes s none) : load s = .ok none := by
  obtain ⟨allowed, ts, tokens, root⟩ := composes
  unfold load
  rw [allowed, tokens]
  dsimp only [bind, Except.bind]
  rw [root]
  rfl

theorem load_of_refused {e : Fault} (allowed : s.all isAllowed = true)
    (tokens : Token.ofText s = .error e) : load s = .error e := by
  unfold load
  rw [allowed, tokens]
  rfl

theorem exists_senseless {n : Node} (composes : Composes s (some n))
    (failed : load s = .error (.senseless f)) :
    ∃ tag x, n.Writes tag x ∧ scalarValue tag x = .error (.senseless f) := by
  rw [load_of_composes composes] at failed
  have due := Node.due_value n
  cases made : n.value with
  | ok v =>
    rw [made] at failed
    cases failed
  | error e =>
    obtain ⟨m, e⟩ := e
    rw [made] at failed due
    cases failed
    cases due with
    | senseless _ written means => exact ⟨_, _, written, means⟩

/-- Unless a text is one well-formed document it is malformed, or has an escape in it that is no
character's. -/
theorem load_of_ill_formed (illFormed : ∀ root, ¬Composes s root) :
    load s = .error .malformed ∨ ∃ f, load s = .error (.senseless f) ∧ FarEscape s f := by
  cases allowed : s.all isAllowed with
  | false =>
    left
    unfold load
    rw [allowed]
    rfl
  | true =>
    cases tokens : Token.ofText s with
    | error e =>
      have refused := load_of_refused allowed tokens
      cases e with
      | malformed => exact .inl refused
      | senseless f => exact .inr ⟨f, refused, Token.farEscape_of_ofText tokens⟩
    | ok ts =>
      cases root : Node.ofTokens? ts with
      | none =>
        left
        unfold load
        rw [allowed, tokens]
        dsimp only [bind, Except.bind]
        rw [root]
        rfl
      | some r => exact absurd ⟨allowed, ts, tokens, root⟩ (illFormed r)

end Yaml

namespace Settings

open Yaml

variable {b : Bytes} {f : Failure}

def Document (b : Bytes) (root : Option Node) : Prop :=
  ∃ s, Utf8.decode? b = some s ∧ Composes (unifyLines s) root

/-- Why contents are a failure, and which. -/
inductive Broken (b : Bytes) : Failure → Prop where
  | noText (faulty : Utf8.decode? b = none) : Broken b .badText
  | escape {s : List Char} {f : Failure} (text : Utf8.decode? b = some s)
    (illFormed : ∀ root, ¬Document b root) (far : FarEscape (unifyLines s) f) : Broken b f
  | scalar {n : Node} {tag : Tag} {x : List Char} {f : Failure} (document : Document b (some n))
    (written : n.Writes tag x) (means : scalarValue tag x = .error (.senseless f)) : Broken b f

theorem not_composes {s : List Char} (illFormed : ∀ root, ¬Document b root)
    (text : Utf8.decode? b = some s) (root : Option Node) : ¬Composes (unifyLines s) root :=
  fun composes => illFormed root ⟨s, text, composes⟩

theorem ofBytes_of_text {s : List Char} (text : Utf8.decode? b = some s) :
    ofBytes b = match Yaml.load (unifyLines s) with
      | .ok (some v) => .ok (if v.truthy then v else empty)
      | .ok none => .ok empty
      | .error .malformed => .ok empty
      | .error (.senseless cause) => .error cause := by
  unfold ofBytes
  generalize Utf8.decode? b = t at text
  subst text
  rfl

theorem broken_of_ofBytes (failed : ofBytes b = .error f) : Broken b f := by
  cases text : Utf8.decode? b with
  | none =>
    unfold ofBytes at failed
    rw [text] at failed
    cases failed
    exact .noText text
  | some s =>
    rw [ofBytes_of_text text] at failed
    have senseless : Yaml.load (unifyLines s) = .error (.senseless f) := by
      split at failed
      · cases failed
      · cases failed
      · cases failed
      · rename_i made
        cases failed
        exact made
    by_cases document : ∃ root, Document b root
    · obtain ⟨root, s', text', composes⟩ := document
      cases text.symm.trans text'
      cases root with
      | none =>
        rw [load_of_composes_nothing composes] at senseless
        cases senseless
      | some n =>
        obtain ⟨tag, x, written, means⟩ := exists_senseless composes senseless
        exact .scalar ⟨s, text, composes⟩ written means
    · have illFormed : ∀ root, ¬Document b root := fun root there => document ⟨root, there⟩
      rcases load_of_ill_formed (not_composes illFormed text) with malformed | ⟨g, error, far⟩
      · rw [malformed] at senseless
        cases senseless
      · rw [error] at senseless
        cases senseless
        exact .escape text illFormed far

theorem eq_empty_of_ofBytes {v : Value} (illFormed : ∀ root, ¬Document b root)
    (made : ofBytes b = .ok v) : v = empty := by
  cases text : Utf8.decode? b with
  | none =>
    unfold ofBytes at made
    rw [text] at made
    cases made
  | some s =>
    rw [ofBytes_of_text text] at made
    rcases load_of_ill_formed (not_composes illFormed text) with malformed | ⟨g, error, _⟩
    · rw [malformed] at made
      cases made
      rfl
    · rw [error] at made
      cases made

theorem config_default {env : Environment} {v : Value} (free : overrides env = [])
    (none_ : v = empty ∨ ∀ m, v ≠ .map m) : config env v = .ok {} := by
  unfold config
  rw [free]
  rcases none_ with rfl | other
  · rfl
  · cases v with
    | map m => exact absurd rfl (other m)
    | _ => rfl

/-- Loading gives a value, or the contents are broken in one of the three ways. What is not one
well-formed document gives no settings if it gives a value. Where there are no settings, or no
mapping of them, and nothing in the environment, the configuration is the default one. -/
theorem load_tolerates (path : String) (d : Disk) :
    ((∃ v, load path d = .ok v) ∨
      ∃ b f, d.read path = .ok b ∧ load path d = .error f ∧ Broken b f) ∧
    ((∀ b, d.read path = .ok b → ∀ root, ¬Document b root) →
      ∀ v, load path d = .ok v → v = empty) ∧
    ∀ env v, load path d = .ok v → overrides env = [] → (v = empty ∨ ∀ m, v ≠ .map m) →
      (load path d >>= config env) = .ok {} := by
  unfold load
  refine ⟨?_, fun illFormed v made => ?_, fun env v made free none_ => ?_⟩
  · split
    · rename_i b read
      cases made : ofBytes b with
      | ok v => exact .inl ⟨v, rfl⟩
      | error f => exact .inr ⟨b, f, read, rfl, broken_of_ofBytes made⟩
    · exact .inl ⟨empty, rfl⟩
  · split at made
    · exact eq_empty_of_ofBytes (illFormed _ ‹_›) made
    · cases made
      rfl
  · rw [made]
    exact config_default free none_

def holding (content : Bytes) : Disk := ⟨[['/']], [("/f".toList, content)]⟩

theorem brace_refused : Utf8.decode? [0x7D] = some ['\x7d'] ∧
    Token.ofText (unifyLines ['\x7d']) = .error .malformed := by
  decide +kernel

theorem load_tolerates_brace :
    ((∃ v, load "/f" (holding [0x7D]) = .ok v) ∨ ∃ b f, (holding [0x7D]).read "/f" = .ok b ∧
      load "/f" (holding [0x7D]) = .error f ∧ Broken b f) ∧
    load "/f" (holding [0x7D]) = .ok empty ∧
    (load "/f" (holding [0x7D]) >>= config {}) = .ok {} := by
  obtain ⟨text, refused⟩ := brace_refused
  obtain ⟨ends, nothing, default⟩ := load_tolerates "/f" (holding [0x7D])
  have made : load "/f" (holding [0x7D]) = .ok empty := by
    change ofBytes [0x7D] = _
    rw [ofBytes_of_text text, load_of_refused (by decide) refused]
  have illFormed (b : Bytes) (read : (holding [0x7D]).read "/f" = .ok b) (root : Option Node) :
      ¬Document b root := by
    cases read
    rintro ⟨s, text', _, ts, tokens, _⟩
    cases text.symm.trans text'
    cases refused.symm.trans tokens
  exact ⟨ends, made, default {} empty made rfl (.inl (nothing illFormed empty made))⟩

/-- A byte that is no text, an escape for a number behind the last character's, and a day that no
calendar has. -/
theorem load_intolerant :
    load "/f" (holding [0xFF]) = .error .badText ∧
    load "/f" (holding (Utf8.encode "\"\\U00110000\"".toList)) = .error .badValue ∧
    load "/f" (holding (Utf8.encode "a: 2024-02-30".toList)) = .error .badValue := by
  refine ⟨?_, ?_, ?_⟩
  · change ofBytes [0xFF] = _
    have faulty : Utf8.decode? [0xFF] = none := by decide +kernel
    unfold ofBytes
    rw [faulty]
  · change ofBytes (Utf8.encode "\"\\U00110000\"".toList) = _
    have refused : Token.ofText (unifyLines "\"\\U00110000\"".toList) =
        .error (.senseless .badValue) := by decide +kernel
    rw [ofBytes_of_text (Utf8.decode?_encode _), load_of_refused (by decide) refused]
  · change ofBytes (Utf8.encode "a: 2024-02-30".toList) = _
    have composes : Composes (unifyLines "a: 2024-02-30".toList) (some (.mapping .map
        [(.scalar .str ['a'], .scalar .timestamp "2024-02-30".toList)])) :=
      ⟨by decide, [.blockMapping, .key, .scalar true ['a'], .value,
        .scalar true "2024-02-30".toList, .blockEnd], by decide +kernel, rfl⟩
    have failed : Yaml.load (unifyLines "a: 2024-02-30".toList) = .error (.senseless .badValue) :=
      load_of_composes composes
    rw [ofBytes_of_text (Utf8.decode?_encode _), failed]

end Settings
end FileGate
