import FileGate.Body
import FileGate.Proofs.Text.Escapes
import FileGate.Proofs.Text.Json
import FileGate.Proofs.Tree.NormalForm
import FileGate.Server.Asked

/-! Form fields that are read back from what is written of them. The signs that part the fields and
the plus sign occur in no written text, so a form is cut where its fields meet, and a plus sign is
a blank. -/
namespace FileGate

namespace Text

theorem splitAll_joinWith {sep : Char} {ws : List (List Char)} (some_ : ws ≠ [])
    (plain : ∀ w ∈ ws, sep ∉ w) : splitAll sep (joinWith [sep] ws) = ws := by
  induction ws with
  | nil => exact absurd rfl some_
  | cons w ws ih =>
    obtain ⟨first, rest⟩ := List.forall_mem_cons.mp plain
    cases ws with
    | nil => exact splitAll_of_not_mem first
    | cons v ws =>
      have parts : joinWith [sep] (w :: v :: ws) = w ++ sep :: joinWith [sep] (v :: ws) := by
        rw [joinWith, List.append_assoc, List.singleton_append]
        exact List.cons_ne_nil v ws
      rw [parts, splitAll_append first, ih (List.cons_ne_nil v ws) rest]

end Text

namespace Percent

theorem decodeKeeping_encode {safe : List Char} (plain : '%' ∉ safe) (s : List Char) :
    decodeKeeping (encode safe s) = s := by
  have written : bytes (encode safe s) = Utf8.encode s := by
    have whole := bytes_encode_append plain s []
    rwa [List.append_nil, bytes, List.append_nil] at whole
  have pieces : Utf8.pieces (Utf8.encode s) = s.map .inr := by
    have whole := Utf8.pieces_encode s []
    rwa [List.append_nil, Utf8.pieces, List.append_nil] at whole
  rw [decodeKeeping, written, pieces, List.flatMap_map]
  exact List.flatMap_singleton' s

end Percent

namespace Form

variable {s : List Char} {c : Char}

theorem mem_encodeText (there : c ∈ encodeText s) :
    Percent.isUnreserved c = true ∨ c = '+' ∨ c = '%' := by
  obtain ⟨d, _, there⟩ := List.mem_flatMap.mp there
  rw [encodeChar] at there
  split at there
  · exact .inr (.inl (List.mem_singleton.mp there))
  · have written : c ∈ Percent.encode [] [d] := by simpa [Percent.encode] using there
    rcases Percent.mem_encode written with kept | none_ | same
    · exact .inl kept
    · cases none_
    · exact .inr (.inr same)

theorem not_mem_encodeText (reserved : Percent.isUnreserved c = false) (plus : c ≠ '+')
    (percent : c ≠ '%') (s : List Char) : c ∉ encodeText s := by
  intro there
  rcases mem_encodeText there with kept | same | same
  · rw [reserved] at kept
    cases kept
  · exact plus same
  · exact percent same

theorem map_plusToBlank_encodeText (s : List Char) :
    (encodeText s).map plusToBlank = Percent.encode [' '] s := by
  have one (c : Char) : (encodeChar c).map plusToBlank = Percent.encodeChar [' '] c := by
    by_cases blank : c = ' '
    · subst blank
      decide
    · have written : encodeChar c = Percent.encode [] [c] := by
        simp [encodeChar, Percent.encode, blank]
      have kept : ∀ d ∈ Percent.encode [] [c], plusToBlank d = d := by
        intro d there
        have other : d ≠ '+' := by
          rintro rfl
          exact Percent.not_mem_encode (by decide) List.not_mem_nil (by decide) [c] there
        simp [plusToBlank, other]
      rw [written, List.map_congr_left kept, List.map_id']
      simp [Percent.encode, Percent.encodeChar, blank]
  rw [encodeText, Percent.encode, List.map_flatMap]
  simp only [one]

theorem decodeText_encodeText (s : List Char) : decodeText (encodeText s) = s := by
  rw [decodeText, map_plusToBlank_encodeText]
  exact Percent.decodeKeeping_encode (by decide) s

theorem decodeField_encodeField (f : List Char × List Char) :
    decodeField (encodeField f) = f := by
  have key : '=' ∉ encodeText f.1 := not_mem_encodeText (by decide) (by decide) (by decide) f.1
  rw [decodeField, encodeField, Text.cut, Text.cut?_append key, Option.getD_some]
  dsimp only
  rw [decodeText_encodeText, decodeText_encodeText]

theorem not_mem_encodeField (f : List Char × List Char) : '&' ∉ encodeField f := by
  have plain (s : List Char) : '&' ∉ encodeText s :=
    not_mem_encodeText (by decide) (by decide) (by decide) s
  simp [encodeField, plain]

theorem encodeField_ne_nil (f : List Char × List Char) : encodeField f ≠ [] := by
  simp [encodeField]

theorem decode_encode (fields : List (List Char × List Char)) :
    decode (encode fields) = fields := by
  by_cases none_ : fields = []
  · subst none_
    rfl
  · have some_ : fields.map encodeField ≠ [] := by simpa using none_
    have plain : ∀ w ∈ fields.map encodeField, '&' ∉ w := by
      intro w there
      obtain ⟨f, _, rfl⟩ := List.mem_map.mp there
      exact not_mem_encodeField f
    have kept : (fields.map encodeField).filter (!·.isEmpty) = fields.map encodeField := by
      rw [List.filter_eq_self]
      intro w there
      obtain ⟨f, _, rfl⟩ := List.mem_map.mp there
      simpa using encodeField_ne_nil f
    have all : fields.map (decodeField ∘ encodeField) = fields :=
      List.map_congr_left (fun f _ => decodeField_encodeField f) |>.trans (List.map_id' fields)
    rw [decode, encode, Text.splitAll_joinWith some_ plain, kept, List.map_map, all]

end Form

/-! ### Mappings of texts -/

def Body.ofTexts (m : List (String × String)) : Body :=
  .form (m.map fun e => (.text e.1, .text e.2))

/-- The fields that such a mapping should be read as. -/
def fieldsOf (m : List (String × String)) : List (List Char × List Char) :=
  m.map fun e => (e.1.toList, e.2.toList)

def Payload.held? : Payload → Option Bytes
  | nothing => none
  | bytes b => some b
  | buffer b => some b
  | upload ⟨.memory b, _⟩ => some b
  | upload _ => none

theorem fieldsOf_injective {m m' : List (String × String)} (same : fieldsOf m = fieldsOf m') :
    m = m' := by
  refine (List.map_inj_right fun e e' pair => ?_).mp same
  obtain ⟨key, value⟩ := Prod.mk.inj pair
  exact Prod.ext (String.toList_inj.mp key) (String.toList_inj.mp value)

namespace Body

variable {m m' : List (String × String)} {headers h h' : Headers} {payload payload' : Payload}
variable {b : Bytes}

theorem formText_ofTexts (distinct : (Assoc.keys m).Nodup) :
    formText (m.map fun e => (.text e.1, .text e.2)) = Form.encode (fieldsOf m) := by
  have entries : m.map (fun e => (Value.text e.1, Value.text e.2)) =
      Json.named (m.map fun e => ((e.1 : Points), Value.text e.2)) := by
    simp [Json.named, Value.ofPoints_string]
  have injective (s t : String) (same : (s : Points) = t) : s = t := by
    have texts := congrArg Value.ofPoints same
    rw [Value.ofPoints_string, Value.ofPoints_string] at texts
    exact Value.text.inj texts
  have keys : (Assoc.keys (m.map fun e => ((e.1 : Points), Value.text e.2))).Nodup := by
    rw [Assoc.keys, List.map_map]
    exact List.pairwise_map.mpr ((List.pairwise_map.mp distinct).imp
      fun differs same => differs (injective _ _ same))
  rw [formText, entries, Json.mergeEntries_named, Assoc.ofList_of_nodup keys, ← entries,
    List.map_map]
  rfl

theorem plain_held (b : Bytes) (streaming : Bool) (n : Int) :
    (plain b (.bytes b) streaming n).held? = some b := by
  rw [plain]
  split <;> rfl

theorem encode_ofTexts (distinct : (Assoc.keys m).Nodup) (headers : Headers) (streaming : Bool)
    (n : Int) : ∃ payload h, (ofTexts m).encode headers streaming n = .ok (payload, h) ∧
      payload.held? = some (Utf8.encode (Form.encode (fieldsOf m))) := by
  refine ⟨_, _, rfl, ?_⟩
  rw [formText_ofTexts distinct]
  exact plain_held _ streaming n

theorem decode_of_encode (distinct : (Assoc.keys m).Nodup) {streaming : Bool} {n : Int}
    (encoded : (ofTexts m).encode headers streaming n = .ok (payload, h))
    (held : payload.held? = some b) : (Utf8.decode? b).map Form.decode = some (fieldsOf m) := by
  obtain ⟨payload', h', encoded', held'⟩ := encode_ofTexts distinct headers streaming n
  rw [encoded] at encoded'
  cases encoded'
  rw [held] at held'
  cases held'
  rw [Utf8.decode?_encode, Option.map_some, Form.decode_encode]

/-- Every mapping of texts is encoded, in whatever way it is sent, and the server reads its entries
in their order from the bytes. So no two mappings have the same bytes. -/
theorem form_lossless :
    (∀ m : List (String × String), (Assoc.keys m).Nodup → ∀ headers streaming n,
      ∃ payload h b, (ofTexts m).encode headers streaming n = .ok (payload, h) ∧
        payload.held? = some b ∧ (Utf8.decode? b).map Form.decode = some (fieldsOf m) ∧
        ∀ r : Asked, r.body = b → r.form = fieldsOf m) ∧
    ∀ m m' : List (String × String), (Assoc.keys m).Nodup → (Assoc.keys m').Nodup →
      ∀ headers headers' streaming streaming' n n' payload payload' h h' b,
        (ofTexts m).encode headers streaming n = .ok (payload, h) →
        (ofTexts m').encode headers' streaming' n' = .ok (payload', h') →
        payload.held? = some b → payload'.held? = some b → m = m' := by
  constructor
  · intro m distinct headers streaming n
    obtain ⟨payload, h, encoded, held⟩ := encode_ofTexts distinct headers streaming n
    have decoded := decode_of_encode distinct encoded held
    refine ⟨payload, h, _, encoded, held, decoded, fun r body => ?_⟩
    rw [Asked.form, body, decoded, Option.getD_some]
  · intro m m' distinct distinct' _ _ _ _ _ _ _ _ _ _ b encoded encoded' held held'
    have fields := decode_of_encode distinct encoded held
    rw [decode_of_encode distinct' encoded' held'] at fields
    exact fieldsOf_injective (Option.some.inj fields).symm

/-- Separators in a key, a line end and a letter outside ASCII in a value, and an entry of
nothing. -/
def awkwardForm : List (String × String) := [("a&b=c", "+ %41\nä"), ("", "")]

theorem form_lossless_awkwardForm :
    ∃ payload h b, (ofTexts awkwardForm).encode [] true 4 = .ok (payload, h) ∧
      payload.held? = some b ∧ (Utf8.decode? b).map Form.decode = some (fieldsOf awkwardForm) := by
  obtain ⟨payload, h, b, encoded, held, decoded, _⟩ :=
    form_lossless.1 awkwardForm (by decide) [] true 4
  exact ⟨payload, h, b, encoded, held, decoded⟩

end Body
end FileGate
