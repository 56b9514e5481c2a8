import FileGate.Yaml.Meaning

/-! How a document fails to give a value. A failure is either for the form, where something stands
that nothing can be made of, or comes from a scalar that is written in the document. -/
namespace FileGate.Yaml

/-- A scalar that is written in a document, and the tag by which it is read: a leaf, or the text
that stands for a whole mapping. -/
inductive Node.Writes : Node → Tag → List Char → Prop where
  | leaf (tag : Tag) (s : List Char) : Writes (.scalar tag s) tag s
  | standIn {tag : Tag} {es : List (Node × Node)} {s : List Char}
    (text : scalarText? (.mapping tag es) = some s) : Writes (.mapping tag es) tag s
  | item {tag t : Tag} {ns : List Node} {n : Node} {s : List Char} (mem : n ∈ ns)
    (inside : n.Writes t s) : Writes (.sequence tag ns) t s
  | key {tag t : Tag} {es : List (Node × Node)} {k v : Node} {s : List Char} (mem : (k, v) ∈ es)
    (inside : k.Writes t s) : Writes (.mapping tag es) t s
  | value {tag t : Tag} {es : List (Node × Node)} {k v : Node} {s : List Char} (mem : (k, v) ∈ es)
    (inside : v.Writes t s) : Writes (.mapping tag es) t s

/-- What comes of a part of a document in which these scalars are written. -/
inductive Due {α : Type} (writes : Tag → List Char → Prop) : Outcome α → Prop where
  | ok (a : α) : Due writes (.ok a)
  | malformed (n : Nat) : Due writes (.error (n, .malformed))
  | senseless {tag : Tag} {s : List Char} {f : Failure} (n : Nat) (written : writes tag s)
    (means : scalarValue tag s = .error (.senseless f)) : Due writes (.error (n, .senseless f))

theorem Outcome.mem_of_first? {α : Type} {l : List (Outcome α)} {e : Nat × Fault}
    (first : Outcome.first? l = some e) : .error e ∈ l := by
  induction l generalizing e with
  | nil => cases first
  | cons o l ih =>
    cases o with
    | ok a => exact List.mem_cons_of_mem _ (ih first)
    | error e' =>
      rw [first?] at first
      split at first
      · rename_i f later
        split at first
        · exact List.mem_cons_of_mem _ (ih (later.trans first))
        · cases first
          exact List.mem_cons_self
      · cases first
        exact List.mem_cons_self

namespace Due

variable {α β : Type} {V W : Tag → List Char → Prop} {o : Outcome α}

theorem mono (h : Due V o) (more : ∀ t s, V t s → W t s) : Due W o := by
  cases h with
  | ok a => exact .ok a
  | malformed n => exact .malformed n
  | senseless n written means => exact .senseless n (more _ _ written) means

theorem map (h : Due W o) (g : α → β) : Due W (o.map g) := by
  cases h with
  | ok a => exact .ok (g a)
  | malformed n => exact .malformed n
  | senseless n written means => exact .senseless n written means

theorem level {n : Nat} {e : Fault} (h : Due W (.error (n, e) : Outcome α)) (m : Nat) :
    Due W (.error (m, e) : Outcome β) := by
  cases h with
  | malformed => exact .malformed m
  | senseless _ written means => exact .senseless m written means

theorem here {tag : Tag} {s : List Char} (written : W tag s) :
    Due W (.here (scalarValue tag s)) := by
  cases means : scalarValue tag s with
  | ok v => exact .ok v
  | error e =>
    cases e with
    | malformed => exact .malformed 0
    | senseless f => exact .senseless 0 written means

theorem asKey {o : Outcome Value} (h : Due W o) : Due W (asKey o) := by
  unfold Yaml.asKey
  split
  · split
    · exact h
    · exact .malformed 0
  · exact h
  · exact .malformed 0

theorem first? {l : List (Outcome α)} {n : Nat} {e : Fault} (all : ∀ o ∈ l, Due W o)
    (first : Outcome.first? l = some (n, e)) : Due W (.error (n, e) : Outcome β) :=
  (all _ (Outcome.mem_of_first? first)).level n

theorem gather {l : List (Outcome α)} (all : ∀ o ∈ l, Due W o) : Due W (Outcome.gather l) := by
  unfold Outcome.gather
  split
  · rename_i n e first
    exact (Due.first? (β := List α) all first).level (n + 1)
  · exact .ok _

theorem pairValue {k v : Outcome Value} (key : Due W k) (value : Due W v) :
    Due W (pairValue k v) := by
  unfold Yaml.pairValue
  split
  · rename_i first
    refine Due.first? (l := [k, v]) (fun o mem => ?_) first
    rcases List.mem_cons.mp mem with rfl | last
    · exact key
    · exact List.mem_singleton.mp last ▸ value
  · exact .ok _

end Due

def Entry.Due (writes : Tag → List Char → Prop) (e : Entry) : Prop :=
  Yaml.Due writes e.key ∧ Yaml.Due writes e.value

theorem Entry.Due.mono {V W : Tag → List Char → Prop} {e : Entry} (h : e.Due V)
    (more : ∀ t s, V t s → W t s) : e.Due W :=
  ⟨h.1.mono more, h.2.mono more⟩

theorem Due.mappingValue {W : Tag → List Char → Prop} {parts : Option (List Entry × List Entry)}
    (all : ∀ taken own, parts = some (taken, own) → ∀ e ∈ taken ++ own, e.Due W) :
    Due W (mappingValue parts) := by
  unfold Yaml.mappingValue
  split
  · exact .malformed 1
  · rename_i taken own
    refine (gather fun o mem => ?_).map _
    obtain ⟨e, there, part⟩ := List.mem_flatMap.mp mem
    have due := all taken own rfl e there
    rcases List.mem_cons.mp part with rfl | last
    · exact due.1.asKey
    · exact List.mem_singleton.mp last ▸ due.2

namespace Node

def Among (ns : List Node) (t : Tag) (s : List Char) : Prop := ∃ n ∈ ns, n.Writes t s

def AmongEntries (es : List (Node × Node)) (t : Tag) (s : List Char) : Prop :=
  ∃ e ∈ es, e.1.Writes t s ∨ e.2.Writes t s

theorem Among.cons {ns : List Node} {t : Tag} {s : List Char} (h : Among ns t s) (n : Node) :
    Among (n :: ns) t s := by
  obtain ⟨m, mem, written⟩ := h
  exact ⟨m, List.mem_cons_of_mem n mem, written⟩

theorem AmongEntries.cons {es : List (Node × Node)} {t : Tag} {s : List Char}
    (h : AmongEntries es t s) (e : Node × Node) : AmongEntries (e :: es) t s := by
  obtain ⟨m, mem, written⟩ := h
  exact ⟨m, List.mem_cons_of_mem e mem, written⟩

theorem AmongEntries.of_key {k : Node} {t : Tag} {s : List Char} (written : k.Writes t s) (v : Node)
    (es : List (Node × Node)) : AmongEntries ((k, v) :: es) t s :=
  ⟨(k, v), List.mem_cons_self, .inl written⟩

theorem AmongEntries.of_value {v : Node} {t : Tag} {s : List Char} (written : v.Writes t s)
    (k : Node) (es : List (Node × Node)) : AmongEntries ((k, v) :: es) t s :=
  ⟨(k, v), List.mem_cons_self, .inr written⟩

theorem AmongEntries.writes {tag t : Tag} {es : List (Node × Node)} {s : List Char}
    (h : AmongEntries es t s) : (mapping tag es).Writes t s := by
  obtain ⟨_, mem, inside | inside⟩ := h
  · exact .key mem inside
  · exact .value mem inside

-- One theorem for each of the functions that call each other, in their recursion.
mutual

/-- What comes of a node fails for its form, or for a scalar that is written in it. -/
theorem due_value : ∀ n : Node, Due n.Writes n.value
  | scalar tag s => .here (.leaf tag s)
  | sequence tag ns => by
    have inside : ∀ t s, Among ns t s → (sequence tag ns).Writes t s :=
      fun t s ⟨n, mem, written⟩ => .item mem written
    have items := ((Due.gather (due_values ns)).map Value.list).mono inside
    have couples := ((Due.gather (due_couples ns)).map Value.list).mono inside
    unfold value
    split
    · exact items
    · exact couples
    · exact couples
    · exact .malformed 1
    · exact .malformed 1
    · exact .malformed 0
  | mapping tag es => by
    have whole : Due (mapping tag es).Writes (mappingValue (entries es)) :=
      (Due.mappingValue fun _ _ => due_entries es).mono fun _ _ => AmongEntries.writes
    unfold value
    split
    · exact whole.map _
    · exact whole.map _
    · exact .malformed 1
    · exact .malformed 1
    · exact .malformed 1
    · split
      · exact .here (.standIn ‹_›)
      · exact .malformed 0

theorem due_values : ∀ (ns : List Node), ∀ o ∈ values ns, Due (Among ns) o
  | [], o, mem => by cases mem
  | n :: ns, o, mem => by
    rw [values] at mem
    rcases List.mem_cons.mp mem with rfl | later
    · exact (due_value n).mono fun t s written => ⟨n, List.mem_cons_self, written⟩
    · exact (due_values ns o later).mono fun t s h => h.cons n

theorem due_couples : ∀ (ns : List Node), ∀ o ∈ couples ns, Due (Among ns) o
  | [], o, mem => by cases mem
  | n :: ns, o, mem => by
    rw [couples.eq_def] at mem
    rcases List.mem_cons.mp mem with rfl | later
    · split
      · rename_i tag k v
        have here : ∀ t s, AmongEntries [(k, v)] t s → Among (mapping tag [(k, v)] :: ns) t s :=
          fun t s h => ⟨_, List.mem_cons_self, h.writes⟩
        refine Due.pairValue ?_ ?_
        · exact (due_value k).mono fun t s written => here t s (.of_key written v [])
        · exact (due_value v).mono fun t s written => here t s (.of_value written k [])
      · exact .malformed 0
    · exact (due_couples ns o later).mono fun t s h => h.cons n

theorem due_entries : ∀ (es : List (Node × Node)) {taken own : List Entry},
    entries es = some (taken, own) → ∀ e ∈ taken ++ own, e.Due (AmongEntries es)
  | [], taken, own, made => by
    cases made
    intro e mem
    cases mem
  | (k, v) :: es, taken, own, made => by
    rw [entries.eq_def] at made
    dsimp only at made
    split at made
    · split at made
      · rename_i tag fs
        obtain ⟨⟨a, b⟩, inner, rest⟩ := Option.bind_eq_some_iff.mp made
        obtain ⟨⟨taken, own⟩, others, same⟩ := Option.bind_eq_some_iff.mp rest
        cases same
        rw [List.append_assoc]
        intro e mem
        rcases List.mem_append.mp mem with within | later
        · exact (due_entries fs inner e within).mono fun t s h => .of_value h.writes k es
        · exact (due_entries es others e later).mono fun t s h => h.cons _
      · rename_i tag ns
        obtain ⟨l, inner, rest⟩ := Option.bind_eq_some_iff.mp made
        obtain ⟨⟨taken, own⟩, others, same⟩ := Option.bind_eq_some_iff.mp rest
        cases same
        rw [List.append_assoc]
        intro e mem
        rcases List.mem_append.mp mem with within | later
        · exact (due_takenEntries ns inner e within).mono fun t s ⟨n, there, written⟩ =>
            .of_value (.item there written) k es
        · exact (due_entries es others e later).mono fun t s h => h.cons _
      · cases made
    · obtain ⟨⟨taken, own⟩, others, same⟩ := Option.bind_eq_some_iff.mp made
      cases same
      intro e mem
      have later (e : Entry) (there : e ∈ taken ++ own) : e.Due (AmongEntries ((k, v) :: es)) :=
        (due_entries es others e there).mono fun t s h => h.cons _
      rcases List.mem_append.mp mem with early | late
      · exact later e (List.mem_append_left _ early)
      · rcases List.mem_cons.mp late with rfl | late
        · refine ⟨?_, (due_value v).mono fun t s written => .of_value written k es⟩
          dsimp only
          split
          · split
            · exact .ok _
            · exact .malformed 0
          · exact (due_value k).mono fun t s written => .of_key written v es
        · exact later e (List.mem_append_right _ late)

theorem due_takenEntries : ∀ (ns : List Node) {l : List Entry},
    takenEntries ns = some l → ∀ e ∈ l, e.Due (Among ns)
  | [], l, made => by
    cases made
    intro e mem
    cases mem
  | n :: ns, l, made => by
    rw [takenEntries.eq_def] at made
    dsimp only at made
    split at made
    · rename_i tag fs
      obtain ⟨⟨a, b⟩, inner, rest⟩ := Option.bind_eq_some_iff.mp made
      obtain ⟨l, others, same⟩ := Option.bind_eq_some_iff.mp rest
      cases same
      intro e mem
      rcases List.mem_append.mp mem with later | within
      · exact (due_takenEntries ns others e later).mono fun t s h => h.cons _
      · exact (due_entries fs inner e within).mono fun t s h => ⟨_, List.mem_cons_self, h.writes⟩
    · cases made

end

end Node

end FileGate.Yaml
