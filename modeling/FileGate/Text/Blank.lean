namespace FileGate.Text

/-- White space of Unicode together with the four information separators. -/
def isBlank (c : Char) : Bool :=
  let n := c.toNat
  (9 ≤ n && n ≤ 13) || (28 ≤ n && n ≤ 32) || n == 0x85 || n == 0xA0 || n == 0x1680 ||
    (0x2000 ≤ n && n ≤ 0x200A) || n == 0x2028 || n == 0x2029 || n == 0x202F || n == 0x205F ||
    n == 0x3000

def trimLeft (s : List Char) : List Char := s.dropWhile isBlank
def trimRight (s : List Char) : List Char := (s.reverse.dropWhile isBlank).reverse
def trim (s : List Char) : List Char := trimRight (trimLeft s)

def wordsFrom (word : List Char) : List Char → List (List Char)
  | [] => if word.isEmpty then [] else [word.reverse]
  | c :: s =>
    if isBlank c then
      if word.isEmpty then wordsFrom [] s else word.reverse :: wordsFrom [] s
    else wordsFrom (c :: word) s

def words (s : List Char) : List (List Char) := wordsFrom [] s

/-- Pieces between the occurrences of `sep`; one more than there are occurrences. -/
def splitAll (sep : Char) : List Char → List (List Char)
  | [] => [[]]
  | c :: s =>
    if c == sep then [] :: splitAll sep s
    else match splitAll sep s with
      | [] => [[c]]
      | w :: ws => (c :: w) :: ws

def cut? (sep : Char) : List Char → Option (List Char × List Char)
  | [] => none
  | c :: s => if c == sep then some ([], s) else (cut? sep s).map fun (a, b) => (c :: a, b)

theorem cut?_append {sep : Char} {w : List Char} (plain : sep ∉ w) (s : List Char) :
    cut? sep (w ++ sep :: s) = some (w, s) := by
  induction w with
  | nil => simp [cut?]
  | cons c w ih =>
    rw [List.mem_cons, not_or] at plain
    have other : (c == sep) = false := by simp [Ne.symm plain.1]
    simp [cut?, other, ih plain.2]

theorem cut?_eq_some_iff {sep : Char} {s a b : List Char} :
    cut? sep s = some (a, b) ↔ s = a ++ sep :: b ∧ sep ∉ a := by
  constructor
  · intro found
    induction s generalizing a with
    | nil => cases found
    | cons c s ih =>
      rw [cut?] at found
      split at found
      · rename_i same
        cases found
        exact ⟨by rw [eq_of_beq same, List.nil_append], List.not_mem_nil⟩
      · rename_i other
        obtain ⟨⟨a', b'⟩, later, same⟩ := Option.map_eq_some_iff.mp found
        cases same
        obtain ⟨rfl, plain⟩ := ih later
        have first : sep ≠ c := fun same => other (by simp [same])
        exact ⟨rfl, by simp [first, plain]⟩
  · rintro ⟨rfl, plain⟩
    exact cut?_append plain b

def cut (sep : Char) (s : List Char) : List Char × List Char := (cut? sep s).getD (s, [])

def joinWith (sep : List Char) : List (List Char) → List Char
  | [] => []
  | [w] => w
  | w :: ws => w ++ sep ++ joinWith sep ws

end FileGate.Text
