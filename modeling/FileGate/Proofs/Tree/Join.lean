import FileGate.Proofs.Server.FilesRoot

namespace FileGate.Text

theorem splitAll_append_cons (sep : Char) (a b : List Char) :
    splitAll sep (a ++ sep :: b) = splitAll sep a ++ splitAll sep b := by
  induction a with
  | nil => simp [splitAll]
  | cons c a ih =>
    by_cases same : c = sep
    · simp [splitAll, same, ih]
    · rcases pieces : splitAll sep a with _ | ⟨w, ws⟩
      · exact absurd pieces (splitAll_ne_nil sep a)
      · rw [pieces] at ih
        simp [splitAll, same, ih, pieces]

end FileGate.Text

namespace FileGate.Path

theorem resolve_append (done xs ys : List Path) :
    resolve done (xs ++ ys) = resolve (resolve done xs).reverse ys := by
  induction xs generalizing done with
  | nil => simp [resolve]
  | cons s xs ih =>
    rw [List.cons_append, resolve, resolve]
    split
    · exact ih done
    · split
      · exact ih done.tail
      · exact ih (s :: done)

theorem segments_append_slash (a b : Path) :
    segments (a ++ '/' :: b) = resolve (segments a).reverse (Text.splitAll '/' b) := by
  rw [segments, Text.splitAll_append_cons, resolve_append, segments]

theorem segments_normalize (a : Path) : segments (normalize a) = segments a :=
  segments_ofSegments (segments_areSegments a)

theorem segments_slash_at_end (a : Path) : segments (a ++ ['/']) = segments a := by
  rw [segments_append_slash]
  simp [Text.splitAll, resolve]

theorem normalize_append_slash {a a' : Path} (same : segments a = segments a') (b : Path) :
    normalize (a ++ '/' :: b) = normalize (a' ++ '/' :: b) := by
  rw [normalize, segments_append_slash, same, ← segments_append_slash, normalize]

theorem normalize_normalize_append (a b : Path) :
    normalize (normalize a ++ '/' :: b) = normalize (a ++ '/' :: b) :=
  normalize_append_slash (segments_normalize a) b

theorem join_of_absolute (a : Path) {b : Path} (absolute : b.head? = some '/') : join a b = b := by
  rw [join, absolute, if_pos (by simp)]

theorem normalize_join_of_relative (a : Path) {b : Path} (relative : b.head? ≠ some '/') :
    normalize (join a b) = normalize (a ++ '/' :: b) := by
  rw [join, if_neg (by simpa using relative)]
  split
  · rename_i bare
    rw [Bool.or_eq_true, List.isEmpty_iff, beq_iff_eq] at bare
    rcases bare with rfl | last
    · exact (normalize_slash b).symm
    · obtain ⟨front, rfl⟩ := List.getLast?_eq_some_iff.mp last
      rw [List.append_assoc, List.singleton_append]
      exact normalize_append_slash (segments_slash_at_end front).symm b
  · rfl

theorem normalize_join (a b : Path) :
    normalize (join (normalize a) b) =
      normalize (if b.head? = some '/' then b else a ++ '/' :: b) := by
  split
  · rename_i absolute
    rw [join_of_absolute _ absolute]
  · rename_i relative
    rw [normalize_join_of_relative _ relative, normalize_normalize_append]

end FileGate.Path
