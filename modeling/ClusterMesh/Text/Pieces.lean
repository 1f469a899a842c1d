/-!
# Texts cut at a separator

A text cut at every occurrence of a separating character gives at least one piece, and no
piece holds the separator. Joining the pieces with the separator gives the text back.
-/

namespace ClusterMesh.Text

/-- The pieces between the occurrences of `sep`; a text without `sep` is one piece. -/
def pieces (sep : Char) : List Char → List (List Char)
  | [] => [[]]
  | c :: cs =>
    if c = sep then [] :: pieces sep cs
    else
      match pieces sep cs with
      | [] => [[c]]
      | p :: ps => (c :: p) :: ps

/-- Texts one after the other with `sep` between neighbours. -/
def joined (sep : Char) : List (List Char) → List Char
  | [] => []
  | [p] => p
  | p :: q :: ps => p ++ sep :: joined sep (q :: ps)

theorem pieces_ne_nil (sep : Char) (cs : List Char) : pieces sep cs ≠ [] := by
  cases cs with
  | nil => simp [pieces]
  | cons c cs =>
    by_cases h : c = sep
    · simp [pieces, h]
    · simp only [pieces, h, if_false]
      split <;> simp

theorem joined_cons_of_ne_nil (sep : Char) (p : List Char) {ps : List (List Char)}
    (h : ps ≠ []) : joined sep (p :: ps) = p ++ sep :: joined sep ps := by
  cases ps with
  | nil => exact absurd rfl h
  | cons q ps => rfl

theorem joined_pieces (sep : Char) (cs : List Char) : joined sep (pieces sep cs) = cs := by
  induction cs with
  | nil => rfl
  | cons c cs ih =>
    by_cases h : c = sep
    · simp [pieces, h, joined_cons_of_ne_nil sep [] (pieces_ne_nil sep cs), ih]
    · simp only [pieces, h, if_false]
      cases hp : pieces sep cs with
      | nil => exact absurd hp (pieces_ne_nil sep cs)
      | cons p ps =>
        rw [hp] at ih
        cases ps with
        | nil =>
          simp only [joined] at ih ⊢
          rw [ih]
        | cons q qs =>
          simp only [joined] at ih ⊢
          rw [← ih, List.cons_append]

theorem not_mem_of_mem_pieces {sep : Char} {cs p : List Char} (h : p ∈ pieces sep cs) :
    sep ∉ p := by
  induction cs generalizing p with
  | nil =>
    simp only [pieces, List.mem_singleton] at h
    subst h
    simp
  | cons c cs ih =>
    by_cases hc : c = sep
    · simp only [pieces, hc, if_true, List.mem_cons] at h
      rcases h with rfl | h
      · simp
      · exact ih h
    · simp only [pieces, hc, if_false] at h
      cases hp : pieces sep cs with
      | nil => exact absurd hp (pieces_ne_nil sep cs)
      | cons q qs =>
        rw [hp] at h
        simp only [List.mem_cons] at h
        rcases h with rfl | h
        · simp only [List.mem_cons, not_or]
          exact ⟨fun he => hc he.symm, ih (by simp [hp])⟩
        · exact ih (by simp [hp, h])

theorem pieces_append_sep (sep : Char) (p cs : List Char) :
    pieces sep (p ++ sep :: cs) = pieces sep p ++ pieces sep cs := by
  induction p with
  | nil => simp [pieces]
  | cons c p ih =>
    by_cases hc : c = sep
    · simp [pieces, hc, ih]
    · simp only [List.cons_append, pieces, hc, if_false, ih]
      cases hp : pieces sep p with
      | nil => exact absurd hp (pieces_ne_nil sep p)
      | cons q qs => rfl

theorem pieces_of_not_mem {sep : Char} {p : List Char} (h : sep ∉ p) : pieces sep p = [p] := by
  induction p with
  | nil => rfl
  | cons c p ih =>
    rw [List.mem_cons, not_or] at h
    have hc : ¬c = sep := fun he => h.1 he.symm
    simp [pieces, hc, ih h.2]

theorem pieces_joined (sep : Char) {ps : List (List Char)} (h : ps ≠ []) :
    pieces sep (joined sep ps) = ps.flatMap (pieces sep) := by
  induction ps with
  | nil => exact absurd rfl h
  | cons p ps ih =>
    by_cases hps : ps = []
    · simp [hps, joined]
    · rw [joined_cons_of_ne_nil sep p hps, pieces_append_sep, ih hps, List.flatMap_cons]

/-- Texts one after the other with `sep` between neighbours. -/
def joinWith (sep : Char) (ts : List String) : String :=
  String.ofList (joined sep (ts.map String.toList))

/-- The pieces of a text between the occurrences of `sep`. -/
def cutAt (sep : Char) (s : String) : List String :=
  (pieces sep s.toList).map String.ofList

end ClusterMesh.Text
