/-!
# Blank characters

The characters that separate words without being part of them: the white space of the
Unicode standard. Texts read from properties, commands and lists are trimmed by them.
-/

namespace ClusterMesh.Text

/-- White space as the Unicode standard lists it. -/
def isBlank (c : Char) : Bool :=
  let n := c.toNat
  (9 ≤ n && n ≤ 13) || n == 0x20 || n == 0x85 || n == 0xA0 || n == 0x1680 ||
    (0x2000 ≤ n && n ≤ 0x200A) || n == 0x2028 || n == 0x2029 || n == 0x202F ||
    n == 0x205F || n == 0x3000

def trimChars (cs : List Char) : List Char :=
  ((cs.dropWhile isBlank).reverse.dropWhile isBlank).reverse

def trim (s : String) : String := String.ofList (trimChars s.toList)

@[simp] theorem toList_trim (s : String) : (trim s).toList = trimChars s.toList := by
  simp [trim]

@[simp] theorem trimChars_nil : trimChars [] = [] := rfl

def Trimmed (cs : List Char) : Prop :=
  (∀ c ∈ cs.head?, isBlank c = false) ∧ ∀ c ∈ cs.getLast?, isBlank c = false

theorem trimChars_of_trimmed {cs : List Char} (h : Trimmed cs) : trimChars cs = cs := by
  have hdrop : ∀ (ds : List Char), (∀ c ∈ ds.head?, isBlank c = false) →
      ds.dropWhile isBlank = ds := by
    intro ds hd
    cases ds with
    | nil => rfl
    | cons d ds => simp [hd d (by simp)]
  unfold trimChars
  rw [hdrop cs h.1, hdrop cs.reverse (by simpa using h.2), List.reverse_reverse]

theorem not_isBlank_of_head?_dropWhile {cs : List Char} {c : Char}
    (h : c ∈ (cs.dropWhile isBlank).head?) : isBlank c = false := by
  have hnot := List.head?_dropWhile_not isBlank cs
  rwa [Option.mem_def.mp h] at hnot

theorem trimmed_trimChars (cs : List Char) : Trimmed (trimChars cs) := by
  refine ⟨?_, ?_⟩
  · intro c hc
    -- a text that is cut at its end begins as before
    obtain ⟨gone, hgone⟩ := List.dropWhile_suffix isBlank (l := (cs.dropWhile isBlank).reverse)
    have hsplit : cs.dropWhile isBlank = trimChars cs ++ gone.reverse := by
      rw [← List.reverse_reverse (cs.dropWhile isBlank), ← hgone, List.reverse_append]
      rfl
    have hhead : c ∈ (cs.dropWhile isBlank).head? := by
      rw [hsplit, List.head?_append, Option.mem_def.mp hc]
      rfl
    exact not_isBlank_of_head?_dropWhile hhead
  · intro c hc
    rw [trimChars, List.getLast?_reverse] at hc
    exact not_isBlank_of_head?_dropWhile hc

theorem trimChars_trimChars (cs : List Char) : trimChars (trimChars cs) = trimChars cs :=
  trimChars_of_trimmed (trimmed_trimChars cs)

theorem trimChars_trim (s : String) : trimChars (trim s).toList = (trim s).toList := by
  rw [toList_trim, trimChars_trimChars]

theorem mem_of_mem_trimChars {cs : List Char} {c : Char} (h : c ∈ trimChars cs) : c ∈ cs := by
  rw [trimChars, List.mem_reverse] at h
  have hdrop := (List.dropWhile_suffix isBlank).subset h
  exact (List.dropWhile_suffix isBlank).subset (List.mem_reverse.mp hdrop)

theorem length_trimChars_le (cs : List Char) : (trimChars cs).length ≤ cs.length := by
  have hback := (List.dropWhile_suffix isBlank (l := (cs.dropWhile isBlank).reverse)).length_le
  have hfront := (List.dropWhile_suffix isBlank (l := cs)).length_le
  rw [List.length_reverse] at hback
  rw [trimChars, List.length_reverse]
  exact Nat.le_trans hback hfront

def isBlankText (s : String) : Bool := (trim s).isEmpty

end ClusterMesh.Text
