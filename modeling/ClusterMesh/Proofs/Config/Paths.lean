import ClusterMesh.Config.Path
import Mathlib.Data.List.TakeWhile

/-!
# Names as paths

A name is followed as a path exactly where it spells one. There is one way to read it then; a name
without dots and brackets spells nothing but itself.
-/

namespace ClusterMesh.PathStep

variable {fuel : Nat} {c : Char} {cs first before number after rest ds : List Char} {name : String}
  {index : Int} {steps : List PathStep}

theorem takeWhile_of_all {p : Char → Bool} (h : ∀ c ∈ cs, p c = true)
    (hrest : rest.takeWhile p = []) : (cs ++ rest).takeWhile p = cs := by
  rw [List.takeWhile_append_of_pos h, hrest, List.append_nil]

theorem append_of_takeWhile {p : Char → Bool} (cs : List Char) :
    cs = cs.takeWhile p ++ cs.drop (cs.takeWhile p).length :=
  (List.prefix_iff_eq_append.mp (List.takeWhile_prefix p)).symm

/-! ### Positions -/

theorem not_isGap_of_isNumberChar (h : isNumberChar c = true) : isGap c = false := by
  cases hgap : isGap c with
  | false => rfl
  | true =>
    rw [isGap, Bool.or_eq_true, beq_iff_eq, beq_iff_eq] at hgap
    rcases hgap with rfl | rfl <;> exact absurd h (by decide)

theorem ne_nil_of_integer? (h : DecimalText.integer? number = some index) : number ≠ [] := by
  rintro rfl
  cases h

theorem position?_of_spelled (hbefore : ∀ c ∈ before, isGap c = true)
    (hafter : ∀ c ∈ after, isGap c = true) (hchars : ∀ c ∈ number, isNumberChar c = true)
    (hnumber : DecimalText.integer? number = some index) :
    position? (before ++ number ++ after ++ ']' :: rest) = some (index, rest) := by
  obtain ⟨d, ds, rfl⟩ := List.exists_cons_of_ne_nil (ne_nil_of_integer? hnumber)
  have hd : isGap d = false := not_isGap_of_isNumberChar (hchars d List.mem_cons_self)
  have hstart : (before ++ (d :: ds) ++ after ++ ']' :: rest).dropWhile isGap =
      (d :: ds) ++ (after ++ ']' :: rest) := by
    rw [List.append_assoc, List.append_assoc, List.dropWhile_append_of_pos hbefore,
      List.cons_append, List.dropWhile_cons_of_neg (by simp [hd])]
  have hstops : (after ++ ']' :: rest).takeWhile isNumberChar = [] := by
    cases after with
    | nil => rfl
    | cons g after =>
      have hg : isNumberChar g = false := by
        refine Bool.eq_false_iff.mpr fun hg => ?_
        have hgap := not_isGap_of_isNumberChar hg
        rw [hafter g List.mem_cons_self] at hgap
        cases hgap
      exact List.takeWhile_cons_of_neg (by simp [hg])
  have hend : (after ++ ']' :: rest).dropWhile isGap = ']' :: rest := by
    rw [List.dropWhile_append_of_pos hafter]
    rfl
  simp only [position?, hstart, takeWhile_of_all hchars hstops, List.drop_left, hend, hnumber,
    Option.map_some]

theorem spelled_of_position? (h : position? cs = some (index, rest)) :
    ∃ before number after, cs = before ++ number ++ after ++ ']' :: rest ∧
      (∀ c ∈ before, isGap c = true) ∧ (∀ c ∈ after, isGap c = true) ∧
      (∀ c ∈ number, isNumberChar c = true) ∧ DecimalText.integer? number = some index := by
  rw [position?] at h
  generalize hstart : cs.dropWhile isGap = start at h
  generalize hmore : start.drop (start.takeWhile isNumberChar).length = more at h
  have hcs : cs.takeWhile isGap ++ start = cs := hstart ▸ List.takeWhile_append_dropWhile
  have hsplit : start = start.takeWhile isNumberChar ++ more := hmore ▸ append_of_takeWhile start
  have hend : more.takeWhile isGap ++ more.dropWhile isGap = more :=
    List.takeWhile_append_dropWhile
  split at h
  next behind hbehind =>
    obtain ⟨i, hi, hpair⟩ := Option.map_eq_some_iff.mp h
    obtain ⟨rfl, rfl⟩ := Prod.mk.inj hpair
    refine ⟨cs.takeWhile isGap, start.takeWhile isNumberChar, more.takeWhile isGap, ?_,
      fun c => List.mem_takeWhile_imp, fun c => List.mem_takeWhile_imp,
      fun c => List.mem_takeWhile_imp, hi⟩
    rw [hbehind] at hend
    rw [List.append_assoc, hend, List.append_assoc, ← hsplit, hcs]
  next => cases h

/-! ### Steps -/

theorem Continues.takeWhile_eq_nil (h : Continues rest steps) : rest.takeWhile isNameChar = [] := by
  cases h <;> rfl

theorem continues_of_steps? (h : steps? fuel cs = some steps) : Continues cs steps := by
  fun_induction steps? fuel cs generalizing steps with
  | case1 =>
    obtain rfl := Option.some.inj h
    exact .done
  | case3 => cases h
  | case4 fuel rest name hempty =>
    rename_i ih
    obtain ⟨others, hothers, rfl⟩ := Option.map_eq_some_iff.mp h
    have hname : name ≠ [] := List.isEmpty_eq_false_iff.mp (Bool.eq_false_iff.mpr hempty)
    have hentry := Continues.entry hname (fun c => List.mem_takeWhile_imp) (ih hothers)
    rwa [List.cons_append, ← append_of_takeWhile] at hentry
  | case5 fuel rest behind index hposition ih =>
    obtain ⟨others, hothers, rfl⟩ := Option.map_eq_some_iff.mp h
    obtain ⟨before, number, after, rfl, hbefore, hafter, hchars, hnumber⟩ :=
      spelled_of_position? hposition
    exact Continues.position hbefore hafter hchars hnumber (ih hothers)
  | _ => cases h

theorem Continues.steps? (h : Continues cs steps) (hfuel : cs.length ≤ fuel) :
    PathStep.steps? fuel cs = some steps := by
  induction h generalizing fuel with
  | done => cases fuel <;> rfl
  | @entry name rest steps hname hchars hrest ih =>
    cases fuel with
    | zero => simp at hfuel
    | succ fuel =>
      have hbelow : PathStep.steps? fuel rest = some steps := ih (by simp at hfuel; omega)
      simp [PathStep.steps?, takeWhile_of_all hchars hrest.takeWhile_eq_nil, hname, hbelow]
  | @position before number after rest index steps hbefore hafter hchars hnumber hrest ih =>
    cases fuel with
    | zero => simp at hfuel
    | succ fuel =>
      have hbelow : PathStep.steps? fuel rest = some steps := ih (by simp at hfuel; omega)
      have hposition : position? (before ++ number ++ after ++ ']' :: rest) = some (index, rest) :=
        position?_of_spelled hbefore hafter hchars hnumber
      simp only [List.cons_append, PathStep.steps?, hposition, hbelow, Option.map_some]

/-! ### Names -/

theorem Spells.exists_cons (h : Spells cs steps) :
    ∃ first others, steps = entry first :: others := by
  cases h
  exact ⟨_, _, rfl⟩

theorem ofName_of_spells (h : Spells name.toList steps) : ofName name = steps := by
  generalize hcs : name.toList = cs at h
  cases h with
  | @path first rest steps hname hchars hrest =>
    have hempty : first.isEmpty = false := by simpa using hname
    have hsteps : PathStep.steps? (first ++ rest).length rest = some steps :=
      hrest.steps? (by simp)
    simp only [ofName, hcs, takeWhile_of_all hchars hrest.takeWhile_eq_nil, hempty, List.drop_left,
      hsteps, Bool.false_eq_true, if_false, Option.map_some, Option.getD_some]

theorem ofName_of_not_spells (h : ¬∃ steps, Spells name.toList steps) :
    ofName name = [entry name] := by
  rw [ofName]
  generalize hfirst : name.toList.takeWhile isNameChar = first
  cases hempty : first.isEmpty with
  | true => rfl
  | false =>
    cases hsteps : steps? name.toList.length (name.toList.drop first.length) with
    | none => rfl
    | some steps =>
      have hname : first ≠ [] := by simpa using hempty
      have hspells := Spells.path hname (fun c hc => List.mem_takeWhile_imp (hfirst ▸ hc))
        (continues_of_steps? hsteps)
      rw [← hfirst, ← append_of_takeWhile] at hspells
      exact absurd ⟨_, hspells⟩ h

theorem ofName_eq_cons (name : String) : ∃ first steps, ofName name = entry first :: steps := by
  by_cases h : ∃ steps, Spells name.toList steps
  · obtain ⟨steps, hspells⟩ := h
    rw [ofName_of_spells hspells]
    exact hspells.exists_cons
  · exact ⟨name, [], ofName_of_not_spells h⟩

/-- A name that is not a path. -/
def IsPlain (name : String) : Prop := '.' ∉ name.toList ∧ '[' ∉ name.toList

instance (name : String) : Decidable (IsPlain name) :=
  inferInstanceAs (Decidable (_ ∧ _))

theorem ofName_of_isPlain (h : IsPlain name) : ofName name = [entry name] := by
  by_cases hspelled : ∃ steps, Spells name.toList steps
  · obtain ⟨steps, hspells⟩ := hspelled
    generalize hcs : name.toList = cs at hspells
    obtain ⟨hdot, hbracket⟩ := h
    rw [hcs] at hdot hbracket
    rw [ofName_of_spells (hcs ▸ hspells)]
    cases hspells with
    | path _ _ hrest =>
      cases hrest with
      | done => rw [List.append_nil] at hcs; rw [← hcs, String.ofList_toList]
      | entry => simp at hdot
      | position => simp at hbracket
  · exact ofName_of_not_spells hspelled

end ClusterMesh.PathStep
