import ClusterMesh.Message.Timestamp
import Mathlib.Algebra.Group.Nat.Defs

/-!
# Points of time are read as they are written

What is written of a point of time that the calendar has is read as this point of time, to the
nanosecond. What is read is always a point of time that the calendar has.
-/

namespace ClusterMesh.Timestamp

variable {ds rest cs : List Char} {c : Char} {width n : Nat} {t : Timestamp}

/-! ### Numbers of a fixed width -/

theorem value_replicate_zero (count : Nat) : Nat.ofDigitChars 10 (List.replicate count '0') 0 = 0 := by
  induction count with
  | zero => rfl
  | succ count ih =>
    rw [List.replicate_succ, Nat.ofDigitChars_cons]
    exact ih

theorem value_padded (width n : Nat) : Digits.value (padded width n) = n := by
  rw [padded, Digits.value, Nat.ofDigitChars_append, value_replicate_zero]
  exact Digits.value_toDigits n

theorem isDigit_of_mem_padded (h : c ∈ padded width n) : c.isDigit = true := by
  rw [padded, List.mem_append, List.mem_replicate] at h
  rcases h with ⟨-, rfl⟩ | h
  · rfl
  · exact Nat.isDigit_of_mem_toDigits (by decide) (by decide) h

theorem padded_ne_nil (hwidth : 0 < width) : padded width n ≠ [] := by
  intro h
  have hlength := congrArg List.length h
  simp only [padded, List.length_append, List.length_replicate, List.length_nil] at hlength
  omega

theorem length_padded (hwidth : 0 < width) (h : n < 10 ^ width) : (padded width n).length = width := by
  have hle := (Nat.length_toDigits_le_iff (b := 10) (by decide) hwidth).mpr h
  simp only [padded, List.length_append, List.length_replicate]
  omega

theorem not_isBlank_of_isDigit (h : c.isDigit = true) : Text.isBlank c = false := by
  simp only [Char.isDigit, Bool.and_eq_true, decide_eq_true_eq] at h
  have hlow : 48 ≤ c.toNat := h.1
  have hhigh : c.toNat ≤ 57 := h.2
  simp only [Text.isBlank, Bool.or_eq_false_iff, Bool.and_eq_false_iff, beq_eq_false_iff_ne,
    decide_eq_false_iff_not]
  omega

theorem skipBlanks_cons (h : Text.isBlank c = false) : skipBlanks (c :: cs) = c :: cs := by
  rw [skipBlanks, List.dropWhile_cons_of_neg (by simp [h])]

theorem skipBlanks_digits (hne : ds ≠ []) (h : ∀ c ∈ ds, c.isDigit = true) :
    skipBlanks (ds ++ rest) = ds ++ rest := by
  cases ds with
  | nil => exact absurd rfl hne
  | cons d ds => exact skipBlanks_cons (not_isBlank_of_isDigit (h d List.mem_cons_self))

theorem takeWhile_digits (h : ∀ c ∈ ds, c.isDigit = true)
    (hrest : ∀ c ∈ rest.head?, c.isDigit = false) :
    (ds ++ rest).takeWhile Char.isDigit = ds := by
  rw [List.takeWhile_append_of_pos h]
  cases rest with
  | nil => simp
  | cons d rest => simp [hrest d rfl]

/-- Digits are read as a number where no more than `width` of them stand in a row. -/
theorem number?_digits (hne : ds ≠ []) (h : ∀ c ∈ ds, c.isDigit = true) (hwidth : ds.length ≤ width)
    (hrest : ∀ c ∈ (rest.take (width - ds.length)).head?, c.isDigit = false) :
    number? width (ds ++ rest) = some (Digits.value ds, rest) := by
  have htake : (ds ++ rest).take width = ds ++ rest.take (width - ds.length) := by
    rw [List.take_append, List.take_of_length_le hwidth]
  simp only [number?, htake, takeWhile_digits h hrest, List.isEmpty_iff, hne, if_false,
    List.drop_left]

theorem field?_padded (hwidth : 0 < width) (h : n < 10 ^ width) :
    field? width (padded width n ++ rest) = some (n, rest) := by
  have hlength := length_padded hwidth h
  rw [field?, skipBlanks_digits (padded_ne_nil hwidth) fun c hc => isDigit_of_mem_padded hc,
    number?_digits (padded_ne_nil hwidth) (fun c hc => isDigit_of_mem_padded hc) (Nat.le_of_eq hlength)
      (by simp [hlength]), value_padded]

theorem mark?_cons (h : Text.isBlank c = false) : mark? c (c :: cs) = some cs := by
  simp [mark?, skipBlanks_cons h]

theorem isDigit_of_append_eq (hne : ds ≠ []) (h : ∀ c ∈ ds, c.isDigit = true)
    (heq : ds ++ rest = c :: cs) : c.isDigit = true := by
  cases ds with
  | nil => exact absurd rfl hne
  | cons d ds =>
    obtain ⟨rfl, -⟩ := List.cons.inj heq
    exact h d List.mem_cons_self

/-! ### Years and fractions of a second -/

theorem year?_yearText (year : Int) :
    year? (yearText year ++ '-' :: rest) = some (year, '-' :: rest) := by
  have hdigits : ∀ c ∈ padded 4 year.natAbs, c.isDigit = true := fun c hc => isDigit_of_mem_padded hc
  have hne : padded 4 year.natAbs ≠ [] := padded_ne_nil (by decide)
  unfold yearText
  split
  · next hrange =>
    have hlength : (padded 4 year.natAbs).length = 4 := length_padded (by decide) (by omega)
    have hnumber : number? 4 (padded 4 year.natAbs ++ '-' :: rest) =
        some (year.natAbs, '-' :: rest) := by
      rw [number?_digits hne hdigits (Nat.le_of_eq hlength) (by simp [hlength]), value_padded]
    have habs : (year.natAbs : Int) = year := by omega
    rw [year?, skipBlanks_digits hne hdigits]
    split
    · next heq => exact absurd (isDigit_of_append_eq hne hdigits heq) (by decide)
    · next heq => exact absurd (isDigit_of_append_eq hne hdigits heq) (by decide)
    · rw [hnumber, Option.map_some, habs]
  · next hrange =>
    have hnumber : number? (padded 4 year.natAbs ++ '-' :: rest).length
        (padded 4 year.natAbs ++ '-' :: rest) = some (year.natAbs, '-' :: rest) := by
      rw [number?_digits hne hdigits (by simp) ?_, value_padded]
      intro c hc
      simp only [List.length_append, Nat.add_sub_cancel_left, List.take_length] at hc
      obtain rfl := Option.some.inj hc
      decide
    split
    · next hneg =>
      rw [List.cons_append, year?, skipBlanks_cons (by decide)]
      simp only [hnumber, Option.map_some, Option.some.injEq, Prod.mk.injEq, and_true]
      omega
    · next hpos =>
      rw [List.cons_append, year?, skipBlanks_cons (by decide)]
      simp only [hnumber, Option.map_some, Option.some.injEq, Prod.mk.injEq, and_true]
      omega

theorem nanos?_padded (hwidth : 0 < width) (hle : width ≤ 9) (h : n < 10 ^ width) :
    nanos? ('.' :: padded width n ++ ['Z']) = some (n * Nat.pow 10 (9 - width), ['Z']) := by
  have hlength := length_padded hwidth h
  have htake : (padded width n ++ ['Z']).takeWhile Char.isDigit = padded width n :=
    takeWhile_digits (fun c hc => isDigit_of_mem_padded hc) (by simp)
  have hkept : (padded width n).take 9 = padded width n := List.take_of_length_le (by omega)
  simp only [List.cons_append, nanos?, htake, List.isEmpty_iff, padded_ne_nil hwidth, if_false,
    hkept, value_padded, hlength, List.drop_left']

theorem nanos?_fraction {nano : Nat} (h : nano < 1000000000) :
    nanos? (fraction nano ++ ['Z']) = some (nano, ['Z']) := by
  unfold fraction
  split
  · next hzero =>
    rw [hzero]
    rfl
  · split
    · next hmillis =>
      rw [nanos?_padded (by decide) (by decide) (by omega)]
      have hpow : Nat.pow 10 (9 - 3) = 1000000 := rfl
      simp only [hpow, Option.some.injEq, Prod.mk.injEq, and_true]
      omega
    · split
      · next hmicros =>
        rw [nanos?_padded (by decide) (by decide) (by omega)]
        have hpow : Nat.pow 10 (9 - 6) = 1000 := rfl
        simp only [hpow, Option.some.injEq, Prod.mk.injEq, and_true]
        omega
      · rw [nanos?_padded (by decide) (by decide) (by omega)]
        simp

/-! ### Whole points of time -/

theorem isValid_iff : t.isValid = true ↔
    yearInRange t.year = true ∧ 1 ≤ t.month ∧ t.month ≤ 12 ∧ 1 ≤ t.day ∧
      t.day ≤ daysIn t.year t.month ∧ t.hour ≤ 23 ∧ t.minute ≤ 59 ∧ t.second ≤ 60 ∧
      t.nano < 1000000000 := by
  simp only [isValid, Bool.and_eq_true, decide_eq_true_eq, and_assoc]

theorem daysIn_le (year : Int) (month : Nat) : daysIn year month ≤ 31 := by
  unfold daysIn
  split
  · split <;> decide
  · split <;> decide

theorem le_daysIn (year : Int) (month : Nat) : 28 ≤ daysIn year month := by
  unfold daysIn
  split
  · split <;> decide
  · split <;> decide

theorem behind_zero (h : t.isValid = true) : t.behind 0 = t := by
  obtain ⟨-, -, -, -, -, hhour, hminute, -, -⟩ := isValid_iff.mp h
  have hearly : ¬((t.hour * 60 + t.minute : Nat) : Int) - 0 < 0 := by omega
  have hlate : ¬(1440 : Int) ≤ ((t.hour * 60 + t.minute : Nat) : Int) - 0 := by omega
  have hminutes : ((((t.hour * 60 + t.minute : Nat) : Int) - 0) % 1440).toNat =
      t.hour * 60 + t.minute := by omega
  have hhours : (t.hour * 60 + t.minute) / 60 = t.hour := by omega
  have hrest : (t.hour * 60 + t.minute) % 60 = t.minute := by omega
  simp only [behind, hearly, if_false, hlate, hminutes, hhours, hrest]

theorem toList_render (t : Timestamp) : t.render.toList =
    yearText t.year ++ '-' :: (padded 2 t.month ++ '-' :: (padded 2 t.day ++ 'T' ::
      (padded 2 t.hour ++ ':' :: (padded 2 t.minute ++ ':' :: (padded 2 t.second ++
        (fraction t.nano ++ ['Z'])))))) := by
  simp [render]

theorem parse_render (h : t.isValid = true) : parse t.render = some t := by
  obtain ⟨hyear, hmonth, hmonth', hday, hday', hhour, hminute, hsecond, hnano⟩ := isValid_iff.mp h
  have hdays := daysIn_le t.year t.month
  have hfield : ∀ n < 100, ∀ rest, field? 2 (padded 2 n ++ rest) = some (n, rest) :=
    fun n hn rest => field?_padded (by decide) hn
  have hmark : ∀ c cs, Text.isBlank c = false → mark? c (c :: cs) = some cs :=
    fun c cs hc => mark?_cons hc
  rw [parse, toList_render]
  simp only [year?_yearText, Option.bind_eq_bind, Option.bind_some,
    hmark '-' _ (by decide), hmark ':' _ (by decide), hfield t.month (by omega),
    hfield t.day (by omega), hfield t.hour (by omega), hfield t.minute (by omega),
    hfield t.second (by omega), nanos?_fraction hnano]
  have hoffset : offset? (skipBlanks ['Z']) = some (0, []) := by decide
  have hwhole : (⟨t.year, t.month, t.day, t.hour, t.minute, t.second, t.nano⟩ : Timestamp) = t := rfl
  simp only [hoffset, Option.bind_some, hwhole, h, behind_zero h, hyear, if_true]
  rfl

theorem isValid_dayBefore (h : t.isValid = true) (hyear : yearInRange t.dayBefore.year = true) :
    t.dayBefore.isValid = true := by
  obtain ⟨-, hmonth, hmonth', hday, hday', hrest⟩ := isValid_iff.mp h
  have hprevious := le_daysIn t.year (t.month - 1)
  have hdecember : daysIn (t.year - 1) 12 = 31 := rfl
  rw [isValid_iff]
  unfold dayBefore at hyear ⊢
  split at hyear
  · next hlater =>
    simp only [hlater, if_true]
    exact ⟨hyear, hmonth, hmonth', by omega, by omega, hrest⟩
  · next hfirst =>
    split at hyear
    · next hmonths =>
      simp only [hfirst, if_false, hmonths, if_true]
      exact ⟨hyear, by omega, by omega, by omega, by omega, hrest⟩
    · next hjanuary =>
      simp only [hfirst, if_false, hjanuary]
      exact ⟨hyear, by omega, by omega, by omega, by omega, hrest⟩

theorem isValid_dayAfter (h : t.isValid = true) (hyear : yearInRange t.dayAfter.year = true) :
    t.dayAfter.isValid = true := by
  obtain ⟨-, hmonth, hmonth', hday, hday', hrest⟩ := isValid_iff.mp h
  have hnext := le_daysIn t.year (t.month + 1)
  have hjanuary := le_daysIn (t.year + 1) 1
  rw [isValid_iff]
  unfold dayAfter at hyear ⊢
  split at hyear
  · next hearlier =>
    simp only [hearlier, if_true]
    exact ⟨hyear, hmonth, hmonth', by omega, by omega, hrest⟩
  · next hlast =>
    split at hyear
    · next hmonths =>
      simp only [hlast, if_false, hmonths, if_true]
      exact ⟨hyear, by omega, by omega, by omega, by omega, hrest⟩
    · next hdecember =>
      simp only [hlast, if_false, hdecember]
      exact ⟨hyear, by omega, by omega, by omega, by omega, hrest⟩

theorem isValid_behind {minutes : Int} (h : t.isValid = true)
    (hyear : yearInRange (t.behind minutes).year = true) : (t.behind minutes).isValid = true := by
  have hday : ∀ u : Timestamp, u.isValid = true → ∀ m < 1440,
      ({ u with hour := m / 60, minute := m % 60 } : Timestamp).isValid = true := by
    intro u hu m hm
    obtain ⟨huyear, hmonth, hmonth', hday, hday', -, -, hsecond, hnano⟩ := isValid_iff.mp hu
    have hhour : m / 60 ≤ 23 := by omega
    have hminute : m % 60 ≤ 59 := by omega
    exact isValid_iff.mpr ⟨huyear, hmonth, hmonth', hday, hday', hhour, hminute, hsecond, hnano⟩
  have hminutes : ((((t.hour * 60 + t.minute : Nat) : Int) - minutes) % 1440).toNat < 1440 := by omega
  simp only [behind] at hyear ⊢
  refine hday _ ?_ _ hminutes
  split at hyear
  · next hearly =>
    rw [if_pos hearly]
    exact isValid_dayBefore h hyear
  · next hearly =>
    rw [if_neg hearly]
    split at hyear
    · next hlate =>
      rw [if_pos hlate]
      exact isValid_dayAfter h hyear
    · next hlate =>
      rw [if_neg hlate]
      exact h

theorem isValid_of_parse {s : String} (h : parse s = some t) : t.isValid = true := by
  have hend : ∀ (u : Timestamp) (offset : Int) (b c : Bool),
      (if (b && u.isValid && c) = true then
        if yearInRange (u.behind offset).year = true then some (u.behind offset) else none
      else none) = some t → t.isValid = true := by
    intro u offset b c hu
    split at hu
    · next hvalid =>
      split at hu
      · next hyear =>
        obtain rfl := Option.some.inj hu
        simp only [Bool.and_eq_true] at hvalid
        exact isValid_behind hvalid.1.2 hyear
      · cases hu
    · cases hu
  unfold parse at h
  simp only [Option.bind_eq_bind, Option.bind_eq_some_iff] at h
  obtain ⟨_, -, _, -, _, -, h⟩ := h
  -- three characters may stand between the date and the time of day
  split at h
  case h_4 => cases h
  all_goals
    simp only [Option.bind_some, Option.bind_eq_some_iff] at h
    obtain ⟨_, -, _, -, _, -, _, -, _, -, h⟩ := h
    exact hend _ _ _ _ h

end ClusterMesh.Timestamp
