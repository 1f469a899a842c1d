import ClusterMesh.Policy.Expression
import ClusterMesh.Proofs.Policy.Matching

/-!
# Patterns as search expressions

The expression of a pattern reads back as an anchor, a part for each character of the pattern and
an anchor: no character but the star is special in it. So every engine that keeps to the language
of expressions finds it in exactly the items that are the pieces of the pattern with some text in
place of each star, and the matcher that takes the pieces one by one gives the same answers.
-/

namespace ClusterMesh

namespace Wildcard

theorem fills_cons {c : Char} {p cs : List Char} {ps : List (List Char)} :
    Fills ((c :: p) :: ps) cs ↔ ∃ rest, cs = c :: rest ∧ Fills (p :: ps) rest := by
  constructor
  · intro h
    cases h with
    | last => exact ⟨p, rfl, .last p⟩
    | more _ filling h => exact ⟨p ++ (filling ++ _), rfl, .more p filling h⟩
  · rintro ⟨rest, rfl, h⟩
    cases h with
    | last => exact .last (c :: p)
    | more _ filling h => exact .more (c :: p) filling h

end Wildcard

namespace Expression

variable {p : Place} {ps : List Part} {c : Char} {before rest cs : List Char}

/-! ### The reading of a pattern's expression -/

theorem tokens?_alone (hslash : c ≠ '\\') (hopen : c ≠ '(') :
    tokens? (c :: cs) = (plain? c).bind fun t => (tokens? cs).map (t :: ·) := by
  rw [tokens?]
  · rintro _ _ rfl
    exact absurd rfl hslash
  · rintro _ rfl
    exact absurd rfl hopen

theorem tokens?_opening (cs : List Char) :
    tokens? ('(' :: '?' :: 's' :: ':' :: cs) = (tokens? cs).map (.opening :: ·) := by
  rw [tokens?]

theorem tokens?_of_plain (h : c ∉ metacharacters) :
    tokens? (c :: cs) = (tokens? cs).map (.char c :: ·) := by
  have hne : ∀ m ∈ metacharacters, c ≠ m := by
    rintro m hm rfl
    exact h hm
  have hplain : plain? c = some (.char c) := by
    simp only [plain?, h, if_false]
    rw [if_neg (hne '.' (by decide)), if_neg (hne '*' (by decide)), if_neg (hne '^' (by decide)),
      if_neg (hne '$' (by decide)), if_neg (hne ')' (by decide))]
  rw [tokens?_alone (hne _ (by decide)) (hne _ (by decide)), hplain, Option.bind_some]

theorem tokens?_escape (cs tail : List Char) :
    tokens? (Wildcard.escape cs ++ tail) = (tokens? tail).map (cs.map .char ++ ·) := by
  induction cs with
  | nil => simp [Wildcard.escape]
  | cons c cs ih =>
    have hcons : tokens? (Wildcard.escape (c :: cs) ++ tail) =
        (tokens? (Wildcard.escape cs ++ tail)).map (.char c :: ·) := by
      simp only [Wildcard.escape, List.flatMap_cons, List.append_assoc]
      split
      · next hmeta =>
        rw [List.cons_append, List.cons_append, List.nil_append, tokens?, if_pos hmeta]
      · next hplain => rw [List.cons_append, List.nil_append, tokens?_of_plain hplain]
    rw [hcons, ih, Option.map_map]
    rfl

theorem tokens?_pieces (ps : List (List Char)) (tail : List Char) :
    tokens? (".*".toList.intercalate (ps.map Wildcard.escape) ++ tail) =
      (tokens? tail).map ([.dot, .star].intercalate (ps.map (List.map .char)) ++ ·) := by
  induction ps with
  | nil => simp
  | cons p ps ih =>
    by_cases hps : ps = []
    · simp only [hps, List.map_cons, List.map_nil, List.intercalate_singleton, tokens?_escape]
    · have hdot : ∀ cs, tokens? (".*".toList ++ cs) = (tokens? cs).map ([.dot, .star] ++ ·) := by
        intro cs
        show tokens? ('.' :: '*' :: cs) = _
        simp [tokens?, plain?, Function.comp_def]
      rw [List.map_cons, List.map_cons, List.intercalate_cons_of_ne_nil (by simpa using hps),
        List.intercalate_cons_of_ne_nil (by simpa using hps), List.append_assoc, List.append_assoc,
        tokens?_escape, hdot, ih, Option.map_map, Option.map_map]
      simp [Function.comp_def]

/-- What a character of a pattern is written as. -/
def cell (c : Char) : List Token := if c = '*' then [.dot, .star] else [.char c]

/-- The part that a character of a pattern asks for. -/
def partOf (c : Char) : Part := if c = '*' then .many (.any true) else .one (.only c)

theorem intercalate_pieces {α : Type} (sep : List α) (f : Char → List α) (cs : List Char) :
    sep.intercalate ((Text.pieces '*' cs).map fun p => p.flatMap f) =
      cs.flatMap fun c => if c = '*' then sep else f c := by
  induction cs with
  | nil => simp [Text.pieces]
  | cons c cs ih =>
    rw [List.flatMap_cons, ← ih, Text.pieces]
    by_cases hc : c = '*'
    · rw [if_pos hc, List.map_cons,
        List.intercalate_cons_of_ne_nil (by simpa using Text.pieces_ne_nil _ _)]
      simp [hc]
    · rw [if_neg hc]
      cases hps : Text.pieces '*' cs with
      | nil => exact absurd hps (Text.pieces_ne_nil _ _)
      | cons p ps =>
        cases ps with
        | nil => simp [hc]
        | cons q qs => simp [hc, List.intercalate_cons_cons]

theorem intercalate_chars (cs : List Char) :
    [.dot, .star].intercalate ((Text.pieces '*' cs).map (List.map .char)) = cs.flatMap cell := by
  have hmap : (List.map Token.char : List Char → List Token) =
      fun p => p.flatMap fun c => [.char c] := by
    funext p
    induction p with
    | nil => rfl
    | cons c p ih => rw [List.map_cons, ih, List.flatMap_cons, List.singleton_append]
  rw [hmap, intercalate_pieces]
  rfl

theorem parts?_char {depth : Nat} {ts : List Token} (h : ts.head? ≠ some .star) :
    parts? depth (.char c :: ts) = (parts? depth ts).map (.one (.only c) :: ·) := by
  rw [parts?]
  rintro ts rfl
  exact h rfl

theorem head?_cells {tail : List Token} (h : tail.head? ≠ some .star) :
    (cs.flatMap cell ++ tail).head? ≠ some .star := by
  cases cs with
  | nil => exact h
  | cons c cs =>
    rw [List.flatMap_cons, cell]
    split <;> simp

theorem parts?_cells (depth : Nat) {tail : List Token} (h : tail.head? ≠ some .star) :
    parts? (depth + 1) (cs.flatMap cell ++ tail) =
      (parts? (depth + 1) tail).map (cs.map partOf ++ ·) := by
  induction cs with
  | nil => simp
  | cons c cs ih =>
    rw [List.flatMap_cons, List.append_assoc, cell]
    by_cases hc : c = '*'
    · rw [if_pos hc, List.cons_append, List.cons_append, List.nil_append, parts?, ih,
        Option.map_map]
      simp [Function.comp_def, partOf, hc]
    · rw [if_neg hc, List.cons_append, List.nil_append, parts?_char (head?_cells h), ih,
        Option.map_map]
      simp [Function.comp_def, partOf, hc]

/-- No character of a pattern but the star is special in its expression. -/
theorem read?_expression (pattern : String) :
    read? (Wildcard.expression pattern) =
      some (.start :: (pattern.toList.map partOf ++ [.finish])) := by
  have htokens : tokens? (Wildcard.expression pattern).toList =
      some (.caret :: .opening :: (pattern.toList.flatMap cell ++ [.closing, .dollar])) := by
    have hfront : ∀ cs, tokens? ("^(?s:".toList ++ cs) =
        (tokens? cs).map fun ts => .caret :: .opening :: ts := by
      intro cs
      show tokens? ('^' :: '(' :: '?' :: 's' :: ':' :: cs) = _
      rw [tokens?_alone (by decide) (by decide), tokens?_opening]
      simp [plain?, Function.comp_def]
    have hback : tokens? ")$".toList = some [.closing, .dollar] := rfl
    rw [Wildcard.toList_expression, hfront, tokens?_pieces, hback, intercalate_chars]
    rfl
  rw [read?, htokens, Option.bind_some, parts?, parts?, parts?_cells 0 (by simp)]
  rfl

/-! ### Where a pattern's expression is found -/

/-- A repetition takes as much of the item as the rest of the expression leaves to it. -/
theorem follows_many :
    Follows (.many p :: ps) before rest ↔ ∃ filling tail, rest = filling ++ tail ∧
      (∀ c ∈ filling, p.admits c = true) ∧ Follows ps (before ++ filling) tail := by
  constructor
  · intro h
    generalize hmany : Part.many p :: ps = parts at h
    induction h with
    | leave h =>
      obtain ⟨-, rfl⟩ := List.cons.inj hmany
      exact ⟨[], _, rfl, by simp, by rwa [List.append_nil]⟩
    | @again q _ c _ _ hc h ih =>
      obtain ⟨filling, tail, rfl, hall, hfollows⟩ := ih hmany
      obtain ⟨hpart, -⟩ := List.cons.inj hmany
      obtain rfl := Part.many.inj hpart
      refine ⟨c :: filling, tail, rfl, List.forall_mem_cons.mpr ⟨hc, hall⟩, ?_⟩
      rwa [List.append_cons]
    | _ => cases hmany
  · rintro ⟨filling, tail, rfl, hall, h⟩
    induction filling generalizing before with
    | nil => exact .leave (by rwa [List.append_nil] at h)
    | cons c filling ih =>
      obtain ⟨hc, hall⟩ := List.forall_mem_cons.mp hall
      refine .again hc (ih hall ?_)
      rwa [← List.append_cons]

theorem follows_one :
    Follows (.one p :: ps) before rest ↔
      ∃ c tail, rest = c :: tail ∧ p.admits c = true ∧ Follows ps (before ++ [c]) tail := by
  constructor
  · intro h
    cases h with
    | one hc h => exact ⟨_, _, rfl, hc, h⟩
  · rintro ⟨c, tail, rfl, hc, h⟩
    exact .one hc h

theorem follows_cells :
    Follows (cs.map partOf ++ [.finish]) before rest ↔
      Wildcard.Fills (Text.pieces '*' cs) rest := by
  induction cs generalizing before rest with
  | nil =>
    rw [Text.pieces, Wildcard.fills_singleton]
    constructor
    · intro h
      cases h with
      | finish => rfl
    · rintro rfl
      exact .finish .done
  | cons c cs ih =>
    rw [List.map_cons, List.cons_append, partOf, Text.pieces]
    cases hps : Text.pieces '*' cs with
    | nil => exact absurd hps (Text.pieces_ne_nil _ _)
    | cons p ps =>
      rw [hps] at ih
      by_cases hc : c = '*'
      · simp only [if_pos hc, follows_many, ih, Wildcard.fills_cons_cons, List.nil_append]
        simp [Place.admits]
      · simp only [if_neg hc, follows_one, ih, Wildcard.fills_cons]
        simp [Place.admits]

/-- The anchors leave one place to look at: the expression is found in an item that is the pieces
of the pattern with any text in place of each star. -/
theorem occurs_expression {item : String} :
    Occurs (.start :: (cs.map partOf ++ [.finish])) item ↔
      Wildcard.Fills (Text.pieces '*' cs) item.toList := by
  constructor
  · rintro ⟨before, rest, heq, h⟩
    cases h with
    | start h =>
      rw [heq]
      exact follows_cells.mp h
  · intro h
    exact ⟨[], item.toList, rfl, .start (follows_cells.mpr h)⟩

/-! ### The engine that tries every place -/

theorem isEmpty_concat (before : List Char) (c : Char) : (before ++ [c]).isEmpty = false := by
  cases before <;> rfl

theorem mem_reached (before : List Char) {spot : Bool × List Char} :
    spot ∈ reached p before.isEmpty rest ↔ ∃ filling tail, rest = filling ++ tail ∧
      (∀ c ∈ filling, p.admits c = true) ∧ spot = ((before ++ filling).isEmpty, tail) := by
  induction rest generalizing before with
  | nil => simp [reached]
  | cons c rest ih =>
    have hnext : reached p false rest = reached p (before ++ [c]).isEmpty rest := by
      rw [isEmpty_concat]
    rw [reached, List.mem_cons]
    constructor
    · rintro (rfl | hlater)
      · exact ⟨[], c :: rest, rfl, by simp, by rw [List.append_nil]⟩
      · split at hlater
        · next hc =>
          rw [hnext, ih] at hlater
          obtain ⟨filling, tail, rfl, hall, rfl⟩ := hlater
          exact ⟨c :: filling, tail, rfl, List.forall_mem_cons.mpr ⟨hc, hall⟩,
            by rw [List.append_cons before c filling]⟩
        · cases hlater
    · rintro ⟨filling, tail, heq, hall, rfl⟩
      cases filling with
      | nil =>
        obtain rfl := heq
        exact .inl (by rw [List.append_nil])
      | cons d filling =>
        obtain ⟨rfl, rfl⟩ := List.cons.inj heq
        obtain ⟨hc, hall⟩ := List.forall_mem_cons.mp hall
        refine .inr ?_
        rw [if_pos hc, hnext, ih]
        exact ⟨filling, tail, rfl, hall, by simp⟩

theorem follows_iff : follows ps before.isEmpty rest = true ↔ Follows ps before rest := by
  induction ps generalizing before rest with
  | nil => exact ⟨fun _ => .done, fun _ => rfl⟩
  | cons part ps ih =>
    cases part with
    | start =>
      rw [follows, Bool.and_eq_true, ih]
      constructor
      · rintro ⟨hempty, h⟩
        obtain rfl := List.isEmpty_iff.mp hempty
        exact .start h
      · intro h
        cases h with
        | start h => exact ⟨rfl, h⟩
    | finish =>
      rw [follows, Bool.and_eq_true, ih]
      constructor
      · rintro ⟨hempty, h⟩
        obtain rfl := List.isEmpty_iff.mp hempty
        exact .finish h
      · intro h
        cases h with
        | finish h => exact ⟨rfl, h⟩
    | one p =>
      rw [follows_one]
      cases rest with
      | nil => simp [follows]
      | cons c rest =>
        have hnext : follows ps false rest = follows ps (before ++ [c]).isEmpty rest := by
          rw [isEmpty_concat]
        rw [follows, Bool.and_eq_true, hnext, ih]
        simp
    | many p =>
      rw [follows_many, follows, List.any_eq_true]
      constructor
      · rintro ⟨spot, hspot, h⟩
        obtain ⟨filling, tail, rfl, hall, rfl⟩ := (mem_reached _).mp hspot
        exact ⟨filling, tail, rfl, hall, ih.mp h⟩
      · rintro ⟨filling, tail, rfl, hall, h⟩
        exact ⟨_, (mem_reached _).mpr ⟨filling, tail, rfl, hall, rfl⟩, ih.mpr h⟩

theorem occurs_iff {item : String} : occurs ps item = true ↔ Occurs ps item := by
  rw [occurs, List.any_eq_true]
  constructor
  · rintro ⟨spot, hspot, h⟩
    obtain ⟨filling, tail, heq, -, rfl⟩ := (mem_reached []).mp hspot
    exact ⟨filling, tail, heq, follows_iff.mp h⟩
  · rintro ⟨before, rest, heq, h⟩
    refine ⟨(before.isEmpty, rest), ?_, follows_iff.mpr h⟩
    exact (mem_reached []).mpr ⟨before, rest, heq, fun _ _ => rfl, rfl⟩

theorem Engine.trying_documented (budget : Nat) : (Engine.trying budget).Documented where
  finds text parts hread hfits := by
    refine ⟨occurs parts, ?_, fun item => occurs_iff⟩
    simp only [Engine.trying, hread, if_pos (hfits parts hread)]
  refuses text hlarge := by
    simp only [Engine.trying, not_forall] at hlarge ⊢
    obtain ⟨parts, hread, hlarge⟩ := hlarge
    rw [hread]
    exact if_neg hlarge

/-! ### The size of an expression and of its pattern -/

theorem size_partOf (c : Char) :
    (partOf c).size = if c = '*' then 1004 else 32 * c.utf8Size := by
  unfold partOf
  split <;> rfl

theorem foldl_utf8Size (cs : List Char) (n : Nat) :
    cs.foldl (fun size c => size + c.utf8Size) n =
      n + cs.foldl (fun size c => size + c.utf8Size) 0 := by
  induction cs generalizing n with
  | nil => rfl
  | cons c cs ih =>
    rw [List.foldl_cons, List.foldl_cons, ih (n + c.utf8Size), ih (0 + c.utf8Size)]
    omega

theorem foldl_size (cs : List Char) (n : Nat) :
    (cs.map partOf).foldl (fun size p => size + p.size) n = n + 1004 * cs.count '*' +
      32 * (cs.filter (· != '*')).foldl (fun size c => size + c.utf8Size) 0 := by
  induction cs generalizing n with
  | nil => rfl
  | cons c cs ih =>
    rw [List.map_cons, List.foldl_cons, ih, size_partOf]
    by_cases hc : c = '*'
    · rw [if_pos hc, hc, List.count_cons_self, List.filter_cons_of_neg (by simp)]
      omega
    · rw [if_neg hc, List.count_cons_of_ne hc, List.filter_cons_of_pos (by simpa using hc),
        List.foldl_cons, foldl_utf8Size _ (0 + c.utf8Size)]
      omega

theorem size_expression (cs : List Char) :
    size (.start :: (cs.map partOf ++ [.finish])) = Wildcard.compiledSize cs := by
  have hfinish : ∀ n, [Part.finish].foldl (fun size p => size + p.size) n = n := fun _ => rfl
  have hstart : 128 + Part.start.size = 128 := rfl
  rw [size, List.foldl_cons, List.foldl_append, hfinish, hstart, foldl_size,
    Wildcard.compiledSize]

/-! ### The engine that runs -/

/-- What a character of a pattern is written as in its expression. -/
def written (c : Char) : List Char :=
  if c = '*' then ['.', '*'] else if c ∈ metacharacters then ['\\', c] else [c]

theorem toList_expression_ofList (cs : List Char) :
    (Wildcard.expression (String.ofList cs)).toList =
      "^(?s:".toList ++ (cs.flatMap written ++ ")$".toList) := by
  have hescape : Wildcard.escape = fun p : List Char =>
      p.flatMap fun c => if c ∈ metacharacters then ['\\', c] else [c] := rfl
  have hlist : (String.ofList cs).toList = cs := String.toList_ofList
  rw [Wildcard.toList_expression, hlist, hescape, intercalate_pieces]
  rfl

theorem eq_of_patternFrom? {before text pattern : List Char}
    (h : patternFrom? before text = some pattern) :
    ∃ behind, pattern = before.reverse ++ behind ∧ text = behind.flatMap written ++ ")$".toList := by
  have hread : ∀ {before cs} (c : Char), (∃ behind, pattern = (c :: before).reverse ++ behind ∧
      cs = behind.flatMap written ++ ")$".toList) → ∃ behind, pattern = before.reverse ++ behind ∧
        written c ++ cs = behind.flatMap written ++ ")$".toList := by
    rintro before cs c ⟨behind, rfl, rfl⟩
    exact ⟨c :: behind, by simp, by simp⟩
  fun_induction patternFrom? before text with
  | case1 before => exact ⟨[], by rw [List.append_nil, Option.some.inj h], rfl⟩
  | case2 before c cs hmeta ih =>
    have hwritten : written c = ['\\', c] := by rw [written, if_neg hmeta.2, if_pos hmeta.1]
    have hnext := hread c (ih h)
    rwa [hwritten] at hnext
  | case4 before cs ih => exact hread '*' (ih h)
  | case6 before c cs _ _ _ hplain ih =>
    have hstar : c ≠ '*' := fun hc => hplain (hc ▸ by decide)
    have hwritten : written c = [c] := by rw [written, if_neg hstar, if_neg hplain]
    have hnext := hread c (ih h)
    rwa [hwritten] at hnext
  | case3 | case5 | case7 => cases h

/-- A text that reads back as a pattern is the expression of the pattern. -/
theorem eq_of_patternOf? {text : String} {pattern : List Char} (h : patternOf? text = some pattern) :
    text = Wildcard.expression (String.ofList pattern) := by
  unfold patternOf? at h
  split at h
  · next cs htext =>
    obtain ⟨behind, rfl, rfl⟩ := eq_of_patternFrom? h
    refine String.toList_inj.mp ?_
    rw [htext, toList_expression_ofList]
    rfl
  · cases h

theorem Engine.piecewise_documented (budget : Nat) : (Engine.piecewise budget).Documented where
  finds text parts hread hfits := by
    cases hpattern : patternOf? text with
    | none =>
      simp only [Engine.piecewise, hpattern]
      exact (Engine.trying_documented budget).finds text parts hread hfits
    | some pattern =>
      have htext := eq_of_patternOf? hpattern
      have hparts : parts = .start :: (pattern.map partOf ++ [.finish]) := by
        rw [htext, read?_expression, String.toList_ofList] at hread
        exact (Option.some.inj hread).symm
      have hsize : Wildcard.compiledSize pattern ≤ budget := by
        rw [← size_expression, ← hparts]
        exact hfits parts hread
      refine ⟨pieceFinder (Text.pieces '*' pattern), ?_, fun item => ?_⟩
      · simp only [Engine.piecewise, hpattern, if_pos hsize]
      · rw [hparts, occurs_expression, pieceFinder,
          Wildcard.piecesMatch_iff (Text.pieces_ne_nil _ _)]
  refuses text hlarge := by
    cases hpattern : patternOf? text with
    | none =>
      simp only [Engine.piecewise, hpattern]
      exact (Engine.trying_documented budget).refuses text hlarge
    | some pattern =>
      have hsize : ¬Wildcard.compiledSize pattern ≤ budget := by
        intro hsize
        refine hlarge fun parts hread => ?_
        rw [eq_of_patternOf? hpattern, read?_expression, String.toList_ofList] at hread
        rw [← Option.some.inj hread, size_expression]
        exact hsize
      simp only [Engine.piecewise, hpattern, if_neg hsize]

theorem Engine.running_documented : Engine.running.Documented :=
  Engine.piecewise_documented Wildcard.sizeBudget

end Expression

namespace Wildcard

open Expression

/-! ### The answers of engines -/

/-- The pieces one after the other, with the next of the fillings between neighbours. -/
def laced : List String → List String → String
  | p :: ps, s :: ss => p ++ (s ++ laced ps ss)
  | ps, _ => String.join ps

/-- The item is the pieces of the pattern between its stars, with a text in place of each star. -/
def Filled (pattern item : String) : Prop :=
  ∃ fillings : List String, fillings.length + 1 = (Text.cutAt '*' pattern).length ∧
    item = laced (Text.cutAt '*' pattern) fillings

theorem fills_iff_laced {ps : List (List Char)} {item : String} :
    Fills ps item.toList ↔ ∃ fillings : List String, fillings.length + 1 = ps.length ∧
      item = laced (ps.map String.ofList) fillings := by
  constructor
  · intro h
    generalize hitem : item.toList = cs at h
    obtain rfl : String.ofList cs = item := by rw [← hitem, String.ofList_toList]
    clear hitem
    induction h with
    | last p => exact ⟨[], rfl, by simp [laced, String.join_cons]⟩
    | more p filling h ih =>
      obtain ⟨fillings, hlength, heq⟩ := ih
      refine ⟨String.ofList filling :: fillings, by simp [hlength], ?_⟩
      rw [List.map_cons, laced, ← heq, String.ofList_append, String.ofList_append]
  · rintro ⟨fillings, hlength, rfl⟩
    induction ps generalizing fillings with
    | nil => cases hlength
    | cons p ps ih =>
      cases fillings with
      | nil =>
        obtain rfl := List.length_eq_zero_iff.mp (Nat.succ.inj hlength.symm)
        simp [laced, String.join_cons, fills_singleton]
      | cons s fillings =>
        rw [List.map_cons, laced, String.toList_append, String.toList_append, String.toList_ofList]
        exact .more p s.toList (ih fillings (Nat.succ.inj hlength))

theorem filled_iff {pattern item : String} :
    Filled pattern item ↔ Fills (Text.pieces '*' pattern.toList) item.toList := by
  rw [Filled, fills_iff_laced, Text.cutAt, List.length_map]

/-- An engine that keeps to the language answers whether the item is made of the pieces of the
pattern, if the expression of the pattern keeps within its limits. -/
theorem matchBy_iff {engine : Engine} (hdoc : engine.Documented) {pattern item : String}
    (hfits : engine.Fits (expression pattern)) :
    matchBy engine pattern item = true ↔ Filled pattern item := by
  obtain ⟨finder, hbuild, hfinder⟩ := hdoc.finds _ _ (read?_expression pattern) hfits
  rw [matchBy, compile, hbuild, accepts, hfinder, occurs_expression, filled_iff]

theorem matchBy_of_not_fits {engine : Engine} (hdoc : engine.Documented) {pattern item : String}
    (hlarge : ¬engine.Fits (expression pattern)) : matchBy engine pattern item = false := by
  rw [matchBy, compile, hdoc.refuses _ hlarge, accepts]

theorem trying_fits {pattern : String} {budget : Nat} :
    (Engine.trying budget).Fits (expression pattern) ↔ compiledSize pattern.toList ≤ budget := by
  simp only [Engine.trying, read?_expression, Option.some.injEq, forall_eq', size_expression]

/-- To take the pieces of a pattern one by one is to look for its expression. -/
theorem isMatch_eq_matchBy (pattern item : String) :
    isMatch pattern item = matchBy (Engine.trying sizeBudget) pattern item := by
  have hdoc := Engine.trying_documented sizeBudget
  have hrunning := Engine.running_documented
  by_cases hfits : (Engine.trying sizeBudget).Fits (expression pattern)
  · rw [Bool.eq_iff_iff, matchBy_iff hdoc hfits]
    exact matchBy_iff hrunning hfits
  · rw [matchBy_of_not_fits hdoc hfits]
    exact matchBy_of_not_fits hrunning hfits

/-- Matching is exact: whatever engine makes the finder, a pattern whose expression keeps within
its limits matches the items that are its pieces with any texts in place of the stars and no
others, and a pattern beyond the limits matches nothing. The matcher by pieces is no exception. -/
theorem matches_exactly {engine : Engine} (hdoc : engine.Documented) (pattern item : String) :
    (engine.Fits (expression pattern) →
      (matchBy engine pattern item = true ↔ Filled pattern item)) ∧
    (¬engine.Fits (expression pattern) → matchBy engine pattern item = false) ∧
    (isMatch pattern item = true ↔
      compiledSize pattern.toList ≤ sizeBudget ∧ Filled pattern item) := by
  refine ⟨matchBy_iff hdoc, matchBy_of_not_fits hdoc, ?_⟩
  rw [isMatch_eq_matchBy]
  have hrunning := Engine.trying_documented sizeBudget
  by_cases hsize : compiledSize pattern.toList ≤ sizeBudget
  · rw [matchBy_iff hrunning (trying_fits.mpr hsize)]
    exact (and_iff_right hsize).symm
  · rw [matchBy_of_not_fits hrunning fun hfits => hsize (trying_fits.mp hfits)]
    simp [hsize]

theorem web_star_matches :
    (Engine.trying sizeBudget).Documented ∧
      matchBy (Engine.trying sizeBudget) "we.b*" "we.b\n" = true ∧
      (Engine.trying 100).Documented ∧ matchBy (Engine.trying 100) "we.b*" "we.b\n" = false := by
  have hwide := Engine.trying_documented sizeBudget
  have hnarrow := Engine.trying_documented 100
  have hfits : (Engine.trying sizeBudget).Fits (expression "we.b*") := trying_fits.mpr (by decide)
  have hlarge : ¬(Engine.trying 100).Fits (expression "we.b*") :=
    fun hfits => absurd (trying_fits.mp hfits) (by decide)
  exact ⟨hwide, ((matches_exactly hwide _ _).1 hfits).mpr ⟨["\n"], rfl, rfl⟩,
    hnarrow, (matches_exactly hnarrow _ _).2.1 hlarge⟩

end Wildcard

end ClusterMesh
