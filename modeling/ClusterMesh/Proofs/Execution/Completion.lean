import ClusterMesh.Proofs.Execution.Collected

/-!
# A command is completed once

Any number of results and expiries may reach a pending command, in any order. One of them at most
completes it, and what was collected then is what the caller receives.
-/

namespace ClusterMesh.Pending

/-- What reaches a pending command. -/
inductive Call
  | addResults (batch : List CommandResult)
  | onTimeout

namespace Call

def batch : Call → List CommandResult
  | addResults batch => batch
  | onTimeout => []

end Call

/-- Let a call take effect. Tells whether it completed the command. -/
def perform (p : Pending) : Call → Pending × Bool
  | .addResults batch => p.addResults batch
  | .onTimeout => p.onTimeout

def after (c : Command) (calls : List Call) : Pending :=
  calls.foldl (fun p call => (p.perform call).1) (ofCommand c)

/-- What one more call would tell. -/
def told (c : Command) (calls : List Call) (call : Call) : Bool := ((after c calls).perform call).2

def answers (p : Pending) : List Call → List Bool
  | [] => []
  | call :: calls => (p.perform call).2 :: answers (p.perform call).1 calls

def brought (calls : List Call) : List CommandResult := calls.flatMap Call.batch

/-- The results of calls as they are collected. -/
def gathered (calls : List Call) : Results := (∅ : Results).addAll (brought calls)

/-! ### One call -/

/-- The call completes the open command of which so much was collected before. -/
def Completes (c : Command) (collected : Results) : Call → Prop
  | .addResults batch => ∃ expected, c.expected = some expected ∧
      expected ≤ (collected.addAll batch).size
  | .onTimeout => True

theorem perform_completed {p : Pending} (h : p.completed = true) (call : Call) :
    p.perform call = (p, false) := by
  cases call with
  | addResults batch => simp [perform, addResults, h]
  | onTimeout => simp [perform, onTimeout, complete, h]

/-- An open command takes in the batch of a call, and is completed or stays open. -/
theorem perform_open {p : Pending} (h : p.completed = false) (hd : p.delivery = .awaited)
    (call : Call) :
    let collected := p.results.addAll call.batch
    (Completes p.command p.results call ∧
        p.perform call = (⟨p.command, collected, true, .delivered collected⟩, true)) ∨
      (¬Completes p.command p.results call ∧
        p.perform call = (⟨p.command, collected, false, .awaited⟩, false)) := by
  obtain ⟨command, results, completed, delivery⟩ := p
  dsimp only at h hd
  subst h hd
  cases call with
  | onTimeout => exact Or.inl ⟨trivial, rfl⟩
  | addResults batch =>
    cases he : command.expected with
    | none =>
      refine Or.inr ⟨?_, ?_⟩
      · intro hall
        obtain ⟨expected, hsome, -⟩ := hall
        rw [he] at hsome
        cases hsome
      · simp [perform, addResults, he, Call.batch]
    | some expected =>
      by_cases hle : expected ≤ (results.addAll batch).size
      · refine Or.inl ⟨⟨expected, he, hle⟩, ?_⟩
        simp [perform, addResults, he, received, hle, complete, closed, Call.batch]
      · refine Or.inr ⟨?_, ?_⟩
        · intro hall
          obtain ⟨other, hsome, hother⟩ := hall
          rw [he] at hsome
          cases hsome
          exact hle hother
        · simp [perform, addResults, he, received, hle, Call.batch]

/-! ### Runs of calls -/

theorem after_concat (c : Command) (calls : List Call) (call : Call) :
    after c (calls ++ [call]) = ((after c calls).perform call).1 := by
  simp [after, List.foldl_append]

theorem gathered_concat (calls : List Call) (call : Call) :
    gathered (calls ++ [call]) = (gathered calls).addAll call.batch := by
  simp [gathered, brought, Results.addAll_append]

theorem answers_append (p : Pending) (xs ys : List Call) :
    p.answers (xs ++ ys) =
      p.answers xs ++ (xs.foldl (fun p call => (p.perform call).1) p).answers ys := by
  induction xs generalizing p with
  | nil => rfl
  | cons x xs ih => simp [answers, ih]

theorem answers_concat (c : Command) (calls : List Call) (call : Call) :
    (ofCommand c).answers (calls ++ [call]) = (ofCommand c).answers calls ++ [told c calls call] :=
  answers_append (ofCommand c) calls [call]

/-- After calls of which none completed it: all of their results are collected. -/
structure StillOpen (c : Command) (calls : List Call) : Prop where
  state : after c calls = ⟨c, gathered calls, false, .awaited⟩
  answers : (ofCommand c).answers calls = List.replicate calls.length false

/-- After calls of which one completed it: what was collected up to that call is delivered. -/
structure CompletedBy (c : Command) (ys : List Call) (x : Call) (zs : List Call) : Prop where
  state : after c (ys ++ x :: zs) =
    ⟨c, gathered (ys ++ [x]), true, .delivered (gathered (ys ++ [x]))⟩
  before : StillOpen c ys
  completes : Completes c (gathered ys) x
  answers : (ofCommand c).answers (ys ++ x :: zs) =
    List.replicate ys.length false ++ true :: List.replicate zs.length false

theorem stillOpen_or_completedBy (c : Command) (calls : List Call) :
    StillOpen c calls ∨ ∃ ys x zs, calls = ys ++ x :: zs ∧ CompletedBy c ys x zs := by
  induction calls using List.reverseRecOn with
  | nil => exact Or.inl ⟨rfl, rfl⟩
  | append_singleton calls call ih =>
    rcases ih with hopen | ⟨ys, x, zs, rfl, hdone⟩
    · have hperform := perform_open (p := after c calls) (by rw [hopen.state])
        (by rw [hopen.state]) call
      simp only [hopen.state] at hperform
      rcases hperform with ⟨hcompletes, heq⟩ | ⟨-, heq⟩
      · refine Or.inr ⟨calls, call, [], rfl, ⟨?_, hopen, hcompletes, ?_⟩⟩
        · rw [after_concat, hopen.state, heq, gathered_concat]
        · rw [answers_concat, hopen.answers, told, hopen.state, heq]
          rfl
      · refine Or.inl ⟨?_, ?_⟩
        · rw [after_concat, hopen.state, heq, gathered_concat]
        · rw [answers_concat, hopen.answers, told, hopen.state, heq, List.length_append,
            List.length_singleton, List.replicate_succ']
    · have hperform := perform_completed (p := after c (ys ++ x :: zs))
        (by rw [hdone.state]) call
      have hcons : ys ++ x :: zs ++ [call] = ys ++ x :: (zs ++ [call]) := by simp
      refine Or.inr ⟨ys, x, zs ++ [call], hcons, ⟨?_, hdone.before, hdone.completes, ?_⟩⟩
      · rw [← hcons, after_concat, hperform]
        exact hdone.state
      · rw [← hcons, answers_concat, hdone.answers, told, hperform, List.length_append,
          List.length_singleton, List.replicate_succ', List.append_assoc, List.cons_append]

theorem StillOpen.not_mem {c : Command} {calls : List Call} (h : StillOpen c calls) :
    true ∉ (ofCommand c).answers calls := by
  rw [h.answers]
  simp

theorem CompletedBy.mem {c : Command} {ys zs : List Call} {x : Call}
    (h : CompletedBy c ys x zs) : true ∈ (ofCommand c).answers (ys ++ x :: zs) := by
  rw [h.answers]
  simp

theorem told_iff (c : Command) (calls : List Call) (call : Call) :
    told c calls call = true ↔
      true ∉ (ofCommand c).answers calls ∧ Completes c (gathered calls) call := by
  rcases stillOpen_or_completedBy c calls with hopen | ⟨ys, x, zs, rfl, hdone⟩
  · have hperform := perform_open (p := after c calls) (by rw [hopen.state])
      (by rw [hopen.state]) call
    simp only [hopen.state] at hperform
    rw [told, hopen.state]
    rcases hperform with ⟨hcompletes, heq⟩ | ⟨hnot, heq⟩
    · simp [heq, hcompletes, hopen.not_mem]
    · simp [heq, hnot]
  · have hperform := perform_completed (p := after c (ys ++ x :: zs)) (by rw [hdone.state]) call
    simp [told, hperform, hdone.mem]

theorem CompletedBy.unique {c : Command} {ys zs ys' zs' : List Call} {x x' : Call}
    (h : CompletedBy c ys x zs) (hcalls : ys ++ x :: zs = ys' ++ x' :: zs')
    (htold : told c ys' x' = true) : ys = ys' ∧ x = x' := by
  have hnot := ((told_iff c ys' x').mp htold).1
  have hyes := ((told_iff c ys x).mpr ⟨h.before.not_mem, h.completes⟩)
  have hcase := List.append_eq_append_iff.mp hcalls
  rcases hcase with ⟨as, rfl, hcons⟩ | ⟨bs, rfl, hcons⟩
  · cases as with
    | nil => exact ⟨by simp, by simpa using congrArg List.head? hcons⟩
    | cons a as =>
      obtain ⟨rfl, rfl⟩ : x = a ∧ zs = as ++ x' :: zs' := by simpa using hcons
      refine absurd ?_ hnot
      have hsplit : ys ++ x :: as = ys ++ [x] ++ as := by simp
      rw [hsplit, answers_append, List.mem_append]
      exact Or.inl (by rw [answers_concat, hyes]; simp)
  · cases bs with
    | nil => exact ⟨by simp, by simpa using (congrArg List.head? hcons).symm⟩
    | cons b bs =>
      obtain ⟨rfl, rfl⟩ : x' = b ∧ zs' = bs ++ x :: zs := by simpa using hcons
      refine absurd ?_ h.before.not_mem
      have hsplit : ys' ++ x' :: bs = ys' ++ [x'] ++ bs := by simp
      rw [hsplit, answers_append, List.mem_append]
      exact Or.inl (by rw [answers_concat, htold]; simp)

/-! ### The whole life of a command -/

theorem completes_addResults_iff {c : Command} {calls : List Call} {batch : List CommandResult} :
    Completes c (gathered calls) (.addResults batch) ↔
      ∃ nodes, c.destination = some nodes ∧
        nodes.size ≤ (Results.sources (brought (calls ++ [.addResults batch]))).toFinset.card := by
  have hsize : ((gathered calls).addAll batch).size =
      (Results.sources (brought (calls ++ [.addResults batch]))).toFinset.card := by
    rw [← Results.size_addAll_empty]
    exact congrArg KeyedList.size (gathered_concat calls (.addResults batch)).symm
  simp only [Completes, hsize, Command.expected, Option.map_eq_some_iff]
  constructor
  · intro hall
    obtain ⟨-, ⟨nodes, hnodes, rfl⟩, hle⟩ := hall
    exact ⟨nodes, hnodes, hle⟩
  · intro hall
    obtain ⟨nodes, hnodes, hle⟩ := hall
    exact ⟨nodes.size, ⟨nodes, hnodes, rfl⟩, hle⟩

theorem count_answers_le (c : Command) (calls : List Call) :
    ((ofCommand c).answers calls).count true ≤ 1 := by
  rcases stillOpen_or_completedBy c calls with hopen | ⟨ys, x, zs, rfl, hdone⟩
  · simp [hopen.answers, List.count_replicate]
  · simp [hdone.answers, List.count_append, List.count_replicate]

theorem delivery_iff (c : Command) (calls : List Call) (rs : Results) :
    (after c calls).delivery = .delivered rs ↔
      ∃ ys x zs, calls = ys ++ x :: zs ∧ told c ys x = true ∧ rs = gathered (ys ++ [x]) := by
  rcases stillOpen_or_completedBy c calls with hopen | ⟨ys, x, zs, rfl, hdone⟩
  · rw [hopen.state]
    constructor
    · intro h
      cases h
    · intro hall
      obtain ⟨ys, x, zs, rfl, htold, -⟩ := hall
      refine absurd ?_ hopen.not_mem
      have hsplit : ys ++ x :: zs = ys ++ [x] ++ zs := by simp
      rw [hsplit, answers_append, List.mem_append]
      exact Or.inl (by rw [answers_concat, htold]; simp)
  · rw [hdone.state]
    constructor
    · intro h
      cases h
      exact ⟨ys, x, zs, rfl, (told_iff c ys x).mpr ⟨hdone.before.not_mem, hdone.completes⟩, rfl⟩
    · intro hall
      obtain ⟨ys', x', zs', hcalls, htold, rfl⟩ := hall
      obtain ⟨rfl, rfl⟩ := hdone.unique hcalls htold
      rfl

theorem delivered_iff_mem (c : Command) (calls : List Call) :
    (∃ rs, (after c calls).delivery = .delivered rs) ↔ true ∈ (ofCommand c).answers calls := by
  rcases stillOpen_or_completedBy c calls with hopen | ⟨ys, x, zs, rfl, hdone⟩
  · simp [hopen.state, hopen.not_mem]
  · simp [hdone.state, hdone.mem]

theorem delivered_stays {c : Command} {calls : List Call} {rs : Results}
    (h : (after c calls).delivery = .delivered rs) (later : List Call) :
    after c (calls ++ later) = after c calls ∧ (after c calls).results = rs ∧
      ∀ call, told c (calls ++ later) call = false := by
  have hmem := (delivered_iff_mem c calls).mp ⟨rs, h⟩
  have hcompleted : (after c calls).completed = true ∧ (after c calls).results = rs := by
    rcases stillOpen_or_completedBy c calls with hopen | ⟨ys, x, zs, rfl, hdone⟩
    · exact absurd hmem hopen.not_mem
    · rw [hdone.state] at h ⊢
      cases h
      exact ⟨rfl, rfl⟩
  have hsame : after c (calls ++ later) = after c calls := by
    induction later using List.reverseRecOn with
    | nil => simp
    | append_singleton later call ih =>
      rw [← List.append_assoc, after_concat, ih, perform_completed hcompleted.1]
  refine ⟨hsame, hcompleted.2, ?_⟩
  intro call
  rw [told, hsame, perform_completed hcompleted.1]

theorem completed_exactly_once (c : Command) (calls : List Call) :
    -- at most one call completes the command
    ((ofCommand c).answers calls).count true ≤ 1 ∧
    -- a map is delivered if and only if a call did, and it is the one collected at that call
    ((∃ rs, (after c calls).delivery = .delivered rs) ↔ true ∈ (ofCommand c).answers calls) ∧
    (∀ rs, (after c calls).delivery = .delivered rs ↔
      ∃ ys x zs, calls = ys ++ x :: zs ∧ told c ys x = true ∧ rs = gathered (ys ++ [x])) ∧
    -- a collected map has every source id once, with the first node and the last result
    (gathered calls).keys.Nodup ∧
    (∀ id, (id ∈ (gathered calls).keys ↔ id ∈ Results.sources (brought calls)) ∧
      (gathered calls).find? id =
        Results.firstAndLast (Results.answersOf (brought calls) id)) ∧
    -- what the next call tells
    (told c calls .onTimeout = true ↔ true ∉ (ofCommand c).answers calls) ∧
    (∀ batch, told c calls (.addResults batch) = true ↔
      true ∉ (ofCommand c).answers calls ∧ ∃ nodes, c.destination = some nodes ∧
        nodes.size ≤ (Results.sources (brought (calls ++ [.addResults batch]))).toFinset.card) ∧
    -- nothing changes after the completion
    (∀ rs, (after c calls).delivery = .delivered rs → ∀ later,
      (after c (calls ++ later)).delivery = .delivered rs ∧
      (after c (calls ++ later)).results = rs ∧
      ∀ call, told c (calls ++ later) call = false) := by
  refine ⟨count_answers_le c calls, delivered_iff_mem c calls, delivery_iff c calls,
    (gathered calls).keys_nodup, ?_, ?_, ?_, ?_⟩
  · intro id
    refine ⟨?_, ?_⟩
    · simp [gathered, Results.mem_keys_addAll]
    · rw [gathered, Results.find?_addAll]
      rfl
  · simp [told_iff, Completes]
  · intro batch
    rw [told_iff, completes_addResults_iff]
  · intro rs h later
    obtain ⟨hsame, hresults, htold⟩ := delivered_stays h later
    exact ⟨by rw [hsame, h], by rw [hsame, hresults], htold⟩

end ClusterMesh.Pending
