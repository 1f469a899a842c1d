import ClusterMesh.Execution.Pending
import Mathlib.Data.Finset.Card

/-!
# What a list of results amounts to

Results are collected by node id: the node of the first result of an id is the key, and the last
result is the value. The number of collected results is the number of distinct source ids.
-/

namespace ClusterMesh

namespace CommandResult

def sourceId (r : CommandResult) : Option String := r.sourceNode.map Node.id

def from? (id : String) (r : CommandResult) : Option (Node × CommandResult) :=
  match r.sourceNode with
  | some node => if node.id = id then some (node, r) else none
  | none => none

end CommandResult

namespace Results

def sources (incoming : List CommandResult) : List String :=
  incoming.filterMap CommandResult.sourceId

def answersOf (incoming : List CommandResult) (id : String) : List (Node × CommandResult) :=
  incoming.filterMap (CommandResult.from? id)

/-- The first node of a list of answers with the last result. -/
def firstAndLast (answers : List (Node × CommandResult)) : Option (Node × CommandResult) :=
  answers.head?.bind fun first => answers.getLast?.map fun last => (first.1, last.2)

theorem find?_record (rs : Results) (node : Node) (result : CommandResult) (id : String) :
    (rs.record node result).find? id =
      if id = node.id then some (((rs.find? node.id).map Prod.fst).getD node, result)
      else rs.find? id := by
  rw [record, KeyedList.find?_put, id_seat]

theorem firstAndLast_cons_append (a b : Node × CommandResult)
    (answers : List (Node × CommandResult)) :
    firstAndLast (a :: b :: answers) = firstAndLast ((a.1, b.2) :: answers) := by
  cases answers with
  | nil => rfl
  | cons c rest => simp [firstAndLast, List.getLast?_cons_cons]

theorem firstAndLast_add (rs : Results) (r : CommandResult) (id : String)
    (answers : List (Node × CommandResult)) :
    firstAndLast (((rs.add r).find? id).toList ++ answers) =
      firstAndLast ((rs.find? id).toList ++ ((r.from? id).toList ++ answers)) := by
  cases hs : r.sourceNode with
  | none => simp [add, CommandResult.from?, hs]
  | some node =>
    by_cases hid : node.id = id
    · have hfind := find?_record rs node r id
      rw [if_pos hid.symm, hid] at hfind
      have hadd : rs.add r = rs.record node r := by simp only [add, hs]
      rw [hadd, hfind]
      cases hold : rs.find? id with
      | none => simp [CommandResult.from?, hs, hid]
      | some entry => simp [CommandResult.from?, hs, hid, firstAndLast_cons_append]
    · have hne : ¬id = node.id := fun h => hid h.symm
      simp [add, hs, find?_record, hne, CommandResult.from?, hid]

theorem find?_addAll (rs : Results) (incoming : List CommandResult) (id : String) :
    (rs.addAll incoming).find? id =
      firstAndLast ((rs.find? id).toList ++ answersOf incoming id) := by
  induction incoming generalizing rs with
  | nil =>
    cases h : rs.find? id with
    | none => simp [addAll, answersOf, firstAndLast, h]
    | some entry => simp [addAll, answersOf, firstAndLast, h]
  | cons r rest ih =>
    have hanswers : answersOf (r :: rest) id = (r.from? id).toList ++ answersOf rest id := by
      cases h : r.from? id with
      | none => simp [answersOf, h]
      | some entry => simp [answersOf, h]
    have hstep : rs.addAll (r :: rest) = (rs.add r).addAll rest := rfl
    rw [hstep, ih, firstAndLast_add, hanswers]

theorem mem_keys_add {rs : Results} {r : CommandResult} {id : String} :
    id ∈ (rs.add r).keys ↔ id ∈ rs.keys ∨ r.sourceId = some id := by
  cases hs : r.sourceNode with
  | none => simp [add, CommandResult.sourceId, hs]
  | some node => simp [add, CommandResult.sourceId, hs, mem_keys_record, eq_comm]

theorem mem_of_mem_add {rs : Results} {r : CommandResult} {entry : Node × CommandResult}
    (h : entry ∈ (rs.add r).toList) :
    entry ∈ rs.toList ∨ entry.2 = r ∧ r.sourceId = some entry.1.id := by
  cases hs : r.sourceNode with
  | none =>
    rw [add, hs] at h
    exact Or.inl h
  | some node =>
    rw [add, hs] at h
    rcases KeyedList.mem_of_mem_put h with hold | rfl
    · exact Or.inl hold
    · refine Or.inr ⟨rfl, ?_⟩
      have hkey : (((rs.find? node.id).map Prod.fst).getD node).id = node.id := by
        cases hfind : rs.find? node.id with
        | none => rfl
        | some entry => simpa using KeyedList.key_of_find? hfind
      simp [CommandResult.sourceId, hs, hkey]

theorem mem_keys_addAll {rs : Results} {incoming : List CommandResult} {id : String} :
    id ∈ (rs.addAll incoming).keys ↔ id ∈ rs.keys ∨ id ∈ sources incoming := by
  induction incoming generalizing rs with
  | nil => simp [addAll, sources]
  | cons r rest ih =>
    have hstep : rs.addAll (r :: rest) = (rs.add r).addAll rest := rfl
    rw [hstep, ih, mem_keys_add, or_assoc]
    simp [sources, List.mem_filterMap]

theorem size_eq_card_keys (rs : Results) : rs.size = rs.keys.toFinset.card := by
  rw [List.toFinset_card_of_nodup rs.keys_nodup, KeyedList.length_keys]

theorem size_addAll_empty (incoming : List CommandResult) :
    ((∅ : Results).addAll incoming).size = (sources incoming).toFinset.card := by
  have hkeys : ((∅ : Results).addAll incoming).keys.toFinset = (sources incoming).toFinset := by
    ext id
    simp [mem_keys_addAll]
  rw [size_eq_card_keys, hkeys]

theorem addAll_append (rs : Results) (xs ys : List CommandResult) :
    rs.addAll (xs ++ ys) = (rs.addAll xs).addAll ys := by
  simp [addAll, List.foldl_append]

end Results

end ClusterMesh
