import ClusterMesh.Text.Pieces

/-!
# Wildcard patterns

In a pattern `*` stands for any text, also the empty one, and every other character for
itself. A pattern matches whole items, with regard to case. The stars cut a pattern into
pieces: the first piece begins the item, the last one ends it, and those between follow one
another in it, each taken at its first occurrence.
-/

namespace ClusterMesh.Wildcard

/-- What follows the first occurrence of `p` in a text. -/
def afterFirst (p : List Char) : List Char → Option (List Char)
  | [] => if p.isEmpty then some [] else none
  | c :: cs => if p.isPrefixOf (c :: cs) then some ((c :: cs).drop p.length) else afterFirst p cs

def tailMatches : List (List Char) → List Char → Bool
  | [], _ => true
  | [p], cs => p.isSuffixOf cs
  | p :: ps, cs =>
    match afterFirst p cs with
    | some rest => tailMatches ps rest
    | none => false

/-- The first piece begins the text and the others follow; a lone piece is the whole text. -/
def piecesMatch : List (List Char) → List Char → Bool
  | [], cs => cs.isEmpty
  | [p], cs => p == cs
  | p :: ps, cs => p.isPrefixOf cs && tailMatches ps (cs.drop p.length)

/-- Units that the expression of a pattern takes in the engine that runs: a star stands for every
encoded character, which takes many states, and a byte takes one state. -/
def compiledSize (pattern : List Char) : Nat :=
  128 + 1004 * pattern.count '*' +
    32 * (pattern.filter (· != '*')).foldl (fun size c => size + c.utf8Size) 0

/-- The largest expression that this engine accepts: ten mebibytes. -/
def sizeBudget : Nat := 10 * Nat.pow 2 20

end ClusterMesh.Wildcard
