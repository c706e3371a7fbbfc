import RouterConfig.Pattern.Plan

/-!
# RouterConfig — sizes of patterns

A plan is turned into a machine that reads bytes, state by state, once for each direction of
reading. Neither machine may take more than ten mebibytes of memory.
-/

namespace RouterConfig.Pattern

open RouterConfig.Unicode

/-- Which way a machine reads a text. -/
inductive Direction where
  | forward
  | backward
  deriving DecidableEq

/-! ## Memory -/

/-- The bytes that a state takes. -/
def stateSize : Nat := 32

/-- The bytes that a state with several byte runs takes for each of them. -/
def runSize : Nat := 8

/-- The bytes that a state takes for each way to go on without reading. -/
def waySize : Nat := 4

/-- The size of a state with some byte runs. -/
def runsSize (count : Nat) : Nat := stateSize + runSize * count

/-- The size of a state with some ways to go on. -/
def waysSize (count : Nat) : Nat := stateSize + waySize * count

/-- The size of the states for one character of a set. Forwards, runs that start the encodings of
several characters lie in one state, and states that go on alike are one. Backwards, every run has a
state, and all encodings start from one. -/
def charsSize (direction : Direction) (set : CodeSet) : Nat :=
  if set.isAscii then runsSize set.ranges.length + stateSize
  else
    let boxes := boxes set
    match direction with
    | .forward =>
      let nodes := (RunTree.ofBoxes boxes).nodes
      nodes.foldl (fun size branches => size + runsSize branches.length) stateSize
    | .backward =>
      let branches := (RunTree.ofBoxes boxes).branchCount
      waysSize boxes.length + stateSize + stateSize * branches

/-! ## Literals -/

/-- Literals put together where they start alike. Where a literal ends, the ways on that come later
are kept apart from those before. -/
inductive LiteralTree where
  | node (closed : List (List (Nat × LiteralTree))) (last : List (Nat × LiteralTree))

namespace LiteralTree

/-- Whether nothing follows. -/
def isLeaf : LiteralTree → Bool
  | node closed last => closed.all (·.isEmpty) && last.isEmpty

/-- The tree of one literal. -/
def ofBytes : List Nat → LiteralTree
  | [] => node [[]] []
  | byte :: rest => node [] [(byte, ofBytes rest)]

/-- The tree with a literal more. -/
def add : List Nat → LiteralTree → LiteralTree
  | [], node closed last =>
    if !closed.isEmpty && isLeaf (node closed last) then node closed last
    else node (closed ++ [last]) []
  | byte :: rest, node closed last =>
    if last.any (·.1 = byte) then
      node closed (last.map fun way => if way.1 = byte then (byte, add rest way.2) else way)
    else node closed (last ++ [(byte, ofBytes rest)])

mutual

/-- The size of the states of a tree without its end. -/
def size : LiteralTree → Nat
  | node closed last =>
    if closed.all (·.isEmpty) && last.isEmpty then 0
    else
      let parts := (closed ++ [last]).filter fun ways => !ways.isEmpty
      waysSize (parts.length + closed.length) + closedSize closed + partSize last

/-- The size of the states of some parts. -/
def closedSize : List (List (Nat × LiteralTree)) → Nat
  | [] => 0
  | ways :: rest => partSize ways + closedSize rest

/-- The size of the states of a part: one for all its ways, if there are any, and what follows. -/
def partSize : List (Nat × LiteralTree) → Nat
  | [] => 0
  | [(_, tree)] => stateSize + tree.size
  | (_, tree) :: rest => runsSize (rest.length + 1) + tree.size + waysOnSize rest

/-- The size of what follows some ways. -/
def waysOnSize : List (Nat × LiteralTree) → Nat
  | [] => 0
  | (_, tree) :: rest => tree.size + waysOnSize rest

end

end LiteralTree

/-- The size of a choice between literals. -/
def literalsSize (direction : Direction) (literals : List (List Nat)) : Nat :=
  let turned := literals.map fun bytes => if direction = .forward then bytes else bytes.reverse
  (turned.foldl (fun tree bytes => tree.add bytes) (LiteralTree.node [] [])).size + stateSize

/-! ## Plans -/

namespace Plan

/-- The size of a repetition of a plan, of which one copy has the size `copy`. -/
def repeatedSize (p : Plan) (copy least : Nat) (most? : Option Nat) : Nat :=
  -- A copy that may be left out stands behind a state with two ways.
  let optional := waysSize 2 + copy
  match most? with
  | some most =>
    if least = 0 && most = 1 then optional + stateSize
    else if least = most then least * copy
    else
      let needed := if least = 0 then stateSize else least * copy
      needed + stateSize + (most - least) * optional
  | none =>
    if 0 < least then least * copy + waysSize 2
    else if p.shortest?.any (0 < ·) then optional
    else optional + waysSize 2 + stateSize

mutual

/-- The size of the states of a plan. -/
def size (direction : Direction) : Plan → Nat
  | empty => stateSize
  | literal bytes => stateSize * bytes.length
  | chars set => charsSize direction set
  | anchor _ => stateSize
  | sequence parts => sizes direction parts
  | choice parts =>
    match parts.mapM literal? with
    | some literals => literalsSize direction literals
    | none => waysSize parts.length + stateSize + sizes direction parts
  | group _ p => p.size direction + if direction = .forward then 2 * stateSize else 0
  | repeated p least most? _ => repeatedSize p (p.size direction) least most?

/-- The size of the states of some plans. -/
def sizes (direction : Direction) : List Plan → Nat
  | [] => 0
  | p :: rest => p.size direction + sizes direction rest

end

/-- The size of a whole machine: the whole match is a group too, with a state before and one for
success behind it. -/
def machineSize (direction : Direction) (p : Plan) : Nat :=
  (group 0 p).size direction + 2 * stateSize

/-- The bytes that a machine may take. -/
def greatestSize : Nat := 10 * Nat.pow 2 20

/-- Whether the machines for both directions are small enough. -/
def fits (p : Plan) : Bool :=
  p.machineSize .forward ≤ greatestSize && p.machineSize .backward ≤ greatestSize

end Plan

end RouterConfig.Pattern
