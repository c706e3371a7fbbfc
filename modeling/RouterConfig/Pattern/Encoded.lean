import RouterConfig.Unicode.CodeSet

/-!
# RouterConfig — encoded sets of characters

A machine that searches bytes knows a set of characters by the byte sequences that encode them. They
are listed as boxes, each a run of bytes for every place of a sequence, and the boxes of a set form
a tree.
-/

namespace RouterConfig.Pattern

open RouterConfig.Unicode

/-- The bytes that encode a code point. -/
def bytesOf (n : Nat) : List Nat :=
  let tail (k : Nat) : Nat := 0x80 + n / Nat.pow 64 k % 64
  if n < 0x80 then [n]
  else if n < 0x800 then [0xC0 + n / 64, tail 0]
  else if n < 0x10000 then [0xE0 + n / Nat.pow 64 2, tail 1, tail 0]
  else [0xF0 + n / Nat.pow 64 3, tail 2, tail 1, tail 0]

/-- The bytes from the first to the last that may stand at one place. -/
abbrev ByteRun := Nat × Nat

/-- Byte sequences, by the run for each of their places. -/
abbrev Box := List ByteRun

/-- The last code point of the first part of a range, where its encodings form no box. -/
def cutPoint? (first last : Nat) : Option Nat :=
  -- All encodings of a box have one length.
  match [0x7F, 0x7FF, 0xFFFF].find? fun longest => first ≤ longest && longest < last with
  | some longest => some longest
  | none =>
    if last ≤ 0x7F then none
    else
      -- Behind places that differ, all bytes must be possible.
      [64, Nat.pow 64 2, Nat.pow 64 3].findSome? fun step =>
        if first / step = last / step then none
        else if first % step ≠ 0 then some (first - first % step + step - 1)
        else if last % step ≠ step - 1 then some (last - last % step - 1)
        else none

/-- The boxes of a range in order. -/
def rangeBoxes : (fuel : Nat) → (first last : Nat) → List Box
  | 0, _, _ => []
  | fuel + 1, first, last =>
    match cutPoint? first last with
    | some cut => rangeBoxes fuel first cut ++ rangeBoxes fuel (cut + 1) last
    | none => [(bytesOf first).zip (bytesOf last)]

/-- The boxes of a set in order. -/
def boxes (s : CodeSet) : List Box :=
  -- A range is cut a few times for each length and each place.
  (s ∩ .everything).ranges.flatMap fun (first, last) => rangeBoxes 64 first last

/-! ## Trees -/

/-- Boxes put together where they start alike. -/
inductive RunTree where
  | node (branches : List (ByteRun × RunTree))

namespace RunTree

/-- A path of runs without branches. -/
def path : Box → RunTree
  | [] => node []
  | run :: rest => node [(run, path rest)]

/-- The tree with a box more, which comes behind all boxes in it. -/
def add : Box → RunTree → RunTree
  | [], tree => tree
  | run :: rest, node branches =>
    match branches.getLast? with
    | some (last, inner) =>
      if last = run then node (branches.dropLast ++ [(last, add rest inner)])
      else node (branches ++ [(run, path rest)])
    | none => path (run :: rest)

/-- The tree of some boxes in order. -/
def ofBoxes (boxes : List Box) : RunTree := boxes.foldl (fun tree box => tree.add box) (node [])

mutual

/-- How many branches the tree has. -/
def branchCount : RunTree → Nat
  | node branches => branchCounts branches

/-- How many branches some trees have, those that lead to them included. -/
def branchCounts : List (ByteRun × RunTree) → Nat
  | [] => 0
  | (_, tree) :: rest => tree.branchCount + 1 + branchCounts rest

end

/-- The branches of different nodes, each with the number of the node that it leads to. -/
abbrev Nodes := List (List (ByteRun × Nat))

/-- The number of a node with the given branches, and all nodes. The end of a box has the number
zero, and nodes that go on alike are one. -/
def numberOf (branches : List (ByteRun × Nat)) (nodes : Nodes) : Nat × Nodes :=
  if branches.isEmpty then (0, nodes)
  else
    match nodes.findIdx? (· = branches) with
    | some index => (index + 1, nodes)
    | none => (nodes.length + 1, nodes ++ [branches])

mutual

/-- The number of a tree and all different nodes, after those in `nodes`. -/
def collect : RunTree → Nodes → Nat × Nodes
  | node branches, nodes =>
    let (numbered, nodes) := collectAll branches nodes
    numberOf numbered nodes

/-- The numbers of the trees behind some branches, and all different nodes. -/
def collectAll : List (ByteRun × RunTree) → Nodes → List (ByteRun × Nat) × Nodes
  | [], nodes => ([], nodes)
  | (run, tree) :: rest, nodes =>
    let (number, nodes) := tree.collect nodes
    let (numbered, nodes) := collectAll rest nodes
    ((run, number) :: numbered, nodes)

end

/-- The different nodes of a tree. -/
def nodes (tree : RunTree) : Nodes := (tree.collect []).2

end RunTree

end RouterConfig.Pattern
