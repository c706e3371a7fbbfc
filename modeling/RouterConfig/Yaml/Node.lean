import RouterConfig.Yaml.Written

/-!
# RouterConfig — YAML nodes

The value of a text: scalars, sequences, and mappings from nodes to nodes. A node that is referred
to stands at every place that refers to it, as long as this ends: collections nest only so deep, and
only so many references are followed.
-/

namespace RouterConfig.Yaml

/-- A node of a YAML document. -/
inductive Node where
  | scalar (text : String) (style : Style) (tag? : Option Tag)
  | sequence (items : List Node) (tag? : Option Tag)
  | mapping (entries : List (Node × Node)) (tag? : Option Tag)

/-! ## The parts of a document -/

mutual

/-- The nodes that have an anchor, with its number, in the order in which they start. -/
def Written.marked : Written → List (Nat × Written)
  | .reference _ => []
  | .scalar p text style => (p.mark?.map fun mark => (mark, Written.scalar p text style)).toList
  | .sequence p items =>
    (p.mark?.map fun mark => (mark, Written.sequence p items)).toList ++ markedAll items
  | .mapping p entries =>
    (p.mark?.map fun mark => (mark, Written.mapping p entries)).toList ++ markedEntries entries

/-- The marked nodes of some items. -/
def markedAll : List Written → List (Nat × Written)
  | [] => []
  | item :: rest => item.marked ++ markedAll rest

/-- The marked nodes of some entries. -/
def markedEntries : List (Written × Written) → List (Nat × Written)
  | [] => []
  | (key, value) :: rest => key.marked ++ value.marked ++ markedEntries rest

end

mutual

/-- How much a node says: a collection counts for its start and its end. -/
def Written.weight : Written → Nat
  | .reference _ | .scalar .. => 1
  | .sequence _ items => 2 + weightAll items
  | .mapping _ entries => 2 + weightEntries entries

/-- How much some items say. -/
def weightAll : List Written → Nat
  | [] => 0
  | item :: rest => item.weight + weightAll rest

/-- How much some entries say. -/
def weightEntries : List (Written × Written) → Nat
  | [] => 0
  | (key, value) :: rest => key.weight + value.weight + weightEntries rest

end

/-! ## Following references -/

/-- How deep collections may nest. -/
def greatestDepth : Nat := 128

/-- How many references may be followed for each part of a document. -/
def jumpsPerPart : Nat := 100

/-- The node that a reference means, of those that are marked, and the references that may still be
followed. Of two nodes with one number the later counts. -/
def followed (marked : List (Nat × Written)) (node : Written) (jumps : Nat) :
    Option (Written × Nat) :=
  match node with
  | .reference mark =>
    match marked.reverse.lookup mark, jumps with
    | some target, jumps + 1 => some (target, jumps)
    | _, _ => none
  | node => some (node, jumps)

/-- Does `step` for each of `items` in turn, on the references that may still be followed. -/
def followAll {α β : Type} (step : α → Nat → Option (β × Nat)) :
    List α → (jumps : Nat) → Option (List β × Nat)
  | [], jumps => some ([], jumps)
  | item :: rest, jumps => do
    let (done, jumps) ← step item jumps
    let (more, jumps) ← followAll step rest jumps
    some (done :: more, jumps)

/-- The node with every reference followed, and the references that may still be followed. -/
def Written.node? (marked : List (Nat × Written)) :
    (depth : Nat) → Written → (jumps : Nat) → Option (Node × Nat)
  | depth, node, jumps =>
    match followed marked node jumps, depth with
    | some (.scalar p text style, jumps), _ => some (.scalar text style p.tag?, jumps)
    | some (.sequence p items, jumps), depth + 1 => do
      let (nodes, jumps) ← followAll (Written.node? marked depth) items jumps
      some (.sequence nodes p.tag?, jumps)
    | some (.mapping p entries, jumps), depth + 1 => do
      let (nodes, jumps) ←
        followAll (fun entry jumps => do
          let (key, jumps) ← Written.node? marked depth entry.1 jumps
          let (value, jumps) ← Written.node? marked depth entry.2 jumps
          some ((key, value), jumps)) entries jumps
      some (.mapping nodes p.tag?, jumps)
    | _, _ => none

/-- The document with every reference followed. -/
def Document.follow? : Document Written → Option (Document Node)
  | .missing => some .missing
  | .one root =>
    (root.node? root.marked greatestDepth (jumpsPerPart * root.weight)).map fun (node, _) =>
      .one node

/-- The document of a text. -/
def Document.ofText? (text : String) : Option (Document Node) := do
  (← Document.ofTokens? (← tokens? text)).follow?

end RouterConfig.Yaml
