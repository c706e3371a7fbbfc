import RouterConfig.Pattern.Basic

/-!
# RouterConfig — pattern expressions

An expression is a pattern with everything that its text says, groups and the nesting of brackets
included. It stands for a pattern, and it may not nest too deep. Main results:

* `Expression.pattern_group` — a group means what is in it;
* `Expression.depth_group` — and nests one step deeper.
-/

namespace RouterConfig.Pattern

open RouterConfig.Unicode

/-- A pattern as it is written. -/
inductive Expression where
  | empty
  /-- One character of a set. -/
  | chars (set : CodeSet)
  /-- One character of a bracket expression; inside, it nests to the given depth. -/
  | bracket (set : CodeSet) (inside : Nat)
  | anchor (a : Anchor)
  /-- Two parts or more in a row. -/
  | sequence (parts : List Expression)
  /-- One of two parts or more. -/
  | choice (parts : List Expression)
  /-- A part in parentheses, with its number if it captures what it matches. -/
  | group (number? : Option Nat) (e : Expression)
  /-- A part some times in a row; a greedy one tries many times first. -/
  | repeated (e : Expression) (least : Nat) (most? : Option Nat) (greedy : Bool)

namespace Expression

/-- The sequence of some parts. -/
def inSequence : (parts : List Expression) → Expression
  | [] => empty
  | [part] => part
  | parts => sequence parts

/-- The choice between some parts. -/
def between : (parts : List Expression) → Expression
  | [part] => part
  | parts => choice parts

/-! ## Meaning -/

mutual

/-- The pattern that an expression stands for. -/
def pattern : Expression → Pattern
  | empty => .empty
  | chars set => .chars set
  | bracket set _ => .chars set
  | anchor a => .anchor a
  | sequence parts => inOrder parts
  | choice parts => anyOf parts
  | group _ e => e.pattern
  | repeated e least most? _ => .repeated e.pattern least most?

/-- The pattern of some parts in a row. -/
def inOrder : List Expression → Pattern
  | [] => .empty
  | [e] => e.pattern
  | e :: rest => .append e.pattern (inOrder rest)

/-- The pattern of any of some parts. -/
def anyOf : List Expression → Pattern
  | [] => .empty
  | [e] => e.pattern
  | e :: rest => .either e.pattern (anyOf rest)

end

/-! ## Nesting -/

/-- How deep expressions may nest. -/
def greatestDepth : Nat := 250

mutual

/-- How deep an expression nests. -/
def depth : Expression → Nat
  | empty | chars _ | anchor _ => 0
  | bracket _ inside => inside + 1
  | sequence parts => deepest parts + 1
  | choice parts => deepest parts + 1
  | group _ e => e.depth + 1
  | repeated e _ _ _ => e.depth + 1

/-- How deep the deepest of some expressions nests. -/
def deepest : List Expression → Nat
  | [] => 0
  | e :: rest => max e.depth (deepest rest)

end

theorem pattern_group (number? : Option Nat) (e : Expression) :
    (group number? e).pattern = e.pattern := by
  simp [pattern]

theorem depth_group (number? : Option Nat) (e : Expression) :
    (group number? e).depth = e.depth + 1 := by
  simp [depth]

end Expression

end RouterConfig.Pattern
