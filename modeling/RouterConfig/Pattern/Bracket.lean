import RouterConfig.Pattern.Escape

/-!
# RouterConfig — bracket expressions of patterns

A bracket expression is a set of characters: elements, ranges, named classes and other bracket
expressions, combined by doubled signs.
-/

namespace RouterConfig.Pattern

open RouterConfig.Unicode

/-! ## Members and operators -/

/-- A set and how deep its notation nests. -/
structure Nested where
  set : CodeSet
  depth : Nat := 0

/-- The members of a union so far. -/
structure Members where
  set : CodeSet := .empty
  count : Nat := 0
  deepest : Nat := 0

namespace Members

/-- A member more. -/
def add (m : Members) (n : Nested) : Members :=
  ⟨m.set ∪ n.set, m.count + 1, max m.deepest n.depth⟩

/-- The union: several members nest one step deeper than each of them. -/
def union (m : Members) : Nested := ⟨m.set, if 2 ≤ m.count then m.deepest + 1 else m.deepest⟩

end Members

/-- How two parts of a bracket expression combine. -/
inductive SetOperator where
  | inter
  | diff
  | symmetric

/-- Combines the parts on both sides of an operator. -/
def SetOperator.apply : SetOperator → CodeSet → CodeSet → CodeSet
  | inter => (· ∩ ·)
  | diff => .diff
  | symmetric => .symmetric

/-- The part to the left of an operator that still waits for its right side. -/
abbrev Waiting := Option (Nested × SetOperator)

/-- Combines what waits with its right side. -/
def combineWaiting (flags : Flags) (waiting : Waiting) (right : Nested) : Nested :=
  match waiting with
  | some (left, op) =>
    ⟨op.apply (foldSet flags left.set) (foldSet flags right.set), max left.depth right.depth + 1⟩
  | none => right

/-- The operator at the start of a text: a doubled sign. -/
def setOperator? : List Char → Option (SetOperator × List Char)
  | '&' :: '&' :: rest => some (.inter, rest)
  | '-' :: '-' :: rest => some (.diff, rest)
  | '~' :: '~' :: rest => some (.symmetric, rest)
  | _ => none

/-- A set that may stand in a pattern. Without Unicode a pattern works on bytes, and no byte of a
longer character may be matched on its own. -/
def allowedSet? (flags : Flags) (s : CodeSet) : Option CodeSet :=
  if flags.unicode || s.isAscii then some s else none

/-- A set, or what is not in it. Case is folded before the set is turned over, so that a letter
leaves in both cases. -/
def turnedSet? (flags : Flags) (negated : Bool) (s : CodeSet) : Option CodeSet :=
  let folded := foldSet flags s
  allowedSet? flags (if negated then folded.complement else folded)

/-! ## Reading -/

/-- Reads a named ASCII class such as `[:alpha:]`, behind its opening bracket: whether it is turned
over, and its set. -/
def namedClass? : List Char → Option ((Bool × CodeSet) × List Char)
  | ':' :: rest =>
    let (negated, rest) :=
      match rest with
      | '^' :: rest => (true, rest)
      | rest => (false, rest)
    let name := rest.takeWhile (· ≠ ':')
    match rest.drop name.length with
    | ':' :: ']' :: after =>
      (asciiClass? (String.ofList name)).map fun set => ((negated, set), after)
    | _ => none
  | _ => none

/-- Reads one element of a bracket expression. -/
def takeSetElement (r : Reading) : Option (Element × Reading) :=
  match r.rest with
  | '\\' :: rest => takeEscape (r.moveTo rest)
  | c :: rest => some (.literal c.toNat false, r.moveTo rest)
  | [] => none

/-- The set of an element of a bracket expression. Assertions are none, and without Unicode only
ASCII characters are. -/
def elementSet? (flags : Flags) : Element → Option CodeSet
  | .literal code _ => allowedSet? flags (.single code)
  | .set s => allowedSet? flags s
  | .anchor _ => none

/-- Reads an element of a bracket expression or a range of them. -/
def takeSetRange (r : Reading) : Option (CodeSet × Reading) := do
  let (first, r) ← takeSetElement r
  let r := r.skipBlanks
  match r.rest with
  | [] => none
  | '-' :: rest =>
    let behind := r.past rest
    match behind.rest with
    | [] => none
    | next :: _ =>
      -- Before the closing bracket a hyphen stands for itself, and two of them are an operator.
      if next = ']' || next = '-' then some (← elementSet? r.flags first, r)
      else do
        let (last, r) ← takeSetElement behind
        match first, last with
        | .literal low _, .literal high _ => do
          -- Both ends must be characters that the set could hold alone.
          let _ ← elementSet? r.flags first
          let _ ← elementSet? r.flags last
          if low ≤ high then some (.range low high ∩ .everything, r) else none
        | _, _ => none
  | _ => some (← elementSet? r.flags first, r)

/-- Reads the hyphens, or the bracket, that stand for themselves at the start of a bracket
expression. -/
def takeLeadingLiterals :
    (fuel : Nat) → Reading → (any : Bool) → Members → Option (Members × Reading)
  | 0, r, _, members => some (members, r)
  | fuel + 1, r, any, members =>
    match r.rest with
    | '-' :: rest =>
      let r := r.past rest
      if r.rest.isEmpty then none
      else takeLeadingLiterals fuel r true (members.add ⟨.single '-'.toNat, 0⟩)
    | ']' :: rest =>
      -- Only as the very first sign does the closing bracket stand for itself.
      if any then some (members, r)
      else
        let r := r.past rest
        if r.rest.isEmpty then none else some (members.add ⟨.single ']'.toNat, 0⟩, r)
    | [] => none
    | _ => some (members, r)

/-- Reads a bracket expression behind its opening bracket, and what follows the bracket inside: with
`opened = false` the start of the expression is still to be read. -/
def takeSet :
    (fuel : Nat) → Reading → (opened negated : Bool) → Waiting → Members →
      Option (Nested × Reading)
  | 0, _, _, _, _, _ => none
  | fuel + 1, r, false, _, waiting, members =>
    let r := r.skipBlanks
    let (negated, r) :=
      match r.rest with
      | '^' :: rest => (true, r.past rest)
      | _ => (false, r)
    match takeLeadingLiterals r.rest.length r false members with
    | some (members, r) => takeSet fuel r true negated waiting members
    | none => none
  | fuel + 1, r, true, negated, waiting, members =>
    let r := r.skipBlanks
    match r.rest with
    | [] => none
    | ']' :: rest =>
      let whole := combineWaiting r.flags waiting members.union
      (turnedSet? r.flags negated whole.set).map fun set => (⟨set, whole.depth⟩, r.moveTo rest)
    | '[' :: rest =>
      match namedClass? rest with
      | some ((turned, named), rest) =>
        match turnedSet? r.flags turned named with
        | some set => takeSet fuel (r.moveTo rest) true negated waiting (members.add ⟨set, 0⟩)
        | none => none
      | none =>
        -- What is no named class is a bracket expression of its own.
        match takeSet fuel (r.moveTo rest) false false none {} with
        | some (nested, r) =>
          let nested : Nested := { nested with depth := nested.depth + 1 }
          takeSet fuel r true negated waiting (members.add nested)
        | none => none
    | _ =>
      match setOperator? r.rest with
      | some (op, rest) =>
        let waiting := some (combineWaiting r.flags waiting members.union, op)
        takeSet fuel (r.moveTo rest) true negated waiting {}
      | none =>
        match takeSetRange r with
        | some (set, r) => takeSet fuel r true negated waiting (members.add ⟨set, 0⟩)
        | none => none

end RouterConfig.Pattern
