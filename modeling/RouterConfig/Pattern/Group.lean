import RouterConfig.Pattern.Reading

/-!
# RouterConfig — groups of patterns

A group may have a name or flags of its own; flags without a group hold for the rest of the group
around them. There is no look-around.
-/

namespace RouterConfig.Pattern

open RouterConfig.Unicode

/-- The flag that a letter names. -/
inductive FlagName where
  | anyCase
  | multiLine
  | dotMatchesAll
  | swapGreed
  | unicode
  | returns
  | spaced
  deriving DecidableEq

@[inherit_doc FlagName]
def FlagName.ofChar? : Char → Option FlagName
  | 'i' => some anyCase
  | 'm' => some multiLine
  | 's' => some dotMatchesAll
  | 'U' => some swapGreed
  | 'u' => some unicode
  | 'R' => some returns
  | 'x' => some spaced
  | _ => none

/-- Switches a flag. -/
def Flags.put (flags : Flags) (name : FlagName) (on : Bool) : Flags :=
  match name with
  | .anyCase => { flags with anyCase := on }
  | .multiLine => { flags with multiLine := on }
  | .dotMatchesAll => { flags with dotMatchesAll := on }
  | .swapGreed => { flags with swapGreed := on }
  | .unicode => { flags with unicode := on }
  | .returns => { flags with returns := on }
  | .spaced => { flags with spaced := on }

/-- What inline flags have said so far. -/
structure FlagText where
  flags : Flags
  /-- The flags named so far; none may come twice. -/
  named : List FlagName := []
  /-- Whether the minus sign has come. -/
  off : Bool := false
  /-- Whether nothing has come behind the minus sign. -/
  dangling : Bool := false

/-- Reads inline flags up to the `:` or `)` behind them, which is left to be read. -/
def takeFlags : FlagText → List Char → Option (FlagText × List Char)
  | _, [] => none
  | t, c :: rest =>
    -- A minus sign with nothing to switch off is refused here.
    if c = ':' || c = ')' then if t.dangling then none else some (t, c :: rest)
    else if c = '-' then
      if t.off then none else takeFlags { t with off := true, dangling := true } rest
    else
      match FlagName.ofChar? c with
      | some name =>
        -- A flag named twice is refused even if it is switched the same way.
        if t.named.contains name then none
        else
          takeFlags
            { t with
              flags := t.flags.put name (!t.off), named := name :: t.named, dangling := false }
            rest
      | none => none

/-- A letter or digit of any script. -/
def isNameChar (first : Bool) (c : Char) : Bool :=
  c = '_' || alphabetic.has c.toNat ||
    (!first && (c = '.' || c = '[' || c = ']' || number.has c.toNat))

/-- Reads the name of a group up to `>`; no name may come twice. -/
def takeGroupName (r : Reading) : Option Reading :=
  let name := r.rest.takeWhile (· ≠ '>')
  match r.rest.drop name.length, name with
  | _ :: rest, first :: others =>
    if isNameChar true first && others.all (isNameChar false) && !r.names.contains name then
      some { r with rest := rest, names := name :: r.names }
    else none
  | _, _ => none

/-- How a parenthesis goes on. -/
inductive GroupStart where
  /-- Flags for the rest of the group around it. -/
  | flags (r : Reading)
  /-- A group of its own, with its number if it captures what it matches. -/
  | group (number? : Option Nat) (r : Reading)

/-- The start of a group that captures what it matches. -/
def GroupStart.capturing (r : Reading) : GroupStart :=
  .group (some (r.groups + 1)) { r with groups := r.groups + 1 }

/-- Reads the start of a group behind its parenthesis. -/
def takeGroupStart (r : Reading) : Option GroupStart :=
  let r := r.skipBlanks
  match r.rest with
  -- These look ahead or behind.
  | '?' :: '=' :: _ | '?' :: '!' :: _ | '?' :: '<' :: '=' :: _ | '?' :: '<' :: '!' :: _ => none
  | '?' :: 'P' :: '<' :: rest => (takeGroupName (r.moveTo rest)).map .capturing
  | '?' :: '<' :: rest => (takeGroupName (r.moveTo rest)).map .capturing
  | '?' :: rest =>
    match takeFlags { flags := r.flags } rest with
    | some (t, ')' :: rest) =>
      -- Without a group behind them, flags must say something.
      if t.named.isEmpty && !t.off then none
      else some (.flags { r with rest := rest, flags := t.flags })
    | some (t, _ :: rest) => some (.group none { r with rest := rest, flags := t.flags })
    | _ => none
  | _ => some (.capturing r)

end RouterConfig.Pattern
