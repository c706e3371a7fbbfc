import RouterConfig.Pattern.Size
import RouterConfig.Pattern.Syntax
import RouterConfig.Schema.Basic

/-!
# RouterConfig — constraints on values

A constraint is a pattern text with anchors put around it, so that it speaks of whole values.
-/

namespace RouterConfig.Schema.Constraint

/-- A pattern text between anchors. -/
def anchored (text : String) : String := "^(?:" ++ text ++ ")$"

/-- The constraint with the given pattern, unless the anchored text is none or one too large. -/
def ofText? (text : String) : Option Constraint :=
  match Pattern.Expression.ofText? (anchored text).toList with
  | some e =>
    if (Pattern.Plan.ofExpression e).fits then some ⟨anchored text, e.pattern⟩ else none
  | none => none

/-- Whether a value meets the constraint. -/
def admits (c : Constraint) (value : String) : Bool := c.pattern.occursIn value.toList

end RouterConfig.Schema.Constraint
