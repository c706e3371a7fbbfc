/-!
# RouterConfig — annotated lines

A line of an annotated configuration has a depth, a mark and a text. The mark takes the place of the
first character of the indent.
-/

namespace RouterConfig

/-- Which configuration a line belongs to. -/
inductive Mark where
  /-- Both. -/
  | same
  /-- The edited one alone. -/
  | added
  /-- The running one alone. -/
  | removed
  deriving DecidableEq

/-- The mark of what is in the edited configuration, in the running one, or in both (`Mark::of`). -/
def Mark.ofSides (edited running : Bool) : Mark :=
  match edited, running with
  | true, false => .added
  | false, true => .removed
  | _, _ => .same

/-- A line of an annotated configuration. -/
structure AnnotatedLine where
  depth : Nat
  mark : Mark
  text : String
  deriving DecidableEq

namespace AnnotatedLine

/-- Three spaces for each level of depth. -/
def indent (depth : Nat) : List Char := List.replicate (3 * depth) ' '

/-- The line as printed, without its end. -/
def print (line : AnnotatedLine) : String :=
  let indent := indent line.depth
  match line.mark with
  | .same => String.ofList indent ++ line.text
  | .added => "+" ++ String.ofList indent.tail ++ line.text
  | .removed => "-" ++ String.ofList indent.tail ++ line.text

/-- Lines as printed, each with a line feed. A single line without characters is not printed. -/
def printAll (lines : List AnnotatedLine) : String :=
  let text := "\n".intercalate (lines.map print)
  if text.isEmpty then "" else text ++ "\n"

end AnnotatedLine

end RouterConfig
