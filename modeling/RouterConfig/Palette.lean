import RouterConfig.Text.Lines

/-!
# RouterConfig — colours of a report

Reports carry status tags and annotated lines, painted with terminal colours only where colours are
asked for.
-/

namespace RouterConfig

/-- The outcome that a report line is tagged with. -/
inductive Status where
  | ok
  | info
  | warn
  | error
  deriving DecidableEq

/-- The tag in plain text. -/
def Status.tag : Status → String
  | ok => "[OK]"
  | info => "[INFO]"
  | warn => "[WARN]"
  | error => "[ERR]"

/-- Terminal attributes, by their code numbers: a foreground colour, perhaps bold. -/
inductive Ink where
  | red
  | boldRed
  | green
  | yellow
  | cyan

/-- The control sequences that switch the attributes on. -/
def Ink.sequence : Ink → String
  | red => "\x1b[31m"
  | boldRed => "\x1b[31m\x1b[1m"
  | green => "\x1b[32m"
  | yellow => "\x1b[33m"
  | cyan => "\x1b[36m"

/-- A text in the given ink, with all attributes off afterwards. -/
def Ink.paint (ink : Ink) (text : String) : String := ink.sequence ++ text ++ "\x1b[0m"

/-- The ink of a status tag. -/
def Status.ink : Status → Ink
  | ok => .green
  | info => .cyan
  | warn => .yellow
  | error => .boldRed

/-- Whether reports are painted. -/
structure Palette where
  color : Bool

namespace Palette

/-- The palette for the word of a colour option (`from_flag`). Only `always`, in any case, turns
colours on: an output that is no terminal has none of its own accord. -/
def ofFlag (flag : String) : Palette :=
  ⟨String.ofList (flag.toList.map Char.toLower) = "always"⟩

/-- The tag of a status, painted where colours are on. -/
def status (palette : Palette) (status : Status) : String :=
  if palette.color then status.ink.paint status.tag else status.tag

/-- One line, in the ink that its first character asks for. -/
def paintLine (line : List Char) : String :=
  let text := String.ofList line
  match line.head? with
  | some '+' => Ink.green.paint text
  | some '-' => Ink.red.paint text
  | _ => text

/-- One line with its end, which stays outside the ink. -/
def paintLineWithEnd (line : List Char) : String :=
  if line.getLast? = some '\n' then paintLine line.dropLast ++ "\n" else paintLine line

/-- An annotated text with its added lines green and its removed lines red (`paint_diff`). -/
def paintLines (palette : Palette) (text : String) : String :=
  if palette.color then String.join ((piecesWithEnds text.toList).map paintLineWithEnd) else text

end Palette

end RouterConfig
