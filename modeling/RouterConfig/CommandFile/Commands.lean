import RouterConfig.Text.Quoted
import RouterConfig.Tree.Flatten

/-!
# RouterConfig — trees as command lines

A tree is written as one `set` line per entry, each word quoted where it needs to be.
-/

namespace RouterConfig

/-- The command line that sets one entry. -/
def setLine (entry : Path) : String := "set " ++ joinWords (entry.map quote) ++ "\n"

/-- The command lines that build `tree?` at `path`, in the order of its entries, if there is one
(`render_commands`). -/
def commandLines (path : Path) : (tree? : Option Tree) → String
  | none => ""
  | some tree => String.join ((tree.entries path).map setLine)

end RouterConfig
