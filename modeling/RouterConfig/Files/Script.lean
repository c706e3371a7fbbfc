import RouterConfig.Files.Fault

/-!
# RouterConfig — scripts

A script tells what to do with files and what to print, and what to do next for each answer; it does
nothing itself. It can be run on a disk held in memory as well as on a real one. Main results:

* `Script.bind_assoc` — scripts may be put together in any grouping.
-/

namespace RouterConfig

/-- A program over files and an output. -/
inductive Script (α : Type) where
  /-- The end, with a result. -/
  | done (result : α)
  /-- Asks for the text of a file. -/
  | read (path : String) (next : Except FileFault String → Script α)
  /-- Asks whether anything is at a path. -/
  | probe (path : String) (next : Bool → Script α)
  /-- Moves a file or a folder, and tells how that went. -/
  | move (source target : String) (next : Except FileFault Unit → Script α)
  /-- Writes a file, and tells how that went. -/
  | write (path text : String) (next : Except FileFault Unit → Script α)
  /-- Prints a text. -/
  | print (text : String) (next : Script α)

namespace Script

variable {α β γ : Type}

/-- One script after another. -/
def bind : Script α → (α → Script β) → Script β
  | done result, f => f result
  | read path next, f => read path fun outcome => (next outcome).bind f
  | probe path next, f => probe path fun present => (next present).bind f
  | move source target next, f => move source target fun outcome => (next outcome).bind f
  | write path text next, f => write path text fun outcome => (next outcome).bind f
  | print text next, f => print text (next.bind f)

instance : Monad Script where
  pure := done
  bind := bind

/-- Prints a line. -/
def printLine (text : String) : Script Unit := print (text ++ "\n") (done ())

/-- Prints a text as it is. -/
def printText (text : String) : Script Unit := print text (done ())

/-- The text of a file. -/
def readFile (path : String) : Script (Except FileFault String) := read path done

/-- Whether anything is at a path. -/
def pathExists (path : String) : Script Bool := probe path done

/-- Moves a file or a folder. -/
def moveFile (source target : String) : Script (Except FileFault Unit) := move source target done

/-- Writes a file. -/
def writeFile (path text : String) : Script (Except FileFault Unit) := write path text done

theorem bind_assoc (s : Script α) (f : α → Script β) (g : β → Script γ) :
    (s.bind f).bind g = s.bind fun a => (f a).bind g := by
  induction s with
  | done result => rfl
  | read path next ih => simp only [bind, ih]
  | probe path next ih => simp only [bind, ih]
  | move source target next ih => simp only [bind, ih]
  | write path text next ih => simp only [bind, ih]
  | print text next ih => simp only [bind, ih]

end Script

end RouterConfig
