import RouterConfig.Text.Words

/-!
# RouterConfig — lines of a text

Lines end at a line feed, which may follow one carriage return. Trimming removes blanks.
-/

namespace RouterConfig

/-- Drops one carriage return at the end. -/
private def dropReturn (line : List Char) : List Char :=
  if line.getLast? = some '\r' then line.dropLast else line

/-- The lines of a text without their ends. A line feed at the very end opens no further line, and a
carriage return is part of the end only before a line feed. -/
def textLines (text : String) : List String :=
  let pieces := cutAt (· = '\n') text.toList
  let closed := (pieces.dropLast.map dropReturn).map String.ofList
  match pieces.getLast? with
  | some (c :: last) => closed ++ [String.ofList (c :: last)]
  | _ => closed

/-- The text in pieces that each end after their line feed; only the last may lack it. -/
def piecesWithEnds : List Char → List (List Char)
  | [] => []
  | c :: rest => if c = '\n' then ['\n'] :: piecesWithEnds rest else
    match piecesWithEnds rest with
    | [] => [[c]]
    | piece :: pieces => (c :: piece) :: pieces

/-- Without the blanks at its end. -/
def trimEnd (text : String) : String :=
  String.ofList (text.toList.reverse.dropWhile isBlank).reverse

/-- Without the blanks at both ends. -/
def trim (text : String) : String :=
  trimEnd (String.ofList (text.toList.dropWhile isBlank))

end RouterConfig
