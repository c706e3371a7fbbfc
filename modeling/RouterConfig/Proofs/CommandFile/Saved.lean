import RouterConfig.CommandFile.Line
import RouterConfig.CommandFile.Save
import RouterConfig.Proofs.Text.Quoting

/-!
# RouterConfig — the lines of a saved file

A saved file is a header and one line for each entry of the configuration. Where the words of the
entries can be written as lines, reading cuts the file into just these lines, takes the header for a
comment and each other line for a set of the words of its entry. Main results:

* `ofText_entryLine` — the line of an entry says to set the words of the entry;
* `textLines_commandLines`, `textLines_savedText` — command lines are cut into the lines of the
  entries, and a saved file into the header and these.
-/

namespace RouterConfig

/-- The line of an entry, without its end. -/
def entryLine (entry : Path) : String := joinWords ("set" :: entry.map quote)

theorem setLine_eq {entry : Path} (hne : entry ≠ []) : setLine entry = entryLine entry ++ "\n" := by
  have hwords : entry.map quote ≠ [] := by simpa using hne
  rw [setLine, entryLine, joinWords, joinWords, String.intercalate_cons_of_ne_nil hwords]
  rfl

theorem plain_set : Plain "set" := by decide

theorem oneLine_entryLine {entry : Path} (h : ∀ word ∈ entry, Tellable word) :
    OneLine (entryLine entry) :=
  oneLine_joinWords plain_set h

/-- The line of an entry says to set the words of the entry. -/
theorem ofText_entryLine {entry : Path} (h : ∀ word ∈ entry, Tellable word) :
    FileCommand.ofText (entryLine entry) = .set (entry.map quote) := by
  have htrim : trim (entryLine entry) = entryLine entry := (oneLine_entryLine h).trim
  have hwords : quotedWords (entryLine entry) = "set" :: entry.map quote := by
    refine quotedWords_joinWords (List.forall_mem_cons.mpr ⟨readable_of_plain plain_set, ?_⟩)
    exact readable_of_mem_quoted fun word hword => (h word hword).quotable
  have hstart : ¬ (entryLine entry).toList.head? = some '#' := by
    obtain ⟨rest, hrest⟩ := prefix_joinWords "set" (entry.map quote)
    rw [entryLine, ← hrest]
    exact fun heq => absurd (Option.some.inj heq) (by decide)
  unfold FileCommand.ofText
  dsimp only
  rw [htrim, if_neg hstart, hwords]
  rfl

/-- The header says nothing. -/
theorem ofText_savedHeader : FileCommand.ofText savedHeader = .nothing := by decide

/-- The header of a saved file is a line of its own. -/
theorem oneLine_savedHeader : OneLine savedHeader := by
  refine ⟨by decide, by decide, ?_, ?_⟩
  · intro c hc
    obtain rfl := Option.some.inj hc
    decide
  · intro c hc
    obtain rfl := Option.some.inj (hc.symm.trans (by decide : _ = some '0'))
    decide

/-- The command lines of a configuration are the lines of its entries, each with its end. -/
theorem commandLines_eq {t : Tree} {path : Path} (h : ∀ entry ∈ t.entries path, entry ≠ []) :
    commandLines path (some t) =
      String.join (((t.entries path).map entryLine).map fun line => line ++ "\n") := by
  rw [commandLines, List.map_map]
  exact congrArg String.join (List.map_congr_left fun entry hentry => setLine_eq (h entry hentry))

/-- The command lines of a configuration are cut into the lines of the entries. -/
theorem textLines_commandLines {t : Tree}
    (h : ∀ entry ∈ t.entries [], entry ≠ [] ∧ ∀ word ∈ entry, Tellable word) :
    textLines (commandLines [] (some t)) = (t.entries []).map entryLine := by
  rw [commandLines_eq fun entry hentry => (h entry hentry).1]
  refine textLines_join fun line hline => ?_
  obtain ⟨entry, hentry, rfl⟩ := List.mem_map.mp hline
  exact oneLine_entryLine (h entry hentry).2

/-- A saved file is cut into the header and the lines of the entries. -/
theorem textLines_savedText {t : Tree}
    (h : ∀ entry ∈ t.entries [], entry ≠ [] ∧ ∀ word ∈ entry, Tellable word) :
    textLines (savedText t) = savedHeader :: (t.entries []).map entryLine := by
  have htext : savedText t =
      String.join ((savedHeader :: (t.entries []).map entryLine).map fun line => line ++ "\n") := by
    rw [savedText, commandLines_eq fun entry hentry => (h entry hentry).1, List.map_cons,
      String.join_cons]
  rw [htext]
  refine textLines_join fun line hline => ?_
  rcases List.mem_cons.mp hline with rfl | hline
  · exact oneLine_savedHeader
  · obtain ⟨entry, hentry, rfl⟩ := List.mem_map.mp hline
    exact oneLine_entryLine (h entry hentry).2

end RouterConfig
