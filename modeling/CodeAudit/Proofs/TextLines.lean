import CodeAudit.Text.Line

/-!
# Lines of a text

Lines are cut off one after the other, so that a text that is put together from whole lines has the
lines of its parts.

Results:
* `linesFrom_append`: the first line of a text.
* `lines_append`: the lines of a text that goes on after a line feed.
* `lines_of_notMem`: a text without a line feed is one line.
* `exists_append_chopReturn`: what is taken off a line to show it.
* `LineOf`, `exists_lineOf`: the lines of a text, each with what stands above and below it.
-/

namespace CodeAudit.Text

theorem linesFrom_append {line : List Char} (h : '\n' ∉ line) (before rest : List Char) :
    linesFrom before (line ++ '\n' :: rest) =
      chopReturn (before.reverse ++ line) :: lines rest := by
  induction line generalizing before with
  | nil =>
    rw [List.nil_append, linesFrom, if_pos rfl, List.append_nil, chopReturn, List.reverse_reverse,
      lines]
  | cons c line ih =>
    rw [List.mem_cons, not_or] at h
    rw [List.cons_append, linesFrom, if_neg (Ne.symm h.1), ih h.2, List.reverse_cons,
      List.append_assoc]
    rfl

theorem lines_cons {line : List Char} (h : '\n' ∉ line) (rest : List Char) :
    lines (line ++ '\n' :: rest) = chopReturn line :: lines rest :=
  linesFrom_append h [] rest

theorem linesFrom_of_notMem {line : List Char} (h : '\n' ∉ line) (before : List Char) :
    linesFrom before line = if before = [] ∧ line = [] then [] else [before.reverse ++ line] := by
  induction line generalizing before with
  | nil => cases before <;> simp [linesFrom]
  | cons c line ih =>
    rw [List.mem_cons, not_or] at h
    rw [linesFrom, if_neg (Ne.symm h.1), ih h.2]
    simp

theorem lines_of_notMem {line : List Char} (h : '\n' ∉ line) (hne : line ≠ []) :
    lines line = [line] := by
  rw [lines, linesFrom_of_notMem h, if_neg (fun hnil => hne hnil.2)]
  rfl

/-- A text has a first line that a line feed ends, or no line feed. -/
theorem feed_split (text : List Char) :
    '\n' ∉ text ∨ ∃ line rest, text = line ++ '\n' :: rest ∧ '\n' ∉ line := by
  by_cases hfeed : '\n' ∈ text
  · exact .inr (List.eq_append_cons_of_mem hfeed)
  · exact .inl hfeed

/-- A text that goes on after whole lines. -/
theorem lines_append {above : List Char} (h : above = [] ∨ above.getLast? = some '\n')
    (rest : List Char) : lines (above ++ rest) = lines above ++ lines rest := by
  rcases feed_split above with hfeed | ⟨line, more, habove, hline⟩
  · rcases h with rfl | hlast
    · rfl
    · exact absurd (List.mem_of_getLast? hlast) hfeed
  · have hmore : more = [] ∨ more.getLast? = some '\n' := by
      cases more with
      | nil => exact .inl rfl
      | cons c more =>
        right
        rcases h with h | h
        · rw [habove] at h
          simp at h
        · simpa [habove, List.getLast?_append, List.getLast?_cons] using h
    have hshorter : more.length < above.length := by
      rw [habove, List.length_append, List.length_cons]
      omega
    rw [habove, List.append_assoc, List.cons_append, lines_cons hline, lines_cons hline,
      lines_append hmore rest, List.cons_append]
termination_by above.length

theorem lines_eq_nil {text : List Char} (h : lines text = []) : text = [] := by
  rcases feed_split text with hfeed | ⟨line, rest, rfl, hline⟩
  · cases text with
    | nil => rfl
    | cons c text =>
      rw [lines_of_notMem hfeed (List.cons_ne_nil _ _)] at h
      cases h
  · rw [lines_cons hline] at h
    cases h

/-! ## Carriage returns at the end of lines -/

theorem chopReturn_concat (line : List Char) (c : Char) :
    chopReturn (line ++ [c]) = if c = '\r' then line else line ++ [c] := by
  rw [chopReturn, List.reverse_concat]
  split
  · rename_i hc
    rw [hc, dropReturn, List.reverse_reverse]
  · rename_i hc
    rw [dropReturn.eq_2 _ (by simpa using hc), List.reverse_cons, List.reverse_reverse]

/-- What is taken off is the end of a line. -/
theorem exists_append_chopReturn (line : List Char) :
    ∃ returns, line = chopReturn line ++ returns ∧ '\n' ∉ returns := by
  rcases List.eq_nil_or_concat line with rfl | ⟨front, last, rfl⟩
  · exact ⟨[], rfl, List.not_mem_nil⟩
  · rw [List.concat_eq_append, chopReturn_concat]
    split
    · rename_i hlast
      exact ⟨['\r'], by rw [hlast], by decide⟩
    · exact ⟨[], (List.append_nil _).symm, List.not_mem_nil⟩

/-- The lines of a text as they are looked at, without the endings and without the carriage returns
    that are left. -/
def shownLines (text : List Char) : List (List Char) :=
  (lines text).map chopReturn

theorem shownLines_append {above : List Char} (h : above = [] ∨ above.getLast? = some '\n')
    (rest : List Char) : shownLines (above ++ rest) = shownLines above ++ shownLines rest := by
  rw [shownLines, lines_append h, List.map_append]
  rfl

/-! ## The lines of a text -/

/-- A line of a text: what is shown of it, its ending, and what stands above and below. -/
structure LineOf (content : List Char) where
  above : List Char
  line : List Char
  ending : List Char
  below : List Char
  content_eq : content = above ++ (line ++ ending ++ below)
  whole : above = [] ∨ above.getLast? = some '\n'
  shown : shownLines (line ++ ending) = [line]
  ends : below = [] ∨ ending.getLast? = some '\n'

/-- Nothing stands above the first line. -/
theorem whole_nil : ([] : List Char) = [] ∨ ([] : List Char).getLast? = some '\n' :=
  .inl rfl

/-- What is shown of a line that a feed ends, and what is left out. -/
theorem exists_shown (line : List Char) :
    ∃ returns, line = chopReturn (chopReturn line) ++ returns ∧ '\n' ∉ returns := by
  obtain ⟨first, hfirst, hfeed⟩ := exists_append_chopReturn line
  obtain ⟨second, hsecond, hfeed'⟩ := exists_append_chopReturn (chopReturn line)
  refine ⟨second ++ first, ?_, by simp [hfeed, hfeed']⟩
  rw [← List.append_assoc, ← hsecond, ← hfirst]

theorem shownLines_cons {line : List Char} (h : '\n' ∉ line) (rest : List Char) :
    shownLines (line ++ '\n' :: rest) = chopReturn (chopReturn line) :: shownLines rest := by
  rw [shownLines, lines_cons h]
  rfl

theorem shownLines_of_notMem {line : List Char} (h : '\n' ∉ line) (hne : line ≠ []) :
    shownLines line = [chopReturn line] := by
  rw [shownLines, lines_of_notMem h hne]
  rfl

/-- Every line of a text can be written so. -/
theorem exists_lineOf {content : List Char} {row : Nat} {line : List Char}
    (h : (shownLines content)[row]? = some line) :
    ∃ l : LineOf content, (shownLines l.above).length = row ∧ l.line = line := by
  rcases feed_split content with hfeed | ⟨first, rest, rfl, hfirst⟩
  · by_cases hne : content = []
    · subst hne
      cases h
    · rw [shownLines_of_notMem hfeed hne] at h
      obtain ⟨returns, hreturns, -⟩ := exists_append_chopReturn content
      cases row with
      | succ row => cases h
      | zero =>
        cases h
        refine ⟨⟨[], chopReturn content, returns, [], ?_, whole_nil, ?_, .inl rfl⟩, rfl, rfl⟩
        · rw [List.append_nil, ← hreturns]
          rfl
        · rw [← hreturns, shownLines_of_notMem hfeed hne]
  · rw [shownLines_cons hfirst] at h
    cases row with
    | zero =>
      cases h
      obtain ⟨returns, hreturns, -⟩ := exists_shown first
      refine ⟨⟨[], chopReturn (chopReturn first), returns ++ ['\n'], rest, ?_, whole_nil, ?_,
        .inr List.getLast?_concat⟩, rfl, rfl⟩
      · rw [List.nil_append, ← List.append_assoc, ← hreturns, List.append_assoc]
        rfl
      · rw [← List.append_assoc, ← hreturns, shownLines_cons hfirst]
        rfl
    | succ row =>
      obtain ⟨l, hrow, hline⟩ := exists_lineOf (List.getElem?_cons_succ ▸ h)
      refine ⟨⟨first ++ '\n' :: l.above, l.line, l.ending, l.below, ?_, .inr ?_, l.shown, l.ends⟩,
        ?_, hline⟩
      · rw [List.append_assoc, List.cons_append, ← l.content_eq]
      · rcases l.whole with habove | habove
        · rw [habove, List.getLast?_concat]
        · rw [List.getLast?_append, List.getLast?_cons, habove]
          rfl
      · rw [shownLines_cons hfirst, List.length_cons, hrow]
termination_by content.length
decreasing_by
  subst content
  simp only [List.length_append, List.length_cons]
  omega

namespace LineOf

variable {content : List Char} (l : LineOf content)

/-- How many lines stand above. -/
def row : Nat :=
  (shownLines l.above).length

/-- The text with another line in this place. -/
def replace (line : List Char) : List Char :=
  l.above ++ (line ++ l.ending ++ l.below)

theorem shownLines_replace {text line : List Char} (h : shownLines (text ++ l.ending) = [line]) :
    shownLines (l.replace text) = shownLines l.above ++ line :: shownLines l.below := by
  rw [replace, shownLines_append l.whole]
  rcases l.ends with hbelow | hending
  · rw [hbelow, List.append_nil, h]
    rfl
  · have hlast : (text ++ l.ending).getLast? = some '\n' := by
      rw [List.getLast?_append, hending]
      rfl
    rw [shownLines_append (.inr hlast), h]
    rfl

theorem shownLines_eq :
    shownLines content = shownLines l.above ++ l.line :: shownLines l.below := by
  have hreplace := l.shownLines_replace l.shown
  rwa [replace, ← l.content_eq] at hreplace

/-- The ending of a line holds a feed at its end only. -/
theorem ending_cases :
    '\n' ∉ l.line ++ l.ending ∨
      ∃ returns, l.ending = returns ++ ['\n'] ∧ '\n' ∉ l.line ++ returns := by
  rcases feed_split (l.line ++ l.ending) with hfeed | ⟨first, rest, htext, hfirst⟩
  · exact .inl hfeed
  · have hshown := l.shown
    rw [htext, shownLines_cons hfirst] at hshown
    injection hshown with hline hrest
    have hnil : rest = [] := lines_eq_nil (List.map_eq_nil_iff.mp hrest)
    obtain ⟨returns, hreturns, -⟩ := exists_shown first
    rw [hline] at hreturns
    refine .inr ⟨returns, ?_, hreturns ▸ hfirst⟩
    rw [hnil, hreturns, List.append_assoc] at htext
    exact List.append_cancel_left htext

end LineOf

end CodeAudit.Text
