import CodeAudit.Check.Suite
import CodeAudit.Proofs.EnclosingClasses
import CodeAudit.Proofs.HiddenCode
import CodeAudit.Proofs.MatchPlaces
import CodeAudit.Proofs.TextLines
import Mathlib.Data.List.TakeWhile

/-!
# Comments behind code

A comment that is written behind the code of a line changes nothing that is found in code. The code
of the line stays what it was, since the comment starts where it is written and not before. The
lines below begin outside of block comments as they did, since a line comment ends with its line.
And a line without code, which the comment turns into a comment line, held nothing to be found.

Results:
* `codePart_append_comment`: the code before the comment.
* `commentMask_append_comment`: the marks of the lines.
* `Subject.sameCode_append_comment`: the code of a file stays, line by line.
* `ByLine.seesCode`: checks that look at code line by line.
* `trailing_comment_changes_nothing`: neither the comment lines nor what the checks find.
-/

namespace CodeAudit

open Text Source

namespace Source

/-! ## One line -/

/-- Does a line look like a comment by what it holds, whatever is written behind it? It does unless
    that makes an opener of its last character. -/
theorem looksLikeComment_trimStart_append {line more : List Char}
    (hblank : isBlankLine line = false) (hslash : line.getLast? ≠ some '/')
    (hmore : line.getLast? = some '#' → more.head? ≠ some '[') :
    looksLikeComment (trimStart (line ++ more)) = looksLikeComment (trimStart line) := by
  have hne : trimStart line ≠ [] := by
    intro hnil
    rw [trimStart, List.dropWhile_eq_nil_iff, ← List.all_eq_true, ← isBlankLine, hblank] at hnil
    cases hnil
  have hlast : (trimStart line).getLast? = line.getLast? := by
    obtain ⟨front, hfront⟩ : trimStart line <:+ line := List.dropWhile_suffix _
    rw [← hfront, List.getLast?_append_of_ne_nil _ hne, hfront]
  have hshown : trimStart (line ++ more) = trimStart line ++ more := by
    rw [trimStart, List.dropWhile_append, ← trimStart, List.isEmpty_eq_false_iff.mpr hne,
      if_neg Bool.false_ne_true]
  rw [← hlast] at hslash hmore
  rw [hshown, Bool.eq_iff_iff, looksLikeComment_iff, looksLikeComment_iff, LooksLikeComment,
    LooksLikeComment]
  cases htrim : trimStart line with
  | nil => exact absurd htrim hne
  | cons x shown =>
    rw [htrim] at hslash hmore
    cases shown with
    | nil =>
      -- The last character is the first that shows, and it must not become part of an opener.
      cases more with
      | nil => rfl
      | cons y more =>
        have hx : x ≠ '/' := by simpa using hslash
        have hy : x = '#' → y ≠ '[' := by simpa using hmore
        simp only [List.cons_append, List.nil_append, List.cons_prefix_cons, List.nil_prefix,
          List.prefix_nil]
        grind
    | cons y shown => simp [List.cons_prefix_cons]

/-- Can a comment be written behind the line? It has none yet, leaves no string open, and does not
    end in a slash. -/
structure TakesComment (line : List Char) : Prop where
  start : commentStart? line = none
  closed : Closed (utf8 line)
  slash : line.getLast? ≠ some '/'

/-- A line comment. -/
def lineComment (note : List Char) : List Char :=
  '/' :: '/' :: note

theorem lineComment_append (note more : List Char) :
    lineComment note ++ more = lineComment (note ++ more) := rfl

namespace TakesComment

variable {line : List Char} (h : TakesComment line)

include h

theorem read : Quoting.outside.read line = .outside := by
  rw [← Quoting.readBytes_utf8 Quoting.proper_outside, ← Quoting.closed_iff]
  exact h.closed

theorem split_snd : (Quoting.outside.split line).2 = [] := by
  have hstart := h.start
  rw [commentStart?_eq] at hstart
  split at hstart
  · assumption
  · cases hstart

theorem split_append (text : List Char) :
    Quoting.outside.split (line ++ text) =
      (line ++ (Quoting.outside.split text).1, (Quoting.outside.split text).2) :=
  Quoting.split_append_of_read h.read h.split_snd h.slash text

theorem codePart : codePart line = line := by
  have hsplit := Quoting.outside.split_append line
  rw [h.split_snd, List.append_nil] at hsplit
  rw [codePart_eq, hsplit]

theorem codePart_append (text : List Char) :
    Source.codePart (line ++ text) = line ++ Source.codePart text := by
  rw [codePart_eq, codePart_eq, h.split_append]

/-- The code before the comment. -/
theorem codePart_append_comment (note : List Char) :
    Source.codePart (line ++ lineComment note) = line := by
  rw [h.codePart_append, codePart_eq]
  exact List.append_nil line

theorem endsInBlock (note : List Char) :
    endsInBlock false line = false ∧ endsInBlock false (line ++ lineComment note) = false := by
  have houtside : ∀ text, (∀ rest, (Quoting.outside.split text).2 ≠ '/' :: '*' :: rest) →
      Source.endsInBlock false text = false := by
    intro text htext
    rw [Source.endsInBlock, if_neg Bool.false_ne_true]
    split
    · rfl
    · rename_i hopener
      exact absurd (afterBlockOpener?_eq_some_iff.mp hopener) (htext _)
  constructor
  · refine houtside line fun rest hrest => ?_
    rw [h.split_snd] at hrest
    cases hrest
  · refine houtside _ fun rest hrest => ?_
    rw [h.split_append] at hrest
    cases hrest

/-- The comment makes a comment line of a line without code, and of no other. -/
theorem looksLikeComment_append (note : List Char) :
    looksLikeComment (trimStart (line ++ lineComment note)) =
      (isBlankLine line || looksLikeComment (trimStart line)) := by
  cases hblank : isBlankLine line with
  | true =>
    rw [isBlankLine, List.all_eq_true] at hblank
    rw [trimStart, List.dropWhile_append_of_pos hblank]
    rfl
  | false =>
    rw [Bool.false_or]
    exact looksLikeComment_trimStart_append hblank h.slash (by simp [lineComment])

end TakesComment

/-- A line that is not marked begins outside of block comments and does not look like one. -/
theorem outside_of_mask {above below : List (List Char)} {line : List Char}
    (h : (commentMask (above ++ line :: below))[above.length]? = some false) :
    above.foldl endsInBlock false = false ∧ looksLikeComment (trimStart line) = false := by
  rw [commentMask, getElem?_maskFrom, List.take_left] at h
  simpa using h

theorem commentMask_of_outside {above : List (List Char)}
    (h : above.foldl endsInBlock false = false) (line : List Char) (below : List (List Char)) :
    commentMask (above ++ line :: below) =
      commentMask above ++ looksLikeComment (trimStart line) ::
        maskFrom (endsInBlock false line) below := by
  rw [commentMask, maskFrom_append, maskFrom, h, Bool.false_or, commentMask]

/-- The marks of a text before and after a comment is written behind a line of it. -/
theorem commentMask_append_comment {line : List Char} (h : TakesComment line)
    {above below : List (List Char)}
    (hcode : (commentMask (above ++ line :: below))[above.length]? = some false)
    (note : List Char) :
    commentMask (above ++ line :: below) = commentMask above ++ false :: commentMask below ∧
      commentMask (above ++ (line ++ lineComment note) :: below) =
        commentMask above ++ isBlankLine line :: commentMask below := by
  obtain ⟨habove, hline⟩ := outside_of_mask hcode
  have hends := h.endsInBlock note
  constructor
  · rw [commentMask_of_outside habove, hline, hends.1, ← commentMask]
  · rw [commentMask_of_outside habove, h.looksLikeComment_append, hline, hends.2, Bool.or_false,
      ← commentMask]

end Source

namespace Text

/-! ## The lines of a text -/

/-- A comment stays, up to a carriage return at its end. -/
theorem exists_chopReturn_comment (line note : List Char) :
    ∃ kept, chopReturn (line ++ lineComment note) = line ++ lineComment kept := by
  rcases List.eq_nil_or_concat note with rfl | ⟨front, last, rfl⟩
  · refine ⟨[], ?_⟩
    have hslash : line ++ lineComment [] = (line ++ ['/']) ++ ['/'] := by simp [lineComment]
    rw [hslash, chopReturn_concat, if_neg (by decide)]
  · have hlast : line ++ lineComment (front ++ [last]) = (line ++ lineComment front) ++ [last] := by
      simp [lineComment]
    rw [List.concat_eq_append, hlast, chopReturn_concat]
    split
    · exact ⟨front, rfl⟩
    · exact ⟨front ++ [last], hlast.symm⟩

/-- A comment that holds no line feed stays on its line. A carriage return at its end may be taken
    for a part of the line ending. -/
theorem LineOf.shownLines_append_comment {content : List Char} (l : LineOf content)
    {note : List Char} (hnote : '\n' ∉ note) :
    ∃ kept, shownLines (l.replace (l.line ++ lineComment note)) =
      shownLines l.above ++ (l.line ++ lineComment kept) :: shownLines l.below := by
  suffices hone : ∃ kept, shownLines (l.line ++ lineComment note ++ l.ending) =
      [l.line ++ lineComment kept] by
    obtain ⟨kept, hkept⟩ := hone
    exact ⟨kept, l.shownLines_replace hkept⟩
  rcases l.ending_cases with hfeed | ⟨returns, hending, hfeed⟩
  · rw [List.append_assoc, lineComment_append, shownLines_of_notMem]
    · obtain ⟨kept, hkept⟩ := exists_chopReturn_comment l.line (note ++ l.ending)
      exact ⟨kept, by rw [hkept]⟩
    · simp_all [lineComment]
    · simp [lineComment]
  · have htext : l.line ++ lineComment note ++ (returns ++ ['\n']) =
        l.line ++ lineComment (note ++ returns) ++ '\n' :: [] := by simp [lineComment]
    obtain ⟨once, honce⟩ := exists_chopReturn_comment l.line (note ++ returns)
    obtain ⟨kept, hkept⟩ := exists_chopReturn_comment l.line once
    rw [hending, htext, shownLines_cons (by simp_all [lineComment]), honce, hkept]
    exact ⟨kept, rfl⟩

end Text

/-! ## The code of a file -/

theorem Source.blankStrings_of_isBlankLine {code : List Char} (h : isBlankLine code = true) :
    blankStrings code = code := by
  rw [blankStrings]
  induction code with
  | nil => rfl
  | cons c code ih =>
    rw [isBlankLine, List.all_cons, Bool.and_eq_true] at h
    rw [Quoting.blank, Quoting.keeps, if_pos rfl, isBlank_quote h.1, ih h.2]

namespace Subject

/-- The lines that hold code, with their numbers. -/
def visible (s : Subject) : List (Nat × List Char) :=
  s.lines.filterMap fun line =>
    if line.isComment || isBlankLine line.code then none else some (line.row, line.code)

/-- Two files that cannot be told apart by their code. -/
structure SameCode (s t : Subject) : Prop where
  path : s.path = t.path
  role : s.role = t.role
  visible : s.visible = t.visible

/-- The numbered lines around a line that leaves the marks above it as they are. -/
theorem number_around {above below : List (List Char)} {line : List Char} {mark : Bool}
    {marks : List Bool}
    (h : commentMask (above ++ line :: below) = commentMask above ++ mark :: marks) :
    number (above ++ line :: below) =
      number above ++ ⟨above.length + 1, line, mark⟩ ::
        ((below.zip marks).zipIdx (above.length + 2)).map fun entry =>
          ⟨entry.2, entry.1.1, entry.1.2⟩ := by
  have hlength : above.length = (commentMask above).length := (length_maskFrom false above).symm
  have hzip : (above.zip (commentMask above)).length = above.length := by
    rw [List.length_zip, ← hlength, Nat.min_self]
  rw [number, h, List.zip_append hlength, List.zip_cons_cons, List.zipIdx_append, List.zipIdx_cons,
    List.map_append, List.map_cons, hzip, Nat.add_comm 1]
  rfl

/-- The code of a file stays, line by line. -/
theorem sameCode_append_comment {content note : List Char} (l : LineOf content)
    (hnote : '\n' ∉ note) (htakes : TakesComment l.line)
    (hcode : (commentMask (shownLines content))[l.row]? = some false) (path : String) (role : Role)
    (radius : Nat) {source source' : ParsedSource} (hsource : source.content = content)
    (hsource' : source'.content = l.replace (l.line ++ lineComment note)) :
    (ofSource path source' role radius).SameCode (ofSource path source role radius) := by
  obtain ⟨kept, hkept⟩ := l.shownLines_append_comment hnote
  rw [l.shownLines_eq] at hcode
  obtain ⟨hmask, hmask'⟩ := commentMask_append_comment htakes hcode kept
  have hlines : (ofSource path source role radius).lines = number (shownLines content) := by
    rw [← hsource]
    rfl
  have hlines' : (ofSource path source' role radius).lines =
      number (shownLines (l.replace (l.line ++ lineComment note))) := by
    rw [← hsource']
    rfl
  refine ⟨rfl, rfl, ?_⟩
  rw [visible, visible, hlines, hlines', hkept, l.shownLines_eq, number_around hmask,
    number_around hmask', List.filterMap_append, List.filterMap_append, List.filterMap_cons,
    List.filterMap_cons, SourceLine.code, SourceLine.code, htakes.codePart_append_comment,
    htakes.codePart, Bool.or_self, Bool.false_or]

end Subject

/-- An issue without the lines around it. -/
def Issue.withoutContext (issue : Issue) : Issue :=
  { issue with context := [] }

namespace Check

/-- What is found depends on the code of the file, up to the lines that are shown around it. -/
def SeesCode (run : Subject → List Issue) : Prop :=
  ∀ ⦃s t : Subject⦄, s.SameCode t →
    (run s).map Issue.withoutContext = (run t).map Issue.withoutContext

/-- What is found on a line depends on its code, and nothing is found without any. -/
structure ByLine (part : Subject → Nat → List Char → List Issue) : Prop where
  blank : ∀ s row code, isBlankLine code = true → part s row code = []
  same : ∀ s t : Subject, s.path = t.path → s.role = t.role → ∀ row code,
    (part s row code).map Issue.withoutContext = (part t row code).map Issue.withoutContext

namespace ByLine

variable {part other : Subject → Nat → List Char → List Issue}

theorem append (h : ByLine part) (h' : ByLine other) :
    ByLine fun s row code => part s row code ++ other s row code where
  blank s row code hcode := by rw [h.blank s row code hcode, h'.blank s row code hcode]; rfl
  same s t hpath hrole row code := by
    rw [List.map_append, List.map_append, h.same s t hpath hrole, h'.same s t hpath hrole]

theorem nil : ByLine fun _ _ _ => [] where
  blank _ _ _ _ := rfl
  same _ _ _ _ _ _ := rfl

/-- Parts for files of some roles and for the others. -/
theorem ofRole (h : ByLine part) (h' : ByLine other) (test : Role → Bool) :
    ByLine fun s row code => if test s.role then part s row code else other s row code where
  blank s row code hcode := by rw [h.blank s row code hcode, h'.blank s row code hcode, ite_self]
  same s t hpath hrole row code := by
    rw [hrole]
    split
    · exact h.same s t hpath hrole row code
    · exact h'.same s t hpath hrole row code

/-- A part that looks at code with the contents of strings blanked. -/
theorem ofBare (h : ByLine part) : ByLine fun s row code => part s row (blankStrings code) where
  blank s row code hcode := by
    rw [blankStrings_of_isBlankLine hcode]
    exact h.blank s row code hcode
  same s t hpath hrole row code := h.same s t hpath hrole row (blankStrings code)

theorem map_flatMap_codeLines (h : ByLine part) (s : Subject) :
    (s.codeLines.flatMap fun line => part s line.row line.code).map Issue.withoutContext =
      s.visible.flatMap fun line => (part s line.1 line.2).map Issue.withoutContext := by
  rw [Subject.codeLines, Subject.visible]
  induction s.lines with
  | nil => rfl
  | cons line lines ih =>
    cases hcomment : line.isComment <;> cases hblank : isBlankLine line.code <;>
      simp [hcomment, hblank, ih, h.blank s _ _]

/-- A check of the lines one by one. -/
theorem seesCode (h : ByLine part) :
    SeesCode fun s => s.codeLines.flatMap fun line => part s line.row line.code := by
  intro s t hst
  rw [h.map_flatMap_codeLines, h.map_flatMap_codeLines, hst.visible]
  refine List.flatMap_congr fun line _ => h.same s t hst.path hst.role line.1 line.2

end ByLine

namespace SeesCode

variable {run other : Subject → List Issue}

theorem nil : SeesCode fun _ => [] := fun _ _ _ => rfl

/-- Checks of files of some roles and of the others. -/
theorem ofRole (h : SeesCode run) (h' : SeesCode other) (test : Role → Bool) :
    SeesCode fun s => if test s.role then run s else other s := by
  intro s t hst
  simp only [hst.role]
  split
  · exact h hst
  · exact h' hst

end SeesCode

/-! ## The checks -/

section Parts

variable {category : Category} {severity : Severity}

theorem withoutContext_report {s t : Subject} (h : s.path = t.path) (rule : String) (row : Nat)
    (title description suggestion : String) :
    (s.report category rule severity row title description suggestion).withoutContext =
      (t.report category rule severity row title description suggestion).withoutContext := by
  rw [Subject.report, Subject.report, h]
  rfl

theorem withoutContext_withMetadata (issue : Issue) (key : String) (value : Json) :
    (issue.withMetadata key value).withoutContext =
      issue.withoutContext.withMetadata key value := rfl

/-- A part that reports the lines in which a pattern is found. -/
theorem byLine_isIn {p : Pattern} (hp : p.isVisible = true) (rule : String)
    (title description suggestion : String) :
    ByLine fun s row code =>
      if p.isIn code then
        [s.report category rule severity row title description suggestion]
      else [] where
  blank s row code h := by
    rw [Pattern.isIn_of_isBlankLine hp h, if_neg Bool.false_ne_true]
  same s t hpath _ row code := by
    split
    · simp [withoutContext_report hpath]
    · rfl

/-- A part that reports the lines in which a pattern is found, in a place that a test accepts. -/
theorem byLine_any {p : Pattern} (hp : p.isVisible = true) (test : List Char → Match → Bool)
    (rule : String) (title description suggestion : String) :
    ByLine fun s row code =>
      if (p.findAll code).any (test code) then
        [s.report category rule severity row title description suggestion]
      else [] where
  blank s row code h := by
    rw [Pattern.findAll_of_isBlankLine hp h]
    rfl
  same s t hpath _ row code := by
    split
    · simp [withoutContext_report hpath]
    · rfl

/-- A part that reports the first place of a line in which a pattern is found. -/
theorem byLine_find {p : Pattern} (hp : p.isVisible = true) (rule : String) (title : String)
    (description : Match → String) (suggestion key : String) (value : Match → Json) :
    ByLine fun s row code =>
      match p.find? code with
      | none => []
      | some found =>
        [(s.report category rule severity row title (description found) suggestion).withMetadata
          key (value found)] where
  blank s row code h := by rw [Pattern.find?_of_isBlankLine hp h]
  same s t hpath _ row code := by
    split
    · rfl
    · simp [withoutContext_withMetadata, withoutContext_report hpath]

end Parts

namespace Injection

open Pattern

theorem byLine_query : ByLine query where
  blank s row code h := by rw [query, find?_of_isBlankLine (by decide) h]
  same s t hpath _ row code := by
    simp only [query]
    split
    · rfl
    · split <;> simp [withoutContext_report hpath]

theorem byLine_command : ByLine command where
  blank s row code h := by
    simp only [command, blankStrings_of_isBlankLine h,
      findAll_of_isBlankLine (p := shellCall) (by decide) h,
      isIn_of_isBlankLine (p := backtickCommand) (by decide) h]
    rfl
  same s t hpath _ row code := by
    simp only [command, commandIssue]
    split
    · split <;> simp [withoutContext_report hpath]
    · split <;> simp [withoutContext_report hpath]

theorem byLine_dynamicCode : ByLine dynamicCode where
  blank s row code h := by
    simp only [dynamicCode, findAll_of_isBlankLine (p := codeCall) (by decide) h]
    rfl
  same s t hpath _ row code := by
    simp only [dynamicCode]
    split <;> simp [withoutContext_report hpath]

theorem byLine_includedFile : ByLine includedFile where
  blank s row code h := by rw [includedFile, find?_of_isBlankLine (by decide) h]
  same s t hpath _ row code := by
    simp only [includedFile]
    split
    · rfl
    · split <;> simp [withoutContext_report hpath]

theorem byLine_revivedObjects : ByLine revivedObjects where
  blank s row code h := by rw [revivedObjects, find?_of_isBlankLine (by decide) h]
  same s t hpath _ row code := by
    simp only [revivedObjects]
    split
    · rfl
    · split <;> simp [withoutContext_report hpath]

theorem seesCode : SeesCode run :=
  ((((byLine_query.append byLine_command).append byLine_dynamicCode).append
    byLine_includedFile).append byLine_revivedObjects).seesCode

end Injection

namespace Exposure

open Pattern

theorem byLine_openAttributes : ByLine openAttributes where
  blank s row code h := by
    rw [openAttributes, isIn_of_isBlankLine (by decide) h, isIn_of_isBlankLine (by decide) h]
    rfl
  same s t hpath _ row code := by
    simp only [openAttributes, massAssignment]
    split
    · simp [withoutContext_report hpath]
    · split <;> simp [withoutContext_report hpath]

theorem byLine_rawOutput : ByLine rawOutput where
  blank s row code h := by rw [rawOutput, find?_of_isBlankLine (by decide) h]
  same s t hpath _ row code := by
    simp only [rawOutput]
    split
    · rfl
    · split <;> simp [withoutContext_report hpath]

theorem seesCode : SeesCode run :=
  ((byLine_openAttributes.append byLine_rawOutput).append
    (byLine_isIn (p := openToken) (by decide) _ _ _ _)).seesCode

end Exposure

namespace Collection

open Pattern

theorem byLine_narrowedInMemory : ByLine narrowedInMemory where
  blank s row code h := by rw [narrowedInMemory, find?_of_isBlankLine (by decide) h]
  same s t hpath _ row code := by
    simp only [narrowedInMemory]
    split
    · rfl
    · split <;> simp [withoutContext_withMetadata, withoutContext_report hpath]

theorem byLine_blocking : ByLine blocking where
  blank s row code h := by
    simp only [blocking, blankStrings_of_isBlankLine h,
      find?_of_isBlankLine (p := sleeping) (by decide) h]
  same s t hpath _ row code := by
    simp only [blocking]
    split
    · rfl
    · split <;> simp [withoutContext_report hpath]

theorem seesCode : SeesCode run :=
  ((((byLine_narrowedInMemory.append
    (byLine_isIn (p := countedRows) (by decide) _ _ _ _)).append
    (byLine_isIn (p := allColumns) (by decide) _ _ _ _)).append
    (ByLine.ofRole
      (byLine_any (p := allRows) (by decide) (fun _ found => isQueryScope (found.text 1)) _ _ _ _)
      .nil (· == .controller))).append
    (ByLine.nil.ofRole byLine_blocking (·.runsInBackground))).seesCode

end Collection

namespace Idiom

theorem seesCode_environment : SeesCode environment :=
  SeesCode.ofRole .nil
    (((byLine_any (p := environmentCall) (by decide)
      (fun code found => isBareCall code found.whole.start) _ _ _ _).append
      (byLine_find (p := superglobal) (by decide) _ _ _ _ _ _)).ofBare).seesCode (· == .config)

theorem seesCode_controllers : SeesCode controllers :=
  ((byLine_isIn (p := requestAll) (by decide) _ _ _ _).append
    (((byLine_find (p := databaseCall) (by decide +kernel) _ _ _ _ _ _).append
      (byLine_isIn (p := inlineValidation) (by decide) _ _ _ _)).ofRole .nil
        (· == .controller))).seesCode

theorem seesCode_routes : SeesCode routes := by
  have hlines : routes = fun s =>
      if s.role == .route then s.codeLines.flatMap fun line =>
        match closureRoute.find? line.code with
        | none => []
        | some found =>
          let verb := String.ofList (found.text 1)
          [(s.report .idiom "route_closure" .low line.row "Closure route"
            ("Route::" ++ verb ++ "() is handled by a closure")
            "Point the route at a controller action so routes can be cached").withMetadata "verb"
            (.str verb)]
      else [] := by
    funext s
    simp only [routes, List.filterMap_eq_flatMap_toList]
    congr 2
    funext line
    cases closureRoute.find? line.code <;> rfl
  rw [hlines]
  exact SeesCode.ofRole
    (byLine_find (p := closureRoute) (by decide) _ _ _ _ _ _).seesCode .nil (· == .route)

end Idiom

namespace Secret

open Pattern

theorem byLine_hardcoded : ByLine hardcoded where
  blank s row code h := by
    rw [hardcoded, find?_of_isBlankLine (by decide) h, ite_self]
  same s t hpath _ row code := by
    simp only [hardcoded]
    split
    · rfl
    · split
      · rfl
      · split <;> simp [withoutContext_withMetadata, withoutContext_report hpath]

/-- The credentials that are found. -/
theorem among_run (s : Subject) :
    Rule.hardcodedCredentials.among (run s) =
      s.codeLines.flatMap fun line =>
        if s.role == .test then [] else hardcoded s line.row line.code := by
  have hhardcoded : ∀ row code, ∀ issue ∈ hardcoded s row code,
      issue.ruleName = Rule.hardcodedCredentials.name := by
    intro row code
    fun_cases hardcoded <;> simp [Rule.name, Rule.entry]
  have hhashed : ∀ row code, ∀ issue ∈ weaklyHashed s row code,
      issue.ruleName = Rule.weakHashing.name := by
    intro row code
    fun_cases weaklyHashed <;> simp [Rule.name, Rule.entry]
  rw [run, Rule.among_flatMap]
  refine List.flatMap_congr fun line _ => ?_
  rw [Rule.among_append, Rule.among_of_other (by decide) (hhashed _ _), List.append_nil]
  split
  · rfl
  · exact Rule.among_of_forall (hhardcoded _ _)

theorem seesCode_credentials : SeesCode fun s => Rule.hardcodedCredentials.among (run s) := by
  have hlines := funext among_run
  rw [hlines]
  exact (ByLine.nil.ofRole byLine_hardcoded (· == .test)).seesCode

end Secret

/-- The checks that look at code line by line. -/
def ofCode : List Check :=
  [Injection.check, Exposure.check, Collection.check, Idiom.environmentCheck,
    Idiom.controllerCheck, Idiom.routeCheck]

theorem seesCode_of_mem_ofCode {check : Check} (h : check ∈ ofCode) : SeesCode check.run := by
  simp only [ofCode, List.mem_cons, List.not_mem_nil, or_false] at h
  rcases h with rfl | rfl | rfl | rfl | rfl | rfl
  · exact Injection.seesCode
  · exact Exposure.seesCode
  · exact Collection.seesCode
  · exact Idiom.seesCode_environment
  · exact Idiom.seesCode_controllers
  · exact Idiom.seesCode_routes

end Check

/-- Let a line of a text be code, with no comment, no string left open, and no slash at its end. A
    line comment behind it, whatever it holds, leaves the marks of all other lines as they are. It
    also leaves all that the checks of code and the search for credentials find, in the same order,
    up to the lines that are shown around it. Every line of every text is such a `LineOf`. -/
theorem trailing_comment_changes_nothing (content : List Char) :
    (∀ row line, (shownLines content)[row]? = some line →
      ∃ l : LineOf content, l.row = row ∧ l.line = line) ∧
    ∀ (l : LineOf content) (note : List Char), '\n' ∉ note → TakesComment l.line →
      (commentMask (shownLines content))[l.row]? = some false →
      (∀ row, row ≠ l.row →
        (commentMask (shownLines (l.replace (l.line ++ lineComment note))))[row]? =
          (commentMask (shownLines content))[row]?) ∧
      ∀ (path : String) (role : Role) (radius : Nat) (source source' : ParsedSource),
        source.content = content → source'.content = l.replace (l.line ++ lineComment note) →
        (∀ check ∈ Check.ofCode,
          (check.run (.ofSource path source' role radius)).map Issue.withoutContext =
            (check.run (.ofSource path source role radius)).map Issue.withoutContext) ∧
        (Rule.hardcodedCredentials.among
            (Check.Secret.run (.ofSource path source' role radius))).map Issue.withoutContext =
          (Rule.hardcodedCredentials.among
            (Check.Secret.run (.ofSource path source role radius))).map Issue.withoutContext := by
  refine ⟨fun _ _ h => exists_lineOf h, fun l note hnote htakes hcode => ⟨?_, ?_⟩⟩
  · intro row hrow
    obtain ⟨kept, hkept⟩ := l.shownLines_append_comment hnote
    rw [l.shownLines_eq] at hcode ⊢
    obtain ⟨hmask, hmask'⟩ := commentMask_append_comment htakes hcode kept
    have hlength : (commentMask (shownLines l.above)).length = l.row := length_maskFrom false _
    rw [hkept, hmask, hmask', List.getElem?_append, List.getElem?_append, hlength]
    split
    · rfl
    · obtain ⟨below, hbelow⟩ : ∃ below, row - l.row = below + 1 :=
        Nat.exists_eq_add_one.mpr (by omega)
      rw [hbelow, List.getElem?_cons_succ, List.getElem?_cons_succ]
  · intro path role radius source source' hsource hsource'
    have hsame := Subject.sameCode_append_comment l hnote htakes hcode path role radius hsource
      hsource'
    exact ⟨fun check hcheck => Check.seesCode_of_mem_ofCode hcheck hsame,
      Check.Secret.seesCode_credentials hsame⟩

/-- A line that runs text as code, above one that does not. -/
def evalLine : LineOf "eval($x);\necho 1;\n".toList where
  above := []
  line := "eval($x);".toList
  ending := ['\n']
  below := "echo 1;\n".toList
  content_eq := by decide
  whole := whole_nil
  shown := by decide
  ends := .inr rfl

theorem takesComment_evalLine : TakesComment evalLine.line where
  start := by decide
  closed := by decide
  slash := by decide

/-- The text with a comment that opens a string and a block comment. -/
def commentedEval : List Char :=
  evalLine.replace (evalLine.line ++ lineComment " it's /* here".toList)

/-- Neither the string nor the block comment reaches the next line. -/
theorem eval_found_before_comment :
    '\n' ∉ " it's /* here".toList ∧ TakesComment evalLine.line ∧
      (commentMask (shownLines "eval($x);\necho 1;\n".toList))[evalLine.row]? = some false ∧
      (commentMask (shownLines commentedEval))[1]? = some false ∧
      (Check.Injection.run (.ofSource "app/A.php"
          ⟨.php, commentedEval, none, none⟩ .plain 3)).map Issue.withoutContext =
        (Check.Injection.run (.ofSource "app/A.php"
          ⟨.php, "eval($x);\necho 1;\n".toList, none, none⟩ .plain 3)).map
          Issue.withoutContext := by
  have hnote : '\n' ∉ " it's /* here".toList := by decide
  have hcode : (commentMask (shownLines "eval($x);\necho 1;\n".toList))[evalLine.row]? =
      some false := by decide
  obtain ⟨hmask, hchecks⟩ := (trailing_comment_changes_nothing _).2 evalLine _ hnote
    takesComment_evalLine hcode
  refine ⟨hnote, takesComment_evalLine, hcode, (hmask 1 (by decide)).trans (by decide +kernel), ?_⟩
  exact (hchecks "app/A.php" .plain 3 ⟨.php, _, none, none⟩ ⟨.php, _, none, none⟩ rfl rfl).1
    Check.Injection.check List.mem_cons_self

end CodeAudit
