import CodeAudit.Proofs.CataloguedIssues
import CodeAudit.Proofs.PrunedWalk
import CodeAudit.Proofs.TrailingComments

/-!
# Statements on one line

Three checks look for a statement by its keyword: output of request data, inclusion of a file that
a request names, and objects that are made from a variable. Each of them looks at the first such
statement of a line and at no other. A harmless statement of the kind hides a dangerous one that
follows it on the same line, while a statement of another kind hides nothing.

Results:
* `exists_isFirst_of_find?`: what a search finds is the first statement.
* `Statement.IsFirst.unique`: there is only one.
* `Danger.reports_of_mem_all`: a check reports the lines whose first statement is dangerous.
* `Danger.foundOn_append`: statements of another kind hide nothing.
* `first_statement_decides`: both for files.
-/

namespace CodeAudit

open Text Source

/-- A stretch that ends where the class of its characters does. -/
theorem Text.span_append_of_head {test : Char → Bool} {a rest : List Char}
    (ha : ∀ c ∈ a, test c = true) (hrest : rest.head?.any test = false) :
    (a ++ rest).takeWhile test = a ∧ (a ++ rest).dropWhile test = rest := by
  rw [List.takeWhile_append_of_pos ha, List.dropWhile_append_of_pos ha]
  cases rest with
  | nil => simp
  | cons x rest =>
    have hx : ¬ test x = true := by simpa using hrest
    simp [hx]

namespace Pattern

/-! ## Keywords -/

theorem fits_lits {words : List String} {previous : Option Char} {stretch rest : List Char} :
    (lits words).Fits previous stretch rest ↔ ∃ word ∈ words, stretch = word.toList := by
  rw [lits]
  induction words with
  | nil => simp [first, Fits]
  | cons word words ih =>
    cases words with
    | nil => simp [first]
    | cons other words =>
      have hchoice : first ((word :: other :: words).map lit) =
          (lit word <|> first ((other :: words).map lit)) := rfl
      rw [hchoice, fits_choice, fits_lit, ih, List.exists_mem_cons_iff (a := word)]

/-- At most one stretch from each place fits the pattern. -/
def Determined (p : Pattern) : Prop :=
  ∀ ⦃previous : Option Char⦄ ⦃a b rest rest' : List Char⦄, a ++ rest = b ++ rest' →
    p.Fits previous a rest → p.Fits previous b rest' → a = b

/-- Is the text made of word characters? -/
def isName (word : String) : Bool :=
  !word.toList.isEmpty && word.toList.all isWord

/-- Words between word edges are all that can be read as a word. -/
theorem takeWhile_of_fits_edged {words : List String} (hwords : words.all isName = true)
    {previous : Option Char} {a rest : List Char}
    (h : (wordEdge ++ lits words ++ wordEdge).Fits previous a rest) :
    (a ++ rest).takeWhile isWord = a ∧ a ≠ [] := by
  obtain ⟨front, edge, rfl, ⟨edge', name, rfl, ⟨rfl, -⟩, hname⟩, ⟨rfl, hedge⟩⟩ := h
  obtain ⟨word, hword, rfl⟩ := fits_lits.mp hname
  have hname' := List.all_eq_true.mp hwords word hword
  rw [isName, Bool.and_eq_true, List.all_eq_true, Bool.not_eq_true', List.isEmpty_eq_false_iff]
    at hname'
  obtain ⟨hne, hchars⟩ := hname'
  rw [List.nil_append, List.getLast?_eq_some_getLast hne, Option.some_or, Option.any_some,
    hchars _ (List.getLast_mem hne)] at hedge
  have hrest : rest.head?.any isWord = false := Bool.eq_false_iff.mpr (Ne.symm hedge)
  rw [List.nil_append, List.append_nil]
  exact ⟨(span_append_of_head hchars hrest).1, hne⟩

end Pattern

namespace Check

/-- A statement of a line of code: what stands before it, its keyword, what follows up to the next
    semicolon, and the rest of the line. -/
structure Statement where
  before : List Char
  keyword : List Char
  operand : List Char
  rest : List Char

namespace Statement

/-- Is there such a statement in the code, with a keyword that the pattern fits? -/
structure IsOf (st : Statement) (keyword : Pattern) (code : List Char) : Prop where
  code_eq : code = st.before ++ (st.keyword ++ (st.operand ++ st.rest))
  fits : keyword.Fits st.before.getLast? st.keyword (st.operand ++ st.rest)
  operand : ';' ∉ st.operand
  rest : st.rest = [] ∨ st.rest.head? = some ';'

/-- Is it the first of its kind? -/
structure IsFirst (st : Statement) (keyword : Pattern) (code : List Char) : Prop extends
    st.IsOf keyword code where
  first : ∀ other : Statement, other.IsOf keyword code →
    st.before.length ≤ other.before.length

/-- The statement whose keyword stands in a place. -/
def ofPlace (before keyword rest : List Char) : Statement where
  before := before
  keyword := keyword
  operand := rest.takeWhile (· != ';')
  rest := rest.dropWhile (· != ';')

theorem isOf_ofPlace {keyword : Pattern} {before stretch rest : List Char}
    (h : keyword.Fits before.getLast? stretch rest) :
    (ofPlace before stretch rest).IsOf keyword (before ++ (stretch ++ rest)) where
  code_eq := by rw [ofPlace, List.takeWhile_append_dropWhile]
  fits := by rw [ofPlace, List.takeWhile_append_dropWhile]; exact h
  operand := by
    intro hmem
    have hsemicolon := List.mem_takeWhile_imp hmem
    simp at hsemicolon
  rest := by
    rw [ofPlace]
    cases hdrop : rest.dropWhile (· != ';') with
    | nil => exact .inl rfl
    | cons x later =>
      have hx := List.head?_dropWhile_not (· != ';') rest
      rw [hdrop] at hx
      exact .inr (by simpa using hx)

/-- A statement is known by its place and its keyword. -/
theorem IsOf.eq_ofPlace {st : Statement} {keyword : Pattern} {code : List Char}
    (h : st.IsOf keyword code) :
    st = ofPlace st.before st.keyword (st.operand ++ st.rest) := by
  have hoperand : ∀ c ∈ st.operand, (c != ';') = true := by
    intro c hc
    rw [bne_iff_ne]
    rintro rfl
    exact h.operand hc
  have hrest : st.rest.head?.any (· != ';') = false := by
    rcases h.rest with hnil | hhead
    · rw [hnil]; rfl
    · rw [hhead]; rfl
  obtain ⟨htake, hdrop⟩ := span_append_of_head hoperand hrest
  rw [ofPlace, htake, hdrop]

theorem IsFirst.before_eq {st other : Statement} {keyword : Pattern} {code : List Char}
    (h : st.IsFirst keyword code) (h' : other.IsFirst keyword code) :
    st.before = other.before := by
  have hlength := Nat.le_antisymm (h.first other h'.toIsOf) (h'.first st h.toIsOf)
  have hcode := h.code_eq.symm.trans h'.code_eq
  exact (List.append_inj hcode hlength).1

/-- There is only one first statement. -/
theorem IsFirst.unique {st other : Statement} {keyword : Pattern} {code : List Char}
    (hkeyword : keyword.Determined) (h : st.IsFirst keyword code)
    (h' : other.IsFirst keyword code) : st = other := by
  have hbefore := h.before_eq h'
  have hcode := h.code_eq.symm.trans h'.code_eq
  rw [hbefore] at hcode
  have hrest := List.append_cancel_left hcode
  have hsame : st.keyword = other.keyword :=
    hkeyword hrest (hbefore ▸ h.fits) h'.fits
  rw [hsame] at hrest
  rw [h.toIsOf.eq_ofPlace, h'.toIsOf.eq_ofPlace, hbefore, hsame, List.append_cancel_left hrest]

end Statement

/-- What a search for a keyword and what follows it finds is the first statement. -/
theorem exists_isFirst_of_find? {keyword : Pattern} {index : Nat} {code : List Char} {found : Match}
    (h : (keyword ++ .group index (.many (.noneOf ";"))).find? code = some found) :
    ∃ st : Statement, st.IsFirst keyword code ∧ found.text index = st.operand := by
  obtain ⟨before, text, rfl, hm, hfirst⟩ := Pattern.exists_first_of_find? h
  obtain ⟨stretch, rest, htext, hfits, hgroup⟩ := Pattern.exists_of_matchAt?_tail hm
  have hrest : text = stretch ++ rest := htext
  subst hrest
  refine ⟨.ofPlace before stretch rest, ⟨Statement.isOf_ofPlace hfits, ?_⟩, ?_⟩
  · intro other hother
    refine hfirst other.before other.keyword _ hother.code_eq ?_
    exact ⟨other.keyword, [], (List.append_nil _).symm, hother.fits, .stop⟩
  · have hclass : (fun c => !";".toList.contains c) = (· != ';') := by
      funext c
      by_cases hc : c = ';' <;> simp [hc]
    rw [hgroup, hclass]
    rfl

theorem not_isOf_of_find? {keyword : Pattern} {index : Nat} {code : List Char}
    (h : (keyword ++ .group index (.many (.noneOf ";"))).find? code = none) (st : Statement) :
    ¬ st.IsOf keyword code := by
  intro hst
  rw [Pattern.find?_eq_none_iff] at h
  refine h st.before st.keyword _ hst.code_eq ?_
  exact ⟨st.keyword, [], (List.append_nil _).symm, hst.fits, .stop⟩

/-! ## Dangers -/

/-- A danger: the rule that warns of it, the check that reports the rule, the keyword of the
    statements in question, when such a statement of a line of code does harm, and the words that
    excuse the whole line. -/
structure Danger where
  rule : Rule
  check : Check
  keyword : Pattern
  harms : Statement → Bool
  excuses : List String

namespace Danger

/-- Is the first statement of the kind in the code harmful, with nothing to excuse it? -/
def FoundOn (d : Danger) (code : List Char) : Prop :=
  (∃ st : Statement, st.IsFirst d.keyword code ∧ d.harms st = true) ∧
    ∀ word ∈ d.excuses, mentions word code = false

open Pattern

/-- Output of request data that nothing escapes. -/
def output : Danger where
  rule := .xssEcho
  check := Exposure.check
  keyword := wordEdge ++ lit "echo" ++ wordEdge <|> wordEdge ++ lit "print" ++ wordEdge <|>
    lit "<?="
  harms st := mentionsRequestData st.operand && !Exposure.escaping.isIn st.operand
  excuses := []

/-- Inclusion of a file that a request names. -/
def inclusion : Danger where
  rule := .fileInclusion
  check := Injection.check
  keyword := wordEdge ++ lits ["include", "include_once", "require", "require_once"] ++ wordEdge
  harms st := mentionsRequestData st.operand
  excuses := []

/-- Objects that are made from a variable by a plain call. -/
def revival : Danger where
  rule := .unsafeDeserialization
  check := Injection.check
  keyword := Injection.revival
  harms st := !st.before.getLast?.any fun c =>
    isLetterOrDigit c || c == '_' || c == '>' || c == ':' || c == '$' || c == '\\'
  excuses := ["allowed_classes"]

/-- The dangers of single statements. -/
def all : List Danger := [output, inclusion, revival]

theorem determined_output : output.keyword.Determined := by
  have hfits : ∀ {previous : Option Char} {a rest : List Char},
      output.keyword.Fits previous a rest →
        (a ++ rest).takeWhile isWord = a ∧ a ≠ [] ∨ a = "<?=".toList := by
    have hecho : ["echo"].all isName = true := by decide
    have hprint : ["print"].all isName = true := by decide
    rintro previous a rest (h | h | h)
    · exact .inl (takeWhile_of_fits_edged hecho h)
    · exact .inl (takeWhile_of_fits_edged hprint h)
    · exact .inr (fits_lit.mp h)
  have hsign : ∀ rest, ("<?=".toList ++ rest).takeWhile isWord = [] := fun rest => by
    have hless : isWord '<' = false := by decide
    simp [hless]
  intro previous a b rest rest' htext ha hb
  rcases hfits ha with ⟨htake, hne⟩ | rfl <;> rcases hfits hb with ⟨htake', hne'⟩ | rfl
  · rw [← htake, ← htake', htext]
  · rw [htext, hsign] at htake
    exact absurd htake.symm hne
  · rw [← htext, hsign] at htake'
    exact absurd htake'.symm hne'
  · rfl

theorem determined_inclusion : inclusion.keyword.Determined := by
  have hwords : ["include", "include_once", "require", "require_once"].all isName = true := by
    decide
  intro previous a b rest rest' htext ha hb
  rw [← (takeWhile_of_fits_edged hwords ha).1, ← (takeWhile_of_fits_edged hwords hb).1, htext]

/-- Where the first statement is known, it decides. -/
theorem foundOn_iff_of_isFirst {d : Danger} {code : List Char} {st : Statement}
    (hst : st.IsFirst d.keyword code)
    (hsame : ∀ other : Statement, other.IsFirst d.keyword code → d.harms other = d.harms st) :
    d.FoundOn code ↔ d.harms st = true ∧ ∀ word ∈ d.excuses, mentions word code = false := by
  refine and_congr_left fun _ => ⟨?_, fun hharms => ⟨st, hst, hharms⟩⟩
  rintro ⟨other, hother, hharms⟩
  rw [← hsame other hother]
  exact hharms

theorem not_foundOn {d : Danger} {code : List Char}
    (h : ∀ st : Statement, ¬ st.IsOf d.keyword code) : ¬ d.FoundOn code := by
  rintro ⟨⟨st, hst, -⟩, -⟩
  exact h st hst.toIsOf

theorem ite_ne_nil_iff {test : Bool} {issue : Issue} :
    (if test then [issue] else []) ≠ [] ↔ test = true := by
  cases test <;> simp

/-- A check that looks at what follows the first keyword. -/
theorem foundOn_iff_of_determined {d : Danger} (hkeyword : d.keyword.Determined)
    (hexcuses : d.excuses = []) {code : List Char} {st : Statement}
    (hst : st.IsFirst d.keyword code) : d.FoundOn code ↔ d.harms st = true := by
  have hsame : ∀ other : Statement, other.IsFirst d.keyword code → d.harms other = d.harms st :=
    fun other hother => by rw [hother.unique hkeyword hst]
  rw [foundOn_iff_of_isFirst hst hsame, hexcuses, and_iff_left (List.forall_mem_nil _)]

theorem rawOutput_ne_nil_iff (s : Subject) (row : Nat) (code : List Char) :
    Exposure.rawOutput s row code ≠ [] ↔ output.FoundOn code := by
  rw [Exposure.rawOutput]
  cases hfound : Exposure.output.find? code with
  | none =>
    have hnone : ¬ output.FoundOn code := not_foundOn (not_isOf_of_find? hfound)
    exact iff_of_false (fun hne => hne rfl) hnone
  | some found =>
    obtain ⟨st, hst, htext⟩ := exists_isFirst_of_find? hfound
    have hiff : output.FoundOn code ↔ output.harms st = true :=
      foundOn_iff_of_determined determined_output rfl hst
    dsimp only
    rw [ite_ne_nil_iff, htext, hiff]
    rfl

theorem includedFile_ne_nil_iff (s : Subject) (row : Nat) (code : List Char) :
    Injection.includedFile s row code ≠ [] ↔ inclusion.FoundOn code := by
  rw [Injection.includedFile]
  cases hfound : Injection.inclusion.find? code with
  | none =>
    have hnone : ¬ inclusion.FoundOn code := not_foundOn (not_isOf_of_find? hfound)
    exact iff_of_false (fun hne => hne rfl) hnone
  | some found =>
    obtain ⟨st, hst, htext⟩ := exists_isFirst_of_find? hfound
    have hiff : inclusion.FoundOn code ↔ inclusion.harms st = true :=
      foundOn_iff_of_determined determined_inclusion rfl hst
    dsimp only
    rw [ite_ne_nil_iff, htext, hiff]
    rfl

theorem revivedObjects_ne_nil_iff (s : Subject) (row : Nat) (code : List Char) :
    Injection.revivedObjects s row code ≠ [] ↔ revival.FoundOn code := by
  rw [Injection.revivedObjects]
  cases hfound : Injection.revival.find? code with
  | none =>
    rw [find?_eq_none_iff] at hfound
    have hnone : ¬ revival.FoundOn code := not_foundOn fun st hst =>
      hfound st.before st.keyword _ hst.code_eq hst.fits
    exact iff_of_false (fun hne => hne rfl) hnone
  | some found =>
    obtain ⟨before, text, rfl, hm, hfirst⟩ := exists_first_of_find? hfound
    obtain ⟨stretch, rest, hrest, hfits, hwhole, -⟩ := exists_fits_of_matchAt? hm
    have htext : text = stretch ++ rest := hrest
    subst htext
    have hst : (Statement.ofPlace before stretch rest).IsFirst revival.keyword
        (before ++ (stretch ++ rest)) :=
      ⟨Statement.isOf_ofPlace hfits, fun other hother =>
        hfirst other.before other.keyword _ hother.code_eq hother.fits⟩
    -- The test of a statement looks at its place only.
    have hsame : ∀ other : Statement, other.IsFirst revival.keyword (before ++ (stretch ++ rest)) →
        revival.harms other = revival.harms (.ofPlace before stretch rest) := by
      intro other hother
      have hbefore : other.before = before := hother.before_eq hst
      change (!other.before.getLast?.any _) = !before.getLast?.any _
      rw [hbefore]
    have hplace : (Cursor.mk before.getLast? (byteLength before) (stretch ++ rest)).IsIn
        (before ++ (stretch ++ rest)) := ⟨before, rfl, rfl, rfl⟩
    have hbare : charBefore? (before ++ (stretch ++ rest)) found.whole.start =
        before.getLast? := by
      rw [hwhole]
      exact hplace.charBefore?
    dsimp only
    rw [ite_ne_nil_iff, foundOn_iff_of_isFirst hst hsame, isBareCall, hbare, Bool.and_eq_true]
    refine and_congr_right fun _ => ?_
    simp [revival]

/-! ## What is reported -/

/-- Issues of one rule on one row. -/
def IssuesOf (rule : Rule) (row : Nat) (issues : List Issue) : Prop :=
  ∀ issue ∈ issues, issue.ruleName = rule.name ∧ issue.line = max row 1

theorem IssuesOf.among_eq {rule : Rule} {row : Nat} {issues : List Issue}
    (h : IssuesOf rule row issues) : rule.among issues = issues :=
  Rule.among_of_forall fun issue hissue => (h issue hissue).1

theorem IssuesOf.among_nil {rule other : Rule} {row : Nat} {issues : List Issue}
    (h : IssuesOf other row issues) (hne : other.name ≠ rule.name) : rule.among issues = [] :=
  Rule.among_of_other hne fun issue hissue => (h issue hissue).1

theorem issuesOf_rawOutput (s : Subject) (row : Nat) (code : List Char) :
    IssuesOf .xssEcho row (Exposure.rawOutput s row code) := by
  fun_cases Exposure.rawOutput <;> simp [IssuesOf, Rule.name, Rule.entry]

theorem issuesOf_includedFile (s : Subject) (row : Nat) (code : List Char) :
    IssuesOf .fileInclusion row (Injection.includedFile s row code) := by
  fun_cases Injection.includedFile <;> simp [IssuesOf, Rule.name, Rule.entry]

theorem issuesOf_revivedObjects (s : Subject) (row : Nat) (code : List Char) :
    IssuesOf .unsafeDeserialization row (Injection.revivedObjects s row code) := by
  fun_cases Injection.revivedObjects <;> simp [IssuesOf, Rule.name, Rule.entry]

theorem among_exposure (s : Subject) :
    Rule.xssEcho.among (Exposure.run s) =
      s.codeLines.flatMap fun line => Exposure.rawOutput s line.row line.code := by
  have hopen : ∀ row code, IssuesOf .massAssignment row (Exposure.openAttributes s row code) := by
    intro row code
    fun_cases Exposure.openAttributes <;>
      simp [IssuesOf, Exposure.massAssignment, Rule.name, Rule.entry]
  have htoken : ∀ row code, IssuesOf .csrfDisabled row (Exposure.uncheckedToken s row code) := by
    intro row code
    fun_cases Exposure.uncheckedToken <;> simp [IssuesOf, Rule.name, Rule.entry]
  rw [Exposure.run, Rule.among_flatMap]
  refine List.flatMap_congr fun line _ => ?_
  rw [Rule.among_append, Rule.among_append, (hopen _ _).among_nil (by decide),
    (issuesOf_rawOutput s _ _).among_eq, (htoken _ _).among_nil (by decide), List.nil_append,
    List.append_nil]

/-- The issues of the last two parts of the check of injection. -/
theorem among_injection (s : Subject) {rule : Rule}
    (hrule : rule = .fileInclusion ∨ rule = .unsafeDeserialization) :
    rule.among (Injection.run s) = s.codeLines.flatMap fun line =>
      rule.among (Injection.includedFile s line.row line.code) ++
        rule.among (Injection.revivedObjects s line.row line.code) := by
  have hquery : ∀ row code, IssuesOf .sqlInjection row (Injection.query s row code) := by
    intro row code
    fun_cases Injection.query <;> simp [IssuesOf, Rule.name, Rule.entry]
  have hcommand : ∀ row code, IssuesOf .commandInjection row (Injection.command s row code) := by
    intro row code
    fun_cases Injection.command <;>
      simp [IssuesOf, Injection.commandIssue, Rule.name, Rule.entry]
  have hcode : ∀ row code, IssuesOf .codeInjection row (Injection.dynamicCode s row code) := by
    intro row code
    fun_cases Injection.dynamicCode <;> simp [IssuesOf, Rule.name, Rule.entry]
  have hother : ∀ other ∈ [Rule.sqlInjection, .commandInjection, .codeInjection],
      other.name ≠ rule.name := by
    rcases hrule with rfl | rfl <;> decide
  rw [Injection.run, Rule.among_flatMap]
  refine List.flatMap_congr fun line _ => ?_
  rw [Rule.among_append, Rule.among_append, Rule.among_append, Rule.among_append,
    (hquery _ _).among_nil (hother _ (by simp)), (hcommand _ _).among_nil (hother _ (by simp)),
    (hcode _ _).among_nil (hother _ (by simp))]
  rfl

/-- The danger is reported on the rows whose first statement is harmful. -/
def Reports (d : Danger) (s : Subject) : Prop :=
  ∀ row, (∃ issue ∈ d.rule.among (d.check.run s), issue.line = row) ↔
    ∃ line ∈ s.codeLines, line.row = row ∧ d.FoundOn line.code

theorem reports_of_part {d : Danger} {part : Subject → Nat → List Char → List Issue} {s : Subject}
    (hrows : ∀ line ∈ s.lines, 1 ≤ line.row)
    (hrun : d.rule.among (d.check.run s) =
      s.codeLines.flatMap fun line => part s line.row line.code)
    (hpart : ∀ row code, IssuesOf d.rule row (part s row code))
    (hfound : ∀ row code, part s row code ≠ [] ↔ d.FoundOn code) : d.Reports s := by
  have hrow : ∀ line ∈ s.codeLines, ∀ issue ∈ part s line.row line.code,
      issue.line = line.row := by
    intro line hline issue hissue
    rw [(hpart _ _ issue hissue).2]
    exact Nat.max_eq_left (hrows line (List.mem_filter.mp hline).1)
  intro row
  rw [hrun]
  constructor
  · rintro ⟨issue, hissue, rfl⟩
    obtain ⟨line, hline, hmem⟩ := List.mem_flatMap.mp hissue
    refine ⟨line, hline, (hrow line hline issue hmem).symm, (hfound line.row _).mp ?_⟩
    exact List.ne_nil_of_mem hmem
  · rintro ⟨line, hline, rfl, hcode⟩
    obtain ⟨issue, hissue⟩ := List.exists_mem_of_ne_nil _ ((hfound line.row _).mpr hcode)
    exact ⟨issue, List.mem_flatMap.mpr ⟨line, hline, hissue⟩, hrow line hline issue hissue⟩

theorem reports_of_mem_all {d : Danger} (hd : d ∈ all) {s : Subject}
    (hrows : ∀ line ∈ s.lines, 1 ≤ line.row) : d.Reports s := by
  simp only [all, List.mem_cons, List.not_mem_nil, or_false] at hd
  rcases hd with rfl | rfl | rfl
  · exact reports_of_part hrows (among_exposure s) (issuesOf_rawOutput s) (rawOutput_ne_nil_iff s)
  · refine reports_of_part hrows ?_ (issuesOf_includedFile s) (includedFile_ne_nil_iff s)
    refine (among_injection s (.inl rfl)).trans (List.flatMap_congr fun line _ => ?_)
    rw [(issuesOf_includedFile s _ _).among_eq,
      (issuesOf_revivedObjects s _ _).among_nil (by decide), List.append_nil]
  · refine reports_of_part hrows ?_ (issuesOf_revivedObjects s) (revivedObjects_ne_nil_iff s)
    refine (among_injection s (.inr rfl)).trans (List.flatMap_congr fun line _ => ?_)
    rw [(issuesOf_includedFile s _ _).among_nil (by decide),
      (issuesOf_revivedObjects s _ _).among_eq, List.nil_append]

/-! ## Statements of another kind -/

/-- A statement of another kind: a whole one with no comment, no open string, nothing that makes a
    comment line of it, no keyword of the danger and no excuse. -/
structure Harmless (d : Danger) (head : List Char) : Prop where
  line : '\n' ∉ head
  takes : TakesComment head
  ends : head.getLast? = some ';'
  code : looksLikeComment (trimStart head) = false
  keyword : d.keyword.isIn head = false
  excuses : ∀ word ∈ d.excuses, mentions word head = false

/-- What holds no semicolon stands before the end of a statement or after it. -/
theorem append_cases {a stretch rest head code : List Char}
    (h : head ++ code = a ++ (stretch ++ rest)) (hends : head.getLast? = some ';')
    (hstretch : ';' ∉ stretch) :
    (∃ b, a = head ++ b ∧ code = b ++ (stretch ++ rest)) ∨
      ∃ more, head = a ++ (stretch ++ more) ∧ more ≠ [] ∧ rest = more ++ code := by
  rcases List.append_eq_append_iff.mp h with ⟨b, ha, hcode⟩ | ⟨b, hhead, htext⟩
  · exact .inl ⟨b, ha, hcode⟩
  · by_cases hb : b = []
    · subst hb
      exact .inl ⟨[], by rw [hhead, List.append_nil, List.append_nil], htext.symm⟩
    · have hmem : ';' ∈ b := by
        rw [hhead, List.getLast?_append_of_ne_nil _ hb] at hends
        exact List.mem_of_getLast? hends
      rcases List.append_eq_append_iff.mp htext with ⟨more, rfl, hrest⟩ | ⟨_, rfl, _⟩
      · refine .inr ⟨more, hhead, ?_, hrest⟩
        rintro rfl
        exact hstretch (List.append_nil stretch ▸ hmem)
      · exact absurd (List.mem_append_left _ hmem) hstretch

/-- What the keyword and the test of a danger look at. -/
structure Local (d : Danger) : Prop where
  semicolon : d.keyword.avoids ';' = true
  free : d.keyword.isFree = true
  harms : ∀ (st : Statement) (head : List Char), head.getLast? = some ';' →
    d.harms { st with before := head ++ st.before } = d.harms st
  excuses : ∀ word ∈ d.excuses, ';' ∉ word.toList

theorem local_of_mem_all {d : Danger} (hd : d ∈ all) : d.Local := by
  simp only [all, List.mem_cons, List.not_mem_nil, or_false] at hd
  rcases hd with rfl | rfl | rfl
  · exact ⟨by decide, by decide, fun _ _ _ => rfl, by decide⟩
  · exact ⟨by decide, by decide, fun _ _ _ => rfl, by decide⟩
  · refine ⟨by decide, by decide, fun st head hends => ?_, by decide⟩
    simp only [revival, List.getLast?_append, hends]
    cases st.before.getLast? with
    | none => decide
    | some c => rfl

theorem foundOn_append {d : Danger} (hlocal : d.Local) {head code : List Char}
    (hhead : d.Harmless head) (h : d.FoundOn code) : d.FoundOn (head ++ code) := by
  obtain ⟨⟨st, hst, hharms⟩, hexcuses⟩ := h
  have hlast : ∀ before : List Char,
      (head ++ before).getLast?.any isWord = before.getLast?.any isWord := by
    intro before
    rw [List.getLast?_append, hhead.ends]
    cases before.getLast? with
    | none => decide
    | some c => rfl
  refine ⟨⟨{ st with before := head ++ st.before }, ⟨⟨?_, ?_, hst.operand, hst.rest⟩, ?_⟩, ?_⟩, ?_⟩
  · rw [hst.code_eq, List.append_assoc]
  · exact fits_congr hlocal.free (hlast st.before).symm rfl hst.fits
  · intro other hother
    rcases append_cases hother.code_eq hhead.ends
        (notMem_of_fits hlocal.semicolon hother.fits) with
      ⟨before, hbefore, hcode⟩ | ⟨more, hmore, hne, hrest⟩
    · have hfits := fits_congr hlocal.free (hlast before) rfl (hbefore ▸ hother.fits)
      have hfirst := hst.first { other with before } ⟨hcode, hfits, hother.operand, hother.rest⟩
      rw [hbefore, List.length_append, List.length_append]
      exact Nat.add_le_add_left hfirst _
    · have hnext : (other.operand ++ other.rest).head? = more.head? := by
        rw [hrest, List.head?_append_of_ne_nil _ hne]
      have hfits := fits_congr hlocal.free rfl hnext hother.fits
      have hin : d.keyword.isIn head = true := isIn_iff.mpr ⟨_, _, _, hmore, hfits⟩
      rw [hhead.keyword] at hin
      cases hin
  · rw [hlocal.harms st head hhead.ends]
    exact hharms
  · intro word hword
    rw [← Bool.not_eq_true, mentions, occurs_iff_isInfix]
    rintro ⟨a, rest, htext⟩
    rw [List.append_assoc] at htext
    rcases append_cases htext.symm hhead.ends (hlocal.excuses word hword) with
      ⟨b, -, hcode⟩ | ⟨more, hmore, -⟩
    · have hmentions : mentions word code = true :=
        occurs_iff_isInfix.mpr ⟨b, rest, by rw [hcode, List.append_assoc]⟩
      rw [hexcuses word hword] at hmentions
      cases hmentions
    · have hmentions : mentions word head = true :=
        occurs_iff_isInfix.mpr ⟨a, more, by rw [hmore, List.append_assoc]⟩
      rw [hhead.excuses word hword] at hmentions
      cases hmentions

end Danger

end Check

namespace Text

theorem chopReturn_append {head : List Char} (hlast : head.getLast? ≠ some '\r')
    (text : List Char) : chopReturn (head ++ text) = head ++ chopReturn text := by
  rcases List.eq_nil_or_concat text with rfl | ⟨front, last, rfl⟩
  · rcases List.eq_nil_or_concat head with rfl | ⟨front, last, rfl⟩
    · rfl
    · rw [List.concat_eq_append, List.getLast?_concat] at hlast
      rw [List.concat_eq_append, List.append_nil, chopReturn_concat,
        if_neg fun hreturn => hlast (congrArg some hreturn)]
      exact (List.append_nil _).symm
  · rw [List.concat_eq_append, ← List.append_assoc, chopReturn_concat, chopReturn_concat]
    split
    · rfl
    · rw [List.append_assoc]

/-- What is written in front of a line is shown with it. -/
theorem LineOf.shownLines_prepend {content : List Char} (l : LineOf content) {head : List Char}
    (hline : '\n' ∉ head) (hlast : head.getLast? ≠ some '\r') :
    shownLines (l.replace (head ++ l.line)) =
      shownLines l.above ++ (head ++ l.line) :: shownLines l.below := by
  refine l.shownLines_replace ?_
  have hshown := l.shown
  rcases l.ending_cases with hfeed | ⟨returns, hending, hfeed⟩
  · have hne : l.line ++ l.ending ≠ [] := by
      intro hnil
      rw [hnil] at hshown
      cases hshown
    rw [shownLines_of_notMem hfeed hne] at hshown
    rw [List.append_assoc, shownLines_of_notMem (by simp_all) (by simp_all),
      chopReturn_append hlast, List.singleton_inj.mp hshown]
  · have htext : l.line ++ (returns ++ ['\n']) = l.line ++ returns ++ '\n' :: [] := by simp
    have htext' : head ++ l.line ++ (returns ++ ['\n']) =
        head ++ (l.line ++ returns) ++ '\n' :: [] := by simp
    rw [hending, htext, shownLines_cons hfeed] at hshown
    rw [hending, htext', shownLines_cons (by simp_all), chopReturn_append hlast,
      chopReturn_append hlast, (List.cons.inj hshown).1]
    rfl

end Text

namespace Source

theorem endsInBlock_false (line : List Char) :
    endsInBlock false line =
      match afterBlockOpener? line with
      | none => false
      | some rest => endsInBlock true rest := by
  rw [endsInBlock, if_neg Bool.false_ne_true]
  split <;> simp [*]

/-- Code in front of a line moves its comment and does not change it. -/
theorem TakesComment.endsInBlock_append {head : List Char} (h : TakesComment head)
    (line : List Char) :
    Source.endsInBlock false (head ++ line) = Source.endsInBlock false line := by
  have hopener : afterBlockOpener? (head ++ line) = afterBlockOpener? line := by
    refine Option.ext fun rest => ?_
    rw [afterBlockOpener?_eq_some_iff, afterBlockOpener?_eq_some_iff, h.split_append]
  rw [endsInBlock_false, endsInBlock_false, hopener]

end Source

/-! ## Files -/

namespace Check.Danger

/-- The numbered lines of a file before and after a statement of another kind is written in front of
    a line of it. -/
theorem Harmless.lines_prepend {d : Danger} {head : List Char} (hhead : d.Harmless head)
    {content : List Char} (l : LineOf content)
    (hcode : (commentMask (shownLines content))[l.row]? = some false) :
    ∃ below, Subject.number (shownLines content) =
        Subject.number (shownLines l.above) ++ ⟨l.row + 1, l.line, false⟩ :: below ∧
      Subject.number (shownLines (l.replace (head ++ l.line))) =
        Subject.number (shownLines l.above) ++ ⟨l.row + 1, head ++ l.line, false⟩ :: below := by
  have hreturn : head.getLast? ≠ some '\r' := by rw [hhead.ends]; decide
  have hslash : head.getLast? ≠ some '/' := by rw [hhead.ends]; decide
  have hhash : head.getLast? = some '#' → l.line.head? ≠ some '[' := by
    rw [hhead.ends]
    exact fun hends => absurd hends (by decide)
  have hblank : isBlankLine head = false := by
    rw [isBlankLine, List.all_eq_false]
    exact ⟨';', List.mem_of_getLast? hhead.ends, by decide⟩
  rw [l.shownLines_eq] at hcode ⊢
  rw [l.shownLines_prepend hhead.line hreturn]
  obtain ⟨habove, hlooks⟩ := outside_of_mask hcode
  have hlooks' := (looksLikeComment_trimStart_append hblank hslash hhash).trans hhead.code
  have hmask := commentMask_of_outside habove l.line (shownLines l.below)
  have hmask' := commentMask_of_outside habove (head ++ l.line) (shownLines l.below)
  rw [hlooks] at hmask
  rw [hlooks', hhead.takes.endsInBlock_append] at hmask'
  exact ⟨_, Subject.number_around hmask, Subject.number_around hmask'⟩

theorem exists_codeLine_prepend {d : Danger} (hlocal : d.Local) {head : List Char}
    (hhead : d.Harmless head) {s s' : Subject} {above below : List SourceLine} {row : Nat}
    {text : List Char} (hlines : s.lines = above ++ ⟨row, text, false⟩ :: below)
    (hlines' : s'.lines = above ++ ⟨row, head ++ text, false⟩ :: below) {line : SourceLine}
    (hline : line ∈ s.codeLines) (hfound : d.FoundOn line.code) :
    ∃ line' ∈ s'.codeLines, line'.row = line.row ∧ d.FoundOn line'.code := by
  rw [Subject.codeLines, hlines, List.mem_filter, List.mem_append, List.mem_cons] at hline
  obtain ⟨hmem, hcode⟩ := hline
  rw [Subject.codeLines, hlines']
  rcases hmem with hmem | rfl | hmem
  · exact ⟨line, List.mem_filter.mpr ⟨List.mem_append_left _ hmem, hcode⟩, rfl, hfound⟩
  · refine ⟨⟨row, head ++ text, false⟩, by simp, rfl, ?_⟩
    rw [SourceLine.code, hhead.takes.codePart_append]
    exact foundOn_append hlocal hhead hfound
  · refine ⟨line, List.mem_filter.mpr ⟨List.mem_append_right _ ?_, hcode⟩, rfl, hfound⟩
    exact List.mem_cons_of_mem _ hmem

end Check.Danger

/-- Each of the three dangers is reported on exactly those rows whose line is code and whose first
    statement of the kind is harmful, with nothing on the line to excuse it. Another statement in
    front of a line of code takes away no finding, if it is not of this kind itself. -/
theorem first_statement_decides {d : Check.Danger} (hd : d ∈ Check.Danger.all) (path : String)
    (source : ParsedSource) (role : Role) (radius : Nat) :
    (∀ row, (∃ issue ∈ d.rule.among (d.check.run (.ofSource path source role radius)),
        issue.line = row) ↔
      ∃ line ∈ (Subject.ofSource path source role radius).codeLines, line.row = row ∧
        (∃ st : Check.Statement, st.IsFirst d.keyword line.code ∧ d.harms st = true) ∧
        ∀ word ∈ d.excuses, mentions word line.code = false) ∧
    ∀ (l : LineOf source.content) (head : List Char), d.Harmless head →
      (commentMask (shownLines source.content))[l.row]? = some false →
      ∀ source' : ParsedSource, source'.content = l.replace (head ++ l.line) →
        ∀ row, (∃ issue ∈ d.rule.among (d.check.run (.ofSource path source role radius)),
            issue.line = row) →
          ∃ issue ∈ d.rule.among (d.check.run (.ofSource path source' role radius)),
            issue.line = row := by
  have hreports : ∀ source, d.Reports (.ofSource path source role radius) := fun source =>
    Check.Danger.reports_of_mem_all hd fun line hline => (row_of_mem_number hline).1
  refine ⟨hreports source, fun l head hhead hcode source' hsource' row hissue => ?_⟩
  obtain ⟨line, hline, hrow, hfound⟩ := (hreports source row).mp hissue
  obtain ⟨below, hlines, hlines'⟩ := hhead.lines_prepend l hcode
  rw [← hsource'] at hlines'
  have hprepended : (Subject.ofSource path source' role radius).lines =
      Subject.number (shownLines l.above) ++ ⟨l.row + 1, head ++ l.line, false⟩ :: below := hlines'
  obtain ⟨line', hline', hrow', hfound'⟩ := Check.Danger.exists_codeLine_prepend
    (Check.Danger.local_of_mem_all hd) hhead hlines hprepended hline hfound
  exact (hreports source' row).mpr ⟨line', hline', hrow'.trans hrow, hfound'⟩

/-- A line that prints request data. -/
def echoLine : LineOf "echo $_GET['x'];\n".toList where
  above := []
  line := "echo $_GET['x'];".toList
  ending := ['\n']
  below := []
  content_eq := by decide
  whole := whole_nil
  shown := by decide
  ends := .inl rfl

theorem harmless_assignment : Check.Danger.output.Harmless "$a = 1;".toList where
  line := by decide
  takes := ⟨by decide, by decide, by decide⟩
  ends := by decide
  code := by decide
  keyword := by decide +kernel
  excuses := by decide

/-- The output is found behind an assignment. -/
theorem output_found_behind_assignment :
    Check.Danger.output ∈ Check.Danger.all ∧ Check.Danger.output.Harmless "$a = 1;".toList ∧
      (∃ issue ∈ Rule.xssEcho.among (Check.Exposure.run
        (.ofSource "app/A.php" ⟨.php, "echo $_GET['x'];\n".toList, none, none⟩ .plain 3)),
        issue.line = 1) ∧
      ∃ issue ∈ Rule.xssEcho.among (Check.Exposure.run
        (.ofSource "app/A.php" ⟨.php, "$a = 1;echo $_GET['x'];\n".toList, none, none⟩ .plain 3)),
        issue.line = 1 := by
  have hmem : Check.Danger.output ∈ Check.Danger.all := List.mem_cons_self
  have hissue : ∃ issue ∈ Rule.xssEcho.among (Check.Exposure.run
      (.ofSource "app/A.php" ⟨.php, "echo $_GET['x'];\n".toList, none, none⟩ .plain 3)),
      issue.line = 1 := by decide +kernel
  refine ⟨hmem, harmless_assignment, hissue, ?_⟩
  exact (first_statement_decides hmem "app/A.php" ⟨.php, "echo $_GET['x'];\n".toList, none, none⟩
    .plain 3).2 echoLine _ harmless_assignment (by decide) ⟨.php, _, none, none⟩ rfl 1 hissue

/-- A line with a statement that prints request data behind one that does not. -/
def secondEcho : List Char := "echo 'a'; echo $_GET['x'];".toList

/-- The second statement of the line is harmful, as it is found when it stands alone, and nothing is
    reported. -/
theorem second_echo_unseen :
    (∃ st : Check.Statement, st.IsOf Check.Danger.output.keyword (codePart secondEcho) ∧
        Check.Danger.output.harms st = true) ∧
      (Rule.xssEcho.among (Check.Exposure.run
        (.ofSource "app/Support/A.php" ⟨.php, secondEcho, none, none⟩ .plain 0))).length = 0 ∧
      (Rule.xssEcho.among (Check.Exposure.run
        (.ofSource "app/Support/A.php" ⟨.php, secondEcho.drop 10, none, none⟩ .plain 0))).length =
        1 := by
  have hedge : Check.Danger.output.keyword.Fits (some ' ') "echo".toList " $_GET['x'];".toList :=
    .inl ⟨"echo".toList, [], by simp,
      ⟨[], "echo".toList, rfl, ⟨rfl, by decide⟩, Pattern.fits_lit.mpr rfl⟩, ⟨rfl, by decide⟩⟩
  have hcode : codePart secondEcho =
      "echo 'a'; ".toList ++ ("echo".toList ++ " $_GET['x'];".toList) := by decide
  refine ⟨⟨.ofPlace "echo 'a'; ".toList "echo".toList " $_GET['x'];".toList, ?_, ?_⟩, ?_, ?_⟩
  · rw [hcode]
    exact Check.Statement.isOf_ofPlace hedge
  · decide +kernel
  · decide +kernel
  · decide +kernel

end CodeAudit
