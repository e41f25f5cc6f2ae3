import CodeAudit.Check.Suite
import CodeAudit.Proofs.TreeNodes
import CodeAudit.Proofs.WalkedFiles

/-!
# What the checks report

A check writes the category, the name and the severity of every issue itself. Each time they are
those of an entry of the rule catalog, of the category whose suite the check is in, and the row is
one that the check came by in the file: the number of a line, or the line on which a node of the
tree begins. `Subject.Finds` is all that a check can do to make an issue, and there is one lemma for
each check, so that what is proved from `Subject.Finds` holds of all of them.

Results:
* `Check.reports_suite`: what the suite of a category reports.
-/

namespace CodeAudit

open Text Source SyntaxTree

namespace Rule

/-- Is the rule about files as such? No check reports it. -/
def isDiagnostic (rule : Rule) : Bool := rule == parseError || rule == scanError

/-- The rules that the suite of a category can report. -/
def ofSuite (category : Category) : List Rule :=
  (within [category]).filter fun rule => !rule.isDiagnostic

theorem mem_ofSuite {rule : Rule} {category : Category} :
    rule ∈ ofSuite category ↔
      rule ∈ all ∧ rule.category = category ∧ rule.isDiagnostic = false := by
  rw [ofSuite, within, List.mem_filter, List.mem_filter, and_assoc]
  simp only [List.contains_cons, List.contains_nil, Bool.or_false, beq_iff_eq,
    Bool.not_eq_eq_eq_not, Bool.not_true]

/-- The catalog has a rule of this category, this name and this severity that a check may report. -/
def IsListed (category : Category) (name : String) (severity : Severity) : Prop :=
  ∃ rule ∈ ofSuite category, rule.name = name ∧ rule.severity = severity

instance (category : Category) (name : String) (severity : Severity) :
    Decidable (IsListed category name severity) :=
  inferInstanceAs (Decidable (∃ rule ∈ ofSuite category, rule.name = name ∧
    rule.severity = severity))

end Rule

namespace Subject

/-! ## Issues that a check can make -/

/-- What a check of a category may report about a subject: an issue under its category whose name
    and severity stand in the catalog, on a row that `onRow` allows, to which metadata and a column
    may be added. -/
inductive Finds (s : Subject) (category : Category) (onRow : Nat → Prop) : Issue → Prop where
  | report {name : String} {severity : Severity} {row : Nat} (title description suggestion : String)
      (hlisted : Rule.IsListed category name severity) (hrow : onRow row) :
      Finds s category onRow (s.report category name severity row title description suggestion)
  | withMetadata {issue : Issue} (key : String) (value : Json) (h : Finds s category onRow issue) :
      Finds s category onRow (issue.withMetadata key value)
  | withColumn {issue : Issue} (column : Option Nat) (h : Finds s category onRow issue) :
      Finds s category onRow { issue with column }

attribute [simp] Finds.report Finds.withMetadata

/-- A list of what a check of a category may report. -/
def Reports (s : Subject) (category : Category) (onRow : Nat → Prop) (issues : List Issue) : Prop :=
  ∀ issue ∈ issues, s.Finds category onRow issue

/-- Every place of the subject that a check can come by is on a row that `onRow` allows. -/
structure Rows (s : Subject) (onRow : Nat → Prop) : Prop where
  line : ∀ line ∈ s.lines, onRow line.row
  template : ∀ entry ∈ s.templateLines, onRow entry.1
  node : ∀ root, s.tree = some root → ∀ node ∈ root.preorder, onRow node.line

variable {s : Subject} {category : Category} {onRow : Nat → Prop}

theorem Rows.code (hrows : s.Rows onRow) {line : SourceLine} (h : line ∈ s.codeLines) :
    onRow line.row :=
  hrows.line line (List.mem_filter.mp h).1

@[simp] theorem reports_nil : s.Reports category onRow [] :=
  List.forall_mem_nil _

@[simp] theorem reports_cons {issue : Issue} {issues : List Issue} :
    s.Reports category onRow (issue :: issues) ↔
      s.Finds category onRow issue ∧ s.Reports category onRow issues :=
  List.forall_mem_cons

theorem Finds.reports {issue : Issue} (h : s.Finds category onRow issue) :
    s.Reports category onRow [issue] :=
  reports_cons.mpr ⟨h, reports_nil⟩

@[simp] theorem reports_append {issues more : List Issue} :
    s.Reports category onRow (issues ++ more) ↔
      s.Reports category onRow issues ∧ s.Reports category onRow more :=
  List.forall_mem_append

section Lists

variable {α κ : Type} [BEq κ]

theorem Reports.flatMap {places : List α} {f : α → List Issue}
    (h : ∀ place ∈ places, s.Reports category onRow (f place)) :
    s.Reports category onRow (places.flatMap f) := by
  intro issue hissue
  obtain ⟨place, hplace, hf⟩ := List.mem_flatMap.mp hissue
  exact h place hplace issue hf

theorem Reports.map {places : List α} {f : α → Issue}
    (h : ∀ place ∈ places, s.Finds category onRow (f place)) :
    s.Reports category onRow (places.map f) :=
  List.forall_mem_map.mpr h

theorem Reports.filterMap {places : List α} {f : α → Option Issue}
    (h : ∀ place ∈ places, s.Reports category onRow (f place).toList) :
    s.Reports category onRow (places.filterMap f) := by
  intro issue hissue
  obtain ⟨place, hplace, hf⟩ := List.mem_filterMap.mp hissue
  exact h place hplace issue (Option.mem_toList.mpr hf)

theorem Reports.bind {found : Option α} {f : α → Option Issue}
    (h : ∀ a, s.Reports category onRow (f a).toList) :
    s.Reports category onRow (found >>= f).toList := by
  cases found with
  | none => exact reports_nil
  | some a => exact h a

theorem Reports.firstPerKey {seen : List κ} {pairs : List (κ × Issue)}
    (h : ∀ pair ∈ pairs, s.Finds category onRow pair.2) :
    s.Reports category onRow (firstPerKey seen pairs) := by
  intro issue hissue
  obtain ⟨key, hpair⟩ := mem_of_mem_firstPerKey hissue
  exact h (key, issue) hpair

theorem Reports.mergeSort {issues : List Issue} (before : Issue → Issue → Bool)
    (h : s.Reports category onRow issues) :
    s.Reports category onRow (issues.mergeSort before) :=
  fun issue hissue => h issue (List.mem_mergeSort.mp hissue)

end Lists

end Subject

namespace Check

open Subject

variable {s : Subject} {onRow : Nat → Prop}

/-! ## Quality -/

theorem Layout.reports_run (hrows : s.Rows onRow) : s.Reports .quality onRow (Layout.run s) := by
  refine .flatMap fun line hline => ?_
  have hrow := hrows.line line hline
  rw [reports_append, reports_append]
  refine ⟨⟨?longLine, ?trailingBlanks⟩, ?mixedMargin⟩
  case longLine => fun_cases longLine s line <;> simp +decide [hrow]
  case trailingBlanks => fun_cases trailingBlanks s line <;> simp +decide [hrow]
  case mixedMargin => fun_cases mixedMargin s line <;> simp +decide [hrow]

namespace Complexity

theorem mem_of_mem_deepRunStarts {inRun : Bool} {lines : List SourceLine} {line : SourceLine}
    (h : line ∈ deepRunStarts inRun lines) : line ∈ lines := by
  fun_induction deepRunStarts inRun lines <;> grind

theorem reports_functionIssues {node : Node} (hrow : onRow node.line) :
    s.Reports .quality onRow (functionIssues s node) := by
  rw [functionIssues, reports_append]
  refine ⟨?branching, ?size⟩
  case branching =>
    split
    · exact reports_nil
    · exact (((Finds.report _ _ _ (by decide) hrow).withMetadata _ _).withMetadata _ _).reports
  case size =>
    split
    · exact reports_nil
    · dsimp only
      split
      · exact reports_nil
      · exact (((Finds.report _ _ _ (by decide) hrow).withMetadata _ _).withMetadata _ _).reports

theorem reports_run (hrows : s.Rows onRow) : s.Reports .quality onRow (run s) := by
  rw [run, reports_append, reports_append, reports_append]
  refine ⟨⟨⟨?deepNesting, ?busyConditions⟩, ?longParameters⟩, ?functions⟩
  case deepNesting =>
    refine .map fun line hline => ?_
    have hrow := hrows.line line (mem_of_mem_deepRunStarts hline)
    simp +decide [hrow]
  case busyConditions =>
    refine .filterMap fun line hline => ?_
    have hrow := hrows.code hline
    dsimp only
    split <;> simp +decide [hrow]
  case longParameters =>
    refine .filterMap fun line hline => .bind fun found => ?_
    have hrow := hrows.code hline
    dsimp only
    split <;> simp +decide [hrow]
  case functions =>
    unfold functions
    split
    · exact reports_nil
    · rename_i root htree
      refine .flatMap fun node hnode => ?_
      exact reports_functionIssues (hrows.node root htree node (List.mem_filter.mp hnode).1)

end Complexity

namespace Documentation

theorem reports_run (hrows : s.Rows onRow) : s.Reports .quality onRow (run s) := by
  rw [run, reports_append]
  refine ⟨.flatMap fun line hline => ?heads, .filterMap fun line hline => ?note⟩
  case heads =>
    have hrow := hrows.code hline
    rw [reports_append]
    refine ⟨?undocumentedClass, ?undocumentedMethod⟩
    case undocumentedClass => fun_cases undocumentedClass s line <;> simp +decide [hrow]
    case undocumentedMethod => fun_cases undocumentedMethod s line <;> simp +decide [hrow]
  case note =>
    have hrow := hrows.line line hline
    refine .bind fun comment => .bind fun note => ?_
    simp +decide [hrow]

end Documentation

theorem row_of_mem_assignments (hrows : s.Rows onRow) {a : Assignment} (h : a ∈ s.assignments) :
    onRow a.row := by
  obtain ⟨line, hline, ha⟩ := List.mem_flatMap.mp h
  have hrow := hrows.code hline
  unfold Assignment.ofLine at ha
  split at ha
  · exact absurd ha List.not_mem_nil
  · obtain ⟨found, -, hfound⟩ := List.mem_filterMap.mp ha
    obtain ⟨name, -, hname⟩ := Option.bind_eq_some_iff.mp hfound
    cases hname
    exact hrow

namespace Naming

theorem finds_variableIssues {caught : List (List Char)} {schema : Bool} {a : Assignment}
    (hrow : onRow a.row) :
    ∀ pair ∈ variableIssues s caught schema a, s.Finds .quality onRow pair.2 := by
  unfold variableIssues
  intro pair hpair
  rcases List.mem_append.mp hpair with h | h
  · split at h
    · simp +decide [List.mem_singleton.mp h, hrow]
    · exact absurd h List.not_mem_nil
  · split at h
    · simp +decide [List.mem_singleton.mp h, hrow]
    · exact absurd h List.not_mem_nil

theorem reports_run (hrows : s.Rows onRow) : s.Reports .quality onRow (run s) := by
  rw [run, reports_append]
  refine ⟨.firstPerKey fun pair hpair => ?assigned, .flatMap fun line hline => ?heads⟩
  case assigned =>
    obtain ⟨a, ha, hissue⟩ := List.mem_flatMap.mp hpair
    exact finds_variableIssues (row_of_mem_assignments hrows ha) pair hissue
  case heads =>
    have hrow := hrows.code hline
    rw [reports_append]
    refine ⟨?className, ?methodName⟩
    case className => fun_cases className s line <;> simp +decide [hrow]
    case methodName => fun_cases methodName s line <;> simp +decide [hrow]

end Naming

namespace Practice

theorem reports_run (hrows : s.Rows onRow) : s.Reports .quality onRow (run s) := by
  rw [run, reports_append, reports_append, reports_append, reports_append]
  refine ⟨⟨⟨⟨?magicNumbers, ?emptyCatches⟩, ?debugCalls⟩, ?unusedLocals⟩, ?unusedProperties⟩
  case magicNumbers =>
    unfold magicNumbers
    split
    · exact reports_nil
    · refine .filterMap fun line hline => ?_
      have hrow := hrows.code hline
      split
      · exact reports_nil
      · refine .bind fun value => ?_
        simp +decide [hrow]
  case emptyCatches =>
    refine .filterMap fun line hline => ?_
    have hrow := hrows.code hline
    split <;> simp +decide [hrow]
  case debugCalls =>
    refine .filterMap fun line hline => .bind fun found => ?_
    have hrow := hrows.code hline
    simp +decide [hrow]
  case unusedLocals =>
    unfold unusedLocals
    split
    · exact reports_nil
    · refine .firstPerKey fun pair hpair => ?_
      obtain ⟨a, ha, hissue⟩ := List.mem_filterMap.mp hpair
      have hrow := row_of_mem_assignments hrows ha
      dsimp only at hissue
      split at hissue
      · cases hissue
      · cases hissue
        simp +decide [hrow]
  case unusedProperties =>
    refine .filterMap fun line hline => .bind fun found => ?_
    have hrow := hrows.code hline
    dsimp only
    split
    · exact reports_nil
    · simp +decide [hrow]

end Practice

/-! ## Security -/

theorem Injection.reports_run (hrows : s.Rows onRow) :
    s.Reports .security onRow (Injection.run s) := by
  refine .flatMap fun line hline => ?_
  have hrow := hrows.code hline
  simp only [reports_append]
  refine ⟨⟨⟨⟨?query, ?command⟩, ?dynamicCode⟩, ?includedFile⟩, ?revivedObjects⟩
  case query => fun_cases query <;> simp +decide [hrow]
  case command => fun_cases command <;> simp +decide [hrow, commandIssue]
  case dynamicCode => fun_cases dynamicCode <;> simp +decide [hrow]
  case includedFile => fun_cases includedFile <;> simp +decide [hrow]
  case revivedObjects => fun_cases revivedObjects <;> simp +decide [hrow]

theorem Secret.reports_run (hrows : s.Rows onRow) : s.Reports .security onRow (Secret.run s) := by
  refine .flatMap fun line hline => ?_
  have hrow := hrows.code hline
  simp only [reports_append]
  refine ⟨?hardcoded, ?weaklyHashed⟩
  case hardcoded =>
    split
    · exact reports_nil
    · fun_cases hardcoded <;> simp +decide [hrow]
  case weaklyHashed => fun_cases weaklyHashed <;> simp +decide [hrow]

theorem Exposure.reports_run (hrows : s.Rows onRow) :
    s.Reports .security onRow (Exposure.run s) := by
  refine .flatMap fun line hline => ?_
  have hrow := hrows.code hline
  simp only [reports_append]
  refine ⟨⟨?openAttributes, ?rawOutput⟩, ?uncheckedToken⟩
  case openAttributes => fun_cases openAttributes <;> simp +decide [hrow, massAssignment]
  case rawOutput => fun_cases rawOutput <;> simp +decide [hrow]
  case uncheckedToken => fun_cases uncheckedToken <;> simp +decide [hrow]

/-! ## Performance -/

namespace LoopQuery

theorem mem_preorder_of_mem_loopBodies {root body : Node} (h : body ∈ loopBodies root) :
    body ∈ root.preorder := by
  obtain ⟨loop, hloop, hbody⟩ := List.mem_filterMap.mp h
  have hchild := Node.mem_children_of_loopBody? hbody
  exact Node.mem_preorder_trans (List.mem_filter.mp hloop).1
    (Node.mem_preorder_of_mem_children hchild)

theorem reports_run (hrows : s.Rows onRow) : s.Reports .performance onRow (run s) := by
  unfold run
  split
  · exact reports_nil
  · rename_i root htree
    -- Sorting and dropping repetitions add nothing to what the calls in the bodies give.
    refine .mergeSort _ (.firstPerKey fun pair hpair => ?_)
    obtain ⟨body, hbody, hcall⟩ := List.mem_flatMap.mp hpair
    obtain ⟨site, hsite, hshown⟩ := List.mem_filterMap.mp hcall
    obtain ⟨shown, -, rfl⟩ := Option.map_eq_some_iff.mp hshown
    have hnode := Node.mem_preorder_trans (mem_preorder_of_mem_loopBodies hbody)
      (Node.mem_preorder_of_mem_callSites hsite)
    have hrow := hrows.node root htree site.node hnode
    exact .withMetadata _ _ (.withColumn _ (.report _ _ _ (by decide) hrow))

end LoopQuery

theorem Collection.reports_run (hrows : s.Rows onRow) :
    s.Reports .performance onRow (Collection.run s) := by
  refine .flatMap fun line hline => ?_
  have hrow := hrows.code hline
  simp only [reports_append]
  refine ⟨⟨⟨⟨?narrowed, ?counted⟩, ?selected⟩, ?unbounded⟩, ?blocking⟩
  case narrowed => fun_cases narrowedInMemory <;> simp +decide [hrow]
  case counted => fun_cases countedInMemory <;> simp +decide [hrow]
  case selected => fun_cases allSelected <;> simp +decide [hrow]
  case unbounded =>
    split
    · fun_cases unbounded <;> simp +decide [hrow]
    · exact reports_nil
  case blocking =>
    split
    · exact reports_nil
    · fun_cases blocking <;> simp +decide [hrow]

/-! ## Idioms -/

namespace Idiom

theorem reports_environment (hrows : s.Rows onRow) : s.Reports .idiom onRow (environment s) := by
  unfold environment
  split
  · exact reports_nil
  · refine .flatMap fun line hline => ?_
    have hrow := hrows.code hline
    rw [reports_append]
    refine ⟨?environmentCall, ?superglobal⟩
    case environmentCall => split <;> simp +decide [hrow]
    case superglobal => split <;> simp +decide [hrow]

theorem reports_controllers (hrows : s.Rows onRow) : s.Reports .idiom onRow (controllers s) := by
  refine .flatMap fun line hline => ?_
  have hrow := hrows.code hline
  rw [reports_append]
  refine ⟨?allFields, ?inController⟩
  case allFields => fun_cases allFields <;> simp +decide [hrow]
  case inController =>
    split
    · rw [reports_append]
      refine ⟨?databaseUse, ?validation⟩
      case databaseUse => fun_cases databaseUse <;> simp +decide [hrow]
      case validation => fun_cases validation <;> simp +decide [hrow]
    · exact reports_nil

theorem reports_routes (hrows : s.Rows onRow) : s.Reports .idiom onRow (routes s) := by
  unfold routes
  split
  · refine .filterMap fun line hline => .bind fun found => ?_
    have hrow := hrows.code hline
    simp +decide [hrow]
  · exact reports_nil

end Idiom

/-! ## Inheritance -/

namespace Hierarchy

/-- The declaration of a class begins on a row that `onRow` allows, and so does every node in and
    below its members. -/
structure DeclaredOn (onRow : Nat → Prop) (c : ClassDeclaration) : Prop where
  node : onRow c.node.line
  member : ∀ member ∈ c.members, ∀ node ∈ member.preorder, onRow node.line

theorem DeclaredOn.method {c : ClassDeclaration} (hc : DeclaredOn onRow c) {method : Node}
    (h : method ∈ c.methods) : onRow method.line :=
  hc.member method (List.mem_filter.mp h).1 method method.mem_preorder_self

theorem declaredOn_of_mem_classes (hrows : s.Rows onRow) {c : ClassDeclaration}
    (h : c ∈ classes s) : DeclaredOn onRow c := by
  unfold classes at h
  split at h
  · exact absurd h List.not_mem_nil
  · rename_i root htree
    obtain ⟨node, hnode, rfl⟩ := List.mem_map.mp h
    have hin : node ∈ root.preorder := (List.mem_filter.mp hnode).1
    refine ⟨hrows.node root htree node hin, fun member hmember below hbelow => ?_⟩
    -- Down from the class: its body, a member, and what is below the member.
    cases hbody : node.field? "body" with
    | none =>
      simp [ClassDeclaration.members, ClassDeclaration.ofNode, hbody] at hmember
    | some body =>
      have hmem : member ∈ body.namedChildren := by
        simpa [ClassDeclaration.members, ClassDeclaration.ofNode, hbody] using hmember
      refine hrows.node root htree below ?_
      refine Node.mem_preorder_trans hin (Node.mem_preorder_trans ?_ hbelow)
      exact Node.mem_preorder_trans
        (Node.mem_preorder_of_mem_children (Node.mem_children_of_field? hbody))
        (Node.mem_preorder_of_mem_children (Node.mem_children_of_mem_namedChildren hmem))

theorem reports_forgottenBase {c : ClassDeclaration} (hin : DeclaredOn onRow c) :
    s.Reports .inheritance onRow (forgottenBase s c) := by
  fun_cases forgottenBase s c with
  | case5 _ constructor hfind =>
    have hrow := hin.method (List.mem_of_find?_eq_some hfind)
    exact (((Finds.report _ _ _ (by decide) hrow).withMetadata _ _).withMetadata _ _).reports
  | _ => exact reports_nil

theorem reports_constructors (hrows : s.Rows onRow) :
    s.Reports .inheritance onRow (constructors s) := by
  refine .flatMap fun c hc => ?_
  have hin := declaredOn_of_mem_classes hrows hc
  split
  · exact reports_forgottenBase hin
  · refine .filterMap fun node hnode => ?_
    obtain ⟨member, hmember, hpruned⟩ := List.mem_flatMap.mp hnode
    have hrow := hin.member member hmember node (Node.mem_preorder_of_mem_pruned hpruned)
    split
    · exact ((Finds.report _ _ _ (by decide) hrow).withColumn _ |>.withMetadata _ _).reports
    · exact reports_nil

theorem reports_shapes (hrows : s.Rows onRow) : s.Reports .inheritance onRow (shapes s) := by
  refine .flatMap fun c hc => ?_
  have hin := declaredOn_of_mem_classes hrows hc
  have hrow := hin.node
  rw [reports_append, reports_append]
  refine ⟨⟨?emptyOverrides, ?wideInterfaces⟩, ?idleAbstract⟩
  case emptyOverrides =>
    split
    · refine .filterMap fun method hmethod => ?_
      have hrow := hin.method hmethod
      dsimp only
      split
      · exact reports_nil
      · refine .bind fun body => ?_
        split
        · exact reports_nil
        · exact ((Finds.report _ _ _ (by decide) hrow).withMetadata _ _).reports
    · exact reports_nil
  case wideInterfaces => fun_cases wideInterfaces <;> simp +decide [hrow]
  case idleAbstract => fun_cases idleAbstract <;> simp +decide [hrow]

end Hierarchy

/-! ## Templates -/

theorem TemplateOutput.reports_run (hrows : s.Rows onRow) :
    s.Reports .template onRow (TemplateOutput.run s) := by
  refine .flatMap fun (row, line) hentry => ?_
  have hrow : onRow row := hrows.template (row, line) hentry
  simp only [reports_append]
  refine ⟨⟨⟨⟨?unescaped, ?embedded⟩, ?query⟩, ?tripleBraces⟩, ?style⟩
  case unescaped => fun_cases unescaped <;> simp +decide [hrow]
  case embedded => fun_cases embedded <;> simp +decide [hrow]
  case query => fun_cases query <;> simp +decide [hrow]
  case tripleBraces => fun_cases tripleBraces <;> simp +decide [hrow]
  case style => fun_cases style <;> simp +decide [hrow]

namespace Form

theorem row_extendTag (form : OpenForm) (text : List Char) :
    (form.extendTag text).row = form.row := by
  fun_cases OpenForm.extendTag form text <;> rfl

theorem reports_issues {form : OpenForm} (hrow : onRow form.row) :
    s.Reports .template onRow (form.issues s) := by
  fun_cases OpenForm.issues s form <;> simp +decide [hrow]

/-- The form that is open, if there is one, was opened on a row that `onRow` allows. -/
def OpenedOn (onRow : Nat → Prop) (form : Option OpenForm) : Prop :=
  ∀ opened, form = some opened → onRow opened.row

theorem openedOn_none : OpenedOn onRow none := by
  intro opened h
  cases h

theorem OpenedOn.extendTag {form : Option OpenForm} (hform : OpenedOn onRow form)
    (text : List Char) : OpenedOn onRow (form.map fun opened => opened.extendTag text) := by
  intro opened h
  obtain ⟨before, hbefore, rfl⟩ := Option.map_eq_some_iff.mp h
  rw [row_extendTag]
  exact hform before hbefore

theorem row_of_enter? {row : Nat} (hrow : onRow row) {form : Option OpenForm}
    (hform : OpenedOn onRow form) {text rest : List Char} {entered : OpenForm}
    (h : enter? row form text = some (entered, rest)) : onRow entered.row := by
  unfold enter? at h
  split at h
  · cases h
    exact hform entered rfl
  · obtain ⟨start, -, hstart⟩ := Option.map_eq_some_iff.mp h
    cases hstart
    rw [row_extendTag]
    exact hrow

theorem reports_readLine {row : Nat} (hrow : onRow row) (fuel : Nat) (form : Option OpenForm)
    (hform : OpenedOn onRow form) (text : List Char) :
    s.Reports .template onRow (readLine s row fuel form text).1 ∧
      OpenedOn onRow (readLine s row fuel form text).2 := by
  -- The invariant is on the open form: it is the one that came in, or it starts on this row.
  fun_induction readLine s row fuel form text with
  | case1 form => exact ⟨reports_nil, hform⟩
  | case2 => exact ⟨reports_nil, openedOn_none⟩
  | case3 fuel form text entered rest henter =>
    refine ⟨reports_nil, fun opened hopened => ?_⟩
    cases hopened
    show onRow entered.row
    exact row_of_enter? hrow hform henter
  | case4 fuel form text entered rest henter close hclose body issues last hrest ih =>
    have hentered := row_of_enter? hrow hform henter
    -- A form that ends leaves none open for the rest of the line.
    have hlater := ih openedOn_none
    rw [hrest] at hlater
    exact ⟨reports_append.mpr ⟨reports_issues hentered, hlater.1⟩, hlater.2⟩

theorem reports_readLines (form : Option OpenForm) (hform : OpenedOn onRow form)
    (lines : List (Nat × List Char)) (hlines : ∀ entry ∈ lines, onRow entry.1) :
    s.Reports .template onRow (readLines s form lines) := by
  fun_induction readLines s form lines with
  | case1 => exact reports_nil
  | case2 opened => exact reports_issues (hform opened rfl)
  | case3 form row line rest issues last hline ih =>
    rw [List.forall_mem_cons] at hlines
    have hread := reports_readLine (s := s) hlines.1 (line.length + 1) _ (hform.extendTag line) line
    rw [hline] at hread
    exact reports_append.mpr ⟨hread.1, ih hread.2 hlines.2⟩

theorem reports_run (hrows : s.Rows onRow) : s.Reports .template onRow (run s) :=
  reports_readLines none openedOn_none s.templateLines hrows.template

end Form

namespace Directive

theorem row_of_mem_occurrences {row : Nat} {line : List Char} {o : Occurrence}
    (h : o ∈ occurrences row line) : o.row = row := by
  obtain ⟨found, -, hfound⟩ := List.mem_filterMap.mp h
  dsimp only at hfound
  split at hfound
  · cases hfound
  · cases hfound
    rfl

theorem mem_of_mem_outsideVerbatim {inside : Bool} {found : List Occurrence} {o : Occurrence}
    (h : o ∈ outsideVerbatim inside found) : o ∈ found := by
  fun_induction outsideVerbatim inside found <;> grind

theorem row_of_mark? {o : Occurrence} {mark : Mark} (h : mark? o = some mark) :
    mark.row = o.row := by
  unfold mark? at h
  obtain ⟨block, -, hblock⟩ := Option.bind_eq_some_iff.mp h
  dsimp only at hblock
  split at hblock
  · cases hblock
  · cases hblock
    rfl

theorem forall_mem_unpaired (marked : String → Nat → Prop) {stack : List (String × Nat)}
    {marks : List Mark} (hstack : ∀ entry ∈ stack, marked entry.1 entry.2)
    (hmarks : ∀ mark ∈ marks, marked mark.block mark.row) :
    ∀ u ∈ unpaired stack marks, marked u.block u.row := by
  -- A block without its other half is reported where its mark stands, or, from the stack, where the
  -- mark stood that opened it.
  fun_induction unpaired stack marks with
  | case1 stack =>
    intro u hu
    obtain ⟨entry, hentry, rfl⟩ := List.mem_map.mp (List.mem_reverse.mp hu)
    exact hstack entry hentry
  | case2 stack mark later hopens ih =>
    rw [List.forall_mem_cons] at hmarks
    exact ih (List.forall_mem_cons.mpr ⟨hmarks.1, hstack⟩) hmarks.2
  | case3 stack mark later hopens inner hdrop ih =>
    rw [List.forall_mem_cons] at hmarks
    exact List.forall_mem_cons.mpr ⟨hmarks.1, ih hstack hmarks.2⟩
  | case4 stack mark later hopens inner first outer hdrop ih =>
    rw [List.forall_mem_cons] at hmarks
    have houter : ∀ entry ∈ outer, marked entry.1 entry.2 := by
      intro entry hentry
      have hmem := List.mem_cons_of_mem first hentry
      rw [← hdrop] at hmem
      exact hstack entry (List.mem_of_mem_drop hmem)
    intro u hu
    rcases List.mem_append.mp hu with hinner | hlater
    · obtain ⟨entry, hentry, rfl⟩ := List.mem_map.mp (List.mem_reverse.mp hinner)
      exact hstack entry ((List.takeWhile_sublist _).subset hentry)
    · exact ih houter hmarks.2 u hlater

theorem reports_run (hrows : s.Rows onRow) : s.Reports .template onRow (run s) := by
  refine .mergeSort _ (.firstPerKey fun pair hpair => ?_)
  obtain ⟨u, hu, rfl⟩ := List.mem_map.mp hpair
  refine ((Finds.report _ _ _ (by decide) ?_).withMetadata _ _)
  refine forall_mem_unpaired (fun _ row => onRow row) (List.forall_mem_nil _)
    (fun mark hmark => ?_) u hu
  obtain ⟨o, ho, hmark⟩ := List.mem_filterMap.mp hmark
  obtain ⟨entry, hentry, hline⟩ := List.mem_flatMap.mp (mem_of_mem_outsideVerbatim ho)
  rw [row_of_mark? hmark, row_of_mem_occurrences hline]
  exact hrows.template entry hentry

end Directive

/-! ## Suites -/

theorem reports_runAll {checks : List Check} {category : Category}
    (h : ∀ check ∈ checks, s.Reports category onRow (check.run s)) :
    s.Reports category onRow (runAll checks s) := by
  refine .flatMap fun check hcheck => ?_
  exact h check (List.mem_filter.mp hcheck).1

/-- The suite of a category reports its own rules only, on rows of the file only. -/
theorem reports_suite (hrows : s.Rows onRow) (category : Category) :
    s.Reports category onRow (runAll (suite category) s) := by
  refine reports_runAll ?_
  cases category <;> simp only [suite, List.forall_mem_cons]
  case security =>
    exact ⟨Injection.reports_run hrows, Secret.reports_run hrows, Exposure.reports_run hrows,
      List.forall_mem_nil _⟩
  case performance =>
    exact ⟨LoopQuery.reports_run hrows, Collection.reports_run hrows, List.forall_mem_nil _⟩
  case quality =>
    exact ⟨Layout.reports_run hrows, Complexity.reports_run hrows, Documentation.reports_run hrows,
      Naming.reports_run hrows, Practice.reports_run hrows, List.forall_mem_nil _⟩
  case idiom =>
    exact ⟨Idiom.reports_environment hrows, Idiom.reports_controllers hrows,
      Idiom.reports_routes hrows, List.forall_mem_nil _⟩
  case inheritance =>
    exact ⟨Hierarchy.reports_constructors hrows, Hierarchy.reports_shapes hrows,
      List.forall_mem_nil _⟩
  case template =>
    exact ⟨TemplateOutput.reports_run hrows, Form.reports_run hrows, Directive.reports_run hrows,
      List.forall_mem_nil _⟩

end Check

end CodeAudit
