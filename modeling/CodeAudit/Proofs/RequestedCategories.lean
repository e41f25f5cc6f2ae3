import CodeAudit.Proofs.CataloguedIssues
import Mathlib.Logic.Relation

/-!
# Requests for categories

What a suite reports on a file does not depend on what else is requested, and a request counts for
nothing but the set of categories that it names. Order, repetition, letter case, white space around
names, the choice among the names of a category and names of no category do not matter. What does
depend on the other categories is the one under which issues about the file as such are given.

Results:
* `Category.mem_known_iff`: the categories that a request resolves to, from their names.
* `Category.known_eq_of_reworded`: a request that is reworded resolves to the same categories.
* `Session.findings_analyzeFile`: the findings of a category, without mention of the others.
* `findings_independent_of_request`: both together, for the outcome of a file.
-/

namespace CodeAudit

open Text

/-! ## White space and letter case -/

namespace Text

theorem isBlank_of_visible {c : Char} (hlow : 33 ≤ c.toNat) (hhigh : c.toNat ≤ 126) :
    isBlank c = false := by
  simp only [isBlank, Bool.or_eq_false_iff, Bool.and_eq_false_iff, decide_eq_false_iff_not,
    beq_eq_false_iff_ne]
  omega

theorem isBlank_toLower (c : Char) : isBlank c.toLower = isBlank c := by
  unfold Char.toLower
  split
  · -- A capital letter and its small letter are both visible.
    rename_i hcapital
    have hlow : 65 ≤ c.toNat := UInt32.le_iff_toNat_le.mp hcapital.1
    have hhigh : c.toNat ≤ 90 := UInt32.le_iff_toNat_le.mp hcapital.2
    have hsmall : (c.val + ('a'.val - 'A'.val)).toNat = c.toNat + 32 := by
      rw [UInt32.toNat_add]
      show (c.toNat + 32) % 4294967296 = c.toNat + 32
      omega
    rw [isBlank_of_visible (c := c) (by omega) (by omega)]
    apply isBlank_of_visible
    · show 33 ≤ (c.val + ('a'.val - 'A'.val)).toNat
      omega
    · show (c.val + ('a'.val - 'A'.val)).toNat ≤ 126
      omega
  · rfl

theorem trimStart_append {left : List Char} (hleft : left.all isBlank = true)
    (text : List Char) : trimStart (left ++ text) = trimStart text := by
  rw [trimStart, List.dropWhile_append_of_pos (List.all_eq_true.mp hleft), trimStart]

theorem trimEnd_append {right : List Char} (hright : right.all isBlank = true)
    (text : List Char) : trimEnd (text ++ right) = trimEnd text := by
  rw [trimEnd, List.reverse_append, List.dropWhile_append_of_pos, trimEnd]
  intro c hc
  exact List.all_eq_true.mp hright c (List.mem_reverse.mp hc)

theorem trim_pad {left right : List Char} (hleft : left.all isBlank = true)
    (hright : right.all isBlank = true) (text : List Char) :
    trim (left ++ text ++ right) = trim text := by
  unfold trim
  rw [List.append_assoc, trimStart_append hleft]
  by_cases hblank : trimStart text = []
  · -- Nothing is left of the text, so the white space behind it goes with the start.
    have hrest : trimStart right = [] := by
      have := trimStart_append hright []
      rwa [List.append_nil] at this
    rw [hblank, trimStart, List.dropWhile_append]
    rw [trimStart] at hblank hrest
    rw [hblank, List.isEmpty_nil, if_pos rfl, hrest]
  · have hsplit : trimStart (text ++ right) = trimStart text ++ right := by
      unfold trimStart at hblank ⊢
      rw [List.dropWhile_append, if_neg]
      rwa [List.isEmpty_iff]
    rw [hsplit, trimEnd_append hright]

theorem lowerAscii_trim (text : List Char) : lowerAscii (trim text) = trim (lowerAscii text) := by
  have hblank : isBlank ∘ Char.toLower = isBlank := funext isBlank_toLower
  unfold trim trimEnd trimStart lowerAscii
  rw [List.dropWhile_map, hblank, ← List.map_reverse, List.dropWhile_map, hblank, List.map_reverse]

end Text

namespace Category

/-! ## Names of categories -/

/-- The names that a request may use for a category, in small letters. -/
def names : Category → List String
  | security => ["security"]
  | performance => ["performance"]
  | quality => ["quality"]
  | idiom => ["laravel-idiom", "laravel_idiom", "laravel"]
  | inheritance => ["inheritance"]
  | template => ["template", "blade"]

/-- Is this one of the names of the category, up to letter case and white space around it? -/
def IsNamedBy (category : Category) (request : String) : Prop :=
  String.ofList (lowerAscii (trim request.toList)) ∈ category.names

instance (category : Category) (request : String) : Decidable (category.IsNamedBy request) :=
  inferInstanceAs (Decidable (_ ∈ category.names))

theorem parse?_eq_some_iff {request : String} {category : Category} :
    parse? request = some category ↔ category.IsNamedBy request := by
  unfold parse? IsNamedBy
  generalize String.ofList (lowerAscii (trim request.toList)) = text
  split
  case h_10 =>
    cases category <;> simp_all [names]
  all_goals
    cases category <;> simp [names]

theorem isNamedBy_iff_of_mem_names {category other : Category} {name : String}
    (h : name ∈ category.names) : other.IsNamedBy name ↔ other = category := by
  have hparse : ∀ name ∈ category.names, parse? name = some category := by
    cases category <;> decide +kernel
  rw [← parse?_eq_some_iff, hparse name h, Option.some.injEq, eq_comm]

/-! ## What a request resolves to -/

theorem mem_all (category : Category) : category ∈ all := by
  cases category <;> decide

theorem mem_known_iff {requested : List String} {category : Category} :
    category ∈ known requested ↔ ∃ request ∈ requested, category.IsNamedBy request := by
  simp only [known, List.mem_filter, mem_all, true_and, List.contains_iff_mem,
    List.mem_filterMap, parse?_eq_some_iff]

theorem mem_known_cons {request : String} {rest : List String} {category : Category} :
    category ∈ known (request :: rest) ↔
      category.IsNamedBy request ∨ category ∈ known rest := by
  simp only [mem_known_iff, List.mem_cons, or_and_right, exists_or, exists_eq_left]

theorem nodup_known (requested : List String) : (known requested).Nodup :=
  List.Pairwise.filter _ (by decide : all.Nodup)

/-- The canonical order leaves no choice but the set. -/
theorem known_congr {requested other : List String}
    (h : ∀ category, category ∈ known requested ↔ category ∈ known other) :
    known requested = known other := by
  refine List.filter_congr fun category _ => ?_
  have hmem := h category
  rw [known, known, List.mem_filter, List.mem_filter] at hmem
  rw [Bool.eq_iff_iff]
  exact (and_iff_right (mem_all category)).symm.trans
    (hmem.trans (and_iff_right (mem_all category)))

theorem resolve?_of_mem_known {requested : List String} {category : Category}
    (h : category ∈ known requested) : resolve? requested = some (known requested) := by
  unfold resolve?
  split
  · rename_i hnone
    rw [hnone] at h
    exact absurd h List.not_mem_nil
  · rfl

/-! ## Ways to word a request -/

/-- One change to the wording of a request. -/
inductive Rewording : List String → List String → Prop where
  | reorder {requested other : List String} (h : requested.Perm other) : Rewording requested other
  | repetition {request : String} {requested : List String} (h : request ∈ requested) :
      Rewording requested (request :: requested)
  | letterCase {request other : String} (rest : List String)
      (h : lowerAscii request.toList = lowerAscii other.toList) :
      Rewording (request :: rest) (other :: rest)
  | padding {left right : List Char} (request : String) (rest : List String)
      (hleft : left.all isBlank = true) (hright : right.all isBlank = true) :
      Rewording (request :: rest) (String.ofList (left ++ request.toList ++ right) :: rest)
  | synonym {category : Category} {name other : String} (rest : List String)
      (hname : name ∈ category.names) (hother : other ∈ category.names) :
      Rewording (name :: rest) (other :: rest)
  | unknown {request : String} (requested : List String)
      (h : ∀ category : Category, ¬ category.IsNamedBy request) :
      Rewording requested (request :: requested)

theorem Rewording.mem_known {requested other : List String} (h : Rewording requested other)
    (category : Category) : category ∈ known requested ↔ category ∈ known other := by
  cases h with
  | reorder h => simp only [mem_known_iff, h.mem_iff]
  | repetition h =>
    rw [mem_known_cons]
    refine ⟨.inr, fun hnamed => hnamed.elim (fun hrequest => ?_) id⟩
    exact mem_known_iff.mpr ⟨_, h, hrequest⟩
  | letterCase rest h =>
    rw [mem_known_cons, mem_known_cons, IsNamedBy, IsNamedBy, lowerAscii_trim, lowerAscii_trim, h]
  | padding request rest hleft hright =>
    rw [mem_known_cons, mem_known_cons, IsNamedBy, IsNamedBy, String.toList_ofList,
      trim_pad hleft hright]
  | synonym rest hname hother =>
    rw [mem_known_cons, mem_known_cons, isNamedBy_iff_of_mem_names hname,
      isNamedBy_iff_of_mem_names hother]
  | unknown _ h => rw [mem_known_cons, or_iff_right (h category)]

/-- However often a request is reworded, it resolves to the same categories. -/
theorem known_eq_of_reworded {requested other : List String}
    (h : Relation.EqvGen Rewording requested other) : known requested = known other := by
  induction h with
  | rel _ _ h => exact known_congr h.mem_known
  | refl _ => rfl
  | symm _ _ _ ih => exact ih.symm
  | trans _ _ _ _ _ first second => exact first.trans second

end Category

/-! ## Findings of one category -/

/-- Is the issue about a file as such? -/
def Issue.isDiagnostic (issue : Issue) : Bool :=
  issue.ruleName == "parse_error" || issue.ruleName == "scan_error"

/-- Is the issue a finding of the category? -/
def Issue.isFindingOf (category : Category) (issue : Issue) : Bool :=
  issue.category == category && !issue.isDiagnostic

/-- The findings of a category among the issues of a file, in order. -/
def FileOutcome.findings (o : FileOutcome) (category : Category) : List Issue :=
  o.issues.filter (Issue.isFindingOf category)

theorem Rule.isDiagnostic_eq (rule : Rule) :
    (rule.name == "parse_error" || rule.name == "scan_error") = rule.isDiagnostic := by
  cases rule <;> rfl

theorem Subject.Finds.isFindingOf {s : Subject} {category : Category} {onRow : Nat → Prop}
    {issue : Issue} (h : s.Finds category onRow issue) (other : Category) :
    issue.isFindingOf other = (category == other) := by
  induction h with
  | report title description suggestion hlisted hrow =>
    obtain ⟨rule, hrule, rfl, rfl⟩ := hlisted
    obtain ⟨-, -, hfinding⟩ := Rule.mem_ofSuite.mp hrule
    show (category == other && !(rule.name == "parse_error" || rule.name == "scan_error")) = _
    rw [Rule.isDiagnostic_eq, hfinding, Bool.not_false, Bool.and_true]
  | withMetadata key value _ ih => exact ih
  | withColumn column _ ih => exact ih

theorem Issue.IsDiagnosis.filter_singleton {issue : Issue} {category : Category} {path : String}
    (h : issue.IsDiagnosis category path) (other : Category) :
    [issue].filter (isFindingOf other) = [] := by
  have hdiagnostic : issue.isDiagnostic = true := by
    rw [isDiagnostic, Bool.or_eq_true, beq_iff_eq, beq_iff_eq]
    exact h.ruleName
  rw [List.filter_cons_of_neg, List.filter_nil]
  rw [isFindingOf, hdiagnostic, Bool.not_true, Bool.and_false]
  exact Bool.false_ne_true

theorem Subject.rows_true (s : Subject) : s.Rows fun _ => True :=
  ⟨fun _ _ => trivial, fun _ _ => trivial, fun _ _ _ _ => trivial⟩

theorem flatMap_ite_of_nodup {α β : Type} [DecidableEq α] {keys : List α} (hnodup : keys.Nodup)
    {key : α} (hkey : key ∈ keys) (f : α → List β) :
    (keys.flatMap fun k => if k = key then f k else []) = f key := by
  induction keys with
  | nil => exact absurd hkey List.not_mem_nil
  | cons k rest ih =>
    obtain ⟨hfresh, hrest⟩ := List.nodup_cons.mp hnodup
    rw [List.flatMap_cons]
    by_cases heq : k = key
    · have hnone : (rest.flatMap fun k => if k = key then f k else []) = [] := by
        refine List.flatMap_eq_nil_iff.mpr fun other hother => if_neg ?_
        rintro rfl
        exact hfresh (heq ▸ hother)
      rw [if_pos heq, hnone, List.append_nil, heq]
    · rw [if_neg heq, List.nil_append]
      exact ih hrest ((List.mem_cons.mp hkey).resolve_left (Ne.symm heq))

namespace Session

/-- What the suite of a category reports on a subject; nothing if it breaks off. -/
def reported (s : Session) (subject : Subject) (category : Category) : List Issue :=
  match s.examine subject category with
  | .ok issues => issues
  | .error _ => []

/-- The findings of a category on a file, as far as their rules are enabled. Only this category
    occurs in it. -/
def ownFindings (s : Session) (category : Category) (path : String) : List Issue :=
  match s.load path with
  | .error _ => []
  | .ok content =>
    (s.reported (s.subjectAt path content) category).filter fun issue =>
      !s.settings.rules.isDisabled issue.ruleId

theorem filter_suiteIssues (s : Session) (categories : List Category) (subject : Subject)
    (category other : Category) :
    (s.suiteIssues categories subject category).filter (Issue.isFindingOf other) =
      if category = other then s.reported subject category else [] := by
  unfold suiteIssues reported
  cases hexamine : s.examine subject category with
  | error reason =>
    have hdiagnosis := Issue.isDiagnosis_scanError (Category.diagnostic categories) subject.path
      (category.failureText reason)
    dsimp only
    rw [hdiagnosis.filter_singleton, ite_self]
  | ok issues =>
    have hfinding : ∀ issue ∈ issues, issue.isFindingOf other = (category == other) := by
      intro issue hissue
      have hfound := mem_runAll_of_examine hexamine hissue
      exact (Check.reports_suite subject.rows_true category issue hfound).isFindingOf other
    dsimp only
    split
    · rename_i hsame
      refine List.filter_eq_self.mpr fun issue hissue => ?_
      rw [hfinding issue hissue, hsame, beq_self_eq_true]
    · rename_i hother
      refine List.filter_eq_nil_iff.mpr fun issue hissue => ?_
      rw [hfinding issue hissue, beq_iff_eq]
      exact hother

theorem filter_issuesOf {s : Session} {categories : List Category} (hnodup : categories.Nodup)
    {category : Category} (hmem : category ∈ categories) (source : ParsedSource)
    (subject : Subject) :
    (s.issuesOf categories source subject).filter (Issue.isFindingOf category) =
      s.reported subject category := by
  unfold issuesOf
  rw [List.filter_append, List.filter_flatMap]
  simp only [filter_suiteIssues]
  rw [flatMap_ite_of_nodup hnodup hmem]
  split
  · rfl
  · rw [(Issue.isDiagnosis_parseError _ _ _).filter_singleton, List.nil_append]

theorem findings_analyzeFile (s : Session) {categories : List Category}
    (hnodup : categories.Nodup) {category : Category} (hmem : category ∈ categories)
    (path : String) :
    (s.analyzeFile categories path).findings category = s.ownFindings category path := by
  unfold ownFindings FileOutcome.findings
  cases hload : s.load path with
  | error e =>
    rw [analyzeFile_of_error hload]
    exact (Issue.isDiagnosis_scanError _ _ _).filter_singleton category
  | ok content =>
    rw [analyzeFile_of_ok hload]
    dsimp only
    rw [← filter_issuesOf hnodup hmem (ParsedSource.parse s.grammar path content),
      List.filter_filter, List.filter_filter]
    exact List.filter_congr fun issue _ => Bool.and_comm _ _

/-- The outcome of a file for a request, if the request names a category at all. -/
def analyzeRequest (s : Session) (requested : List String) (path : String) : Option FileOutcome :=
  (Category.resolve? requested).map fun categories => s.analyzeFile categories path

theorem analyzeRequest_of_mem_known (s : Session) {requested : List String} {category : Category}
    (h : category ∈ Category.known requested) (path : String) :
    s.analyzeRequest requested path = some (s.analyzeFile (Category.known requested) path) := by
  rw [analyzeRequest, Category.resolve?_of_mem_known h, Option.map_some]

theorem analyzeRequest_congr (s : Session) {requested other : List String}
    (h : Category.known requested = Category.known other) (path : String) :
    s.analyzeRequest requested path = s.analyzeRequest other path := by
  rw [analyzeRequest, analyzeRequest, Category.resolve?, Category.resolve?, h]

end Session

/-! ## Independence of the request -/

/-- Two requests that name a category give the same findings of it, whatever else they name. The
    outcome depends on the set of named categories only, and so not on the wording. -/
theorem findings_independent_of_request (s : Session) (path : String) :
    (∀ (category : Category) (requested other : List String),
      category ∈ Category.known requested → category ∈ Category.known other →
      ∃ outcome otherOutcome, s.analyzeRequest requested path = some outcome ∧
        s.analyzeRequest other path = some otherOutcome ∧
        outcome.findings category = otherOutcome.findings category) ∧
    (∀ requested other : List String,
      (∀ category, category ∈ Category.known requested ↔ category ∈ Category.known other) →
      s.analyzeRequest requested path = s.analyzeRequest other path) ∧
    ∀ requested other : List String, Relation.EqvGen Category.Rewording requested other →
      s.analyzeRequest requested path = s.analyzeRequest other path := by
  refine ⟨fun category requested other hmem hother => ?_, fun requested other hset => ?_,
    fun requested other hreworded => ?_⟩
  · refine ⟨_, _, s.analyzeRequest_of_mem_known hmem path,
      s.analyzeRequest_of_mem_known hother path, ?_⟩
    rw [s.findings_analyzeFile (Category.nodup_known requested) hmem,
      s.findings_analyzeFile (Category.nodup_known other) hother]
  · exact s.analyzeRequest_congr (Category.known_congr hset) path
  · exact s.analyzeRequest_congr (Category.known_eq_of_reworded hreworded) path

/-- The finding about the class is the same next to a suite that breaks off and without it, and two
    wordings of one request have one outcome. -/
theorem inheritance_independent_of_request :
    let session := abstractClassSession
    (Category.inheritance ∈ Category.known [" Laravel\t", "INHERITANCE"] ∧
      Category.inheritance ∈ Category.known ["security", "none", "inheritance"]) ∧
    (session.analyzeRequest [" Laravel\t", "INHERITANCE"] "A.php").map
        (fun outcome => outcome.issues.map Issue.ruleId) =
      some ["inheritance.abstract_without_abstract_methods"] ∧
    (session.analyzeRequest ["security", "none", "inheritance"] "A.php").map
        (fun outcome => outcome.issues.map Issue.ruleId) =
      some ["security.scan_error", "inheritance.abstract_without_abstract_methods"] ∧
    (∃ outcome otherOutcome,
      session.analyzeRequest [" Laravel\t", "INHERITANCE"] "A.php" = some outcome ∧
      session.analyzeRequest ["security", "none", "inheritance"] "A.php" = some otherOutcome ∧
      outcome.findings .inheritance = otherOutcome.findings .inheritance) ∧
    session.analyzeRequest ["security", "laravel"] "A.php" =
      session.analyzeRequest ["laravel", "security", "laravel"] "A.php" ∧
    session.analyzeRequest ["inheritance", "laravel"] "A.php" =
      session.analyzeRequest ["inheritance", "none", " Laravel_Idiom ", "inheritance"] "A.php" := by
  intro session
  have hmem : Category.inheritance ∈ Category.known [" Laravel\t", "INHERITANCE"] :=
    Category.mem_known_iff.mpr ⟨"INHERITANCE", by decide, by decide⟩
  have hother : Category.inheritance ∈ Category.known ["security", "none", "inheritance"] :=
    Category.mem_known_iff.mpr ⟨"inheritance", by decide, by decide⟩
  have hreworded : Relation.EqvGen Category.Rewording ["inheritance", "laravel"]
      ["inheritance", "none", " Laravel_Idiom ", "inheritance"] := by
    refine .trans _ ["laravel", "inheritance"] _ (.rel _ _ (.reorder (.swap _ _ _))) ?_
    refine .trans _ ["laravel_idiom", "inheritance"] _ (.rel _ _ (.synonym _
      (show "laravel" ∈ Category.names .idiom by decide +kernel) (by decide +kernel))) ?_
    refine .trans _ ["Laravel_Idiom", "inheritance"] _
      (.rel _ _ (.letterCase _ (by decide +kernel))) ?_
    refine .trans _ [" Laravel_Idiom ", "inheritance"] _
      (.rel _ _ (@Category.Rewording.padding [' '] [' '] _ _ (by decide) (by decide))) ?_
    refine .trans _ ["none", " Laravel_Idiom ", "inheritance"] _
      (.rel _ _ (.unknown _ fun category => by cases category <;> decide +kernel)) ?_
    exact .rel _ _ (.repetition (by decide))
  refine ⟨⟨hmem, hother⟩, by decide +kernel, by decide +kernel, ?_, ?_, ?_⟩
  · exact (findings_independent_of_request session "A.php").1 .inheritance _ _ hmem hother
  · exact (findings_independent_of_request session "A.php").2.1 _ _ fun category => by
      simp only [Category.mem_known_cons]
      grind
  · exact (findings_independent_of_request session "A.php").2.2 _ _ hreworded

end CodeAudit
