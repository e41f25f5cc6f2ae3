import CodeAudit.Check.Complexity
import CodeAudit.Proofs.EnclosingClasses
import Mathlib.Data.Set.Card

/-!
# Decisions, and the function that they belong to

The check of complexity visits all functions of a tree, nested ones too, and counts the decisions in
the body of each without those of functions further in. Two walks go on at once: the visit enters
functions, the count does not. A decision is therefore counted for one function at most, the
innermost one around it, and it is counted if it lies in the body of that function. What stands in
the head of a function, such as a default value of a parameter, is counted for none.

Results:
* `mem_counted_iff`: the decisions that are counted for a function.
* `sum_decisions`: the counts of all functions together.
* `among_functions`: the complexities that are reported.
* `decisions_counted_once`: every decision is counted where it belongs, and nowhere else.
-/

namespace CodeAudit.Check.Complexity

open SyntaxTree

variable {s : Subject} {f g p : Place}

/-! ## Functions and what belongs to them -/

/-- The innermost function around a place: a method or a function with a name. Closures and classes
    are passed by. -/
def functionAround? (p : Place) : Option Place :=
  p.around? fun label => label.kind == "method_declaration" || label.kind == "function_definition"

/-- A place in the body of a function, the body itself included. -/
def LiesInBody (f p : Place) : Prop :=
  ∃ body, f.field? "body" = some body ∧ p ∈ body.subtree

/-- The places of the functions of a file. -/
def functionPlaces (s : Subject) : List Place :=
  s.places.filter fun p => p.node.isFunctionLike

/-- The decisions that the count for a function comes by. -/
def counted (f : Place) : List Place :=
  match f.field? "body" with
  | none => []
  | some body => (body.walk entersLabel).filter fun p => isDecision p.node

/-- The cyclomatic complexity of a function. -/
def complexity (f : Place) : Nat := decisions f.node + 1

theorem functionAround?_eq (p : Place) :
    functionAround? p = p.around? fun label => !entersLabel label := by
  simp only [functionAround?, entersLabel, Bool.not_not]

theorem isFunctionLike_iff_bars : f.node.isFunctionLike = true ↔ f.Bars entersLabel := by
  show f.node.isFunctionLike = true ↔ (!f.node.isFunctionLike) = false
  rw [Bool.not_eq_false']

theorem mem_functionPlaces_iff :
    f ∈ functionPlaces s ↔ f ∈ s.places ∧ f.node.isFunctionLike = true :=
  List.mem_filter

theorem nodup_functionPlaces (s : Subject) : (functionPlaces s).Nodup :=
  s.nodup_places.filter _

theorem mem_functionPlaces_of_functionAround? (hp : p ∈ s.places)
    (haround : functionAround? p = some f) : f ∈ functionPlaces s := by
  rw [functionAround?_eq] at haround
  obtain ⟨hf, hbars, -⟩ := Subject.mem_scope_iff.mpr ⟨hp, haround⟩
  exact mem_functionPlaces_iff.mpr ⟨hf, isFunctionLike_iff_bars.mpr hbars⟩

/-! ## The count for one function -/

theorem decisions_eq_length (f : Place) : decisions f.node = (counted f).length := by
  rw [decisions, counted, ← f.map_node_field? "body"]
  cases f.field? "body" with
  | none => rfl
  | some body =>
    simp only [Option.map_some]
    rw [← body.map_node_walk entersLabel, List.countP_map, List.countP_eq_length_filter]
    rfl

theorem nodup_counted (f : Place) : (counted f).Nodup := by
  unfold counted
  split
  · exact List.nodup_nil
  · exact (Place.nodup_walk _ _).filter _

/-- The count for a function comes by the decisions in its body that belong to it. -/
theorem mem_counted_iff (hf : f.node.isFunctionLike = true) :
    p ∈ counted f ↔
      isDecision p.node = true ∧ functionAround? p = some f ∧ LiesInBody f p := by
  have hbars : f.Bars entersLabel := isFunctionLike_iff_bars.mp hf
  rw [counted, functionAround?_eq]
  unfold LiesInBody
  cases hbody : f.field? "body" with
  | none => simp
  | some body =>
    have hchild : body ∈ f.children := List.mem_of_find?_eq_some hbody
    simp only [List.mem_filter, Option.some.injEq, exists_eq_left']
    constructor
    · rintro ⟨hwalk, hdecision⟩
      have hscope : p ∈ f.scope entersLabel := Place.mem_scope_iff.mpr ⟨body, hchild, hwalk⟩
      exact ⟨hdecision, Place.around?_of_mem_scope hbars hscope,
        Place.mem_subtree_of_mem_walk hwalk⟩
    · rintro ⟨hdecision, haround, hp⟩
      -- the function stands above its body, so it is none of the bars that the walk could meet
      have hdeeper : f.above.length < body.above.length := by
        rw [Place.length_above_of_mem_children hchild]
        omega
      exact ⟨Place.mem_walk_of_around? hdeeper haround hp, hdecision⟩

theorem mem_places_of_liesInBody (hf : f ∈ s.places) (h : LiesInBody f p) : p ∈ s.places := by
  obtain ⟨body, hbody, hp⟩ := h
  have hchild : body ∈ f.children := List.mem_of_find?_eq_some hbody
  refine Subject.mem_places_of_mem_subtree hf ?_
  exact Place.mem_subtree_trans (Place.mem_subtree_of_mem_children hchild) hp

/-- No decision is counted for two functions. -/
theorem eq_of_mem_counted (hf : f.node.isFunctionLike = true) (hg : g.node.isFunctionLike = true)
    (hpf : p ∈ counted f) (hpg : p ∈ counted g) : f = g := by
  have hfirst := ((mem_counted_iff hf).mp hpf).2.1
  have hsecond := ((mem_counted_iff hg).mp hpg).2.1
  rw [hfirst, Option.some.injEq] at hsecond
  exact hsecond

/-! ## The counts of all functions -/

/-- The decisions of a file that lie in the body of their function. -/
def inOwnBody (s : Subject) : Set Place :=
  {p | p ∈ s.places ∧ isDecision p.node = true ∧
    ∃ f, functionAround? p = some f ∧ LiesInBody f p}

theorem mem_flatMap_counted_iff :
    p ∈ (functionPlaces s).flatMap counted ↔ p ∈ inOwnBody s := by
  rw [List.mem_flatMap]
  constructor
  · rintro ⟨f, hf, hp⟩
    obtain ⟨hplace, hlike⟩ := mem_functionPlaces_iff.mp hf
    obtain ⟨hdecision, haround, hbody⟩ := (mem_counted_iff hlike).mp hp
    exact ⟨mem_places_of_liesInBody hplace hbody, hdecision, f, haround, hbody⟩
  · rintro ⟨hp, hdecision, f, haround, hbody⟩
    have hf := mem_functionPlaces_of_functionAround? hp haround
    have hlike := (mem_functionPlaces_iff.mp hf).2
    exact ⟨f, hf, (mem_counted_iff hlike).mpr ⟨hdecision, haround, hbody⟩⟩

theorem nodup_flatMap_counted (s : Subject) : ((functionPlaces s).flatMap counted).Nodup := by
  rw [List.nodup_flatMap]
  refine ⟨fun f _ => nodup_counted f, (nodup_functionPlaces s).imp_of_mem ?_⟩
  intro f g hf hg hne p hpf hpg
  exact hne (eq_of_mem_counted (mem_functionPlaces_iff.mp hf).2 (mem_functionPlaces_iff.mp hg).2
    hpf hpg)

/-- The functions share out the decisions that lie in the body of their function. -/
theorem sum_decisions (s : Subject) :
    ((functionPlaces s).map fun f => decisions f.node).sum = (inOwnBody s).ncard := by
  classical
  -- the decisions of all functions, one function after the other, are without repetition
  have hset : inOwnBody s = ((functionPlaces s).flatMap counted).toFinset := by
    ext p
    rw [List.coe_toFinset, Set.mem_ofPred_eq, mem_flatMap_counted_iff]
  rw [hset, Set.ncard_coe_finset, List.toFinset_card_of_nodup (nodup_flatMap_counted s),
    List.length_flatMap]
  simp only [decisions_eq_length]

/-! ## What is reported -/

/-- The finding about a function with too many decisions. -/
def complexityIssue (s : Subject) (f : Place) : Issue :=
  let name := String.ofList (f.node.name s.content)
  ((s.report .quality "high_cyclomatic_complexity" .medium f.node.line "High cyclomatic complexity"
    ("'" ++ name ++ "' has a cyclomatic complexity of " ++ toString (complexity f) ++ " (limit " ++
      toString maxCyclomatic ++ ")")
    "Split the function into smaller, focused functions").withMetadata "complexity"
    (.nat (complexity f))).withMetadata "function" (.str name)

theorem functions_eq (s : Subject) :
    functions s = (functionPlaces s).flatMap fun f => functionIssues s f.node := by
  rw [functions, functionPlaces, Subject.places]
  cases s.tree with
  | none => rfl
  | some root =>
    have hnodes : root.preorder = (Place.top root).subtree.map Place.node :=
      (Place.map_node_subtree (.top root)).symm
    simp only [hnodes, List.filter_map, List.flatMap_map]
    rfl

theorem among_functionIssues (s : Subject) (f : Place) :
    Rule.highCyclomaticComplexity.among (functionIssues s f.node) =
      if maxCyclomatic < complexity f then [complexityIssue s f] else [] := by
  have hbranching : ∀ issues : List Issue,
      (∀ issue ∈ issues, issue.ruleName = Rule.longMethod.name) →
      Rule.highCyclomaticComplexity.among
          ((if complexity f ≤ maxCyclomatic then [] else [complexityIssue s f]) ++ issues) =
        if maxCyclomatic < complexity f then [complexityIssue s f] else [] := by
    intro issues hissues
    have hsize : Rule.highCyclomaticComplexity.among issues = [] :=
      Rule.among_of_other (by decide) hissues
    rw [Rule.among] at hsize
    rw [Rule.among, List.filter_append, hsize, List.append_nil]
    by_cases hlimit : complexity f ≤ maxCyclomatic
    · rw [if_pos hlimit, if_neg (by omega), List.filter_nil]
    · rw [if_neg hlimit, if_pos (by omega)]
      rfl
  refine hbranching _ ?_
  intro issue hissue
  split at hissue
  · cases hissue
  · dsimp only at hissue
    split at hissue
    · cases hissue
    · rw [List.mem_singleton.mp hissue]
      rfl

/-- The functions with a complexity above the limit are reported, with their complexity. -/
theorem among_functions (s : Subject) :
    Rule.highCyclomaticComplexity.among (functions s) =
      ((functionPlaces s).filter fun f => maxCyclomatic < complexity f).map (complexityIssue s) := by
  rw [functions_eq, Rule.among, List.filter_flatMap]
  induction functionPlaces s with
  | nil => rfl
  | cons f rest ih =>
    have hf := among_functionIssues s f
    rw [Rule.among] at hf
    rw [List.flatMap_cons, hf, ih, List.filter_cons]
    by_cases hlimit : maxCyclomatic < complexity f
    · simp [hlimit]
    · simp [hlimit]

/-! ## Every decision once -/

/-- A decision of a tree is counted for one function at most, the innermost one around it, and it is
    counted there exactly if it lies in the body of that function. The complexities less one, summed
    over all functions, are the number of decisions that lie in the body of their function. The
    functions above the limit are reported with these complexities. -/
theorem decisions_counted_once (s : Subject) :
    (∀ f ∈ functionPlaces s, complexity f = (counted f).length + 1 ∧ (counted f).Nodup ∧
      ∀ p ∈ counted f, p ∈ s.places ∧ isDecision p.node = true) ∧
    (∀ p ∈ s.places, isDecision p.node = true → ∀ f ∈ functionPlaces s,
      (p ∈ counted f ↔ functionAround? p = some f ∧ LiesInBody f p)) ∧
    (∀ p, ∀ f ∈ functionPlaces s, ∀ g ∈ functionPlaces s,
      p ∈ counted f → p ∈ counted g → f = g) ∧
    ((functionPlaces s).map fun f => complexity f - 1).sum = (inOwnBody s).ncard ∧
    Rule.highCyclomaticComplexity.among (functions s) =
      ((functionPlaces s).filter fun f => maxCyclomatic < complexity f).map
        (complexityIssue s) := by
  refine ⟨?_, ?_, ?_, sum_decisions s, among_functions s⟩
  · intro f hf
    obtain ⟨hplace, hlike⟩ := mem_functionPlaces_iff.mp hf
    refine ⟨congrArg (· + 1) (decisions_eq_length f), nodup_counted f, fun p hp => ?_⟩
    obtain ⟨hdecision, -, hbody⟩ := (mem_counted_iff hlike).mp hp
    exact ⟨mem_places_of_liesInBody hplace hbody, hdecision⟩
  · intro p _ hdecision f hf
    rw [mem_counted_iff (mem_functionPlaces_iff.mp hf).2]
    exact and_iff_right hdecision
  · intro p f hf g hg
    exact eq_of_mem_counted (mem_functionPlaces_iff.mp hf).2 (mem_functionPlaces_iff.mp hg).2

/-- The tree of a function in the body of which a closure and a class stand, behind a decision that
    belongs to no function. Of the tree there is only what the count looks at. -/
def layeredTree : Node :=
  let node := Node.onSecondLine
  node "program" none 6 99
    [node "if_statement" none 6 15 [],
    node "function_definition" none 16 99
      [node "formal_parameters" (some "parameters") 25 35
        [node "conditional_expression" (some "default_value") 27 34 []],
      node "compound_statement" (some "body") 36 99
        [node "if_statement" none 38 47 [],
        node "anonymous_function" none 48 69
          [node "compound_statement" (some "body") 60 69
            [node "binary_expression" none 62 67 [node "&&" (some "operator") 64 66 []]]],
        node "class_declaration" none 70 97
          [node "declaration_list" (some "body") 78 97
            [node "method_declaration" none 80 95
              [node "compound_statement" (some "body") 86 95
                [node "while_statement" none 88 93 []]]]]]]]

/-- The subject with that tree. -/
def layeredSubject : Subject :=
  .ofSource "app/X.php" ⟨.php, [], some layeredTree, none⟩ .plain Subject.defaultRadius

/-- Of five decisions the function has two, one of them in the closure, and the method in the class
    has one. The default value of the parameter and the decision in front belong to none. -/
theorem decisions_counted_once_layered :
    (layeredSubject.places.countP fun p => isDecision p.node) = 5 ∧
      (functionPlaces layeredSubject).map complexity = [3, 2] ∧
      (inOwnBody layeredSubject).ncard = 3 ∧
      ∃ f ∈ functionPlaces layeredSubject, ∃ p ∈ layeredSubject.places,
        isDecision p.node = true ∧ functionAround? p = some f ∧ LiesInBody f p := by
  obtain ⟨hcounts, hbelongs, -, hsum, -⟩ := decisions_counted_once layeredSubject
  have hcomplexities : (functionPlaces layeredSubject).map complexity = [3, 2] := by decide +kernel
  have hown : (inOwnBody layeredSubject).ncard = 3 := by
    rw [← hsum, ← Function.comp_def (· - 1) complexity, ← List.map_map, hcomplexities]
    rfl
  refine ⟨by decide +kernel, hcomplexities, hown, ?_⟩
  obtain ⟨f, hf, hthree⟩ : ∃ f ∈ functionPlaces layeredSubject, complexity f = 3 :=
    List.mem_map.mp (hcomplexities ▸ List.mem_cons_self)
  obtain ⟨hlength, -, hcounted⟩ := hcounts f hf
  obtain ⟨p, hp⟩ : ∃ p, p ∈ counted f :=
    List.exists_mem_of_length_pos (by omega)
  obtain ⟨hplace, hdecision⟩ := hcounted p hp
  exact ⟨f, hf, p, hplace, hdecision, (hbelongs p hplace hdecision f hf).mp hp⟩

end CodeAudit.Check.Complexity
