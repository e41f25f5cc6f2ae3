import CodeAudit.Check.Hierarchy
import CodeAudit.Proofs.TreePlaces
import CodeAudit.Rule
import Mathlib.Data.List.Flatten

/-!
# References to the base class, and the class that they belong to

A reference to the base class belongs to the innermost class around it, declared or anonymous. The
check of constructors visits all class declarations of a tree, nested ones too, and looks for
references in each.

In a class without a base it looks at the scope of the class only, so every reference is reported
once, for the class that it belongs to. In a constructor that has to call that of the base class it
looks at the whole body: a class in the body that calls the constructor of its own base is taken for
the class around it.

Results:
* `among_constructors`: what is reported for one class.
* `reported_orphans`: which references to a missing base class are reported.
* `reported_constructors`: which constructors are reported, and when these are those that should be.
* `nested_call_hides_constructor`: a constructor that is not reported.
-/

namespace CodeAudit

open SyntaxTree

/-- The places of the tree of a subject; none if it has no tree. -/
def Subject.places (s : Subject) : List Place :=
  match s.tree with
  | none => []
  | some root => (Place.top root).subtree

namespace Subject

variable {s : Subject} {enters : Label → Bool} {p q bar : Place}

theorem nodup_places (s : Subject) : s.places.Nodup := by
  unfold places
  split
  · exact List.nodup_nil
  · exact Place.nodup_walk _ _

theorem mem_places_of_mem_subtree (hp : p ∈ s.places) (hq : q ∈ p.subtree) : q ∈ s.places := by
  unfold places at hp ⊢
  split at hp
  · cases hp
  · exact Place.mem_subtree_trans hp hq

/-- The innermost bar around a place is the one in whose scope it lies. -/
theorem mem_scope_iff :
    bar ∈ s.places ∧ bar.Bars enters ∧ q ∈ bar.scope enters ↔
      q ∈ s.places ∧ q.around? (fun label => !enters label) = some bar := by
  unfold places
  split
  · simp
  · exact Place.mem_scope_iff_around?

end Subject

/-- The issues of a rule. -/
def Rule.among (rule : Rule) (issues : List Issue) : List Issue :=
  issues.filter fun issue => issue.ruleName == rule.name

namespace Rule

variable {rule other : Rule} {issues : List Issue}

theorem among_append (rule : Rule) (issues more : List Issue) :
    rule.among (issues ++ more) = rule.among issues ++ rule.among more :=
  List.filter_append issues more

theorem among_flatMap {α : Type} (rule : Rule) (places : List α) (found : α → List Issue) :
    rule.among (places.flatMap found) = places.flatMap fun place => rule.among (found place) :=
  List.filter_flatMap ..

theorem among_of_forall (h : ∀ issue ∈ issues, issue.ruleName = rule.name) :
    rule.among issues = issues := by
  rw [among, List.filter_eq_self]
  intro issue hissue
  exact beq_iff_eq.mpr (h issue hissue)

theorem among_of_other (hne : other.name ≠ rule.name)
    (h : ∀ issue ∈ issues, issue.ruleName = other.name) : rule.among issues = [] := by
  rw [among, List.filter_eq_nil_iff]
  intro issue hissue
  rw [h issue hissue, beq_iff_eq]
  exact hne

end Rule

namespace Check.Hierarchy

open Text

variable {s : Subject} {c p : Place}

/-! ## Class declarations and where they stand -/

/-- The innermost class around a place, declared or anonymous. -/
def classAround? (p : Place) : Option Place :=
  p.around? fun label => !entersLabel label

/-- The places of the class declarations of a file. -/
def classPlaces (s : Subject) : List Place :=
  s.places.filter fun p => p.node.kind == "class_declaration"

/-- The class that is declared at a place. -/
def declared (s : Subject) (c : Place) : ClassDeclaration :=
  .ofNode s.content c.node

/-- The places of the members of a class. -/
def memberPlaces (c : Place) : List Place :=
  match c.field? "body" with
  | none => []
  | some body => body.namedChildren

/-- The places of the methods of a class. -/
def methodPlaces (c : Place) : List Place :=
  (memberPlaces c).filter fun member => member.node.kind == "method_declaration"

theorem classes_eq (s : Subject) : classes s = (classPlaces s).map (declared s) := by
  rw [classes, classPlaces, Subject.places]
  cases s.tree with
  | none => rfl
  | some root =>
    have hnodes : root.preorder = (Place.top root).subtree.map Place.node :=
      (Place.map_node_subtree (.top root)).symm
    simp only [hnodes, List.filter_map, List.map_map]
    rfl

theorem map_node_memberPlaces (s : Subject) (c : Place) :
    (memberPlaces c).map Place.node = (declared s c).members := by
  have hbody : (declared s c).body = (c.field? "body").map Place.node :=
    (c.map_node_field? "body").symm
  rw [memberPlaces, ClassDeclaration.members, hbody]
  cases c.field? "body" with
  | none => rfl
  | some body => exact body.map_node_namedChildren

theorem find?_methods (s : Subject) (c : Place) (test : Node → Bool) :
    (declared s c).methods.find? test =
      ((methodPlaces c).find? fun method => test method.node).map Place.node := by
  rw [ClassDeclaration.methods, ← map_node_memberPlaces, List.filter_map, List.find?_map]
  rfl

theorem mem_classPlaces_iff :
    c ∈ classPlaces s ↔ c ∈ s.places ∧ c.node.kind = "class_declaration" := by
  rw [classPlaces, List.mem_filter, beq_iff_eq]

theorem bars_of_kind (h : c.node.kind = "class_declaration") : c.Bars entersLabel := by
  have hkind : c.node.label.kind = "class_declaration" := h
  simp [Place.Bars, entersLabel, hkind]

theorem exists_body_of_mem_memberPlaces {member : Place} (h : member ∈ memberPlaces c) :
    ∃ body, c.field? "body" = some body ∧ body ∈ c.children ∧ member ∈ body.children := by
  unfold memberPlaces at h
  split at h
  · cases h
  · rename_i body hbody
    exact ⟨body, hbody, List.mem_of_find?_eq_some hbody, (List.mem_filter.mp h).1⟩

/-! ## Constructors that have to call that of the base class -/

/-- A class for which the check asks whether its constructor calls that of the base class: it has a
    base, which has a constructor by the role of the file or by its name, and the first constructor
    that the class declares has a body. -/
structure MustChain (s : Subject) (c constructor body : Place) : Prop where
  hasBase : (declared s c).base.isSome = true
  baseConstructs : s.role ∈ constructedRoles ∨ endsWith "Exception" (declared s c).shortBase = true
  isFirst : ((methodPlaces c).find? fun method => isConstructorName (method.node.name s.content)) =
    some constructor
  hasBody : constructor.field? "body" = some body

/-- The constructor that has to call that of the base class, and its body. -/
def constructorOf? (s : Subject) (c : Place) : Option (Place × Place) :=
  if (declared s c).base.isSome &&
      (constructedRoles.contains s.role || endsWith "Exception" (declared s c).shortBase) then
    ((methodPlaces c).find? fun method => isConstructorName (method.node.name s.content)).bind
      fun constructor => (constructor.field? "body").map fun body => (constructor, body)
  else none

theorem constructorOf?_eq_some_iff {constructor body : Place} :
    constructorOf? s c = some (constructor, body) ↔ MustChain s c constructor body := by
  have hcond : ((declared s c).base.isSome &&
      (constructedRoles.contains s.role || endsWith "Exception" (declared s c).shortBase)) = true ↔
      (declared s c).base.isSome = true ∧
        (s.role ∈ constructedRoles ∨ endsWith "Exception" (declared s c).shortBase = true) := by
    rw [Bool.and_eq_true, Bool.or_eq_true, List.contains_iff_mem]
  rw [constructorOf?]
  constructor
  · intro h
    split at h
    · rename_i happlies
      obtain ⟨hbase, hconstructs⟩ := hcond.mp happlies
      obtain ⟨first, hfirst, hmap⟩ := Option.bind_eq_some_iff.mp h
      obtain ⟨_, hbody, heq⟩ := Option.map_eq_some_iff.mp hmap
      cases heq
      exact ⟨hbase, hconstructs, hfirst, hbody⟩
    · cases h
  · intro h
    rw [if_pos (hcond.mpr ⟨h.hasBase, h.baseConstructs⟩), h.isFirst, Option.bind_some, h.hasBody]
    rfl

/-- The constructor that is reported for a class, with the class. -/
def forgotten? (s : Subject) (c : Place) : Option (Place × Place) :=
  (constructorOf? s c).bind fun found =>
    if callsBaseConstructor s.content found.2.node then none else some (c, found.1)

/-- The finding about a constructor that does not call that of the base class. -/
def forgottenIssue (s : Subject) (c constructor : Place) : Issue :=
  let name := String.ofList (declared s c).name
  let base := String.ofList (declared s c).shortBase
  ((s.report .inheritance "missing_parent_constructor" .medium constructor.node.line
    "Parent constructor not called"
    (name ++ "::__construct() overrides " ++ base ++ "::__construct() without calling it")
    "Call parent::__construct(...) so the framework base is initialized").withMetadata
    "class" (.str name)).withMetadata "parent" (.str base)

theorem forgottenBase_declared (hbase : (declared s c).base.isSome = true) :
    forgottenBase s (declared s c) =
      ((forgotten? s c).map fun entry => forgottenIssue s entry.1 entry.2).toList := by
  rw [forgottenBase, find?_methods, forgotten?, constructorOf?, hbase, Bool.true_and]
  cases constructedRoles.contains s.role || endsWith "Exception" (declared s c).shortBase with
  | false => rfl
  | true =>
    cases (methodPlaces c).find? fun method => isConstructorName (method.node.name s.content) with
    | none => rfl
    | some constructor =>
      have hbody := constructor.map_node_field? "body"
      cases hfield : constructor.field? "body" with
      | none =>
        rw [hfield] at hbody
        simp [← hbody, hfield]
      | some body =>
        rw [hfield] at hbody
        cases hcalls : callsBaseConstructor s.content body.node with
        | false => simp [← hbody, hfield, hcalls, forgottenIssue]
        | true => simp [← hbody, hfield, hcalls]

/-! ## References to a base class that is missing -/

/-- Is the node a reference to the base class? -/
def refersToBase (s : Subject) (node : Node) : Bool :=
  node.kind == "relative_scope" && node.text s.content == "parent".toList

/-- A reference at a place to the base of the innermost class around it, which is declared without
    one. The reference lies in a member of the class. -/
structure Orphaned (s : Subject) (c p : Place) : Prop where
  refers : refersToBase s p.node = true
  around : classAround? p = some c
  isDeclaration : c.node.kind = "class_declaration"
  noBase : (declared s c).base = none
  inMember : ∃ member ∈ memberPlaces c, p ∈ member.subtree

/-- The references that are found for a class, each with the class. -/
def orphansOf (s : Subject) (c : Place) : List (Place × Place) :=
  if (declared s c).base.isSome then []
  else
    (((memberPlaces c).flatMap (Place.walk entersLabel)).filter fun p =>
      refersToBase s p.node).map fun p => (c, p)

/-- The finding about a reference to the base of a class that has none. -/
def orphanIssue (s : Subject) (c p : Place) : Issue :=
  let name := String.ofList (declared s c).name
  { s.report .inheritance "parent_call_outside_subclass" .high p.node.line
      "parent:: without a parent class"
      (name ++ " does not extend a class, so parent:: fails at runtime")
      "Remove the parent:: reference or add the missing extends clause" with
    column := some p.node.column }.withMetadata "class" (.str name)

theorem orphanCalls_declared (hbase : ¬ (declared s c).base.isSome = true) :
    orphanCalls s (declared s c) =
      (orphansOf s c).map fun entry => orphanIssue s entry.1 entry.2 := by
  have hwalk : (declared s c).members.flatMap (Node.pruned entersLabel) =
      ((memberPlaces c).flatMap (Place.walk entersLabel)).map Place.node := by
    rw [List.map_flatMap, ← map_node_memberPlaces, List.flatMap_map]
    exact List.flatMap_congr fun p _ => (p.map_node_walk entersLabel).symm
  rw [orphanCalls, hwalk, List.filterMap_map, orphansOf, if_neg hbase, List.map_map,
    ← List.filterMap_eq_filter, List.map_filterMap]
  refine List.filterMap_congr fun p _ => ?_
  show (if refersToBase s p.node then some (orphanIssue s c p) else none) = _
  cases hrefers : refersToBase s p.node with
  | false => simp [Option.guard, hrefers]
  | true => simp [Option.guard, hrefers]

/-! ## One class after the other -/

/-- For a class with a base a constructor may be reported, and for one without a base references. -/
theorem among_constructors (s : Subject) :
    Rule.missingParentConstructor.among (constructors s) =
        ((classPlaces s).filterMap (forgotten? s)).map
          (fun entry => forgottenIssue s entry.1 entry.2) ∧
      Rule.parentCallOutsideSubclass.among (constructors s) =
        ((classPlaces s).flatMap (orphansOf s)).map fun entry => orphanIssue s entry.1 entry.2 := by
  have hforgotten : ∀ c, (declared s c).base.isSome = true →
      ∀ issue ∈ forgottenBase s (declared s c),
        issue.ruleName = Rule.missingParentConstructor.name := by
    intro c hbase issue hissue
    rw [forgottenBase_declared hbase, Option.mem_toList] at hissue
    obtain ⟨entry, -, rfl⟩ := Option.map_eq_some_iff.mp hissue
    rfl
  have horphans : ∀ c, ¬ (declared s c).base.isSome = true →
      ∀ issue ∈ orphanCalls s (declared s c),
        issue.ruleName = Rule.parentCallOutsideSubclass.name := by
    intro c hbase issue hissue
    rw [orphanCalls_declared hbase] at hissue
    obtain ⟨entry, -, rfl⟩ := List.mem_map.mp hissue
    rfl
  rw [constructors, classes_eq, List.flatMap_map, List.map_filterMap,
    List.filterMap_eq_flatMap_toList, List.map_flatMap, Rule.among, Rule.among,
    List.filter_flatMap, List.filter_flatMap]
  constructor
  · refine List.flatMap_congr fun c _ => ?_
    split
    · rename_i hbase
      exact (Rule.among_of_forall (hforgotten c hbase)).trans (forgottenBase_declared hbase)
    · rename_i hbase
      have hnone : forgotten? s c = none := by simp [forgotten?, constructorOf?, hbase]
      rw [hnone]
      exact Rule.among_of_other (by decide) (horphans c hbase)
  · refine List.flatMap_congr fun c _ => ?_
    split
    · rename_i hbase
      rw [orphansOf, if_pos hbase]
      exact Rule.among_of_other (by decide) (hforgotten c hbase)
    · rename_i hbase
      exact (Rule.among_of_forall (horphans c hbase)).trans (orphanCalls_declared hbase)

/-! ## References that are reported -/

/-- No class is itself the body of a class. The grammar has a list of declarations there. -/
def PlainBodies (s : Subject) : Prop :=
  ∀ c ∈ classPlaces s, ∀ body ∈ c.field? "body", entersLabel body.node.label = true

instance (s : Subject) : Decidable (PlainBodies s) :=
  inferInstanceAs (Decidable (∀ c ∈ classPlaces s, _))

/-- The walk over the members of a class is over a part of its scope. -/
theorem mem_scope_of_mem_walk (hbodies : PlainBodies s) (hc : c ∈ classPlaces s) {member : Place}
    (hmember : member ∈ memberPlaces c) (hp : p ∈ member.walk entersLabel) :
    p ∈ c.scope entersLabel := by
  obtain ⟨body, hbody, hchild, hmem⟩ := exists_body_of_mem_memberPlaces hmember
  have henters : entersLabel body.node.label = true := hbodies c hc body hbody
  have hscope : p ∈ body.scope entersLabel := Place.mem_scope_iff.mpr ⟨member, hmem, hp⟩
  exact Place.mem_scope_iff.mpr ⟨body, hchild, Place.mem_walk_iff.mpr (.inr ⟨henters, hscope⟩)⟩

/-- What lies below a member and belongs to the class is met by the walk over the member. -/
theorem mem_walk_of_classAround? (haround : classAround? p = some c) {member : Place}
    (hmember : member ∈ memberPlaces c) (hp : p ∈ member.subtree) :
    p ∈ member.walk entersLabel := by
  obtain ⟨body, -, hbody, hmem⟩ := exists_body_of_mem_memberPlaces hmember
  have hdeeper : c.above.length < member.above.length := by
    rw [Place.length_above_of_mem_children hmem, Place.length_above_of_mem_children hbody]
    omega
  exact Place.mem_walk_of_around? hdeeper haround hp

theorem mem_orphansOf_iff (hbodies : PlainBodies s) (hc : c ∈ classPlaces s) {other : Place} :
    (other, p) ∈ orphansOf s c ↔ other = c ∧ Orphaned s c p := by
  obtain ⟨-, hkind⟩ := mem_classPlaces_iff.mp hc
  rw [orphansOf]
  cases hbase : (declared s c).base with
  | some base =>
    rw [if_pos Option.isSome_some]
    constructor
    · intro h
      cases h
    · rintro ⟨-, horphan⟩
      have hnone := horphan.noBase
      rw [hbase] at hnone
      cases hnone
  | none =>
    rw [if_neg (by decide)]
    simp only [List.mem_map, List.mem_filter, List.mem_flatMap, Prod.mk.injEq]
    constructor
    · rintro ⟨q, ⟨⟨member, hmember, hq⟩, hrefers⟩, rfl, rfl⟩
      have hscope := mem_scope_of_mem_walk hbodies hc hmember hq
      exact ⟨rfl, hrefers, Place.around?_of_mem_scope (bars_of_kind hkind) hscope, hkind, hbase,
        member, hmember, Place.mem_subtree_of_mem_walk hq⟩
    · rintro ⟨rfl, hrefers, haround, -, -, member, hmember, hp⟩
      exact ⟨p, ⟨⟨member, hmember, mem_walk_of_classAround? haround hmember hp⟩, hrefers⟩, rfl, rfl⟩

theorem nodup_orphansOf (s : Subject) (c : Place) : ((orphansOf s c).map Prod.snd).Nodup := by
  rw [orphansOf]
  split
  · exact List.nodup_nil
  · rw [List.map_map]
    refine List.Nodup.map (fun _ _ h => h) (List.Nodup.filter _ ?_)
    unfold memberPlaces
    cases c.field? "body" with
    | none => exact List.nodup_nil
    | some body =>
      have hsub : body.namedChildren.Sublist body.children := List.filter_sublist
      exact (body.nodup_scope entersLabel).sublist (hsub.flatMap _)

/-- The check reports each reference to a base class that is missing once, for the innermost class
    around it, and nothing else. -/
theorem reported_orphans {s : Subject} (hbodies : PlainBodies s) :
    ∃ found : List (Place × Place),
      Rule.parentCallOutsideSubclass.among (constructors s) =
        found.map (fun entry => orphanIssue s entry.1 entry.2) ∧
      (found.map Prod.snd).Nodup ∧
      ∀ c p, (c, p) ∈ found ↔ p ∈ s.places ∧ Orphaned s c p := by
  refine ⟨(classPlaces s).flatMap (orphansOf s), (among_constructors s).2, ?_, ?_⟩
  · rw [List.map_flatMap, List.nodup_flatMap]
    refine ⟨fun c _ => nodup_orphansOf s c, ?_⟩
    have hclasses : (classPlaces s).Nodup := s.nodup_places.filter _
    refine hclasses.imp_of_mem ?_
    intro c d hc hd hne p hpc hpd
    -- a place that is found for two classes has both as its innermost class
    obtain ⟨⟨_, p⟩, hentry, rfl⟩ := List.mem_map.mp hpc
    obtain ⟨⟨_, p'⟩, hentry', heq⟩ := List.mem_map.mp hpd
    cases heq
    have hfirst := ((mem_orphansOf_iff hbodies hc).mp hentry).2.around
    have hsecond := ((mem_orphansOf_iff hbodies hd).mp hentry').2.around
    rw [hfirst, Option.some.injEq] at hsecond
    exact hne hsecond
  · intro c p
    rw [List.mem_flatMap]
    constructor
    · rintro ⟨d, hd, hentry⟩
      obtain ⟨rfl, horphan⟩ := (mem_orphansOf_iff hbodies hd).mp hentry
      obtain ⟨member, hmember, hp⟩ := horphan.inMember
      obtain ⟨body, -, hbody, hmem⟩ := exists_body_of_mem_memberPlaces hmember
      refine ⟨Subject.mem_places_of_mem_subtree (mem_classPlaces_iff.mp hd).1 ?_, horphan⟩
      refine Place.mem_subtree_trans (Place.mem_subtree_of_mem_children hbody) ?_
      exact Place.mem_subtree_trans (Place.mem_subtree_of_mem_children hmem) hp
    · rintro ⟨hp, horphan⟩
      obtain ⟨hc, -, -⟩ := Subject.mem_scope_iff.mpr ⟨hp, horphan.around⟩
      have hplace := mem_classPlaces_iff.mpr ⟨hc, horphan.isDeclaration⟩
      exact ⟨c, hplace, (mem_orphansOf_iff hbodies hplace).mpr ⟨rfl, horphan⟩⟩

/-- The tree of a class without a base, in a method of which an anonymous class stands. Both refer
    to their base. Of the tree there is only what the check looks at. -/
def lonelyTree : Node :=
  let node := Node.onSecondLine
  node "program" none 6 97
    [node "class_declaration" none 6 97
      [node "name" (some "name") 12 13 [],
      node "declaration_list" (some "body") 14 97
        [node "method_declaration" none 16 95
          [node "name" (some "name") 25 26 [],
          node "compound_statement" (some "body") 29 95
            [node "anonymous_class" none 40 79
              [node "declaration_list" (some "body") 46 79
                [node "method_declaration" none 48 77
                  [node "name" (some "name") 57 58 [],
                  node "compound_statement" (some "body") 61 77
                    [node "scoped_call_expression" none 63 74
                      [node "relative_scope" (some "scope") 63 69 [],
                      node "name" (some "name") 71 72 []]]]]],
            node "scoped_call_expression" none 81 92
              [node "relative_scope" (some "scope") 81 87 [],
              node "name" (some "name") 89 90 []]]]]]]

/-- The subject with that tree. -/
def lonelySubject : Subject :=
  let text := "<?php\nclass A \x7b function f() \x7b $o = new class \x7b function g() \x7b ".toList ++
    "parent::g(); \x7d \x7d; parent::f(); \x7d \x7d\n".toList
  .ofSource "app/X.php" ⟨.php, text, some lonelyTree, none⟩ .plain Subject.defaultRadius

/-- Of the two references only that of the class itself is reported. -/
theorem reported_orphans_lonely :
    (constructors lonelySubject).map (fun issue => (issue.line, issue.column)) = [(2, some 76)] ∧
      PlainBodies lonelySubject ∧
      ∃ found : List (Place × Place),
        Rule.parentCallOutsideSubclass.among (constructors lonelySubject) =
          found.map (fun entry => orphanIssue lonelySubject entry.1 entry.2) ∧
        (found.map Prod.snd).Nodup ∧
        ∀ c p, (c, p) ∈ found ↔ p ∈ lonelySubject.places ∧ Orphaned lonelySubject c p := by
  have hbodies : PlainBodies lonelySubject := by decide +kernel
  exact ⟨by decide +kernel, hbodies, reported_orphans hbodies⟩

/-! ## Constructors that are reported -/

/-- Does the node call the constructor of the base class? -/
def callsBase (s : Subject) (node : Node) : Bool :=
  node.callSite?.any fun site =>
    site.isStatic && site.target.text s.content == "parent".toList &&
      isConstructorName (site.method.text s.content)

/-- A constructor that has to call that of the base class and does not do so for its own class:
    whatever in its body calls such a constructor belongs to another class. -/
def LacksOwnCall (s : Subject) (c constructor : Place) : Prop :=
  ∃ body, MustChain s c constructor body ∧
    ∀ p ∈ body.subtree, callsBase s p.node = true → classAround? p ≠ some c

/-- A constructor that has to call that of the base class and whose body holds no such call. -/
def LacksCall (s : Subject) (c constructor : Place) : Prop :=
  ∃ body, MustChain s c constructor body ∧ ∀ p ∈ body.subtree, callsBase s p.node = false

theorem LacksCall.lacksOwnCall {constructor : Place} (h : LacksCall s c constructor) :
    LacksOwnCall s c constructor := by
  obtain ⟨body, hchain, hnone⟩ := h
  refine ⟨body, hchain, fun p hp hcalls => ?_⟩
  rw [hnone p hp] at hcalls
  cases hcalls

theorem callsBaseConstructor_eq_any (s : Subject) (body : Place) :
    callsBaseConstructor s.content body.node =
      body.subtree.any fun p => callsBase s p.node := by
  rw [callsBaseConstructor, Node.callSites, ← body.map_node_subtree, List.filterMap_map,
    Bool.eq_iff_iff, List.any_eq_true, List.any_eq_true]
  simp only [List.mem_filterMap, callsBase, Option.any_eq_true, Function.comp_apply]
  constructor
  · rintro ⟨site, ⟨p, hp, hsite⟩, hcalls⟩
    exact ⟨p, hp, site, hsite, hcalls⟩
  · rintro ⟨p, hp, site, hsite, hcalls⟩
    exact ⟨site, ⟨p, hp, hsite⟩, hcalls⟩

theorem forgotten?_eq_some_iff {other constructor : Place} :
    forgotten? s c = some (other, constructor) ↔ other = c ∧ LacksCall s c constructor := by
  rw [forgotten?, Option.bind_eq_some_iff]
  constructor
  · rintro ⟨⟨first, body⟩, hfound, hreported⟩
    split at hreported
    · cases hreported
    · rename_i hcalls
      cases hreported
      rw [callsBaseConstructor_eq_any, List.any_eq_true, not_exists] at hcalls
      refine ⟨rfl, body, constructorOf?_eq_some_iff.mp hfound, fun p hp => ?_⟩
      exact Bool.eq_false_iff.mpr fun hcall => hcalls p ⟨hp, hcall⟩
  · rintro ⟨rfl, body, hchain, hnone⟩
    refine ⟨(constructor, body), constructorOf?_eq_some_iff.mpr hchain, ?_⟩
    have hcalls : callsBaseConstructor s.content body.node = false := by
      rw [callsBaseConstructor_eq_any, List.any_eq_false]
      intro p hp
      rw [hnone p hp]
      decide
    simp [hcalls]

theorem mem_forgotten_iff {constructor : Place} :
    (c, constructor) ∈ (classPlaces s).filterMap (forgotten? s) ↔
      c ∈ classPlaces s ∧ LacksCall s c constructor := by
  rw [List.mem_filterMap]
  constructor
  · rintro ⟨d, hd, hfound⟩
    obtain ⟨rfl, hlacks⟩ := forgotten?_eq_some_iff.mp hfound
    exact ⟨hd, hlacks⟩
  · rintro ⟨hc, hlacks⟩
    exact ⟨c, hc, forgotten?_eq_some_iff.mpr ⟨rfl, hlacks⟩⟩

/-- At most one constructor is found for a class. -/
theorem sublist_forgotten (s : Subject) (places : List Place) :
    ((places.filterMap (forgotten? s)).map Prod.fst).Sublist places := by
  induction places with
  | nil => exact List.Sublist.refl _
  | cons c places ih =>
    rw [List.filterMap_cons]
    cases hfound : forgotten? s c with
    | none => exact ih.cons c
    | some entry =>
      obtain ⟨rfl, -⟩ := forgotten?_eq_some_iff.mp hfound
      exact ih.cons_cons entry.1

/-- The check reports the constructors whose bodies hold no call of the constructor of a base class,
    one for a class at most. These are those that do not call it for their own class exactly if none
    of the latter holds such a call in a nested class. -/
theorem reported_constructors (s : Subject) :
    ∃ found : List (Place × Place),
      Rule.missingParentConstructor.among (constructors s) =
        found.map (fun entry => forgottenIssue s entry.1 entry.2) ∧
      (found.map Prod.fst).Sublist (classPlaces s) ∧
      (∀ c constructor, (c, constructor) ∈ found ↔
        c ∈ classPlaces s ∧ LacksCall s c constructor) ∧
      ((∀ c constructor, (c, constructor) ∈ found ↔
          c ∈ classPlaces s ∧ LacksOwnCall s c constructor) ↔
        ∀ c ∈ classPlaces s, ∀ constructor,
          LacksOwnCall s c constructor → LacksCall s c constructor) := by
  refine ⟨(classPlaces s).filterMap (forgotten? s), (among_constructors s).1,
    sublist_forgotten s (classPlaces s), fun _ _ => mem_forgotten_iff, ?_⟩
  constructor
  · intro hclaim c hc constructor hlacks
    exact (mem_forgotten_iff.mp ((hclaim c constructor).mpr ⟨hc, hlacks⟩)).2
  · intro hown c constructor
    rw [mem_forgotten_iff]
    exact and_congr_right fun hc => ⟨LacksCall.lacksOwnCall, hown c hc constructor⟩

/-! ## A call in a nested class -/

/-- The body of a constructor, in which an anonymous class calls the constructor of its own base. Of
    the tree there is only what the check looks at. -/
def nestedBody : Node :=
  let node := Node.onSecondLine
  node "compound_statement" (some "body") 53 136
    [node "anonymous_class" none 64 133
      [node "base_clause" none 70 79 [node "name" none 78 79 []],
      node "declaration_list" (some "body") 80 133
        [node "method_declaration" none 82 131
          [node "name" (some "name") 91 102 [],
          node "compound_statement" (some "body") 105 131
            [node "scoped_call_expression" none 107 128
              [node "relative_scope" (some "scope") 107 113 [],
              node "name" (some "name") 115 126 []]]]]]]

/-- The constructor. -/
def nestedConstructor : Node :=
  Node.onSecondLine "method_declaration" none 30 136
    [Node.onSecondLine "name" (some "name") 39 50 [], nestedBody]

/-- The list of members that holds the constructor alone. -/
def nestedMembers : Node :=
  Node.onSecondLine "declaration_list" (some "body") 28 138 [nestedConstructor]

/-- The class of the constructor. -/
def nestedClass : Node :=
  Node.onSecondLine "class_declaration" none 6 138
    [Node.onSecondLine "name" (some "name") 12 13 [],
    Node.onSecondLine "base_clause" none 14 27 [Node.onSecondLine "name" none 22 27 []],
    nestedMembers]

/-- The tree of the class. -/
def nestedTree : Node := Node.onSecondLine "program" none 6 138 [nestedClass]

/-- The subject with that tree. -/
def nestedSubject : Subject :=
  let text := "<?php\nclass A extends Model \x7b function __construct() \x7b $o = new class ".toList ++
    "extends B \x7b function __construct() \x7b parent::__construct(); \x7d \x7d; \x7d \x7d\n".toList
  .ofSource "app/X.php" ⟨.php, text, some nestedTree, none⟩ .model Subject.defaultRadius

/-- The place of the class. -/
def nestedPlace : Place := ⟨nestedClass, [⟨nestedTree, 0⟩]⟩

/-- The place of its constructor. -/
def nestedConstructorPlace : Place :=
  ⟨nestedConstructor, ⟨nestedMembers, 0⟩ :: ⟨nestedClass, 2⟩ :: nestedPlace.above⟩

/-- The place of the body. -/
def nestedBodyPlace : Place :=
  ⟨nestedBody, ⟨nestedConstructor, 1⟩ :: nestedConstructorPlace.above⟩

theorem classPlaces_nestedSubject : classPlaces nestedSubject = [nestedPlace] := rfl

theorem mustChain_nested :
    MustChain nestedSubject nestedPlace nestedConstructorPlace nestedBodyPlace where
  hasBase := by decide +kernel
  baseConstructs := .inl (by decide)
  isFirst := by
    have hmethods : methodPlaces nestedPlace = [nestedConstructorPlace] := rfl
    have hname : isConstructorName (nestedConstructor.name nestedSubject.content) = true := by
      decide +kernel
    rw [hmethods]
    exact List.find?_cons_of_pos hname
  hasBody := rfl

/-- The constructor does not call that of the base class. It is not reported, because of the call in
    the nested class. -/
theorem nested_call_hides_constructor :
    (∃ c ∈ classPlaces nestedSubject, ∃ constructor, LacksOwnCall nestedSubject c constructor) ∧
      constructors nestedSubject = [] := by
  -- the body holds one call, and the class around it is the anonymous one
  have hcalls : (nestedBodyPlace.subtree.filter fun p => callsBase nestedSubject p.node).map
      (fun p => (classAround? p).map fun c => c.node.kind) = [some "anonymous_class"] := by
    decide +kernel
  constructor
  · refine ⟨nestedPlace, List.mem_singleton.mpr rfl, nestedConstructorPlace, nestedBodyPlace,
      mustChain_nested, fun p hp hcall haround => ?_⟩
    have hmem : p ∈ nestedBodyPlace.subtree.filter fun p => callsBase nestedSubject p.node :=
      List.mem_filter.mpr ⟨hp, hcall⟩
    have hkind : ((classAround? p).map fun c => c.node.kind) ∈ [some "anonymous_class"] :=
      hcalls ▸ List.mem_map_of_mem hmem
    rw [haround, List.mem_singleton] at hkind
    exact absurd hkind (by decide)
  · have hbody : callsBaseConstructor nestedSubject.content nestedBodyPlace.node = true := by
      obtain ⟨p, hp, -⟩ := List.exists_of_mem_map (hcalls ▸ List.mem_singleton_self _)
      rw [callsBaseConstructor_eq_any]
      exact List.any_eq_true.mpr ⟨p, List.mem_filter.mp hp⟩
    have hfound : forgotten? nestedSubject nestedPlace = none := by
      rw [forgotten?, constructorOf?_eq_some_iff.mpr mustChain_nested, Option.bind_some,
        if_pos hbody]
    have hbase := mustChain_nested.hasBase
    rw [constructors, classes_eq, classPlaces_nestedSubject, List.map_singleton,
      List.flatMap_singleton, if_pos hbase, forgottenBase_declared hbase, hfound]
    rfl

end Check.Hierarchy

end CodeAudit
