import CodeAudit.Check.LoopQuery
import CodeAudit.Proofs.FirstPerKey
import CodeAudit.Proofs.TreeNodes
import Mathlib.Data.List.Nodup

/-!
# Queries in the bodies of loops

The check of queries in loops looks at one node for each loop, and reports the calls in it that run
a query, one for each byte at which such calls begin. A call in nested loops is met once for each
loop around it, and the calls of a chain begin at one byte; neither makes a second report.

The node that is looked at is the first one that fills the field of the body, or the last one that
the grammar names. The body of a loop is all that fills that field: a loop without a body is
searched in its head, and of a body of several statements only the first is searched.

Results:
* `chainWalk_iff`: the walk down a chain of calls ends, with the answer of `buildsQuery`.
* `run_eq`: the reports are those of the first query at each byte, by line.
* `run_reports_queries`: which queries are reported, and when these are those in bodies of loops.
* `header_query_reported`: a query in the head of a loop that is reported.
-/

namespace CodeAudit

open SyntaxTree

/-- What fills the field of the body in a loop. -/
def SyntaxTree.Node.bodyParts (loop : Node) : List Node :=
  loop.children.filter fun child => child.label.field == some "body"

namespace Check.LoopQuery

variable {s : Subject} {source : List Char} {node loop : Node} {byte : Nat}

/-! ## Chains of calls -/

/-- Does the method of a call make the chain a query? -/
def isBuilder (source : List Char) (site : CallSite) : Bool :=
  Text.beginsWith "where" (site.method.text source) ||
    builders.contains (String.ofList (site.method.text source))

/-- The walk down a chain of calls, from the last call to the first, and the answer that it ends
    with. -/
inductive ChainWalk (source : List Char) : Node → Bool → Prop
  | other {node : Node} (hcall : node.callSite? = none) : ChainWalk source node false
  | builder {node : Node} {site : CallSite} (hcall : node.callSite? = some site)
    (hbuilder : isBuilder source site = true) : ChainWalk source node true
  | scope {node : Node} {site : CallSite} (hcall : node.callSite? = some site)
    (hbuilder : isBuilder source site = false) (hstatic : site.isStatic = true) :
    ChainWalk source node (isQueryScope (site.target.text source))
  | receiver {node : Node} {site : CallSite} {answer : Bool} (hcall : node.callSite? = some site)
    (hbuilder : isBuilder source site = false) (hstatic : site.isStatic = false)
    (htarget : ChainWalk source site.target answer) : ChainWalk source node answer

theorem buildsQuery_of_none (hcall : node.callSite? = none) :
    buildsQuery source node = false := by
  rw [buildsQuery]
  split
  · rfl
  · simp_all

/-- One step of the walk. -/
theorem buildsQuery_of_some {site : CallSite} (hcall : node.callSite? = some site) :
    buildsQuery source node =
      (if isBuilder source site then true
      else if site.isStatic then isQueryScope (site.target.text source)
      else buildsQuery source site.target) := by
  rw [buildsQuery]
  split
  · simp_all
  · rename_i site' hcall'
    obtain rfl : site = site' := Option.some.inj (hcall.symm.trans hcall')
    rfl

theorem chainWalk_buildsQuery (source : List Char) (node : Node) :
    ChainWalk source node (buildsQuery source node) := by
  cases hcall : node.callSite? with
  | none =>
    rw [buildsQuery_of_none hcall]
    exact .other hcall
  | some site =>
    rw [buildsQuery_of_some hcall]
    cases hbuilder : isBuilder source site with
    | true => exact .builder hcall hbuilder
    | false =>
      cases hstatic : site.isStatic with
      | true => exact .scope hcall hbuilder hstatic
      | false => exact .receiver hcall hbuilder hstatic (chainWalk_buildsQuery source site.target)
termination_by sizeOf node
decreasing_by exact Node.sizeOf_target_lt hcall

/-- The walk down a chain ends in one way. -/
theorem chainWalk_iff {answer : Bool} :
    ChainWalk source node answer ↔ buildsQuery source node = answer := by
  constructor
  · intro hwalk
    induction hwalk with
    | other hcall => exact buildsQuery_of_none hcall
    | builder hcall hbuilder => rw [buildsQuery_of_some hcall, if_pos hbuilder]
    | scope hcall hbuilder hstatic =>
      rw [buildsQuery_of_some hcall, hbuilder, if_neg Bool.false_ne_true, if_pos hstatic]
    | receiver hcall hbuilder hstatic _ ih =>
      rw [buildsQuery_of_some hcall, hbuilder, hstatic, if_neg Bool.false_ne_true,
        if_neg Bool.false_ne_true, ih]
  · rintro rfl
    exact chainWalk_buildsQuery source node

/-! ## Queries -/

/-- A call that runs a query, and how it is shown. -/
structure Query where
  site : CallSite
  shown : String

/-- The byte at which a query begins. -/
def Query.start (query : Query) : Nat := query.site.node.label.start.byte

/-- The report of a query. -/
def Query.issue (s : Subject) (query : Query) : Issue := LoopQuery.issue s query.site query.shown

@[simp] theorem Query.line_issue (s : Subject) (query : Query) :
    (query.issue s).line = query.site.node.line := by
  show max (query.site.node.label.start.row + 1) 1 = query.site.node.label.start.row + 1
  omega

/-- The queries below a node, in pre-order. -/
def queriesBelow (s : Subject) (node : Node) : List Query :=
  node.callSites.filterMap fun site => (queryText? s.content site).map (Query.mk site)

theorem mem_queriesBelow_iff {query : Query} :
    query ∈ queriesBelow s node ↔
      query.site ∈ node.callSites ∧ queryText? s.content query.site = some query.shown := by
  obtain ⟨site, shown⟩ := query
  simp only [queriesBelow, List.mem_filterMap, Option.map_eq_some_iff, Query.mk.injEq]
  constructor
  · rintro ⟨_, hsite, _, hshown, rfl, rfl⟩
    exact ⟨hsite, hshown⟩
  · rintro ⟨hsite, hshown⟩
    exact ⟨site, hsite, shown, hshown, rfl, rfl⟩

/-- The loops of a subject, nested ones too. -/
def loops (s : Subject) : List Node :=
  match s.tree with
  | none => []
  | some root => root.preorder.filter Node.isLoop

/-- Does a query begin at a byte in one of the nodes that are taken for the body of a loop? -/
def QueriedIn (s : Subject) (bodies : Node → List Node) (byte : Nat) : Prop :=
  ∃ loop ∈ loops s, ∃ body ∈ bodies loop, ∃ site ∈ body.callSites,
    (queryText? s.content site).isSome ∧ site.node.label.start.byte = byte

/-- The node that the check takes for the body of a loop. -/
def searched (loop : Node) : List Node := loop.loopBody?.toList

theorem queriedIn_iff {bodies : Node → List Node} :
    QueriedIn s bodies byte ↔
      byte ∈ (((loops s).flatMap bodies).flatMap (queriesBelow s)).map Query.start := by
  simp only [QueriedIn, List.mem_map, List.mem_flatMap, mem_queriesBelow_iff,
    Option.isSome_iff_exists]
  constructor
  · rintro ⟨loop, hloop, body, hbody, site, hsite, ⟨shown, hshown⟩, rfl⟩
    exact ⟨⟨site, shown⟩, ⟨body, ⟨loop, hloop, hbody⟩, hsite, hshown⟩, rfl⟩
  · rintro ⟨query, ⟨body, ⟨loop, hloop, hbody⟩, hsite, hshown⟩, rfl⟩
    exact ⟨loop, hloop, body, hbody, query.site, hsite, ⟨query.shown, hshown⟩, rfl⟩

/-! ## Reports -/

/-- The queries that are found, as often as there are loops around them. -/
def found (s : Subject) : List Query :=
  ((loops s).flatMap searched).flatMap (queriesBelow s)

/-- The first query at each byte. -/
def firsts (s : Subject) : List Query :=
  firstPerKey [] ((found s).map fun query => (query.start, query))

/-- The reports of the queries below a node, with the bytes at which they begin. -/
theorem map_queriesBelow (s : Subject) (node : Node) :
    (queriesBelow s node).map (fun query => (query.start, query.issue s)) =
      node.callSites.filterMap fun site => (queryText? s.content site).map fun shown =>
        (site.node.label.start.byte, issue s site shown) := by
  rw [queriesBelow, List.map_filterMap]
  refine List.filterMap_congr fun site _ => ?_
  rw [Option.map_map]
  rfl

theorem run_eq_firstPerKey (s : Subject) :
    run s = (firstPerKey [] ((found s).map fun query => (query.start, query.issue s))).mergeSort
      fun a b => a.line ≤ b.line := by
  rw [found, loops, run]
  cases s.tree with
  | none => rw [List.flatMap_nil, List.flatMap_nil, List.map_nil, firstPerKey, List.mergeSort_nil]
  | some root =>
    have hbodies : loopBodies root = (root.preorder.filter Node.isLoop).flatMap searched :=
      List.filterMap_eq_flatMap_toList _ _
    simp only [hbodies, List.map_flatMap, map_queriesBelow]

/-- The first query at each byte is reported, and the reports are sorted by line. -/
theorem run_eq (s : Subject) :
    run s = ((firsts s).mergeSort fun a b => a.site.node.line ≤ b.site.node.line).map
      (Query.issue s) := by
  have hsorted : ((firsts s).mergeSort fun a b => a.site.node.line ≤ b.site.node.line).map
      (Query.issue s) = ((firsts s).map (Query.issue s)).mergeSort fun a b => a.line ≤ b.line := by
    apply List.map_mergeSort
    intro a _ b _
    rw [Query.line_issue, Query.line_issue]
  rw [hsorted, firsts, map_firstPerKey, List.map_map, run_eq_firstPerKey]
  rfl

theorem mem_found_of_mem_firsts {query : Query} (h : query ∈ firsts s) : query ∈ found s := by
  obtain ⟨key, hpair⟩ := mem_of_mem_firstPerKey h
  obtain ⟨query', hquery, heq⟩ := List.mem_map.mp hpair
  cases heq
  exact hquery

theorem nodup_start_firsts (s : Subject) : ((firsts s).map Query.start).Nodup := by
  rw [List.Nodup, List.pairwise_map]
  refine pairwise_firstPerKey [] _ fun p hp q hq hne => ?_
  obtain ⟨a, -, rfl⟩ := List.mem_map.mp hp
  obtain ⟨b, -, rfl⟩ := List.mem_map.mp hq
  exact hne

/-- No byte at which a query is found is lost. -/
theorem mem_start_firsts_iff : byte ∈ (firsts s).map Query.start ↔ QueriedIn s searched byte := by
  rw [queriedIn_iff, ← found]
  constructor
  · intro h
    obtain ⟨query, hquery, rfl⟩ := List.mem_map.mp h
    exact List.mem_map_of_mem (mem_found_of_mem_firsts hquery)
  · intro h
    obtain ⟨query, hquery, rfl⟩ := List.mem_map.mp h
    have hpair : (query.start, query) ∈ (found s).map fun query => (query.start, query) :=
      List.mem_map_of_mem hquery
    obtain ⟨first, hfirst, hmem⟩ :=
      exists_mem_firstPerKey hpair (List.not_mem_nil (a := query.start))
    obtain ⟨query', -, heq⟩ := List.mem_map.mp hmem
    rw [Prod.mk.injEq] at heq
    refine List.mem_map.mpr ⟨first, hfirst, ?_⟩
    rw [← heq.2, heq.1]

theorem pairwise_line_run (s : Subject) : (run s).Pairwise fun a b => a.line ≤ b.line := by
  rw [run_eq_firstPerKey]
  refine (List.pairwise_mergeSort (fun a b c hab hbc => ?_) (fun a b => ?_) _).imp
    fun h => of_decide_eq_true h
  · simp only [decide_eq_true_eq] at hab hbc ⊢
    omega
  · simp only [Bool.or_eq_true, decide_eq_true_eq]
    omega

/-! ## Bodies of loops -/

theorem head?_bodyParts (loop : Node) : loop.bodyParts.head? = loop.field? "body" :=
  List.head?_filter

/-- In a loop that has a body, part of the body is searched. -/
theorem mem_bodyParts_of_mem_searched (hbody : loop.bodyParts ≠ []) (h : node ∈ searched loop) :
    node ∈ loop.bodyParts := by
  obtain ⟨first, rest, hparts⟩ := List.exists_cons_of_ne_nil hbody
  have hfield : loop.field? "body" = some first := by
    rw [← head?_bodyParts, hparts, List.head?_cons]
  rw [searched, Node.loopBody?, hfield, Option.orElse_some, Option.toList_some,
    List.mem_singleton] at h
  rw [h, hparts]
  exact List.mem_cons_self

/-- A body of one part is searched. -/
theorem mem_searched_of_mem_bodyParts (hone : loop.bodyParts.length ≤ 1)
    (h : node ∈ loop.bodyParts) : node ∈ searched loop := by
  have hparts : loop.bodyParts = [node] := by
    obtain ⟨first, hfirst⟩ := List.length_eq_one_iff.mp
      (Nat.le_antisymm hone (List.length_pos_of_mem h))
    rw [hfirst, List.mem_singleton] at h
    rw [hfirst, h]
  have hfield : loop.field? "body" = some node := by
    rw [← head?_bodyParts, hparts, List.head?_cons]
  rw [searched, Node.loopBody?, hfield, Option.orElse_some, Option.toList_some]
  exact List.mem_singleton_self node

theorem QueriedIn.mono {bodies bodies' : Node → List Node} (h : QueriedIn s bodies byte)
    (hsub : ∀ loop ∈ loops s, ∀ body ∈ bodies loop, body ∈ bodies' loop) :
    QueriedIn s bodies' byte := by
  obtain ⟨loop, hloop, body, hbody, hquery⟩ := h
  exact ⟨loop, hloop, body, hsub loop hloop body hbody, hquery⟩

/-- For each byte at which a query begins in a node that is searched there is one report, of such a
    query, and there are no others. The reports are in the order of the lines, and the walk down
    each chain ends. If every loop has a body, then what is reported is in the body of a loop; and
    if no body has several parts, then all that is in the body of a loop is reported. -/
theorem run_reports_queries (s : Subject) :
    (∃ reported : List Query,
      run s = reported.map (Query.issue s) ∧
      (reported.map Query.start).Nodup ∧
      (∀ query ∈ reported, ∃ loop ∈ loops s, ∃ body ∈ searched loop,
        query.site ∈ body.callSites ∧ queryText? s.content query.site = some query.shown) ∧
      (∀ byte, byte ∈ reported.map Query.start ↔ QueriedIn s searched byte) ∧
      ((∀ loop ∈ loops s, loop.bodyParts ≠ []) →
        ∀ byte ∈ reported.map Query.start, QueriedIn s Node.bodyParts byte) ∧
      ((∀ loop ∈ loops s, loop.bodyParts.length ≤ 1) →
        ∀ byte, QueriedIn s Node.bodyParts byte → byte ∈ reported.map Query.start)) ∧
    (run s).Pairwise (fun a b => a.line ≤ b.line) ∧
    ∀ node answer, ChainWalk s.content node answer ↔ buildsQuery s.content node = answer := by
  refine ⟨?_, pairwise_line_run s, fun _ _ => chainWalk_iff⟩
  have hperm := List.mergeSort_perm (firsts s) fun a b => a.site.node.line ≤ b.site.node.line
  have hstarts : ∀ byte, byte ∈ ((firsts s).mergeSort fun a b =>
      a.site.node.line ≤ b.site.node.line).map Query.start ↔ QueriedIn s searched byte := by
    intro byte
    rw [(hperm.map Query.start).mem_iff, mem_start_firsts_iff]
  refine ⟨_, run_eq s, ?_, ?_, hstarts, ?_, ?_⟩
  · rw [(hperm.map Query.start).nodup_iff]
    exact nodup_start_firsts s
  · intro query hquery
    have hfound := mem_found_of_mem_firsts (hperm.mem_iff.mp hquery)
    obtain ⟨body, hbody, hbelow⟩ := List.mem_flatMap.mp hfound
    obtain ⟨loop, hloop, hsearched⟩ := List.mem_flatMap.mp hbody
    exact ⟨loop, hloop, body, hsearched, mem_queriesBelow_iff.mp hbelow⟩
  · intro hbodies byte hbyte
    exact ((hstarts byte).mp hbyte).mono fun loop hloop body hbody =>
      mem_bodyParts_of_mem_searched (hbodies loop hloop) hbody
  · intro hone byte hqueried
    exact (hstarts byte).mpr (hqueried.mono fun loop hloop body hbody =>
      mem_searched_of_mem_bodyParts (hone loop hloop) hbody)

/-! ## A query in the head of a loop -/

/-- The tree of a loop without a body that queries after every round. Of the tree there is only what
    the check looks at. -/
def headerTree : Node :=
  let node := Node.onSecondLine
  node "program" none 6 29
    [node "for_statement" none 6 29
      [node "scoped_call_expression" (some "update") 14 27
        [node "name" (some "scope") 14 18 [], node "name" (some "name") 20 24 []]]]

/-- The subject with that tree. -/
def headerSubject : Subject :=
  .ofSource "app/Support/Thing.php"
    ⟨.php, "<?php\nfor (;; User::find(1));\n".toList, some headerTree, none⟩ .plain
    Subject.defaultRadius

/-- No loop has a body, and the query in the head of the loop is reported. -/
theorem header_query_reported :
    (∀ byte, ¬ QueriedIn headerSubject Node.bodyParts byte) ∧
      (run headerSubject).map (fun i => (i.ruleName, i.line)) = [("query_in_loop", 2)] := by
  have hbodies : (loops headerSubject).flatMap Node.bodyParts = [] := by rfl
  have hlines : (firsts headerSubject).map (fun query => query.site.node.line) = [2] := by
    decide +kernel
  constructor
  · intro byte hqueried
    rw [queriedIn_iff, hbodies] at hqueried
    cases hqueried
  · obtain ⟨query, hquery, hline⟩ := List.map_eq_singleton_iff.mp hlines
    rw [run_eq, hquery, List.mergeSort_singleton, List.map_singleton, List.map_singleton,
      Query.line_issue, hline]
    rfl

end Check.LoopQuery

end CodeAudit
