import CodeAudit.Proofs.TreeNodes
import CodeAudit.Source.Parsed

/-!
# The first error of a tree

Where a grammar cannot read a text, its tree has faults: nodes that are errors, and nodes that are
missing. Every node also has a flag that says whether there is a fault in it or below. The search
for the first fault does not enter a node without the flag. If no fault is hidden below such a node,
the search finds what a look at all nodes in pre-order finds, so that a file keeps its tree exactly
if the tree is without faults.

Results:
* `firstError?_eq_find?`: the search that leaves out nodes, and the one that does not.
* `parse_of_fault`, `parse_of_sound`: what becomes of the tree of a program text.
* `faultless_trees_kept`: trees that are kept, and lines of those that are not.
-/

namespace CodeAudit

open SyntaxTree

namespace SyntaxTree.Node

/-! ## Faults and flags -/

/-- Is the node an error, or missing? -/
def isFault (node : Node) : Bool := node.label.isError || node.label.isMissing

/-- Is there a fault in the node or below? -/
def HasFault (node : Node) : Prop := ∃ fault ∈ node.preorder, fault.isFault = true

instance (node : Node) : Decidable node.HasFault :=
  inferInstanceAs (Decidable (∃ fault ∈ node.preorder, fault.isFault = true))

/-- Do exactly those nodes of the tree have the flag that have a fault in them or below? -/
def IsFlagged (root : Node) : Prop :=
  ∀ node ∈ root.preorder, node.label.hasError = true ↔ node.HasFault

instance (root : Node) : Decidable root.IsFlagged :=
  inferInstanceAs (Decidable (∀ node ∈ root.preorder, node.label.hasError = true ↔ node.HasFault))

/-- The first fault of a tree: all nodes that come before it in pre-order are without fault. -/
def IsFirstFault (root node : Node) : Prop :=
  node.isFault = true ∧
    ∃ before after, root.preorder = before ++ node :: after ∧
      ∀ earlier ∈ before, earlier.isFault = false

variable {root node : Node}

theorem not_hasFault_iff : ¬ root.HasFault ↔ ∀ node ∈ root.preorder, node.isFault = false := by
  simp only [HasFault, not_exists, not_and, Bool.not_eq_true]

theorem isFirstFault_iff : root.IsFirstFault node ↔ root.preorder.find? isFault = some node := by
  simp only [List.find?_eq_some_iff_append, IsFirstFault, Bool.not_eq_true']

theorem IsFirstFault.hasFault (h : root.IsFirstFault node) : root.HasFault := by
  obtain ⟨hfault, before, after, horder, -⟩ := h
  exact ⟨node, by simp [horder], hfault⟩

theorem find?_isFault_eq_none_iff : root.preorder.find? isFault = none ↔ ¬ root.HasFault := by
  simp only [List.find?_eq_none, not_hasFault_iff, Bool.not_eq_true]

/-! ## The search -/

theorem firstError?_mk (label : Label) (children : List Node) :
    (mk label children).firstError? =
      if (mk label children).isFault then some (mk label children)
      else if label.hasError then firstErrorIn? children else none := by
  rw [firstError?]
  rfl

/-- The search in a list of trees, one tree after the other. -/
theorem firstErrorIn?_eq_find? {nodes : List Node}
    (h : ∀ node ∈ nodes, node.firstError? = node.preorder.find? isFault) :
    firstErrorIn? nodes = (preorderAll nodes).find? isFault := by
  induction nodes with
  | nil => rw [firstErrorIn?, preorderAll, List.find?_nil]
  | cons node rest ih =>
    obtain ⟨hnode, hrest⟩ := List.forall_mem_cons.mp h
    rw [firstErrorIn?, preorderAll, List.find?_append, hnode, ih hrest]
    cases node.preorder.find? isFault <;> rfl

/-- Nodes without the flag can be left out if there is no fault below them. -/
theorem firstError?_eq_find?
    (h : ∀ node ∈ root.preorder, node.HasFault → node.label.hasError = true) :
    root.firstError? = root.preorder.find? isFault := by
  induction root using induction with
  | h label children ih =>
    have hbelow : firstErrorIn? children = (preorderAll children).find? isFault := by
      refine firstErrorIn?_eq_find? fun child hchild => ih child hchild fun node hnode => ?_
      exact h node (mem_preorder_trans (mem_preorder_of_mem_children hchild) hnode)
    rw [firstError?_mk, hbelow, preorder, List.find?_cons]
    cases hfault : (mk label children).isFault with
    | true => rw [if_pos rfl]
    | false =>
      rw [if_neg Bool.false_ne_true]
      by_cases hflag : label.hasError = true
      · rw [if_pos hflag]
      · -- the flag would be set if there were a fault below
        have hnone : ¬ (mk label children).HasFault := fun hbad =>
          hflag (h _ (mem_preorder_self _) hbad)
        have hfind := find?_isFault_eq_none_iff.mpr hnone
        rw [preorder, List.find?_cons, hfault] at hfind
        rw [if_neg hflag]
        exact hfind.symm

theorem IsFlagged.firstError?_eq_some_iff (h : root.IsFlagged) :
    root.firstError? = some node ↔ root.IsFirstFault node := by
  rw [firstError?_eq_find? fun node hnode => (h node hnode).mpr, isFirstFault_iff]

theorem IsFlagged.firstError?_eq_none_iff (h : root.IsFlagged) :
    root.firstError? = none ↔ ¬ root.HasFault := by
  rw [firstError?_eq_find? fun node hnode => (h node hnode).mpr, find?_isFault_eq_none_iff]

end SyntaxTree.Node

/-! ## Parsed files -/

namespace ParsedSource

variable {grammar : Grammar} {path : String} {content : List Char} {root node : Node}

theorem parse_of_fault (hpath : SourceKind.ofPath path = .php) (htree : grammar content = .ok root)
    (h : root.firstError? = some node) :
    parse grammar path content = ⟨.php, content, none, some (.ofNode node content)⟩ := by
  simp only [parse, hpath, htree, h]

theorem parse_of_sound (hpath : SourceKind.ofPath path = .php) (htree : grammar content = .ok root)
    (h : root.firstError? = none) :
    parse grammar path content = ⟨.php, content, some root, none⟩ := by
  simp only [parse, hpath, htree, h]

/-- Parsing records a failure or keeps a tree, or it does neither. -/
theorem tree_or_failure_eq_none (grammar : Grammar) (path : String) (content : List Char) :
    (parse grammar path content).tree = none ∨ (parse grammar path content).failure = none := by
  rw [parse]
  split
  · exact .inl rfl
  · split
    · exact .inl rfl
    · split
      · exact .inl rfl
      · exact .inr rfl

end ParsedSource

open ParsedSource

/-- In a tree with the right flags the search gives the first fault in pre-order, and nothing
    exactly if there is none. So the tree of a program text is kept exactly if it is without faults,
    and otherwise the failure is on the line of the first fault. No file has a tree and a
    failure. -/
theorem faultless_trees_kept :
    (∀ root : Node, root.IsFlagged →
      (∀ node, root.firstError? = some node ↔ root.IsFirstFault node) ∧
      (root.firstError? = none ↔ ¬ root.HasFault)) ∧
    (∀ (grammar : Grammar) (path : String) (content : List Char) (root : Node),
      SourceKind.ofPath path = .php → grammar content = .ok root → root.IsFlagged →
        ((parse grammar path content).tree = some root ↔ ¬ root.HasFault) ∧
        ((parse grammar path content).tree = none ↔ root.HasFault) ∧
        ((parse grammar path content).failure = none ↔ ¬ root.HasFault) ∧
        (root.HasFault → ∃ node failure, root.IsFirstFault node ∧
          (parse grammar path content).failure = some failure ∧
          failure.line = node.label.start.row + 1)) ∧
    ∀ (grammar : Grammar) (path : String) (content : List Char),
      (parse grammar path content).tree = none ∨ (parse grammar path content).failure = none := by
  refine ⟨fun root h => ⟨fun node => h.firstError?_eq_some_iff, h.firstError?_eq_none_iff⟩, ?_,
    tree_or_failure_eq_none⟩
  intro grammar path content root hpath htree h
  cases hfirst : root.firstError? with
  | none =>
    have hsound := h.firstError?_eq_none_iff.mp hfirst
    rw [parse_of_sound hpath htree hfirst]
    exact ⟨iff_of_true rfl hsound, iff_of_false nofun hsound, iff_of_true rfl hsound,
      fun hfault => absurd hfault hsound⟩
  | some node =>
    have hnode := h.firstError?_eq_some_iff.mp hfirst
    have hfault := hnode.hasFault
    rw [parse_of_fault hpath htree hfirst]
    exact ⟨iff_of_false nofun (not_not_intro hfault), iff_of_true rfl hfault,
      iff_of_false nofun (not_not_intro hfault), fun _ => ⟨node, _, hnode, rfl, rfl⟩⟩

/-- A program text in which a parenthesis is missing on the third line and a value on the fourth. -/
def brokenText : List Char :=
  "<?php\nfunction ok() \x7b\x7d\nfunction f( \x7b\n$x = ;\n\x7d\n".toList

/-- The tree of that text, in which the first function has no flag. -/
def brokenTree : Node :=
  let sound (kind : String) (start stop : Position) (children : List Node) : Node :=
    .mk ⟨kind, true, false, false, false, start, stop, none⟩ children
  let flagged (kind : String) (start stop : Position) (children : List Node) : Node :=
    .mk ⟨kind, true, false, false, true, start, stop, none⟩ children
  flagged "program" ⟨0, 0, 0⟩ ⟨46, 5, 0⟩
    [sound "function_definition" ⟨6, 1, 0⟩ ⟨22, 1, 16⟩
      [sound "name" ⟨15, 1, 9⟩ ⟨17, 1, 11⟩ [],
      sound "compound_statement" ⟨20, 1, 14⟩ ⟨22, 1, 16⟩ []],
    flagged "function_definition" ⟨23, 2, 0⟩ ⟨45, 4, 1⟩
      [sound "name" ⟨32, 2, 9⟩ ⟨33, 2, 10⟩ [],
      flagged "formal_parameters" ⟨33, 2, 10⟩ ⟨34, 2, 11⟩
        [.mk ⟨")", false, false, true, true, ⟨34, 2, 11⟩, ⟨34, 2, 11⟩, none⟩ []],
      flagged "compound_statement" ⟨35, 2, 12⟩ ⟨45, 4, 1⟩
        [.mk ⟨"ERROR", true, true, false, true, ⟨37, 3, 0⟩, ⟨42, 3, 5⟩, none⟩
          [sound "variable_name" ⟨37, 3, 0⟩ ⟨39, 3, 2⟩ []]]]]

/-- A tree with one function and without faults. -/
def soundTree : Node :=
  .onSecondLine "program" none 6 22 [.onSecondLine "function_definition" none 6 22 []]

/-- Of the two faults the missing parenthesis comes first, so the failure is on its line. -/
theorem faultless_trees_kept_broken :
    brokenTree.IsFlagged ∧ soundTree.IsFlagged ∧ SourceKind.ofPath "A.php" = .php ∧
    (brokenTree.preorder.filter Node.isFault).map Node.line = [3, 4] ∧
    (parse (fun _ => .ok brokenTree) "A.php" brokenText).tree = none ∧
    (∃ node failure, brokenTree.IsFirstFault node ∧
      (parse (fun _ => .ok brokenTree) "A.php" brokenText).failure = some failure ∧
      failure.line = node.label.start.row + 1 ∧ failure.line = 3) ∧
    (parse (fun _ => .ok soundTree) "A.php" brokenText).tree = some soundTree := by
  obtain ⟨-, hparse, -⟩ := faultless_trees_kept
  have hpath : SourceKind.ofPath "A.php" = .php := by decide +kernel
  have hbroken : brokenTree.IsFlagged := by decide +kernel
  have hsound : soundTree.IsFlagged := by decide +kernel
  have hfault : brokenTree.HasFault := by decide +kernel
  have hfirst : brokenTree.firstError?.map Node.line = some 3 := by decide +kernel
  obtain ⟨-, htree, -, hfailure⟩ :=
    hparse (fun _ => .ok brokenTree) "A.php" brokenText _ hpath rfl hbroken
  obtain ⟨node, failure, hnode, hrecorded, hline⟩ := hfailure hfault
  have hthree : failure.line = 3 := by
    rw [(faultless_trees_kept.1 _ hbroken).1 node |>.mpr hnode, Option.map_some] at hfirst
    exact hline.trans (Option.some.inj hfirst)
  refine ⟨hbroken, hsound, hpath, by decide +kernel, htree.mpr hfault,
    ⟨node, failure, hnode, hrecorded, hline, hthree⟩, ?_⟩
  exact (hparse (fun _ => .ok soundTree) "A.php" brokenText _ hpath rfl hsound).1.mpr
    (by decide +kernel)

end CodeAudit
