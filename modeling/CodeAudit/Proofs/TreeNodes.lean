import CodeAudit.SyntaxTree.Call

/-!
# Nodes of a tree

The nodes of a tree are those of its pre-order. They are closed under everything that the checks do
to come from one node to another: children, fields, bodies of loops, walks that leave out some
branches, and calls.

Results:
* `Node.induction`: what holds of a node whenever it holds of its children holds of every node.
* `mem_preorder_trans`: the nodes of a subtree are nodes of the tree.
* `mem_preorder_of_mem_pruned`: a walk that leaves out branches meets nodes of the tree only.
-/

namespace CodeAudit.SyntaxTree.Node

/-- Trees are made of smaller ones. -/
theorem induction {P : Node → Prop}
    (h : ∀ label children, (∀ child ∈ children, P child) → P (mk label children)) :
    ∀ node, P node
  | mk label children => h label children fun child _ => induction h child
termination_by node => sizeOf node
decreasing_by
  rename_i hchild
  exact sizeOf_lt_of_mem_children hchild

/-! ## Pre-order -/

theorem preorderAll_eq_flatMap (nodes : List Node) :
    preorderAll nodes = nodes.flatMap preorder := by
  induction nodes with
  | nil => rw [preorderAll, List.flatMap_nil]
  | cons node rest ih => rw [preorderAll, ih, List.flatMap_cons]

theorem prunedAll_eq_flatMap (enters : Label → Bool) (nodes : List Node) :
    prunedAll enters nodes = nodes.flatMap (pruned enters) := by
  induction nodes with
  | nil => rw [prunedAll, List.flatMap_nil]
  | cons node rest ih => rw [prunedAll, ih, List.flatMap_cons]

theorem pruned_eq (enters : Label → Bool) (node : Node) :
    node.pruned enters =
      node :: if enters node.label then node.children.flatMap (pruned enters) else [] := by
  cases node with
  | mk label children => rw [pruned, prunedAll_eq_flatMap, Node.label, Node.children]

theorem mem_preorder_iff {node root : Node} :
    node ∈ root.preorder ↔ node = root ∨ ∃ child ∈ root.children, node ∈ child.preorder := by
  cases root with
  | mk label children =>
    rw [preorder, preorderAll_eq_flatMap, List.mem_cons, List.mem_flatMap, Node.children]

theorem mem_preorder_self (node : Node) : node ∈ node.preorder :=
  mem_preorder_iff.mpr (.inl rfl)

theorem mem_preorder_of_mem_children {node child : Node} (h : child ∈ node.children) :
    child ∈ node.preorder :=
  mem_preorder_iff.mpr (.inr ⟨child, h, child.mem_preorder_self⟩)

theorem mem_preorder_trans {root middle node : Node} (hmiddle : middle ∈ root.preorder)
    (hnode : node ∈ middle.preorder) : node ∈ root.preorder := by
  induction root using induction with
  | h label children ih =>
    rcases mem_preorder_iff.mp hmiddle with rfl | ⟨child, hchild, hbelow⟩
    · exact hnode
    · exact mem_preorder_iff.mpr (.inr ⟨child, hchild, ih child hchild hbelow⟩)

theorem mem_preorder_of_mem_pruned {enters : Label → Bool} {root node : Node}
    (h : node ∈ root.pruned enters) : node ∈ root.preorder := by
  induction root using induction with
  | h label children ih =>
    rw [pruned, prunedAll_eq_flatMap] at h
    rcases List.mem_cons.mp h with rfl | hbelow
    · exact mem_preorder_self _
    · split at hbelow
      · obtain ⟨child, hchild, hnode⟩ := List.mem_flatMap.mp hbelow
        exact mem_preorder_iff.mpr (.inr ⟨child, hchild, ih child hchild hnode⟩)
      · exact absurd hbelow List.not_mem_nil

/-! ## From node to node -/

theorem mem_children_of_mem_namedChildren {node child : Node} (h : child ∈ node.namedChildren) :
    child ∈ node.children :=
  (List.mem_filter.mp h).1

theorem mem_children_of_loopBody? {node body : Node} (h : node.loopBody? = some body) :
    body ∈ node.children := by
  unfold loopBody? at h
  cases hfield : node.field? "body" with
  | some child =>
    rw [hfield, Option.orElse_some, Option.some.injEq] at h
    exact h ▸ mem_children_of_field? hfield
  | none =>
    rw [hfield, Option.orElse_none] at h
    exact mem_children_of_mem_namedChildren (List.mem_of_getLast? h)

theorem node_of_callSite? {node : Node} {site : CallSite} (h : node.callSite? = some site) :
    site.node = node := by
  unfold callSite? at h
  simp only [Option.bind_eq_some_iff, Option.map_eq_some_iff] at h
  obtain ⟨form, -, target, -, method, -, rfl⟩ := h
  rfl

theorem mem_preorder_of_mem_callSites {node : Node} {site : CallSite} (h : site ∈ node.callSites) :
    site.node ∈ node.preorder := by
  obtain ⟨caller, hcaller, hsite⟩ := List.mem_filterMap.mp h
  rw [node_of_callSite? hsite]
  exact hcaller

/-! ## Trees of one line -/

/-- A node on the second line of a text, the first line of which has six bytes. -/
def onSecondLine (kind : String) (field : Option String) (start stop : Nat)
    (children : List Node) : Node :=
  .mk ⟨kind, true, false, false, false, ⟨start, 1, start - 6⟩, ⟨stop, 1, stop - 6⟩, field⟩ children

end CodeAudit.SyntaxTree.Node
