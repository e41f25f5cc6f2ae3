import CodeAudit.Proofs.TreeNodes
import Mathlib.Data.List.Nodup

/-!
# Places in a tree

Two nodes of a tree may be equal and still stand in different places. A place is a node together
with the steps that lead down to it, so the places of a tree are pairwise different, and each knows
what stands around it.

Walks go down from a place and may leave out what is below some nodes, the bars. What lies below a
bar and below no bar further in is the scope of the bar: the walks from its children cover it.
Whoever visits a whole tree and starts such a walk from every bar comes to each place once, by the
innermost bar around it.

Results:
* `walk_eq`, `map_node_walk`: a walk, step by step, and the nodes that it comes by.
* `nodup_walk`: no walk comes to a place twice.
* `mem_scope_iff_around?`: the scopes of a tree are the places with the same innermost bar.
-/

namespace CodeAudit.SyntaxTree

/-- A step down a tree: the node that it starts from, and the number of the child that it takes. -/
structure Step where
  parent : Node
  index : Nat

/-- A place in a tree: the node there, and the steps that lead down to it, the last one first. -/
structure Place where
  node : Node
  above : List Step

namespace Place

/-- The place of the root. -/
def top (root : Node) : Place := ⟨root, []⟩

/-- The children of a place, in order. -/
def children (p : Place) : List Place :=
  p.node.children.zipIdx.map fun entry => ⟨entry.1, ⟨p.node, entry.2⟩ :: p.above⟩

/-- The first child that fills a field. -/
def field? (p : Place) (name : String) : Option Place :=
  p.children.find? fun child => child.node.label.field == some name

/-- The children that the grammar names. -/
def namedChildren (p : Place) : List Place :=
  p.children.filter fun child => child.node.label.isNamed

mutual

/-- The places met in pre-order from a node on when only nodes that pass a test are entered, given
    the steps that lead down to the node. -/
def walkFrom (enters : Label → Bool) (above : List Step) : Node → List Place
  | .mk label children =>
    ⟨.mk label children, above⟩ ::
      if enters label then walkAll enters above (.mk label children) 0 children else []

/-- The places met from the children of a node on, the first of which has the given number. -/
def walkAll (enters : Label → Bool) (above : List Step) (parent : Node) :
    Nat → List Node → List Place
  | _, [] => []
  | index, node :: rest =>
    walkFrom enters (⟨parent, index⟩ :: above) node ++
      walkAll enters above parent (index + 1) rest

end

/-- The places met in pre-order from a place on when only nodes that pass a test are entered. A node
    that fails the test is met itself. -/
def walk (enters : Label → Bool) (p : Place) : List Place :=
  walkFrom enters p.above p.node

/-- A place and all that lie below it. -/
def subtree (p : Place) : List Place :=
  p.walk fun _ => true

/-- The innermost of the nodes that steps come by and that pass a test. -/
def outwards (test : Label → Bool) : List Step → Option Place
  | [] => none
  | step :: above =>
    if test step.parent.label then some ⟨step.parent, above⟩ else outwards test above

/-- The innermost place around a place whose node passes a test. -/
def around? (test : Label → Bool) (p : Place) : Option Place :=
  outwards test p.above

/-- What lies below a place and below no node further in that fails the test. -/
def scope (enters : Label → Bool) (p : Place) : List Place :=
  p.children.flatMap (walk enters)

/-! ## Children -/

theorem exists_step_of_mem_children {p child : Place} (h : child ∈ p.children) :
    ∃ index, child.above = ⟨p.node, index⟩ :: p.above := by
  obtain ⟨entry, -, rfl⟩ := List.mem_map.mp h
  exact ⟨entry.2, rfl⟩

theorem length_above_of_mem_children {p child : Place} (h : child ∈ p.children) :
    child.above.length = p.above.length + 1 := by
  obtain ⟨index, hindex⟩ := exists_step_of_mem_children h
  rw [hindex, List.length_cons]

theorem map_node_children (p : Place) : p.children.map node = p.node.children := by
  rw [children, List.map_map]
  exact List.zipIdx_map_fst 0 p.node.children

theorem map_node_field? (p : Place) (name : String) :
    (p.field? name).map node = p.node.field? name := by
  rw [Node.field?, ← map_node_children, List.find?_map]
  rfl

theorem map_node_namedChildren (p : Place) : p.namedChildren.map node = p.node.namedChildren := by
  rw [Node.namedChildren, ← map_node_children, List.filter_map]
  rfl

/-- The children of a place are told apart by their numbers. -/
theorem pairwise_children (p : Place) :
    p.children.Pairwise fun first second =>
      ∃ i j, i ≠ j ∧ first.above = ⟨p.node, i⟩ :: p.above ∧
        second.above = ⟨p.node, j⟩ :: p.above := by
  have hindices : (p.node.children.zipIdx.map Prod.snd).Nodup := by
    rw [List.zipIdx_map_snd]
    exact List.nodup_range'
  rw [children, List.pairwise_map]
  refine (List.pairwise_map.mp hindices).imp ?_
  intro first second hne
  exact ⟨first.2, second.2, hne, rfl, rfl⟩

/-- What holds of a place whenever it holds of its children holds of every place. -/
theorem induction {P : Place → Prop} (h : ∀ p, (∀ child ∈ p.children, P child) → P p) (p : Place) :
    P p := by
  obtain ⟨node, above⟩ := p
  induction node using Node.induction generalizing above with
  | h label children ih =>
    apply h
    intro child hchild
    obtain ⟨entry, hentry, rfl⟩ := List.mem_map.mp hchild
    exact ih entry.1 (List.fst_mem_of_mem_zipIdx hentry) _

/-! ## Walks -/

variable {enters : Label → Bool}

theorem walkAll_eq_flatMap (above : List Step) (parent : Node) (index : Nat) (nodes : List Node) :
    walkAll enters above parent index nodes =
      (nodes.zipIdx index).flatMap fun entry =>
        walkFrom enters (⟨parent, entry.2⟩ :: above) entry.1 := by
  induction nodes generalizing index with
  | nil => rw [walkAll, List.zipIdx_nil, List.flatMap_nil]
  | cons node rest ih => rw [walkAll, ih, List.zipIdx_cons, List.flatMap_cons]

theorem walk_eq (enters : Label → Bool) (p : Place) :
    p.walk enters = p :: if enters p.node.label then p.scope enters else [] := by
  obtain ⟨⟨label, nodes⟩, above⟩ := p
  rw [walk, walkFrom, walkAll_eq_flatMap, scope, children, List.flatMap_map]
  rfl

theorem mem_walk_iff {p q : Place} :
    q ∈ p.walk enters ↔ q = p ∨ enters p.node.label = true ∧ q ∈ p.scope enters := by
  rw [walk_eq, List.mem_cons]
  split <;> simp_all

theorem mem_scope_iff {p q : Place} :
    q ∈ p.scope enters ↔ ∃ child ∈ p.children, q ∈ child.walk enters :=
  List.mem_flatMap

theorem mem_subtree_iff {p q : Place} :
    q ∈ p.subtree ↔ q = p ∨ ∃ child ∈ p.children, q ∈ child.subtree := by
  rw [subtree, mem_walk_iff, mem_scope_iff]
  simp [subtree]

theorem mem_subtree_self (p : Place) : p ∈ p.subtree :=
  mem_subtree_iff.mpr (.inl rfl)

theorem mem_subtree_trans {p middle q : Place} (hmiddle : middle ∈ p.subtree)
    (hq : q ∈ middle.subtree) : q ∈ p.subtree := by
  induction p using induction with
  | h p ih =>
    rcases mem_subtree_iff.mp hmiddle with rfl | ⟨child, hchild, hbelow⟩
    · exact hq
    · exact mem_subtree_iff.mpr (.inr ⟨child, hchild, ih child hchild hbelow⟩)

theorem mem_subtree_of_mem_children {p child : Place} (h : child ∈ p.children) :
    child ∈ p.subtree :=
  mem_subtree_iff.mpr (.inr ⟨child, h, child.mem_subtree_self⟩)

theorem mem_subtree_of_mem_walk {p q : Place} (h : q ∈ p.walk enters) : q ∈ p.subtree := by
  induction p using induction with
  | h p ih =>
    rcases mem_walk_iff.mp h with rfl | ⟨-, hscope⟩
    · exact q.mem_subtree_self
    · obtain ⟨child, hchild, hq⟩ := mem_scope_iff.mp hscope
      exact mem_subtree_iff.mpr (.inr ⟨child, hchild, ih child hchild hq⟩)

theorem mem_subtree_of_mem_scope {p q : Place} (h : q ∈ p.scope enters) : q ∈ p.subtree := by
  obtain ⟨child, hchild, hq⟩ := mem_scope_iff.mp h
  exact mem_subtree_iff.mpr (.inr ⟨child, hchild, mem_subtree_of_mem_walk hq⟩)

/-- Every place of a walk is reached by more steps than the start. -/
theorem exists_above_of_mem_subtree {p q : Place} (h : q ∈ p.subtree) :
    ∃ way, q.above = way ++ p.above := by
  induction p using induction with
  | h p ih =>
    rcases mem_subtree_iff.mp h with rfl | ⟨child, hchild, hbelow⟩
    · exact ⟨[], rfl⟩
    · obtain ⟨way, hway⟩ := ih child hchild hbelow
      obtain ⟨index, hindex⟩ := exists_step_of_mem_children hchild
      exact ⟨way ++ [⟨p.node, index⟩], by simp [hway, hindex]⟩

theorem map_node_walk (enters : Label → Bool) (p : Place) :
    (p.walk enters).map node = p.node.pruned enters := by
  induction p using induction with
  | h p ih =>
    have hscope : (p.scope enters).map node = p.node.children.flatMap (Node.pruned enters) := by
      rw [scope, List.map_flatMap, ← map_node_children, List.flatMap_map]
      exact List.flatMap_congr ih
    rw [walk_eq, Node.pruned_eq, List.map_cons, ← hscope]
    split <;> rfl

theorem map_node_subtree (p : Place) : p.subtree.map node = p.node.preorder := by
  rw [subtree, map_node_walk]
  induction p.node using Node.induction with
  | h label nodes ih =>
    rw [Node.pruned_eq, if_pos rfl, Node.preorder, Node.preorderAll_eq_flatMap, Node.children,
      List.flatMap_congr ih]

/-- The walks from different children have no place in common. -/
theorem nodup_scope_of {p : Place} (h : ∀ child ∈ p.children, (child.walk enters).Nodup) :
    (p.scope enters).Nodup := by
  rw [scope, List.nodup_flatMap]
  refine ⟨h, p.pairwise_children.imp ?_⟩
  rintro first second ⟨i, j, hne, hfirst, hsecond⟩ q hq₁ hq₂
  obtain ⟨way₁, hway₁⟩ := exists_above_of_mem_subtree (mem_subtree_of_mem_walk hq₁)
  obtain ⟨way₂, hway₂⟩ := exists_above_of_mem_subtree (mem_subtree_of_mem_walk hq₂)
  have hsame : way₁ ++ first.above = way₂ ++ second.above := hway₁.symm.trans hway₂
  have hlength : first.above.length = second.above.length := by simp [hfirst, hsecond]
  have habove := (List.append_inj' hsame hlength).2
  rw [hfirst, hsecond] at habove
  simp [hne] at habove

theorem nodup_walk (enters : Label → Bool) (p : Place) : (p.walk enters).Nodup := by
  induction p using induction with
  | h p ih =>
    rw [walk_eq, List.nodup_cons]
    constructor
    · intro hp
      -- below the place all are reached by more steps
      have hscope : p ∈ p.scope enters := by
        split at hp
        · exact hp
        · cases hp
      obtain ⟨child, hchild, hq⟩ := mem_scope_iff.mp hscope
      obtain ⟨way, hway⟩ := exists_above_of_mem_subtree (mem_subtree_of_mem_walk hq)
      obtain ⟨index, hindex⟩ := exists_step_of_mem_children hchild
      have hlength := congrArg List.length hway
      simp only [hindex, List.length_append, List.length_cons] at hlength
      omega
    · split
      · exact nodup_scope_of ih
      · exact List.nodup_nil

theorem nodup_scope (enters : Label → Bool) (p : Place) : (p.scope enters).Nodup :=
  nodup_scope_of fun child _ => child.nodup_walk enters

/-! ## Innermost bars -/

/-- The node of a place is a bar for a walk. -/
abbrev Bars (enters : Label → Bool) (p : Place) : Prop := enters p.node.label = false

theorem around?_child {p child : Place} (h : child ∈ p.children) :
    child.around? (fun label => !enters label) =
      if enters p.node.label then p.around? (fun label => !enters label) else some p := by
  obtain ⟨index, hindex⟩ := exists_step_of_mem_children h
  rw [around?, hindex, outwards]
  cases enters p.node.label <;> rfl

/-- A walk goes by no bar. -/
theorem around?_of_mem_walk {p q : Place} (h : q ∈ p.walk enters) :
    q.around? (fun label => !enters label) = p.around? fun label => !enters label := by
  induction p using induction with
  | h p ih =>
    rcases mem_walk_iff.mp h with rfl | ⟨henters, hscope⟩
    · rfl
    · obtain ⟨child, hchild, hq⟩ := mem_scope_iff.mp hscope
      rw [ih child hchild hq, around?_child hchild, if_pos henters]

theorem around?_of_mem_scope {bar q : Place} (hbar : bar.Bars enters) (h : q ∈ bar.scope enters) :
    q.around? (fun label => !enters label) = some bar := by
  obtain ⟨child, hchild, hq⟩ := mem_scope_iff.mp h
  rw [around?_of_mem_walk hq, around?_child hchild, hbar]
  rfl

/-- The walk from a place and the scopes below it come to everything. -/
theorem mem_walk_or_mem_scope (enters : Label → Bool) {p q : Place} (h : q ∈ p.subtree) :
    q ∈ p.walk enters ∨ ∃ bar ∈ p.subtree, bar.Bars enters ∧ q ∈ bar.scope enters := by
  induction p using induction with
  | h p ih =>
    rcases mem_subtree_iff.mp h with rfl | ⟨child, hchild, hbelow⟩
    · exact .inl (mem_walk_iff.mpr (.inl rfl))
    rcases ih child hchild hbelow with hwalk | ⟨bar, hbar, hbars, hq⟩
    · have hscope : q ∈ p.scope enters := mem_scope_iff.mpr ⟨child, hchild, hwalk⟩
      cases henters : enters p.node.label with
      | true => exact .inl (mem_walk_iff.mpr (.inr ⟨henters, hscope⟩))
      | false => exact .inr ⟨p, p.mem_subtree_self, henters, hscope⟩
    · exact .inr ⟨bar, mem_subtree_trans (mem_subtree_of_mem_children hchild) hbar, hbars, hq⟩

/-- What belongs to a bar and lies below a place further in is met by the walk from that place. Any
    bar on the way to it would be the innermost one and stand too deep. -/
theorem mem_walk_of_around? {bar p q : Place} (hdeeper : bar.above.length < p.above.length)
    (haround : q.around? (fun label => !enters label) = some bar) (hq : q ∈ p.subtree) :
    q ∈ p.walk enters := by
  rcases mem_walk_or_mem_scope enters hq with hwalk | ⟨inner, hinner, hbars, hscope⟩
  · exact hwalk
  · have hsame := around?_of_mem_scope hbars hscope
    rw [haround, Option.some.injEq] at hsame
    subst hsame
    obtain ⟨way, hway⟩ := exists_above_of_mem_subtree hinner
    have hlength : bar.above.length = way.length + p.above.length := by
      rw [hway, List.length_append]
    omega

/-- The innermost bar around a place of a tree is the one in whose scope it lies. -/
theorem mem_scope_iff_around? {root : Node} {bar q : Place} :
    bar ∈ (top root).subtree ∧ bar.Bars enters ∧ q ∈ bar.scope enters ↔
      q ∈ (top root).subtree ∧ q.around? (fun label => !enters label) = some bar := by
  constructor
  · rintro ⟨hbar, hbars, hq⟩
    exact ⟨mem_subtree_trans hbar (mem_subtree_of_mem_scope hq), around?_of_mem_scope hbars hq⟩
  · rintro ⟨hq, haround⟩
    rcases mem_walk_or_mem_scope enters hq with hwalk | ⟨other, hother, hbars, hscope⟩
    · rw [around?_of_mem_walk hwalk] at haround
      cases haround
    · rw [around?_of_mem_scope hbars hscope, Option.some.injEq] at haround
      subst haround
      exact ⟨hother, hbars, hscope⟩

end Place

end CodeAudit.SyntaxTree
