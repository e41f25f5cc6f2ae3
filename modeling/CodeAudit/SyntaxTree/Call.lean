import CodeAudit.SyntaxTree.Node

/-!
# Calls, loops and functions

The kinds of node that the checks look for.
-/

namespace CodeAudit.SyntaxTree

/-- A method call. The target is the receiver of a dynamic call and the class of a
    static one. -/
structure CallSite where
  node : Node
  target : Node
  method : Node
  isStatic : Bool
  deriving Inhabited

namespace Node

/-- Is the node a method or a function (`is_function_like`)? -/
def isFunctionLike (node : Node) : Bool :=
  node.kind == "method_declaration" || node.kind == "function_definition"

/-- Is the node a loop (`is_loop`)? -/
def isLoop (node : Node) : Bool :=
  ["foreach_statement", "for_statement", "while_statement", "do_statement"].contains node.kind

/-- The name of a function, a method or a class (`name_of`). -/
def name (node : Node) (source : List Char) : List Char :=
  match node.field? "name" with
  | some child => child.text source
  | none => "<anonymous>".toList

/-- The body of a loop: the field of that name, or else the last child that the grammar names
    (`loop_body`). -/
def loopBody? (node : Node) : Option Node :=
  (node.field? "body").orElse fun _ => node.namedChildren.getLast?

/-- The field that holds the target of a call of this kind, and whether the call is static. -/
def targetField? : String → Option (String × Bool)
  | "scoped_call_expression" => some ("scope", true)
  | "member_call_expression" => some ("object", false)
  | "nullsafe_member_call_expression" => some ("object", false)
  | _ => none

/-- The call that a node makes, when it is a method call with a target and a name (`call_site`). -/
def callSite? (node : Node) : Option CallSite :=
  (targetField? node.kind).bind fun form =>
    (node.field? form.1).bind fun target =>
      (node.field? "name").map fun method => ⟨node, target, method, form.2⟩

theorem sizeOf_lt_of_mem_children {node child : Node} (h : child ∈ node.children) :
    sizeOf child < sizeOf node := by
  cases node with
  | mk label children =>
    have : sizeOf child < sizeOf children := List.sizeOf_lt_of_mem h
    simp only [mk.sizeOf_spec]
    omega

theorem mem_children_of_field? {node child : Node} {name : String}
    (h : node.field? name = some child) : child ∈ node.children :=
  List.mem_of_find?_eq_some h

/-- The target of a call is smaller than the call, so chains of calls end. -/
theorem sizeOf_target_lt {node : Node} {site : CallSite} (h : node.callSite? = some site) :
    sizeOf site.target < sizeOf node := by
  unfold callSite? at h
  simp only [Option.bind_eq_some_iff, Option.map_eq_some_iff] at h
  obtain ⟨form, -, target, htarget, method, -, rfl⟩ := h
  exact sizeOf_lt_of_mem_children (mem_children_of_field? htarget)

/-- The method calls in a tree, in pre-order. -/
def callSites (node : Node) : List CallSite :=
  node.preorder.filterMap callSite?

end Node

end CodeAudit.SyntaxTree
