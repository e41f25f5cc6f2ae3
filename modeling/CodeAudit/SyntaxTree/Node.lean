import CodeAudit.Text.Bytes

/-!
# Syntax trees

A tree of labelled nodes over a text. A label holds the kind of the node, what the parser thinks
of it, where it stands, and the name of the field that it fills in its parent.

Trees arrive as a listing of their nodes in pre-order, each with its depth; `Node.ofEntries?`
folds a listing back into a tree.
-/

namespace CodeAudit.SyntaxTree

open Text

/-- A place in a text: the byte offset, and the row and column that it amounts to, from zero. -/
structure Position where
  byte : Nat
  row : Nat
  column : Nat
  deriving DecidableEq, Repr, Inhabited

/-- What a tree says about one node. -/
structure Label where
  kind : String
  isNamed : Bool
  isError : Bool
  isMissing : Bool
  /-- Is there an error in the node or below? -/
  hasError : Bool
  start : Position
  stop : Position
  field : Option String
  deriving DecidableEq, Repr, Inhabited

/-- A node with its children. -/
inductive Node where
  | mk (label : Label) (children : List Node)
  deriving Inhabited

namespace Node

/-- The label of a node. -/
def label : Node → Label
  | mk label _ => label

/-- The children of a node, in order. -/
def children : Node → List Node
  | mk _ children => children

/-- The kind of a node. -/
def kind (node : Node) : String := node.label.kind

/-- The line on which a node begins, from one (`line_of`). -/
def line (node : Node) : Nat := node.label.start.row + 1

/-- The column in which a node begins, from one. -/
def column (node : Node) : Nat := node.label.start.column + 1

/-- The source text of a node; empty when its ends cut a character. -/
def text (node : Node) (source : List Char) : List Char :=
  (slice? node.label.start.byte node.label.stop.byte source).getD []

/-- The first child that fills a field. -/
def field? (node : Node) (name : String) : Option Node :=
  node.children.find? fun child => child.label.field == some name

/-- The first child of a kind (`child_of_kind`). -/
def childOfKind? (node : Node) (kind : String) : Option Node :=
  node.children.find? fun child => child.kind == kind

/-- Is there a child of a kind (`has_child_kind`)? -/
def hasChildOfKind (node : Node) (kind : String) : Bool :=
  node.children.any fun child => child.kind == kind

/-- The children that the grammar names, as opposed to punctuation. -/
def namedChildren (node : Node) : List Node :=
  node.children.filter fun child => child.label.isNamed

/-! ## Orders of visit -/

mutual

/-- A node and all its descendants, parents before children (`visit`). -/
def preorder : Node → List Node
  | mk label children => mk label children :: preorderAll children

/-- All nodes of a list of trees, parents before children. -/
def preorderAll : List Node → List Node
  | [] => []
  | node :: rest => preorder node ++ preorderAll rest

end

mutual

/-- The nodes met in pre-order when only nodes that pass a test are entered (`visit_pruned`). A node
    that fails the test is met itself. -/
def pruned (enters : Label → Bool) : Node → List Node
  | mk label children =>
    mk label children :: if enters label then prunedAll enters children else []

/-- The nodes met in pre-order in a list of trees. -/
def prunedAll (enters : Label → Bool) : List Node → List Node
  | [] => []
  | node :: rest => pruned enters node ++ prunedAll enters rest

end

mutual

/-- The first node in pre-order that is an error or missing (`first_error`). Nodes without errors
    below are not entered. -/
def firstError? : Node → Option Node
  | mk label children =>
    if label.isError || label.isMissing then some (mk label children)
    else if label.hasError then firstErrorIn? children
    else none

/-- The first error in a list of trees. -/
def firstErrorIn? : List Node → Option Node
  | [] => none
  | node :: rest => (firstError? node).orElse fun _ => firstErrorIn? rest

end

end Node

/-! ## Listings -/

/-- One node of a listing in pre-order; the root has depth zero. -/
structure Entry where
  depth : Nat
  label : Label

namespace Entry

/-- Puts an entry in front of the trees that follow it: those that are deeper, up to the first one
    that is not, become its children. -/
def adopt (entry : Entry) (later : List (Nat × Node)) : List (Nat × Node) :=
  let deeper := later.takeWhile fun tree => entry.depth < tree.1
  (entry.depth, Node.mk entry.label (deeper.map (·.2))) :: later.drop deeper.length

/-- The trees of a listing, with their depths. -/
def forest (entries : List Entry) : List (Nat × Node) :=
  entries.foldr adopt []

end Entry

/-- The tree of a listing; none for the empty listing. -/
def Node.ofEntries? (entries : List Entry) : Option Node :=
  (Entry.forest entries).head?.map (·.2)

/-! ## Rows and columns -/

/-- The byte offsets at which the lines of a text begin, the last line first. -/
def lineStarts (text : List Char) : List Nat :=
  (text.foldl
    (fun (state : Nat × List Nat) c =>
      let next := state.1 + c.utf8Size
      (next, if c = '\n' then next :: state.2 else state.2))
    (0, [0])).2

/-- The position of a byte offset, given where the lines begin. -/
def positionAt (starts : List Nat) (byte : Nat) : Position :=
  match starts.dropWhile (byte < ·) with
  | [] => ⟨byte, 0, byte⟩
  | start :: before => ⟨byte, before.length, byte - start⟩

end CodeAudit.SyntaxTree
