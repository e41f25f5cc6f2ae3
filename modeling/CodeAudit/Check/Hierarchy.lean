import CodeAudit.Check.Subject
import CodeAudit.SyntaxTree.Call

/-!
# Class hierarchies

Constructors that forget the base class, calls to a base class that is not there, empty overrides,
wide lists of interfaces, and abstract classes with nothing abstract. All of it needs a tree.
-/

namespace CodeAudit.Check.Hierarchy

open Text SyntaxTree

/-- The most interfaces that are accepted on one class (`MAX_INTERFACES`). -/
def maxInterfaces : Nat := 5

/-- Roles whose base class has a constructor (`CONSTRUCTED_BASES`). -/
def constructedRoles : List Role := [.model, .command, .request, .provider, .test]

/-! ## Class declarations -/

/-- The declaration of a class with a name (`ClassDecl`). -/
structure ClassDeclaration where
  node : Node
  name : List Char
  base : Option (List Char)
  body : Option Node

namespace ClassDeclaration

/-- Reads the declaration of a class. -/
def ofNode (source : List Char) (node : Node) : ClassDeclaration where
  node := node
  name := node.name source
  base := do
    let clause ← node.childOfKind? "base_clause"
    let base ← clause.namedChildren.head?
    return base.text source
  body := node.field? "body"

/-- The members of a class. -/
def members (c : ClassDeclaration) : List Node :=
  match c.body with
  | none => []
  | some body => body.namedChildren

/-- The methods of a class. -/
def methods (c : ClassDeclaration) : List Node :=
  c.members.filter fun member => member.kind == "method_declaration"

/-- The last segment of the name of the base class (`base_short`). -/
def shortBase (c : ClassDeclaration) : List Char :=
  afterLast '\\' (c.base.getD [])

end ClassDeclaration

/-- The class declarations of a file, in pre-order. -/
def classes (s : Subject) : List ClassDeclaration :=
  match s.tree with
  | none => []
  | some root =>
    (root.preorder.filter fun node => node.kind == "class_declaration").map
      (ClassDeclaration.ofNode s.content)

/-- Is the name that of a constructor, whatever the case? -/
def isConstructorName (name : List Char) : Bool :=
  lowerAscii name == "__construct".toList

/-! ## Constructors -/

/-- Does a tree call the constructor of the base class? -/
def callsBaseConstructor (source : List Char) (body : Node) : Bool :=
  body.callSites.any fun site =>
    site.isStatic && site.target.text source == "parent".toList &&
      isConstructorName (site.method.text source)

/-- A constructor that does not call that of the base class (`check_constructor`). -/
def forgottenBase (s : Subject) (c : ClassDeclaration) : List Issue :=
  if !(constructedRoles.contains s.role || endsWith "Exception" c.shortBase) then []
  else
    match c.methods.find? fun method => isConstructorName (method.name s.content) with
    | none => []
    | some constructor =>
      match constructor.field? "body" with
      | none => []
      | some body =>
        if callsBaseConstructor s.content body then []
        else
          let name := String.ofList c.name
          let base := String.ofList c.shortBase
          [((s.report .inheritance "missing_parent_constructor" .medium constructor.line
            "Parent constructor not called"
            (name ++ "::__construct() overrides " ++ base ++
              "::__construct() without calling it")
            "Call parent::__construct(...) so the framework base is initialized").withMetadata
            "class" (.str name)).withMetadata "parent" (.str base)]

/-- Is a node with this label entered when a class is searched? Classes in it are not. -/
def entersLabel (label : Label) : Bool :=
  !(label.kind == "class_declaration" || label.kind == "anonymous_class")

/-- Calls to a base class from a class that has none (`check_orphan_parent_calls`). -/
def orphanCalls (s : Subject) (c : ClassDeclaration) : List Issue :=
  let name := String.ofList c.name
  (c.members.flatMap (Node.pruned entersLabel)).filterMap fun node =>
    if node.kind == "relative_scope" && node.text s.content == "parent".toList then
      some ({ s.report .inheritance "parent_call_outside_subclass" .high node.line
          "parent:: without a parent class"
          (name ++ " does not extend a class, so parent:: fails at runtime")
          "Remove the parent:: reference or add the missing extends clause" with
        column := some node.column }.withMetadata "class" (.str name))
    else none

/-- Findings about constructors and calls to base classes. -/
def constructors (s : Subject) : List Issue :=
  (classes s).flatMap fun c =>
    if c.base.isSome then forgottenBase s c else orphanCalls s c

/-- The check of constructors (`ConstructorChain`). -/
def constructorCheck : Check := .ofPhp "constructor_chain" constructors

/-! ## Shapes -/

/-- Methods of a derived class with nothing in them (`check_empty_overrides`). -/
def emptyOverrides (s : Subject) (c : ClassDeclaration) : List Issue :=
  c.methods.filterMap fun method => do
    let name := method.name s.content
    if isConstructorName name then none
    let body ← method.field? "body"
    if !body.namedChildren.isEmpty then none
    return (s.report .inheritance "empty_override" .low method.line "Empty method in subclass"
      (String.ofList c.name ++ "::" ++ String.ofList name ++
        "() has an empty body and silently disables inherited behaviour")
      "Remove the method, or add a comment explaining why the override is a no-op").withMetadata
      "method" (.text name)

/-- A class with many interfaces (`check_interfaces`). -/
def wideInterfaces (s : Subject) (c : ClassDeclaration) : List Issue :=
  match c.node.childOfKind? "class_interface_clause" with
  | none => []
  | some clause =>
    let count := clause.namedChildren.length
    if count ≤ maxInterfaces then []
    else
      [(s.report .inheritance "too_many_interfaces" .low c.node.line "Too many interfaces"
        (String.ofList c.name ++ " implements " ++ toString count ++ " interfaces (limit " ++
          toString maxInterfaces ++ ")")
        "Split the class by responsibility").withMetadata "interfaces" (.nat count)]

/-- An abstract class with no abstract method (`check_abstract`). -/
def idleAbstract (s : Subject) (c : ClassDeclaration) : List Issue :=
  if c.node.hasChildOfKind "abstract_modifier" &&
      !(c.methods.any fun method => method.hasChildOfKind "abstract_modifier") then
    [s.report .inheritance "abstract_without_abstract_methods" .low c.node.line
      "Abstract class without abstract methods"
      (String.ofList c.name ++ " is abstract but declares no abstract method")
      "Declare the extension points as abstract, or make the class concrete"]
  else []

/-- Findings about the shapes of classes. -/
def shapes (s : Subject) : List Issue :=
  (classes s).flatMap fun c =>
    (if c.base.isSome then emptyOverrides s c else []) ++ wideInterfaces s c ++ idleAbstract s c

/-- The check of class shapes (`ClassShape`). -/
def shapeCheck : Check := .ofPhp "class_shape" shapes

end CodeAudit.Check.Hierarchy
