import CodeAudit.Source.Kind
import CodeAudit.Text.Line
import CodeAudit.SyntaxTree.Node

/-!
# Parsed files

A file after parsing. Parsing never fails: what goes wrong is recorded, and the tree is dropped, so
that checks on trees skip the file.
-/

namespace CodeAudit

open Text SyntaxTree

/-- Why a grammar gives no tree. -/
inductive GrammarFault where
  /-- The grammar cannot be used. -/
  | unavailable (reason : String)
  /-- The text makes no tree. -/
  | noTree
  deriving DecidableEq, Repr

/-- The text of a fault. -/
def GrammarFault.message : GrammarFault → String
  | unavailable reason => "grammar unavailable: " ++ reason
  | noTree => "parser produced no tree"

/-- A grammar of program text. -/
abbrev Grammar := List Char → Except GrammarFault Node

/-- Why a file has no clean tree. -/
structure ParseFailure where
  message : String
  line : Nat
  deriving DecidableEq, Repr

namespace ParseFailure

/-- The failure that an error node stands for (`describe_error`). At most forty characters of its
    first line are shown. -/
def ofNode (node : Node) (source : List Char) : ParseFailure where
  line := node.line
  message :=
    if node.label.isMissing then "Syntax error: missing " ++ node.kind
    else
      match trim ((lines (node.text source)).head?.getD []) with
      | [] => "Syntax error: unexpected end of input"
      | shown => "Syntax error near '" ++ String.ofList (shown.take 40) ++ "'"

end ParseFailure

/-- One file after parsing (`ParsedUnit`). -/
structure ParsedSource where
  kind : SourceKind
  content : List Char
  tree : Option Node
  failure : Option ParseFailure

namespace ParsedSource

/-- Parses a file (`ContentParser::parse`). Templates have no tree, and a tree with an error in it
    is dropped. -/
def parse (grammar : Grammar) (path : String) (content : List Char) : ParsedSource :=
  match SourceKind.ofPath path with
  | .blade => ⟨.blade, content, none, none⟩
  | .php =>
    match grammar content with
    | .error fault => ⟨.php, content, none, some ⟨fault.message, 1⟩⟩
    | .ok root =>
      match root.firstError? with
      | some node => ⟨.php, content, none, some (.ofNode node content)⟩
      | none => ⟨.php, content, some root, none⟩

end ParsedSource

end CodeAudit
