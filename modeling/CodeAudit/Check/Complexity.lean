import CodeAudit.Check.Subject
import CodeAudit.Pattern.Build
import CodeAudit.Pattern.Search
import CodeAudit.SyntaxTree.Call

/-!
# Complexity

Deep nesting, busy conditions, long parameter lists, functions with many branches, and long
functions.
-/

namespace CodeAudit.Check.Complexity

open Text SyntaxTree

/-- The deepest nesting that is accepted (`MAX_NESTING`). -/
def maxNesting : Nat := 6

/-- The most logical operators that are accepted on one line (`MAX_CONDITIONS`). -/
def maxConditions : Nat := 3

/-- The longest parameter list that is accepted, in characters (`MAX_PARAMETER_CHARS`). -/
def maxParameterChars : Nat := 80

/-- The greatest cyclomatic complexity that is accepted (`MAX_CYCLOMATIC`). -/
def maxCyclomatic : Nat := 10

/-- The longest body of a function that is accepted, in lines (`MAX_METHOD_LINES`). -/
def maxMethodLines : Nat := 100

/-- Columns of indentation that make one level of nesting (`INDENT_PER_LEVEL`). -/
def columnsPerLevel : Nat := 4

section Patterns

open Pattern

/-- A logical operator (`LOGICAL_OP_RE`). A word operator must not be a variable or a member. -/
def logicalOperator : Pattern :=
  lit "&&" <|> lit "||" <|>
    (textStart <|> one fun c => !(isWord c || c == '$' || c == '>' || c == ':')) ++
      anyCases ["and", "or", "xor"] ++ wordEdge

/-- A function head on one line with its parameters as group one (`PARAMS_RE`). -/
def parameterList : Pattern :=
  wordEdge ++ lit "function" ++ blanks ++ opt (char '&') ++ blanks ++ many word ++ blanks ++
    char '(' ++ group 1 (many (noneOf ")")) ++ char ')'

end Patterns

/-! ## Lines -/

/-- The level of nesting that the indentation of a line shows. -/
def nesting (line : SourceLine) : Nat :=
  indentWidth line.text / columnsPerLevel

/-- The first line of every run of lines that are nested too deep (the loop of `check_nesting`).
    `inRun` tells whether the lines before them end in such a run. Blank lines and comment are
    passed over. -/
def deepRunStarts (inRun : Bool) : List SourceLine → List SourceLine
  | [] => []
  | line :: rest =>
    if isBlankLine line.text then deepRunStarts inRun rest
    else if line.isComment then deepRunStarts inRun rest
    else if nesting line ≤ maxNesting then deepRunStarts false rest
    else if inRun then deepRunStarts true rest
    else line :: deepRunStarts true rest

/-- Runs of lines that are nested too deep (`check_nesting`). Blank lines and comment do not break a
    run. -/
def deepNesting (s : Subject) : List Issue :=
  (deepRunStarts false s.lines).map fun line =>
    let depth := nesting line
    (s.report .quality "deep_nesting" .medium line.row "Deeply nested code"
      ("Code is nested " ++ toString depth ++ " levels deep (limit " ++ toString maxNesting ++ ")")
      "Use early returns or extract the inner block into a method").withMetadata "depth"
      (.nat depth)

/-- Lines with too many logical operators (`check_conditionals`). -/
def busyConditions (s : Subject) : List Issue :=
  s.codeLines.filterMap fun line =>
    let operators := (logicalOperator.findAll line.bare).length
    if operators ≤ maxConditions then none
    else
      some <| (s.report .quality "complex_conditional" .medium line.row "Complex conditional"
        ("Line combines " ++ toString operators ++ " logical operators (limit " ++
          toString maxConditions ++ ")")
        "Extract the condition into a well-named method or variable").withMetadata "operators"
        (.nat operators)

/-- Function heads with a long parameter list (`check_parameters`). -/
def longParameters (s : Subject) : List Issue :=
  s.codeLines.filterMap fun line => do
    let found ← parameterList.find? line.text
    let length := (trim (found.text 1)).length
    if length ≤ maxParameterChars then none
    else
      some <| s.report .quality "long_parameter_list" .low line.row "Long parameter list"
        ("Parameter list is " ++ toString length ++ " characters long (limit " ++
          toString maxParameterChars ++ ")")
        "Group related parameters into a value object or DTO"

/-! ## Functions -/

/-- Kinds of node that are a decision by themselves. -/
def decisionKinds : List String :=
  ["if_statement", "else_if_clause", "for_statement", "foreach_statement", "while_statement",
    "do_statement", "case_statement", "catch_clause", "conditional_expression",
    "match_conditional_expression"]

/-- Is the node a point of decision: a branch, or a logical operator (`is_decision`)? -/
def isDecision (node : Node) : Bool :=
  if node.kind == "binary_expression" then
    (node.field? "operator").any fun operator =>
      ["&&", "||", "and", "or", "xor"].contains operator.kind
  else decisionKinds.contains node.kind

/-- Is a node with this label entered when decisions are counted? Functions with a name of their
    own are not. -/
def entersLabel (label : Label) : Bool :=
  !(label.kind == "method_declaration" || label.kind == "function_definition")

/-- The number of decisions in a function, without those of functions in it (`cyclomatic`). -/
def decisions (function : Node) : Nat :=
  match function.field? "body" with
  | none => 0
  | some body => (body.pruned entersLabel).countP isDecision

/-- Findings about one function (`check_function`). -/
def functionIssues (s : Subject) (node : Node) : List Issue :=
  let name := String.ofList (node.name s.content)
  let complexity := decisions node + 1
  let branching :=
    if complexity ≤ maxCyclomatic then []
    else
      [((s.report .quality "high_cyclomatic_complexity" .medium node.line
        "High cyclomatic complexity"
        ("'" ++ name ++ "' has a cyclomatic complexity of " ++ toString complexity ++ " (limit " ++
          toString maxCyclomatic ++ ")")
        "Split the function into smaller, focused functions").withMetadata "complexity"
        (.nat complexity)).withMetadata "function" (.str name)]
  let size :=
    match node.field? "body" with
    | none => []
    | some body =>
      let length := body.label.stop.row - body.label.start.row + 1
      if length ≤ maxMethodLines then []
      else
        [((s.report .quality "long_method" .low node.line "Long method"
          ("'" ++ name ++ "' spans " ++ toString length ++ " lines (limit " ++
            toString maxMethodLines ++ ")")
          "Extract cohesive steps into private methods").withMetadata "lines"
          (.nat length)).withMetadata "function" (.str name)]
  branching ++ size

/-- Findings about all functions of the tree. -/
def functions (s : Subject) : List Issue :=
  match s.tree with
  | none => []
  | some root => (root.preorder.filter Node.isFunctionLike).flatMap (functionIssues s)

/-- Findings about complexity. -/
def run (s : Subject) : List Issue :=
  deepNesting s ++ busyConditions s ++ longParameters s ++ functions s

/-- The check of complexity (`Complexity`). -/
def check : Check := .ofPhp "complexity" run

end CodeAudit.Check.Complexity
