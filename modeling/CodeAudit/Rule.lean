import CodeAudit.Issue

/-!
# The rule catalog

Every rule that a check can report, with its category, its severity and one line about it. Users
disable rules by their names here. Checks name the rules that they report by themselves; that they
agree with the catalog is a theorem about the suites.
-/

namespace CodeAudit

/-- A rule that a check can report. -/
inductive Rule where
  | sqlInjection
  | commandInjection
  | codeInjection
  | fileInclusion
  | unsafeDeserialization
  | hardcodedCredentials
  | massAssignment
  | weakHashing
  | xssEcho
  | csrfDisabled
  | queryInLoop
  | allThenFilter
  | countOnGet
  | selectStar
  | unboundedAll
  | sleepCall
  | longLine
  | trailingWhitespace
  | mixedIndentation
  | deepNesting
  | complexConditional
  | longParameterList
  | highCyclomaticComplexity
  | longMethod
  | missingClassDoc
  | missingMethodDoc
  | singleLetterVariable
  | snakeCaseVariable
  | classNaming
  | methodNaming
  | magicNumber
  | emptyCatchBlock
  | todoComment
  | debugStatement
  | potentialUnusedVariable
  | parseError
  | scanError
  | envOutsideConfig
  | superglobalUsage
  | requestAll
  | dbFacadeInController
  | routeClosure
  | inlineValidation
  | missingParentConstructor
  | emptyOverride
  | tooManyInterfaces
  | abstractWithoutAbstractMethods
  | parentCallOutsideSubclass
  | unescapedOutput
  | missingCsrf
  | rawPhp
  | queryInView
  | unclosedDirective
  | deprecatedTripleBraces
  | inlineStyle
  deriving DecidableEq, Repr

/-- What the catalog says about a rule (`RuleInfo`). -/
structure RuleEntry where
  category : Category
  name : String
  severity : Severity
  summary : String
  deriving DecidableEq, Repr

namespace Rule

/-- The catalog entry of a rule. -/
def entry : Rule → RuleEntry
  | sqlInjection =>
    ⟨.security, "sql_injection", .critical,
      "Raw query built from interpolated or concatenated values"⟩
  | commandInjection =>
    ⟨.security, "command_injection", .critical,
      "Shell execution with a variable argument"⟩
  | codeInjection =>
    ⟨.security, "code_injection", .critical,
      "eval(), assert($...) or create_function()"⟩
  | fileInclusion =>
    ⟨.security, "file_inclusion", .critical,
      "include/require of a path built from request data"⟩
  | unsafeDeserialization =>
    ⟨.security, "unsafe_deserialization", .high,
      "unserialize() on a variable"⟩
  | hardcodedCredentials =>
    ⟨.security, "hardcoded_credentials", .high,
      "Password, secret, key or token assigned a literal"⟩
  | massAssignment =>
    ⟨.security, "mass_assignment", .high,
      "Empty $guarded or unfiltered request input mass-assigned"⟩
  | weakHashing => ⟨.security, "weak_hashing", .medium, "md5()/sha1() near password handling"⟩
  | xssEcho => ⟨.security, "xss_echo", .high, "echo/print of request data without escaping"⟩
  | csrfDisabled => ⟨.security, "csrf_disabled", .high, "CSRF verification skipped for every route"⟩
  | queryInLoop => ⟨.performance, "query_in_loop", .high, "Database query inside a loop body (N+1)"⟩
  | allThenFilter =>
    ⟨.performance, "all_then_filter", .medium,
      "::all() followed by in-memory filtering"⟩
  | countOnGet => ⟨.performance, "count_on_get", .medium, "->get()->count() instead of ->count()"⟩
  | selectStar => ⟨.performance, "select_star", .low, "SELECT * / select('*')"⟩
  | unboundedAll => ⟨.performance, "unbounded_all", .low, "::all() in a controller"⟩
  | sleepCall => ⟨.performance, "sleep_call", .medium, "sleep()/usleep() outside commands and jobs"⟩
  | longLine => ⟨.quality, "long_line", .info, "Line longer than 120 characters"⟩
  | trailingWhitespace => ⟨.quality, "trailing_whitespace", .info, "Line ends with spaces or tabs"⟩
  | mixedIndentation => ⟨.quality, "mixed_indentation", .low, "Indentation mixes tabs and spaces"⟩
  | deepNesting => ⟨.quality, "deep_nesting", .medium, "Code nested more than 6 levels"⟩
  | complexConditional =>
    ⟨.quality, "complex_conditional", .medium,
      "More than 3 logical operators on one line"⟩
  | longParameterList =>
    ⟨.quality, "long_parameter_list", .low,
      "Parameter list longer than 80 characters"⟩
  | highCyclomaticComplexity =>
    ⟨.quality, "high_cyclomatic_complexity", .medium,
      "Function complexity above 10"⟩
  | longMethod => ⟨.quality, "long_method", .low, "Function body longer than 100 lines"⟩
  | missingClassDoc => ⟨.quality, "missing_class_doc", .low, "Class without a docblock"⟩
  | missingMethodDoc => ⟨.quality, "missing_method_doc", .low, "Public method without a docblock"⟩
  | singleLetterVariable =>
    ⟨.quality, "single_letter_variable", .low,
      "Single-letter variable outside loop counters"⟩
  | snakeCaseVariable => ⟨.quality, "snake_case_variable", .info, "snake_case local variable"⟩
  | classNaming => ⟨.quality, "class_naming", .medium, "Class name not PascalCase"⟩
  | methodNaming => ⟨.quality, "method_naming", .low, "Method name not camelCase"⟩
  | magicNumber => ⟨.quality, "magic_number", .low, "Unexplained numeric literal"⟩
  | emptyCatchBlock =>
    ⟨.quality, "empty_catch_block", .medium,
      "catch block that swallows the exception"⟩
  | todoComment => ⟨.quality, "todo_comment", .info, "TODO / FIXME / HACK / XXX marker"⟩
  | debugStatement =>
    ⟨.quality, "debug_statement", .medium,
      "dd(), dump(), var_dump(), print_r() or ray()"⟩
  | potentialUnusedVariable =>
    ⟨.quality, "potential_unused_variable", .low,
      "Variable or property never read"⟩
  | parseError => ⟨.quality, "parse_error", .low, "File could not be parsed"⟩
  | scanError => ⟨.quality, "scan_error", .low, "File could not be read or analyzed"⟩
  | envOutsideConfig => ⟨.idiom, "env_outside_config", .medium, "env() outside config files"⟩
  | superglobalUsage =>
    ⟨.idiom, "superglobal_usage", .medium,
      "$_GET, $_POST and other superglobals"⟩
  | requestAll => ⟨.idiom, "request_all", .low, "$request->all()"⟩
  | dbFacadeInController =>
    ⟨.idiom, "db_facade_in_controller", .low,
      "DB facade used in a controller"⟩
  | routeClosure => ⟨.idiom, "route_closure", .low, "Route handled by a closure"⟩
  | inlineValidation =>
    ⟨.idiom, "inline_validation", .info,
      "Validation rules inside a controller action"⟩
  | missingParentConstructor =>
    ⟨.inheritance, "missing_parent_constructor", .medium,
      "Constructor override without parent::__construct()"⟩
  | emptyOverride => ⟨.inheritance, "empty_override", .low, "Empty method body in a subclass"⟩
  | tooManyInterfaces =>
    ⟨.inheritance, "too_many_interfaces", .low,
      "More than 5 implemented interfaces"⟩
  | abstractWithoutAbstractMethods =>
    ⟨.inheritance, "abstract_without_abstract_methods", .low,
      "Abstract class with no abstract method"⟩
  | parentCallOutsideSubclass =>
    ⟨.inheritance, "parent_call_outside_subclass", .high,
      "parent:: in a class without extends"⟩
  | unescapedOutput => ⟨.template, "unescaped_output", .high, "\x7b!! !!\x7d output"⟩
  | missingCsrf => ⟨.template, "missing_csrf", .high, "POST form without a CSRF token"⟩
  | rawPhp => ⟨.template, "raw_php", .low, "<?php or @php in a template"⟩
  | queryInView => ⟨.template, "query_in_view", .medium, "Database call while rendering"⟩
  | unclosedDirective =>
    ⟨.template, "unclosed_directive", .medium,
      "Block directive without its closing pair"⟩
  | deprecatedTripleBraces =>
    ⟨.template, "deprecated_triple_braces", .low,
      "\x7b\x7b\x7b \x7d\x7d\x7d echo"⟩
  | inlineStyle => ⟨.template, "inline_style", .info, "style=\"...\" attribute"⟩

/-- All rules in catalog order (`RULES`). -/
def all : List Rule :=
  [sqlInjection, commandInjection, codeInjection, fileInclusion, unsafeDeserialization,
    hardcodedCredentials, massAssignment, weakHashing, xssEcho, csrfDisabled, queryInLoop,
    allThenFilter, countOnGet, selectStar, unboundedAll, sleepCall, longLine, trailingWhitespace,
    mixedIndentation, deepNesting, complexConditional, longParameterList,
    highCyclomaticComplexity, longMethod, missingClassDoc, missingMethodDoc,
    singleLetterVariable, snakeCaseVariable, classNaming, methodNaming, magicNumber,
    emptyCatchBlock, todoComment, debugStatement, potentialUnusedVariable, parseError, scanError,
    envOutsideConfig, superglobalUsage, requestAll, dbFacadeInController, routeClosure,
    inlineValidation, missingParentConstructor, emptyOverride, tooManyInterfaces,
    abstractWithoutAbstractMethods, parentCallOutsideSubclass, unescapedOutput, missingCsrf,
    rawPhp, queryInView, unclosedDirective, deprecatedTripleBraces, inlineStyle]

/-- The category of a rule. -/
def category (rule : Rule) : Category := rule.entry.category

/-- The name of a rule. -/
def name (rule : Rule) : String := rule.entry.name

/-- The severity of a rule. -/
def severity (rule : Rule) : Severity := rule.entry.severity

/-- The identifier that issues of a rule carry (`RuleInfo::id`). -/
def id (rule : Rule) : String := Issue.idOf rule.category rule.name

/-- The rules of some categories in catalog order (`rules_for`). -/
def within (categories : List Category) : List Rule :=
  all.filter fun rule => categories.contains rule.category

end Rule

end CodeAudit
