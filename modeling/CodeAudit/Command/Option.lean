/-!
# Options of the command line

The commands, the options that each of them takes, and what can be wrong with a command line.
-/

namespace CodeAudit.Command

/-- Where on a command line an argument stands: before a command, or behind one. -/
inductive Level where
  | top
  | scan
  | rules
  | init
  deriving DecidableEq, Repr

namespace Level

/-- The level behind the name of a command. -/
def named? : String → Option Level
  | "scan" => some scan
  | "rules" => some rules
  | "init" => some init
  | _ => none

/-- Is the word a command? -/
def isCommand (word : String) : Bool :=
  (named? word).isSome || word == "help"

end Level

/-- What an argument sets. -/
inductive Parameter where
  | verbose
  | help
  | version
  | target
  | kind
  | category
  | path
  | json
  | failOn
  | noParallel
  | includeVendor
  deriving DecidableEq, Repr

/-- How an option is followed by a value. -/
inductive Arity where
  /-- No value. -/
  | flag
  /-- A value; the option stands once. -/
  | single
  /-- A value; the option may stand again. -/
  | many
  deriving DecidableEq, Repr

/-- An option. -/
structure Switch where
  parameter : Parameter
  long : String
  short : Option Char
  arity : Arity
  deriving DecidableEq, Repr

/-- The options of a level. -/
def Level.switches (level : Level) : List Switch :=
  let shared : List Switch := [
    ⟨.verbose, "verbose", some 'v', .flag⟩,
    ⟨.help, "help", some 'h', .flag⟩]
  match level with
  | .top => shared ++ [⟨.version, "version", some 'V', .flag⟩]
  | .scan => shared ++ [
      ⟨.kind, "type", some 't', .single⟩,
      ⟨.category, "category", some 'c', .many⟩,
      ⟨.path, "path", some 'p', .many⟩,
      ⟨.json, "json", none, .flag⟩,
      ⟨.failOn, "fail-on", none, .single⟩,
      ⟨.noParallel, "no-parallel", none, .flag⟩,
      ⟨.includeVendor, "include-vendor", none, .flag⟩]
  | .rules => shared ++ [
      ⟨.category, "category", some 'c', .single⟩,
      ⟨.json, "json", none, .flag⟩]
  | .init => shared

/-- Why a command line is not run. -/
inductive UsageError where
  | displayHelp
  | displayVersion
  | unknownArgument
  | invalidSubcommand
  | invalidValue
  | valueValidation
  | argumentConflict
  | tooManyValues
  deriving DecidableEq, Repr

/-- The code that the process ends with. Help and the version are no failures. -/
def UsageError.exitCode : UsageError → Nat
  | displayHelp => 0
  | displayVersion => 0
  | _ => 2

end CodeAudit.Command
