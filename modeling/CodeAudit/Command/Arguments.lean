import CodeAudit.Command.Option
import CodeAudit.Scan.Request
import CodeAudit.Severity

/-!
# Arguments

Reading of a command line. The value of an option is looked at when the next argument takes effect,
or at the end, so that an argument that nobody knows is reported before a bad value in front of it.
-/

namespace CodeAudit.Command

open Text

/-! ## One level -/

/-- What has been read of a level. -/
structure Reading where
  level : Level
  /-- The parameters that are set and their values, in order. Flags have empty values. -/
  given : List (Parameter × String) := []
  /-- A parameter whose value has not been looked at, or is still missing. -/
  pending : Option (Switch × Option String) := none
  /-- Has `--` been read? -/
  trailing : Bool := false
  /-- Has the target been read? -/
  hasTarget : Bool := false

/-- The place of the target, which is no option. -/
def targetSwitch : Switch := ⟨.target, "", none, .single⟩

/-- What is wrong with a value. -/
def valueError? (parameter : Parameter) (value : String) : Option UsageError :=
  match parameter with
  | .kind => if (ScanKind.parse? value).isNone then some .valueValidation else none
  | .failOn => if (Severity.parse? value).isNone then some .valueValidation else none
  | .target => if value.isEmpty then some .invalidValue else none
  | .path => if value.isEmpty then some .invalidValue else none
  | _ => none

namespace Reading

/-- Is the parameter set? -/
def sets (r : Reading) (parameter : Parameter) : Bool :=
  r.given.any fun entry => entry.1 == parameter

/-- Sets a parameter. Only some may be set again. -/
def accept (r : Reading) (switch : Switch) (value : String) : Except UsageError Reading :=
  if switch.arity != .many && r.sets switch.parameter then .error .argumentConflict
  else
    match valueError? switch.parameter value with
    | some e => .error e
    | none => .ok { r with given := r.given ++ [(switch.parameter, value)] }

/-- Looks at the value that has not been looked at. -/
def settle (r : Reading) : Except UsageError Reading :=
  match r.pending with
  | none => .ok r
  | some (_, none) => .error .invalidValue
  | some (switch, some value) => { r with pending := none }.accept switch value

/-- A flag takes effect. -/
def raise (r : Reading) (switch : Switch) : Except UsageError Reading := do
  let r ← r.settle
  match switch.parameter with
  | .help => throw .displayHelp
  | .version => throw .displayVersion
  | _ => r.accept switch ""

/-- An option with a value takes effect; the value may be still to come. -/
def begin (r : Reading) (switch : Switch) (value : Option String) :
    Except UsageError Reading := do
  let r ← r.settle
  match value with
  | some value => r.accept switch value
  | none => return { r with pending := some (switch, none) }

/-- Reads a long option, with or without a value behind an equals sign. -/
def long (r : Reading) (text : List Char) : Except UsageError Reading :=
  let name := String.ofList (text.takeWhile (· != '='))
  let value := (text.dropWhile (· != '=')).tail?.map String.ofList
  match r.level.switches.find? fun switch => switch.long == name with
  | none => .error .unknownArgument
  | some switch =>
    match switch.arity, value with
    | .flag, none => r.raise switch
    | .flag, some _ => .error .tooManyValues
    | _, _ => r.begin switch value

/-- Reads short options that stand together. What follows an option with a value is its value. -/
def short (r : Reading) : List Char → Except UsageError Reading
  | [] => .ok r
  | c :: rest =>
    match r.level.switches.find? fun switch => switch.short == some c with
    | none => .error .unknownArgument
    | some switch =>
      match switch.arity with
      | .flag => do
        let r ← r.raise switch
        r.short rest
      | _ =>
        match rest with
        | [] => r.begin switch none
        | '=' :: value => r.begin switch (some (String.ofList value))
        | value => r.begin switch (some (String.ofList value))

/-- Reads an argument that is no option. -/
def positional (r : Reading) (word : String) : Except UsageError Reading :=
  match r.level with
  | .scan =>
    if r.hasTarget then .error .unknownArgument
    else do
      let r ← r.settle
      return { r with pending := some (targetSwitch, some word), hasTarget := true }
  | .top =>
    .error (if r.trailing && Level.isCommand word then .unknownArgument else .invalidSubcommand)
  | _ => .error .unknownArgument

/-- Reads an argument. -/
def argument (r : Reading) (word : String) : Except UsageError Reading :=
  if r.trailing then r.positional word
  else
    match word.toList with
    | ['-', '-'] => .ok { r with trailing := true }
    | '-' :: '-' :: text => r.long text
    | '-' :: c :: text => r.short (c :: text)
    | _ =>
      match r.pending with
      | some (switch, none) => .ok { r with pending := some (switch, some word) }
      | _ => r.positional word

/-- Reads all arguments of a level. -/
def all (r : Reading) (words : List String) : Except UsageError Reading := do
  (← words.foldlM argument r).settle

/-- The values of a parameter. -/
def values (r : Reading) (parameter : Parameter) : List String :=
  r.given.filterMap fun entry => if entry.1 == parameter then some entry.2 else none

/-- The value of a parameter. -/
def value? (r : Reading) (parameter : Parameter) : Option String :=
  (r.values parameter).head?

end Reading

/-! ## Commands -/

/-- What a scan is asked for (`ScanArgs`). -/
structure ScanArguments where
  target : String
  kind : Option ScanKind
  categories : List String
  paths : List String
  json : Bool
  failOn : Option Severity
  noParallel : Bool
  includeVendor : Bool
  deriving DecidableEq, Repr

/-- What is to be done. -/
inductive Action where
  | scan (arguments : ScanArguments)
  | rules (category : Option String) (json : Bool)
  | init
  deriving DecidableEq, Repr

/-- A command line that can be run. Without a command, help is shown. -/
structure Invocation where
  verbose : Bool
  command : Option Action
  deriving DecidableEq, Repr

/-- The command of a level that has been read. -/
def ofReading (r : Reading) : Option Action :=
  match r.level with
  | .top => none
  | .scan => some <| .scan {
      target := (r.value? .target).getD "."
      kind := (r.value? .kind).bind ScanKind.parse?
      categories := r.values .category
      paths := r.values .path
      json := r.sets .json
      failOn := (r.value? .failOn).bind Severity.parse?
      noParallel := r.sets .noParallel
      includeVendor := r.sets .includeVendor }
  | .rules => some (.rules (r.value? .category) (r.sets .json))
  | .init => some .init

/-- What asking for help about commands shows. Commands have no commands of their own. -/
def helpAbout : List String → UsageError
  | [] => .displayHelp
  | [word] => if Level.isCommand word then .displayHelp else .invalidSubcommand
  | _ => .invalidSubcommand

/-- Reads the arguments up to a command, and the command. -/
def readTop (r : Reading) : List String → Except UsageError Invocation
  | [] => do
    let r ← r.settle
    return { verbose := r.sets .verbose, command := none }
  | word :: rest =>
    if !r.trailing && word == "help" then .error (helpAbout rest)
    else
      match if r.trailing then none else Level.named? word with
      | some level => do
        let inner ← Reading.all { level } rest
        return {
          verbose := r.sets .verbose || inner.sets .verbose
          command := ofReading inner }
      | none => do
        readTop (← r.argument word) rest

/-- Reads a command line, without the name of the program. -/
def parse (words : List String) : Except UsageError Invocation :=
  readTop { level := .top } words

end CodeAudit.Command
