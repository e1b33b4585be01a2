/-
  The command line: `generate` with a configuration, two roots, and the choice of a dry run.

  An option takes its value from the same argument, after an equals sign or, for the short
  form, directly, or else from the next argument. A value is checked when the next option
  comes or the arguments end, so an argument that is no option at all is reported before a
  fault in the value in front of it.
-/
import OrmGen.Text.Split

namespace OrmGen

/-- Why arguments are refused, or answered by a help text. -/
inductive UsageError where
  | noArguments
  | helpRequested
  | versionRequested
  | unknownSubcommand
  | configMissing
  | unknownArgument
  | badValue
  | repeatedOption
  | unexpectedValue
deriving DecidableEq, Repr

/-- Whether the arguments ask for a text, so that answering them is no failure. -/
def UsageError.isRequest : UsageError → Bool
  | .helpRequested | .versionRequested => true
  | _ => false

/-- The run that the arguments ask for. -/
structure Command where
  config : String
  appRoot : String
  entitiesRoot : Option String
  dryRun : Bool
deriving DecidableEq, Repr

namespace CommandLine

/-- The options with a value. -/
inductive ValueOption where
  | config
  | appRoot
  | entitiesRoot
deriving DecidableEq, Repr

/-- The options read so far. -/
structure Options where
  config : Option String := none
  appRoot : Option String := none
  entitiesRoot : Option String := none
  dryRun : Bool := false

/-- An option whose value has not been checked, or has not come. -/
structure Pending where
  option : ValueOption
  value : Option String

/-- The reader between two arguments. `closed` is set by the argument `--`. -/
structure Reader where
  options : Options := {}
  pending : Option Pending := none
  closed : Bool := false

namespace Options

def get? (o : Options) : ValueOption → Option String
  | .config => o.config
  | .appRoot => o.appRoot
  | .entitiesRoot => o.entitiesRoot

def set (o : Options) (option : ValueOption) (value : String) : Options :=
  match option with
  | .config => { o with config := some value }
  | .appRoot => { o with appRoot := some value }
  | .entitiesRoot => { o with entitiesRoot := some value }

/-- Take over the value of an option that must not have one yet. -/
def add (o : Options) (p : Pending) : Except UsageError Options :=
  match p.value with
  | none => .error .badValue
  | some v =>
    if (o.get? p.option).isSome then .error .repeatedOption
    else if v = "" then .error .badValue
    else .ok (o.set p.option v)

/-- The command that the options describe. -/
def command (o : Options) : Except UsageError Command :=
  match o.config with
  | none => .error .configMissing
  | some config => .ok ⟨config, o.appRoot.getD ".", o.entitiesRoot, o.dryRun⟩

end Options

/-- An argument by its form. -/
inductive Argument where
  | close
  | long (name : String) (value : Option String)
  | short (letter : Char) (rest : List Char)
  | plain (s : String)

/-- The form of an argument. -/
def Argument.of (s : String) : Argument :=
  match s.toList with
  | ['-', '-'] => .close
  | '-' :: '-' :: cs =>
    match Text.splitOnce? ['='] cs with
    | some (name, value) => .long (String.ofList name) (some (String.ofList value))
    | none => .long (String.ofList cs) none
  | '-' :: c :: cs => .short c cs
  | _ => .plain s

def longOption? (name : String) : Option ValueOption :=
  [("config", ValueOption.config), ("app-root", .appRoot), ("entities-root", .entitiesRoot)].lookup
    name

/-- The value that follows a short option in its argument. -/
def attachedValue? : List Char → Option String
  | [] => none
  | '=' :: cs => some (String.ofList cs)
  | cs => some (String.ofList cs)

namespace Reader

/-- Check the value of the pending option. -/
def settled (r : Reader) : Except UsageError Options :=
  match r.pending with
  | none => .ok r.options
  | some p => r.options.add p

/-- Begin an option. A value from the same argument is checked at once. -/
def begin (r : Reader) (option : ValueOption) (value : Option String) :
    Except UsageError Reader := do
  let o ← r.settled
  match value with
  | none => return { r with options := o, pending := some ⟨option, none⟩ }
  | some _ => return { r with options := ← o.add ⟨option, value⟩, pending := none }

/-- Stop for the help text. -/
def help (r : Reader) : Except UsageError Reader := do
  let _ ← r.settled
  throw .helpRequested

def dryRun (r : Reader) : Except UsageError Reader := do
  let o ← r.settled
  if o.dryRun then throw .repeatedOption
  return { r with options := { o with dryRun := true }, pending := none }

/-- An argument that is no option: the value of a pending option that has none. -/
def plain (r : Reader) (s : String) : Except UsageError Reader :=
  match r.pending with
  | some ⟨option, none⟩ => .ok { r with pending := some ⟨option, some s⟩ }
  | _ => .error .unknownArgument

/-- Read one argument. -/
def step (r : Reader) (s : String) : Except UsageError Reader :=
  if r.closed then .error .unknownArgument
  else
    match Argument.of s with
    | .close => .ok { r with closed := true }
    | .long name value =>
      match longOption? name with
      | some option => r.begin option value
      | none =>
        if name = "dry-run" || name = "help" then
          if value.isSome then .error .unexpectedValue
          else if name = "help" then r.help
          else r.dryRun
        else .error .unknownArgument
    | .short letter rest =>
      if letter = 'c' then r.begin .config (attachedValue? rest)
      else if letter = 'h' then r.help
      else .error .unknownArgument
    | .plain s => r.plain s

end Reader

/-- The command given by the arguments of `generate`. -/
def generateArguments (args : List String) : Except UsageError Command := do
  let r ← args.foldlM Reader.step {}
  (← r.settled).command

/-- The outcome of `help` with the names of nested commands, of which neither command has
any. -/
def helpArguments : List String → UsageError
  | [] | ["generate"] | ["help"] => .helpRequested
  | _ => .unknownSubcommand

/-- The outcome of an option in front of the subcommand. -/
def leadingOption : Argument → UsageError
  | .long "help" none | .short 'h' _ => .helpRequested
  | .long "version" none | .short 'V' _ => .versionRequested
  | .long "help" (some _) | .long "version" (some _) => .unexpectedValue
  | _ => .unknownArgument

/-- The command that arguments ask for. -/
def parse : List String → Except UsageError Command
  | [] => .error .noArguments
  | "generate" :: args => generateArguments args
  | "help" :: names => .error (helpArguments names)
  | ["--"] => .error .noArguments
  | "--" :: name :: _ =>
    .error (if name = "generate" || name = "help" then .unknownArgument else .unknownSubcommand)
  | arg :: _ =>
    match Argument.of arg with
    | .plain _ => .error .unknownSubcommand
    | a => .error (leadingOption a)

end CommandLine
end OrmGen
