import ScriptBundle.Config.Basic

/-!
# Requests

What the arguments of the program ask for.

## Main definitions

* `Request`: a build with settings of its own, or a text about the program;
* `Request.ofArguments?`: the request that arguments make.
-/

namespace ScriptBundle

/-- The options that take a value. -/
inductive ValueOption where
  | config
  | src
  | output
  | version
  | branch
  deriving DecidableEq, Repr

/-- The options that stand alone. -/
inductive FlagOption where
  | watch
  | skipChecks
  | verbose
  | help
  | programVersion
  deriving DecidableEq, Repr

/-- The settings of a build that come from the arguments. -/
structure Overrides where
  /-- The configuration file. -/
  config : Option Path := none
  src : Option Path := none
  output : Option Path := none
  version : Option String := none
  branch : Option String := none
  /-- Whether to build again after each change. -/
  watch : Bool := false
  skipChecks : Bool := false
  verbosity : Nat := 0
  deriving DecidableEq, Repr

/-- A **request** to the program. -/
inductive Request where
  | build (overrides : Overrides)
  | help
  | version
  deriving DecidableEq, Repr

/-! ### Options -/

/-- The option with a long name. -/
def longOption? (name : Text) : Option (ValueOption ⊕ FlagOption) :=
  match String.ofList name with
  | "config" => some (.inl .config)
  | "src" => some (.inl .src)
  | "output" => some (.inl .output)
  | "set-version" => some (.inl .version)
  | "branch" => some (.inl .branch)
  | "watch" => some (.inr .watch)
  | "skip-checks" => some (.inr .skipChecks)
  | "verbose" => some (.inr .verbose)
  | "help" => some (.inr .help)
  | "version" => some (.inr .programVersion)
  | _ => none

/-- The option with a name of one letter. -/
def shortOption? : Char → Option (ValueOption ⊕ FlagOption)
  | 'c' => some (.inl .config)
  | 'o' => some (.inl .output)
  | 'w' => some (.inr .watch)
  | 'v' => some (.inr .verbose)
  | 'h' => some (.inr .help)
  | 'V' => some (.inr .programVersion)
  | _ => none

namespace Overrides

/-- Sets what has not been set. -/
def once? (current : Option α) (value : α) : Option (Option α) :=
  match current with
  | some _ => none
  | none => some (some value)

/-- Sets a path, which must not be empty. -/
def oncePath? (current : Option Path) (value : Text) : Option (Option Path) :=
  if value.isEmpty then none else once? current ⟨value⟩

/-- Sets the value of an option, which may be done once. -/
def set? (o : Overrides) (value : Text) : ValueOption → Option Overrides
  | .config => (oncePath? o.config value).map fun config => { o with config }
  | .src => (oncePath? o.src value).map fun src => { o with src }
  | .output => (oncePath? o.output value).map fun output => { o with output }
  | .version => (once? o.version (String.ofList value)).map fun version => { o with version }
  | .branch => (once? o.branch (String.ofList value)).map fun branch => { o with branch }

end Overrides

/-! ### Arguments -/

/-- What has been read of the arguments. -/
inductive ArgumentState where
  /-- An argument may follow. -/
  | open (overrides : Overrides)
  /-- The next argument must be the value of an option. -/
  | awaiting (overrides : Overrides) (option : ValueOption)
  /-- The arguments that follow do not count. -/
  | decided (request : Request)
  deriving DecidableEq, Repr

/-- Reads an option that stands alone. All but one may be given once. -/
def readFlag? (o : Overrides) : FlagOption → Option ArgumentState
  | .watch => if o.watch then none else some (.open { o with watch := true })
  | .skipChecks => if o.skipChecks then none else some (.open { o with skipChecks := true })
  | .verbose => some (.open { o with verbosity := o.verbosity + 1 })
  | .help => some (.decided .help)
  | .programVersion => some (.decided .version)

/-- Reads an option by its long name. A value may follow the name behind an equals sign. -/
def readLong? (o : Overrides) (argument : Text) : Option ArgumentState :=
  let name := argument.takeWhile (· ≠ '=')
  match longOption? name, argument.drop name.length with
  | some (.inl option), _ :: value => (o.set? value option).map .open
  | some (.inl option), [] => some (.awaiting o option)
  | some (.inr flag), [] => readFlag? o flag
  | _, _ => none

/-- Reads options by their letters. What follows the letter of an option with a value is the
value, also behind an equals sign. -/
def readShort? (o : Overrides) : Text → Option ArgumentState
  | [] => some (.open o)
  | letter :: rest =>
    match shortOption? letter with
    | some (.inl option) =>
      match rest with
      | [] => some (.awaiting o option)
      | '=' :: value => (o.set? value option).map .open
      | value => (o.set? value option).map .open
    | some (.inr flag) =>
      match readFlag? o flag with
      | some (.open o) => readShort? o rest
      | state => state
    | none => none

/-- Whether an argument is no value but an option. -/
def looksLikeOption : Text → Bool
  | '-' :: _ :: _ => true
  | _ => false

/-- Reads the arguments behind a state. -/
def readArguments? : ArgumentState → List Text → Option Request
  | .decided request, _ => some request
  | .open o, [] => some (.build o)
  | .awaiting _ _, [] => none
  | .awaiting o option, value :: rest =>
    if looksLikeOption value then none
    else (o.set? value option).bind fun o => readArguments? (.open o) rest
  | .open o, argument :: rest =>
    match argument with
    | ['-', '-'] => if rest.isEmpty then some (.build o) else none
    | '-' :: '-' :: name => (readLong? o name).bind fun state => readArguments? state rest
    | '-' :: letter :: letters =>
      (readShort? o (letter :: letters)).bind fun state => readArguments? state rest
    | _ => none

/-- The request that arguments make, unless they make none. -/
def Request.ofArguments? (arguments : List Text) : Option Request :=
  readArguments? (.open {}) arguments

end ScriptBundle
