import Blokwork.Dict

/-!
# Options

The arguments of a tool with commands: options, the name of a command, and the options of the
command. An option with a value is written `--name value` or `--name=value`, a flag `--name`, or
by a letter together with other letters; the value of an option does not start with a dash
unless it is attached. No option stands twice among those of the tool or those of the command,
and the options of the tool may stand in either place.
-/

namespace Blokwork.CommandLine

/-- A flag. -/
structure FlagSpec where
  name : String
  letter : Option Char := none
deriving DecidableEq, Repr

/-- An option with a value. -/
structure ValueSpec where
  name : String
  /-- A command that takes the option cannot do without it. -/
  isRequired : Bool := false
  /-- The values that are allowed, if only some are. -/
  choices : Option (List String) := none
deriving DecidableEq, Repr

/-- The options of a command or a tool. -/
structure OptionSpecs where
  flags : List FlagSpec := []
  values : List ValueSpec := []
deriving DecidableEq, Repr

/-- A command. -/
structure CommandSpec where
  name : String
  options : OptionSpecs := {}
deriving DecidableEq, Repr

/-- A tool. -/
structure ToolSpec where
  name : String
  version : Option String := none
  options : OptionSpecs := {}
  commands : List CommandSpec
deriving DecidableEq, Repr

/-- The options that were given. -/
structure Given where
  flags : List String := []
  values : Dict String := []
deriving DecidableEq, Repr

/-- Why arguments cannot be understood. -/
inductive Misuse where
  | unknownArgument (argument : String)
  | missingValue (option : String)
  | surplusValue (flag : String)
  | invalidValue (option value : String)
  | repeated (option : String)
  | missingOption (option : String)
  | unknownCommand (name : String)
  | missingCommand
deriving DecidableEq, Repr

/-- The wording of a misuse. -/
def Misuse.message : Misuse → String
  | .unknownArgument a => "unexpected argument `" ++ a ++ "`"
  | .missingValue o => "`--" ++ o ++ "` needs a value"
  | .surplusValue f => "`--" ++ f ++ "` takes no value"
  | .invalidValue o v => "invalid value `" ++ v ++ "` for `--" ++ o ++ "`"
  | .repeated o => "`--" ++ o ++ "` is given more than once"
  | .missingOption o => "`--" ++ o ++ "` is required"
  | .unknownCommand n => "unknown command `" ++ n ++ "`"
  | .missingCommand => "a command is required"

/-- Why arguments name no command to run: they ask for information, or they are misused. -/
inductive Stop where
  | version
  | help
  | misuse (misuse : Misuse)
deriving DecidableEq, Repr

namespace OptionSpecs

/-- One more flag. -/
def enterFlag (given : Given) (name : String) : Except Stop Given :=
  if given.flags.contains name then .error (.misuse (.repeated name))
  else .ok { given with flags := given.flags ++ [name] }

/-- One more value. -/
def enterValue (given : Given) (spec : ValueSpec) (value : String) : Except Stop Given :=
  if Dict.has given.values spec.name then .error (.misuse (.repeated spec.name))
  else if (spec.choices.getD [value]).contains value then
    .ok { given with values := Dict.insert given.values spec.name value }
  else .error (.misuse (.invalidValue spec.name value))

/-- Some letters behind a dash. -/
def enterLetters (specs : OptionSpecs) (hasVersion : Bool) (given : Given) :
    List Char → Except Stop Given
  | [] => .ok given
  | c :: rest =>
    if c = 'h' then .error .help
    else if c = 'V' && hasVersion then .error .version
    else
      match specs.flags.find? fun f => f.letter = some c with
      | none => .error (.misuse (.unknownArgument (String.ofList ['-', c])))
      | some f => do
        let given ← enterFlag given f.name
        enterLetters specs hasVersion given rest

/-- A name behind two dashes, and the value that is attached to it. -/
def splitName (cs : List Char) : String × Option String :=
  match cs.dropWhile (· ≠ '=') with
  | [] => (String.ofList cs, none)
  | _ :: value => (String.ofList (cs.takeWhile (· ≠ '=')), some (String.ofList value))

/-- The argument can be the value of the option before it. -/
def isPlain (argument : String) : Bool :=
  match argument.toList with
  | '-' :: _ :: _ => false
  | _ => true

/-- What a long name stands for. -/
inductive Meaning where
  | stop (stop : Stop)
  | flag (name : String)
  | value (spec : ValueSpec)

/-- What a long name stands for. -/
def meaning (specs : OptionSpecs) (hasVersion : Bool) (name : String) : Meaning :=
  if name = "help" then .stop .help
  else if name = "version" && hasVersion then .stop .version
  else
    match specs.flags.find? fun f => f.name = name with
    | some f => .flag f.name
    | none =>
      match specs.values.find? fun v => v.name = name with
      | some spec => .value spec
      | none => .stop (.misuse (.unknownArgument ("--" ++ name)))

/-- The options at the start of some arguments, and the arguments behind them. -/
def scan (specs : OptionSpecs) (hasVersion : Bool) (given : Given) :
    List String → Except Stop (Given × List String)
  | [] => .ok (given, [])
  | argument :: rest =>
    match argument.toList with
    | ['-', '-'] =>
      match rest with
      | [] => .ok (given, [])
      | next :: _ => .error (.misuse (.unknownArgument next))
    | '-' :: '-' :: cs =>
      let (name, attached) := splitName cs
      match meaning specs hasVersion name, attached with
      | .stop (.misuse m), _ => .error (.misuse m)
      | .stop _, some _ => .error (.misuse (.surplusValue name))
      | .stop s, none => .error s
      | .flag _, some _ => .error (.misuse (.surplusValue name))
      | .flag name, none => do
        let given ← enterFlag given name
        scan specs hasVersion given rest
      | .value spec, some value => do
        let given ← enterValue given spec value
        scan specs hasVersion given rest
      | .value spec, none =>
        match rest with
        | [] => .error (.misuse (.missingValue spec.name))
        | value :: rest =>
          if isPlain value then do
            let given ← enterValue given spec value
            scan specs hasVersion given rest
          else .error (.misuse (.missingValue spec.name))
    | '-' :: c :: cs => do
      let given ← enterLetters specs hasVersion given (c :: cs)
      scan specs hasVersion given rest
    | _ => .ok (given, argument :: rest)

/-- The options of both. -/
def append (a b : OptionSpecs) : OptionSpecs where
  flags := a.flags ++ b.flags
  values := a.values ++ b.values

end OptionSpecs

/-- The options of the tool and then those of the command, which take their place. -/
def Given.append (outer inner : Given) : Given where
  flags := outer.flags ++ inner.flags
  values := Dict.insertAll outer.values inner.values

/-- The command that some arguments name, with all options that were given. -/
def ToolSpec.parse (tool : ToolSpec) (arguments : List String) :
    Except Stop (String × Given) := do
  let (outer, rest) ← tool.options.scan tool.version.isSome {} arguments
  match rest with
  | [] => .error (.misuse .missingCommand)
  | "help" :: _ => .error .help
  | name :: rest =>
    match tool.commands.find? fun c => c.name = name with
    | none => .error (.misuse (.unknownCommand name))
    | some command =>
      let (inner, rest) ← (command.options.append tool.options).scan false {} rest
      match rest with
      | argument :: _ => .error (.misuse (.unknownArgument argument))
      | [] =>
        let isMissing (v : ValueSpec) := v.isRequired && !Dict.has inner.values v.name
        match command.options.values.find? isMissing with
        | some v => .error (.misuse (.missingOption v.name))
        | none => return (name, outer.append inner)

end Blokwork.CommandLine
