/-
Questbook.Cli.Arguments — reading a command line.

A command line has two levels: options of the program, then a command with its
own options and operands. The options `--assets` and `--config` may stand on
either level, and the inner one wins. An option takes its value behind an
equals sign or as the next argument, which then must not look like an option
itself; a lone dash is an ordinary argument; `--` makes everything behind it
operands. Arguments are taken one by one from the left, so the first fault or
the first request for the version or for help decides.
-/

namespace Questbook.Cli

/-- The forms in which a quest is shown. -/
inductive Format where
  | outline
  | json
deriving DecidableEq, Repr

/-- What the program is to do. -/
inductive Command where
  | display (name : String) (format : Format)
  /-- No names stand for all quests there are. -/
  | check (names : List String) (strict : Bool)
  | list
deriving DecidableEq, Repr

/-- A command line that asks for work. -/
structure Invocation where
  assets? : Option String := none
  config? : Option String := none
  command : Command
deriving DecidableEq, Repr

/-- Why a command line is refused. -/
inductive UsageError where
  | unknownArgument (argument : String)
  | unknownCommand (name : String)
  | missingCommand
  | missingOperand
  | missingValue (option : String)
  | unneededValue (option : String)
  | invalidValue (option value : String)
  | repeatedOption (option : String)
deriving DecidableEq, Repr

/-- The error in words. -/
def UsageError.message : UsageError → String
  | .unknownArgument argument => s!"unexpected argument '{argument}' found"
  | .unknownCommand name => s!"unrecognized subcommand '{name}'"
  | .missingCommand => "a subcommand is required but one was not provided"
  | .missingOperand => "the following required arguments were not provided: <NAME>"
  | .missingValue option => s!"a value is required for '--{option}' but none was supplied"
  | .unneededValue option => s!"unexpected value for '--{option}' found; no more were expected"
  | .invalidValue option value => s!"invalid value '{value}' for '--{option}'"
  | .repeatedOption option => s!"the argument '--{option}' cannot be used multiple times"

/-- What a command line ends in other than work. -/
inductive Stop where
  | fault (error : UsageError)
  | version
  | help
deriving DecidableEq, Repr

/-! ## 1. One level -/

/-- The options a level knows, by their long names. -/
structure Level where
  /-- Options with a value. -/
  valued : List String
  /-- Options without one. -/
  switches : List String := []
  /-- The level of the program itself, which tells its version. -/
  outer : Bool := false

/-- An argument taken apart. -/
inductive Item where
  | option (name value : String)
  | switch (name : String)
  | operand (text : String)
  | stop (reason : Stop)
deriving DecidableEq, Repr

/-- The argument is an option or a row of short options, or ends the options. -/
def looksLikeOption (argument : String) : Bool :=
  match argument.toList with
  | '-' :: _ :: _ => true
  | _ => false

/-- An argument by itself: what it is, or the name of the option whose value
is the next argument. -/
def classify (level : Level) (argument : String) : Item ⊕ String :=
  match argument.toList with
  | '-' :: '-' :: cs =>
    let name := String.ofList (cs.takeWhile (· != '='))
    let value? := match cs.dropWhile (· != '=') with
      | _ :: value => some (String.ofList value)
      | [] => none
    if name ∈ level.valued then
      match value? with
      | some value => .inl (.option name value)
      | none => .inr name
    else if name ∈ level.switches || name = "help" || (name = "version" && level.outer) then
      if value?.isSome then .inl (.stop (.fault (.unneededValue name)))
      else if name = "help" then .inl (.stop .help)
      else if name = "version" then .inl (.stop .version)
      else .inl (.switch name)
    else .inl (.stop (.fault (.unknownArgument argument)))
  | '-' :: 'h' :: _ => .inl (.stop .help)
  | '-' :: 'V' :: _ =>
    if level.outer then .inl (.stop .version) else .inl (.stop (.fault (.unknownArgument argument)))
  | '-' :: _ :: _ => .inl (.stop (.fault (.unknownArgument argument)))
  | _ => .inl (.operand argument)

/-- The items of a command's arguments. Nothing behind a stop is looked at. -/
def items (level : Level) : List String → List Item
  | [] => []
  | argument :: rest =>
    if argument = "--" then rest.map .operand
    else
      match classify level argument with
      | .inl item => item :: items level rest
      | .inr name =>
        match rest with
        | [] => [.stop (.fault (.missingValue name))]
        | value :: rest =>
          if looksLikeOption value then [.stop (.fault (.missingValue name))]
          else .option name value :: items level rest

/-- The items before the command, and the command with the arguments behind it. -/
def outerItems (level : Level) : List String → List Item × List String
  | [] => ([], [])
  | argument :: rest =>
    if argument = "--" then
      match rest with
      | [] => ([], [])
      | operand :: _ => ([.stop (.fault (.unknownArgument operand))], [])
    else
      match classify level argument with
      | .inl (.operand name) => ([], name :: rest)
      | .inl item =>
        let (others, command) := outerItems level rest
        (item :: others, command)
      | .inr name =>
        match rest with
        | [] => ([.stop (.fault (.missingValue name))], [])
        | value :: rest =>
          if looksLikeOption value then ([.stop (.fault (.missingValue name))], [])
          else
            let (others, command) := outerItems level rest
            (.option name value :: others, command)

/-! ## 2. What the items say -/

/-- What the items of a level say, taken together. -/
structure Settings where
  assets? : Option String := none
  config? : Option String := none
  format? : Option Format := none
  strict : Bool := false
  operands : List String := []
deriving DecidableEq, Repr

namespace Settings

/-- A path given by an option: it must not be empty. -/
def path (option value : String) : Except Stop String :=
  if value.isEmpty then .error (.fault (.invalidValue option value)) else .ok value

/-- The settings with one more item, of which at most `most` may be operands. -/
def add (most : Option Nat) (s : Settings) : Item → Except Stop Settings
  | .stop reason => .error reason
  | .option "assets" value => do
    if s.assets?.isSome then .error (.fault (.repeatedOption "assets"))
    else return { s with assets? := some (← path "assets" value) }
  | .option "config" value => do
    if s.config?.isSome then .error (.fault (.repeatedOption "config"))
    else return { s with config? := some (← path "config" value) }
  | .option name value =>
    if s.format?.isSome then .error (.fault (.repeatedOption name))
    else
      match value with
      | "ron" => .ok { s with format? := some .outline }
      | "json" => .ok { s with format? := some .json }
      | _ => .error (.fault (.invalidValue name value))
  | .switch name =>
    if s.strict then .error (.fault (.repeatedOption name)) else .ok { s with strict := true }
  | .operand text =>
    if most.any (· ≤ s.operands.length) then .error (.fault (.unknownArgument text))
    else .ok { s with operands := s.operands ++ [text] }

/-- The settings that items make. -/
def ofItems (most : Option Nat) (items : List Item) : Except Stop Settings :=
  items.foldlM (add most) {}

end Settings

/-! ## 3. Command lines -/

/-- The options on every level. -/
def commonOptions : List String := ["assets", "config"]

/-- The level of the program. -/
def programLevel : Level := { valued := commonOptions, outer := true }

/-- The levels of the commands, with the number of operands they take at most. -/
def commandLevel? : String → Option (Level × Option Nat)
  | "show" => some ({ valued := "format" :: commonOptions }, some 1)
  | "check" => some ({ valued := commonOptions, switches := ["strict"] }, none)
  | "list" => some ({ valued := commonOptions }, some 0)
  | _ => none

/-- The command of this name with its settings. -/
def command (name : String) (s : Settings) : Except Stop Command :=
  match name, s.operands with
  | "show", quest :: _ => .ok (.display quest (s.format?.getD .outline))
  | "show", [] => .error (.fault .missingOperand)
  | "check", names => .ok (.check names s.strict)
  | _, _ => .ok .list

/-- The answer to the command `help`, which may name one command. -/
def help : List String → Stop
  | [] => .help
  | name :: others =>
    if (commandLevel? name).isSome || name = "help" then
      match others with
      | [] => .help
      | other :: _ => .fault (.unknownCommand other)
    else .fault (.unknownCommand name)

/-- The work that a command line asks for. -/
def parse (arguments : List String) : Except Stop Invocation := do
  let (items, rest) := outerItems programLevel arguments
  let outer ← Settings.ofItems (some 0) items
  match rest with
  | [] => .error (.fault .missingCommand)
  | name :: arguments =>
    match commandLevel? name with
    | none => .error (if name = "help" then help arguments else .fault (.unknownCommand name))
    | some (level, most) =>
      let inner ← Settings.ofItems most (Cli.items level arguments)
      return {
        assets? := inner.assets? <|> outer.assets?
        config? := inner.config? <|> outer.config?
        command := ← command name inner }

end Questbook.Cli
