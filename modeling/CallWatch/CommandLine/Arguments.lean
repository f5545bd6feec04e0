import CallWatch.Text.Numeral

/-! # Arguments

Reading the arguments of the program. Options are written with two hyphens and take their value from
the next argument or from behind an equals sign; none may come twice at one level. The settings file
can be named in front of the command or behind it, and the one behind counts. -/

namespace CallWatch.CommandLine

/-- What the program is asked to do. -/
inductive Command where
  | run (scenario : String)
  | checkSettings
  | logs (userId conversationId level : Option String) (limit : Nat)
  deriving DecidableEq, Repr

/-- A command and the settings file that it is to use. -/
structure Arguments where
  settings : Option String
  command : Command
  deriving DecidableEq, Repr

/-- The names of the commands. -/
inductive CommandName where
  | run
  | checkSettings
  | logs
  deriving DecidableEq, Repr

/-- The options of the program and its commands. -/
inductive OptionName where
  | settings
  | scenario
  | userId
  | conversationId
  | level
  | limit
  deriving DecidableEq, Repr

/-- Why arguments do not lead to a command. -/
inductive Usage where
  | unknownArgument
  | invalidSubcommand
  | missingSubcommand
  | missingRequiredArgument
  | invalidValue
  | valueValidation
  | argumentConflict
  | tooManyValues
  /-- Help was asked for, for the program or one of its commands. -/
  | help (command : Option CommandName)
  | version
  /-- There are no arguments. -/
  | nothing
  deriving DecidableEq, Repr

/-- The number of records that are printed unless the arguments say otherwise. -/
def defaultLimit : Nat := 50

namespace CommandName

/-- Every command with its name. -/
def all : List (String × CommandName) :=
  [("run", .run), ("check-settings", .checkSettings), ("logs", .logs)]

/-- The options of a command. -/
def options : CommandName → List (String × OptionName)
  | .run => [("scenario", .scenario), ("settings", .settings)]
  | .checkSettings => [("settings", .settings)]
  | .logs =>
    [("user-id", .userId), ("conversation-id", .conversationId), ("level", .level),
      ("limit", .limit), ("settings", .settings)]

end CommandName

/-- The options that may stand before a command, or behind it. -/
def optionsAt : Option CommandName → List (String × OptionName)
  | none => [("settings", .settings)]
  | some command => command.options

/-! ### Values -/

/-- A whole number from zero on, in digits behind an optional sign; minus zero is zero. -/
def readCount? (s : String) : Option Nat :=
  match s.toList with
  | '-' :: ds => if Text.readNumeral? (String.ofList ds) = some 0 ∧ ds.head? ≠ some '+' then some 0
    else none
  | _ => Text.readWithin? 0 Text.maxWord32 s

/-- What is wrong with the value of an option. -/
def valueFault? (o : OptionName) (value : String) : Option Usage :=
  match o with
  | .settings => if value.isEmpty then some .invalidValue else none
  | .scenario => if value.isEmpty then some .invalidValue else none
  | .limit => if (readCount? value).isNone then some .valueValidation else none
  | _ => none

/-! ### One level -/

/-- The options that were read at a level. The newest may still wait for its value, or for being
looked at. -/
structure Level where
  values : List (OptionName × String)
  pending : Option (OptionName × Option String)

namespace Level

/-- Nothing was read. -/
def empty : Level := ⟨[], none⟩

/-- An option gets its value. -/
def give (l : Level) (o : OptionName) (value : String) : Except Usage Level :=
  if l.values.any (·.1 == o) then .error .argumentConflict
  else
    match valueFault? o value with
    | some fault => .error fault
    | none => .ok { l with values := l.values ++ [(o, value)] }

/-- The newest option is looked at. -/
def resolve (l : Level) : Except Usage Level :=
  match l.pending with
  | none => .ok l
  | some (_, none) => .error .invalidValue
  | some (o, some value) => { l with pending := none }.give o value

/-- The newest option waits for its value. -/
def waits (l : Level) : Option OptionName :=
  match l.pending with
  | some (o, none) => some o
  | _ => none

/-- The value of an option. -/
def value? (l : Level) (o : OptionName) : Option String := l.values.lookup o

end Level

/-- What the arguments of a level are: options up to the end, or up to a command. -/
inductive LevelEnd where
  | done
  | command (name : CommandName) (rest : List String)

/-- An argument by its form. -/
inductive Argument where
  /-- Only values follow. -/
  | escape
  | long (name : String) (value : Option String)
  | short (letters : List Char)
  | plain

/-- The form of an argument. -/
def Argument.ofText (s : String) : Argument :=
  match s.toList with
  | ['-', '-'] => .escape
  | '-' :: '-' :: body =>
    let name := body.takeWhile (· != '=')
    .long (String.ofList name) ((body.dropWhile (· != '=')).tail?.map String.ofList)
  | '-' :: c :: letters => .short (c :: letters)
  | _ => .plain

/-- Help for the commands that are named one after the other. -/
def helpFor : List String → Usage
  | [] => .help none
  | [name] =>
    if name = "help" then .help none
    else match CommandName.all.lookup name with
      | some c => .help (some c)
      | none => .invalidSubcommand
  | _ => .invalidSubcommand

/-- A flag without a value. -/
def flag (l : Level) (value : Option String) (meaning : Usage) : Usage :=
  match value with
  | some _ => .tooManyValues
  | none =>
    match l.resolve with
    | .error fault => fault
    | .ok _ => meaning

/-- The arguments of a level: of the program if there is no command, of the command otherwise. -/
def readLevel (command : Option CommandName) (l : Level) : List String →
    Except Usage (Level × LevelEnd)
  | [] => .ok (l, .done)
  | arg :: rest =>
    let asCommand := if command.isNone && l.waits.isNone then CommandName.all.lookup arg else none
    match asCommand with
    | some name => .ok (l, .command name rest)
    | none =>
      if command.isNone && l.waits.isNone && arg = "help" then .error (helpFor rest)
      else
        match Argument.ofText arg with
        | .escape =>
          match rest with
          | [] => .ok (l, .done)
          | next :: _ =>
            .error (if command.isSome || (CommandName.all.lookup next).isSome || next = "help"
              then .unknownArgument else .invalidSubcommand)
        | .long name value =>
          if name = "help" then .error (flag l value (.help command))
          else if name = "version" && command.isNone then .error (flag l value .version)
          else
            match (optionsAt command).lookup name with
            | none => .error .unknownArgument
            | some o => do
              let l ← l.resolve
              match value with
              | some v => readLevel command (← l.give o v) rest
              | none => readLevel command { l with pending := some (o, none) } rest
        | .short (c :: _) =>
          .error (if c = 'h' then flag l none (.help command)
            else if c = 'V' && command.isNone then flag l none .version
            else .unknownArgument)
        | .short [] => .error .unknownArgument
        | .plain =>
          match l.waits with
          | some o => readLevel command { l with pending := some (o, some arg) } rest
          | none => .error (if command.isSome then .unknownArgument else .invalidSubcommand)

/-! ### All arguments -/

/-- The command that its options make up. -/
def Level.command (l : Level) : CommandName → Except Usage Command
  | .run =>
    match l.value? .scenario with
    | some scenario => .ok (.run scenario)
    | none => .error .missingRequiredArgument
  | .checkSettings => .ok .checkSettings
  | .logs =>
    .ok (.logs (l.value? .userId) (l.value? .conversationId) (l.value? .level)
      (((l.value? .limit).bind readCount?).getD defaultLimit))

/-- What the arguments ask for. -/
def Arguments.read (args : List String) : Except Usage Arguments := do
  let (top, levelEnd) ← readLevel none .empty args
  match levelEnd with
  | .command name rest =>
    let (own, _) ← readLevel (some name) .empty rest
    let own ← own.resolve
    let command ← own.command name
    let top ← top.resolve
    return ⟨own.value? .settings <|> top.value? .settings, command⟩
  | .done =>
    let top ← top.resolve
    .error (if top.values.isEmpty then .nothing else .missingSubcommand)

end CallWatch.CommandLine
