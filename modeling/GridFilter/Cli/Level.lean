import GridFilter.Cli.Arguments
import GridFilter.Number.Decimal

/-! The arguments of one command, up to the name of a command below it. Arguments are taken from left to right, and
    the first one that does not fit decides. -/

namespace GridFilter.Cli

/-! ### Descriptions -/

/-- What an option does: it counts how often it is given, it is given or not, or it has a value. -/
inductive OptionKind where
  | count
  | switch
  | value (accepts : String → Bool)

/-- An option, with a long name and perhaps a letter. -/
structure OptionSpec where
  name : String
  letter : Option Char := none
  kind : OptionKind := .switch

/-- The arguments that a command takes: options, operands by which texts they accept, and commands below it. -/
structure Spec where
  options : List OptionSpec
  operands : List (String → Bool) := []
  commands : List String := []

/-- The arguments that have been taken. -/
structure Given where
  options : List (String × String) := []
  operands : List String := []

namespace Given

/-- How often an option is given. -/
def count (given : Given) (name : String) : Nat := (given.options.filter (·.1 == name)).length

/-- The option is given. -/
def has (given : Given) (name : String) : Bool := given.options.any (·.1 == name)

/-- The value of an option. -/
def value? (given : Given) (name : String) : Option String := given.options.lookup name

/-- Adds an option; only a count may be given more than once. -/
def addOption (given : Given) (option : OptionSpec) (value : String) : Except Refusal Given :=
  let added : Given := { given with options := given.options ++ [(option.name, value)] }
  match option.kind with
  | .count => .ok added
  | .switch => if given.has option.name then .error .usage else .ok added
  | .value accepts => if given.has option.name || !accepts value then .error .usage else .ok added

/-- Adds an operand, if the command takes one more. -/
def addOperand (given : Given) (spec : Spec) (operand : String) : Except Refusal Given :=
  match spec.operands[given.operands.length]? with
  | some accepts =>
    if accepts operand then .ok { given with operands := given.operands ++ [operand] } else .error .usage
  | none => .error .usage

/-- Adds operands in order. -/
def addOperands (given : Given) (spec : Spec) : List String → Except Refusal Given
  | [] => .ok given
  | operand :: rest => do
    let given ← given.addOperand spec operand
    given.addOperands spec rest

end Given

/-! ### Options -/

/-- An option that takes a value. -/
def OptionSpec.takesValue (option : OptionSpec) : Bool :=
  match option.kind with
  | .value _ => true
  | _ => false

/-- The options that every command has: they ask for help and for the version. -/
def isDisplayName (name : List Char) : Bool := name = "help".toList || name = "version".toList

/-- The letters of the options that every command has. -/
def isDisplayLetter (c : Char) : Bool := c == 'h' || c == 'V'

/-- What an argument of options gives: the options so far, and one more that waits for its value. -/
abbrev Step := Given × Option OptionSpec

/-- An option by its long name, with a value behind an equals sign if there is one. -/
def longOption (spec : Spec) (given : Given) (text : List Char) : Except Refusal Step :=
  let (name, attached) := match Text.cut? '=' text with
    | some (name, value) => (name, some (String.ofList value))
    | none => (text, none)
  match spec.options.find? (·.name.toList == name), attached with
  | some option, some value =>
    if option.takesValue then do return (← given.addOption option value, none) else .error .usage
  | some option, none =>
    if option.takesValue then .ok (given, some option) else do return (← given.addOption option "", none)
  | none, none => .error (if isDisplayName name then .display else .usage)
  | none, some _ => .error .usage

/-- Options by their letters. A letter that takes a value has the rest of the argument for it, or the next one. -/
def letterOptions (spec : Spec) (given : Given) : List Char → Except Refusal Step
  | [] => .ok (given, none)
  | c :: rest =>
    match spec.options.find? (·.letter == some c) with
    | none => .error (if isDisplayLetter c then .display else .usage)
    | some option =>
      if option.takesValue then
        match rest with
        | [] => .ok (given, some option)
        | '=' :: value => do return (← given.addOption option (.ofList value), none)
        | value => do return (← given.addOption option (.ofList value), none)
      else do
        let given ← given.addOption option ""
        letterOptions spec given rest

/-- An argument that does not stand for a value: it starts with a hyphen and is more than that. -/
def isDashed (arg : String) : Bool :=
  match arg.toList with
  | '-' :: _ :: _ => true
  | _ => false

/-- The options of one argument, or nothing for an argument that is an operand. -/
def optionStep? (spec : Spec) (given : Given) (arg : String) : Option (Except Refusal Step) :=
  match arg.toList with
  | '-' :: '-' :: name => some (longOption spec given name)
  | '-' :: c :: letters => some (letterOptions spec given (c :: letters))
  | _ => none

/-! ### Levels -/

/-- The arguments of a command. What is left over starts with the name of a command below it, or is empty. -/
def takeLevel (spec : Spec) (given : Given) : List String → Except Refusal (Given × List String)
  | [] => .ok (given, [])
  | arg :: rest =>
    if spec.commands.contains arg then .ok (given, arg :: rest)
    else if arg = "--" then do return (← given.addOperands spec rest, [])
    else match optionStep? spec given arg with
      | none => do
        let given ← given.addOperand spec arg
        takeLevel spec given rest
      | some (.error refusal) => .error refusal
      | some (.ok (given, none)) => takeLevel spec given rest
      | some (.ok (given, some option)) =>
        match rest with
        | [] => .error .usage
        | value :: rest =>
          if isDashed value then .error .usage
          else do
            let given ← given.addOption option value
            takeLevel spec given rest

end GridFilter.Cli
