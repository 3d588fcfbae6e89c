/-! Options and operands among the arguments of a command.

    They may be mixed. No option may be given twice. The value of an option is attached to it, or is
    the next argument unless that looks like an option. Behind `--` all arguments are operands. -/

namespace ContextualQuery.Command

/-! ### Options -/

/-- The options of the command and of its subcommands. -/
inductive Switch where | verbose | version | config | format | parseOnly | xml
  deriving DecidableEq

namespace Switch

/-- All options. -/
def all : List Switch := [.verbose, .version, .config, .format, .parseOnly, .xml]

/-- The name of an option behind two dashes. -/
def name : Switch → String
  | .verbose => "verbose"
  | .version => "version"
  | .config => "config"
  | .format => "format"
  | .parseOnly => "syntax-only"
  | .xml => "xml"

/-- The letter of an option behind one dash. -/
def letter? : Switch → Option Char
  | .verbose => some 'v'
  | .version => some 'V'
  | .config => some 'c'
  | .format => some 'f'
  | .parseOnly | .xml => none

/-- Whether an option has a value. -/
def hasValue : Switch → Bool
  | .config | .format => true
  | _ => false

/-- Whether an option may have a value. Paths are not empty, and there are two formats. -/
def admits : Switch → String → Bool
  | .config, value => !value.isEmpty
  | .format, value => value == "text" || value == "json"
  | _, value => value.isEmpty

end Switch

/-- Whether an argument looks like an option. A dash alone does not. -/
def looksLikeOption (arg : String) : Bool := arg.startsWith "-" && arg != "-"

/-! ### Arguments -/

/-- The arguments taken so far: the options with their values, the operands, an option whose value
    is to follow, and whether only operands may follow. -/
structure Arguments where
  switches : List (Switch × String) := []
  operands : List String := []
  awaiting : Option Switch := none
  operandsOnly : Bool := false

namespace Arguments

/-- Whether an option is given. -/
def has (a : Arguments) (s : Switch) : Bool := a.switches.any (·.1 == s)

/-- The value of an option that is given. -/
def value? (a : Arguments) (s : Switch) : Option String := a.switches.lookup s

/-- Gives an option its value. -/
def give (a : Arguments) (s : Switch) (value : String) : Option Arguments :=
  if a.has s || !s.admits value then none
  else some { a with switches := a.switches ++ [(s, value)], awaiting := none }

/-- Takes an option, whose value is to follow if it has one. -/
def takeSwitch (a : Arguments) (s : Switch) : Option Arguments :=
  if s.hasValue then some { a with awaiting := some s } else a.give s ""

/-- Takes an argument behind two dashes. -/
def takeLong (allowed : List Switch) (a : Arguments) (text : List Char) : Option Arguments :=
  match text.span (· ≠ '=') with
  | (name, value) => do
    let s ← allowed.find? (·.name == String.ofList name)
    match value with
    | [] => a.takeSwitch s
    | _ :: value => if s.hasValue then a.give s (String.ofList value) else none

/-- Takes the letters behind one dash. The rest of the argument is the value of the first option
    that has one; behind the question for the version nothing counts. -/
def takeLetters (allowed : List Switch) (a : Arguments) : List Char → Option Arguments
  | [] => some a
  | c :: rest => do
    let s ← allowed.find? (·.letter? == some c)
    if s.hasValue then
      match rest with
      | [] => a.takeSwitch s
      | '=' :: value | value => a.give s (String.ofList value)
    else
      let a ← a.give s ""
      if s = .version then some a else a.takeLetters allowed rest

/-- Takes an argument, the given options being allowed. -/
def take (allowed : List Switch) (a : Arguments) (arg : String) : Option Arguments :=
  match a.awaiting with
  | some s => if looksLikeOption arg then none else a.give s arg
  | none =>
    if a.operandsOnly || !looksLikeOption arg then some { a with operands := a.operands ++ [arg] }
    else
      match arg.toList with
      | '-' :: '-' :: [] => some { a with operandsOnly := true }
      | '-' :: '-' :: text => a.takeLong allowed text
      | _ :: letters => a.takeLetters allowed letters
      | [] => none

/-- Takes all arguments of a subcommand. -/
def ofList (allowed : List Switch) (args : List String) : Option Arguments := do
  let a ← args.foldlM (take allowed) {}
  if a.awaiting.isSome then none else some a

end Arguments

end ContextualQuery.Command
