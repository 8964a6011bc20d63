import CommentTemplate.Text.Basic

/-!
# Command-line arguments

The arguments are options of the program, the name of a command, and options and operands of the
command.  The options of the program may also stand behind the command's name; what is given there
wins.

## Main definitions

* `Invocation`, `Command` — what the arguments ask for
* `UsageError` — why they ask for nothing
* `Invocation.ofArguments` — the reading of the arguments

## Design decisions

**Options are declared.**  An `OptionSpec` says how an option is written and whether it takes a
value.  A long option has its value after an equals sign or in the next argument; a short one also
right behind its letter.  A value in an argument of its own does not begin with a hyphen, unless
it is one.

**Every argument is used.**  Options that are not declared, options given twice at one place,
values that are missing or not wanted, and operands that are missing or too many are errors.

**Help is left out.**  The texts that explain the program to its user are not part of this library.
The options `--help` and `-h` and the command `help`, which ask for them, are therefore not
declared, and arguments with them are errors like any others.
-/

namespace CommentTemplate

/-- The form in which a compiled template is printed. -/
inductive OutputFormat where
  | json
  | text
deriving DecidableEq, Repr

/-- What is to be done. -/
inductive Command where
  /-- Print a compiled template. -/
  | compile (file : Text) (removals : List Text) (replacements : List (Text × Text))
      (format : OutputFormat)
  /-- Print the blocks of a template. -/
  | blocks (file : Text)
  /-- Print the text of a template. -/
  | render (file bindings : Text)
deriving DecidableEq, Repr

/-- The file of a command's template. -/
def Command.file : Command → Text
  | .compile file .. | .blocks file | .render file _ => file

/-- A command with the options of the program. -/
structure Invocation where
  /-- Missing includes, tags nested too deep and variables without a value are errors. -/
  strict : Bool
  /-- Every stage is traced. -/
  debug : Bool
  /-- A configuration in JSON. -/
  config : Option Text
  /-- The directory of the includes. -/
  includeDir : Option Text
  /-- The command. -/
  command : Command
deriving DecidableEq, Repr

/-- Why arguments are not understood. -/
inductive UsageError where
  | unknownOption (argument : Text)
  | repeatedOption (name : Text)
  | missingValue (name : Text)
  | unexpectedValue (name : Text)
  | invalidValue (name value : Text)
  | unknownCommand (argument : Text)
  | missingCommand
  | missingOperand
  | unexpectedOperand (argument : Text)
deriving DecidableEq, Repr

/-- The words for an error. -/
def UsageError.message : UsageError → Text
  | .unknownOption argument => "unexpected argument '".toList ++ argument ++ "'".toList
  | .repeatedOption name => "the option '--".toList ++ name ++ "' was given twice".toList
  | .missingValue name => "the option '--".toList ++ name ++ "' needs a value".toList
  | .unexpectedValue name => "the option '--".toList ++ name ++ "' takes no value".toList
  | .invalidValue name value =>
    "invalid value '".toList ++ value ++ "' for '".toList ++ name ++ "'".toList
  | .unknownCommand argument => "there is no command '".toList ++ argument ++ "'".toList
  | .missingCommand => "a command is needed: compile, blocks or render".toList
  | .missingOperand => "the file of a template is needed".toList
  | .unexpectedOperand argument => "unexpected argument '".toList ++ argument ++ "'".toList

/-- How an option is written. -/
structure OptionSpec where
  /-- Its name after two hyphens. -/
  name : Text
  /-- Its letter after one hyphen. -/
  letter : Option Char := none
  /-- Whether it takes a value. -/
  takesValue : Bool := true
  /-- Whether it may be given more than once. -/
  repeatable : Bool := false
deriving DecidableEq, Repr

/-- Options and operands as they were given. -/
structure Given where
  /-- The options by name, with their values in order. -/
  options : List (Text × Text) := []
  /-- The operands in order. -/
  operands : List Text := []
deriving DecidableEq, Repr

namespace Given

/-- The values given for an option. -/
def values (g : Given) (name : Text) : List Text :=
  (g.options.filter fun o => o.1 = name).map Prod.snd

/-- Whether an option was given. -/
def has (g : Given) (name : Text) : Bool := !(g.values name).isEmpty

/-- The last value given for an option. -/
def last? (g : Given) (name : Text) : Option Text := (g.values name).getLast?

/-- The arguments with one more option, which may be refused for standing there already. -/
def addOption (g : Given) (spec : OptionSpec) (value : Text) : Except UsageError Given :=
  if !spec.repeatable && g.has spec.name then .error (.repeatedOption spec.name)
  else .ok { g with options := g.options ++ [(spec.name, value)] }

end Given

/-- Whether an argument looks like an option. -/
def isOption : Text → Bool
  | '-' :: _ :: _ => true
  | _ => false

/-- An argument as an option: its declaration, and the value that stands in the same argument. -/
def splitOption (specs : List OptionSpec) (argument : Text) :
    Except UsageError (OptionSpec × Option Text) :=
  match argument with
  | '-' :: '-' :: rest =>
    let name := rest.takeWhile (· ≠ '=')
    let value := match rest.dropWhile (· ≠ '=') with
      | [] => none
      | _ :: v => some v
    match specs.find? (·.name = name) with
    | some spec => .ok (spec, value)
    | none => .error (.unknownOption argument)
  | '-' :: letter :: rest =>
    match specs.find? (·.letter = some letter) with
    | some spec =>
      let value := match rest with
        | [] => none
        | '=' :: v => some v
        | v => some v
      .ok (spec, value)
    | none => .error (.unknownOption argument)
  | _ => .error (.unknownOption argument)

/-- Arguments read as options and operands: those given before, those of the list, and the
arguments left over.  In front of a command's name, reading stops at the first operand. -/
def readArguments (specs : List OptionSpec) (stopAtOperand : Bool) :
    Given → List Text → Except UsageError (Given × List Text)
  | g, [] => .ok (g, [])
  | g, a :: as =>
    if a = ['-', '-'] then
      if stopAtOperand then
        match as with
        | [] => .ok (g, [])
        | b :: _ => .error (.unexpectedOperand b)
      else .ok ({ g with operands := g.operands ++ as }, [])
    else if isOption a then do
      let (spec, value) ← splitOption specs a
      if spec.takesValue then
        match value with
        | some v => readArguments specs stopAtOperand (← g.addOption spec v) as
        | none =>
          match as with
          | [] => throw (.missingValue spec.name)
          | v :: as =>
            if isOption v then throw (.missingValue spec.name)
            else readArguments specs stopAtOperand (← g.addOption spec v) as
      else if value.isSome then throw (.unexpectedValue spec.name)
      else readArguments specs stopAtOperand (← g.addOption spec []) as
    else if stopAtOperand then .ok (g, a :: as)
    else readArguments specs stopAtOperand { g with operands := g.operands ++ [a] } as
termination_by _ as => as.length

/-! ## The options of the program -/

/-- The options of the program. -/
def programOptions : List OptionSpec :=
  [ { name := "strict".toList, takesValue := false },
    { name := "debug".toList, takesValue := false },
    { name := "config".toList },
    { name := "include-dir".toList, letter := some 'i' } ]

/-- The options of the command `compile`. -/
def compileOptions : List OptionSpec :=
  [ { name := "remove".toList, repeatable := true },
    { name := "replace".toList, repeatable := true },
    { name := "format".toList, letter := some 'f' } ]

/-- The options of the command `render`. -/
def renderOptions : List OptionSpec := [{ name := "bindings".toList, letter := some 'b' }]

/-- A replacement written as a name that is not empty, an equals sign and a text. -/
def replacement? (value : Text) : Except UsageError (Text × Text) :=
  let name := value.takeWhile (· ≠ '=')
  match value.dropWhile (· ≠ '=') with
  | _ :: text =>
    if name = [] then .error (.invalidValue "replace".toList value) else .ok (name, text)
  | [] => .error (.invalidValue "replace".toList value)

/-- An output format by name. -/
def format? : Option Text → Except UsageError OutputFormat
  | none => .ok .json
  | some v =>
    if v = "json".toList then .ok .json
    else if v = "text".toList then .ok .text
    else .error (.invalidValue "format".toList v)

/-- The only operand, a path that is not empty. -/
def operand (g : Given) : Except UsageError Text :=
  match g.operands with
  | [] => .error .missingOperand
  | [file] => if file = [] then .error (.invalidValue "file".toList []) else .ok file
  | _ :: extra :: _ => .error (.unexpectedOperand extra)

/-- The path given for the directory of the includes, which is not empty. -/
def includeDir? (g : Given) : Except UsageError (Option Text) :=
  match g.last? "include-dir".toList with
  | some [] => .error (.invalidValue "include-dir".toList [])
  | dir => .ok dir

/-- The command of a name with its arguments. -/
def Command.ofArguments (name : Text) (as : List Text) : Except UsageError (Command × Given) := do
  let read (own : List OptionSpec) : Except UsageError Given :=
    (readArguments (own ++ programOptions) false {} as).map Prod.fst
  if name = "compile".toList then
    let g ← read compileOptions
    let replacements ← (g.values "replace".toList).mapM replacement?
    let format ← format? (g.last? "format".toList)
    return (.compile (← operand g) (g.values "remove".toList) replacements format, g)
  else if name = "blocks".toList then
    let g ← read []
    return (.blocks (← operand g), g)
  else if name = "render".toList then
    let g ← read renderOptions
    return (.render (← operand g) ((g.last? "bindings".toList).getD ['{', '}']), g)
  else throw (.unknownCommand name)

/-- What the arguments ask for. -/
def Invocation.ofArguments (as : List Text) : Except UsageError Invocation := do
  let (outer, rest) ← readArguments programOptions true {} as
  match rest with
  | [] => throw .missingCommand
  | name :: rest =>
    let (command, inner) ← Command.ofArguments name rest
    let outerDir ← includeDir? outer
    let innerDir ← includeDir? inner
    return {
      strict := outer.has "strict".toList || inner.has "strict".toList
      debug := outer.has "debug".toList || inner.has "debug".toList
      config := (inner.last? "config".toList).or (outer.last? "config".toList)
      includeDir := innerDir.or outerDir
      command := command }

end CommentTemplate
