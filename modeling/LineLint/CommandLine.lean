import LineLint.Check

/-! # The command line

The arguments of the program are read from left to right, first those of the program and then those
of its command. Reading stops at the first thing that is wrong, and at a request for help or for
the version. An option takes the next argument, unless that looks like an option, or what follows
it in its own argument.
-/

namespace LineLint

/-- What the program is asked to do. -/
inductive Command where
  | check (options : CheckOptions)
  | listRules
  /-- Create a settings file. -/
  | create (force : Bool)
deriving DecidableEq, Repr

/-- A command, and the settings file that is asked for. -/
structure Invocation where
  command : Command
  settings : Option Path
deriving DecidableEq, Repr

namespace CommandLine

/-- Why reading stops. -/
inductive Stop where
  /-- The arguments make no sense. -/
  | usage
  | help
  | version
deriving DecidableEq, Repr

/-- The commands, and the program itself, each of which has arguments of its own. -/
inductive Level where
  | program
  | check
  | listRules
  | create
deriving DecidableEq, Repr

/-- An option without a value. -/
inductive Flag where
  | verbose
  | force
  | help
  | version
deriving DecidableEq, Repr

inductive ValueOption where
  | settings
  | format
  | rules
  | exclude
  | extension
  | indentUnit
deriving DecidableEq, Repr

inductive Switch where
  | flag (flag : Flag)
  | value (option : ValueOption)
deriving DecidableEq, Repr

/-- What a level knows under a long name, without its hyphens. -/
def long? (level : Level) (name : String) : Option Switch :=
  match level, name with
  | _, "verbose" => some (.flag .verbose)
  | _, "config" => some (.value .settings)
  | _, "help" => some (.flag .help)
  | .program, "version" => some (.flag .version)
  | .check, "format" => some (.value .format)
  | .check, "rules" => some (.value .rules)
  | .check, "exclude" => some (.value .exclude)
  | .check, "ext" => some (.value .extension)
  | .check, "indent-unit" => some (.value .indentUnit)
  | .create, "force" => some (.flag .force)
  | _, _ => none

/-- What a level knows under a letter. -/
def short? (level : Level) (letter : Char) : Option Switch :=
  match level, letter with
  | _, 'v' => some (.flag .verbose)
  | _, 'c' => some (.value .settings)
  | _, 'h' => some (.flag .help)
  | .program, 'V' => some (.flag .version)
  | .check, 'f' => some (.value .format)
  | .check, 'e' => some (.value .exclude)
  | _, _ => none

def command? (word : String) : Option Level :=
  match word with
  | "check" => some .check
  | "list-rules" => some .listRules
  | "init" => some .create
  | _ => none

/-- What a level was given. -/
structure Given where
  flags : List Flag := []
  settings : Option Path := none
  path : Option Path := none
  format : Option OutputFormat := none
  rules : Option String := none
  exclude : List String := []
  extensions : List String := []
  indentUnit : Option Nat := none
deriving DecidableEq, Repr

/-- The number that a text gives: digits, perhaps behind a plus sign, of a number below
`2 ^ 64`. -/
def number? (text : List Char) : Option Nat :=
  let digits := if text.head? = some '+' then text.tail else text
  if digits.isEmpty || !digits.all Char.isDigit then none
  else
    let n := digits.foldl (fun n c => n * 10 + (c.toNat - '0'.toNat)) 0
    if n < UInt64.size then some n else none

namespace Given

/-- Adds a flag, which may be given once. -/
def addFlag (given : Given) (flag : Flag) : Except Stop Given :=
  match flag with
  | .help => .error .help
  | .version => .error .version
  | flag =>
    if given.flags.contains flag then .error .usage
    else .ok { given with flags := flag :: given.flags }

/-- The value of an option that may be given once. -/
def once {α : Type} (old : Option α) (new : Option α) : Except Stop (Option α) :=
  match old, new with
  | none, some new => .ok (some new)
  | _, _ => .error .usage

/-- A path that is not empty. -/
def path? (text : String) : Option Path := if text = "" then none else some ⟨text⟩

/-- Adds an option with its value. Only patterns to exclude and extensions may be given more than
once. -/
def addValue (given : Given) (option : ValueOption) (text : String) : Except Stop Given :=
  match option with
  | .settings => do return { given with settings := ← once given.settings (path? text) }
  | .format => do return { given with format := ← once given.format (OutputFormat.ofName? text) }
  | .rules => do return { given with rules := ← once given.rules (some text) }
  | .exclude => .ok { given with exclude := given.exclude ++ [text] }
  | .extension => .ok { given with extensions := given.extensions ++ [text] }
  | .indentUnit => do
    return { given with indentUnit := ← once given.indentUnit (number? text.toList) }

/-- Adds an argument that is no option. Only a check takes one, the path. -/
def addPath (given : Given) (level : Level) (text : String) : Except Stop Given :=
  match level with
  | .check => do return { given with path := ← once given.path (path? text) }
  | _ => .error .usage

/-- Adds arguments none of which is an option. -/
def addPaths (given : Given) (level : Level) : List String → Except Stop Given
  | [] => .ok given
  | text :: rest => do (← given.addPath level text).addPaths level rest

/-- Adds an argument of letters, each an option. The option at the end may lack its value. -/
def addLetters (given : Given) (level : Level) :
    List Char → Except Stop (Given × Option ValueOption)
  | [] => .ok (given, none)
  | letter :: rest =>
    match short? level letter with
    | none => .error .usage
    | some (.flag flag) => do (← given.addFlag flag).addLetters level rest
    | some (.value option) =>
      match rest with
      | [] => .ok (given, some option)
      | c :: value => do
        let value := if c = '=' then value else rest
        return (← given.addValue option (String.ofList value), none)

/-- Adds an argument that is a long option, which may lack its value. -/
def addLong (given : Given) (level : Level) (text : List Char) :
    Except Stop (Given × Option ValueOption) :=
  let name := String.ofList (text.takeWhile (· ≠ '='))
  let value := text.dropWhile (· ≠ '=')
  match long? level name, value with
  | none, _ => .error .usage
  | some (.flag flag), [] => do return (← given.addFlag flag, none)
  | some (.flag _), _ :: _ => .error .usage
  | some (.value option), [] => .ok (given, some option)
  | some (.value option), _ :: value => do
    return (← given.addValue option (String.ofList value), none)

def checkOptions (given : Given) : CheckOptions :=
  ⟨given.path, given.format.getD .text, given.rules, given.exclude, given.extensions,
    given.indentUnit⟩

end Given

/-- Whether an argument looks like an option and so is no value. -/
def looksLikeOption : List Char → Bool
  | '-' :: _ :: _ => true
  | _ => false

/-- What help is asked for behind `help`: of the program, or of one command. -/
def helpOn : List String → Stop
  | [] => .help
  | [word] => if word = "help" ∨ (command? word).isSome then .help else .usage
  | _ => .usage

/-- What a level is given by arguments. The program's own arguments end with a command, which comes
with the arguments behind it. -/
def read (level : Level) (given : Given) :
    List String → Except Stop (Given × Option (Level × List String))
  | [] => .ok (given, none)
  | argument :: rest =>
    let command := if level = .program then command? argument else none
    match command with
    | some command => .ok (given, some (command, rest))
    | none =>
      if level = .program ∧ argument = "help" then .error (helpOn rest)
      else
        match argument.toList with
        | ['-', '-'] => do return (← given.addPaths level rest, none)
        | '-' :: c :: letters => do
          let added ←
            if c = '-' then given.addLong level letters else given.addLetters level (c :: letters)
          match added with
          | (given, none) => read level given rest
          | (given, some option) =>
            match rest with
            | [] => .error .usage
            | value :: rest =>
              if looksLikeOption value.toList then .error .usage
              else do read level (← given.addValue option value) rest
        | _ => do read level (← given.addPath level argument) rest

/-- The settings file that a level asks for, on the command line or else in the environment. -/
def settingsOf (given : Given) (fallback : Option String) : Except Stop (Option Path) :=
  match given.settings, fallback with
  | some path, _ => .ok (some path)
  | none, none => .ok none
  | none, some text =>
    match Given.path? text with
    | some path => .ok (some path)
    | none => .error .usage

def command (level : Level) (given : Given) : Option Command :=
  match level with
  | .program => none
  | .check => some (.check given.checkOptions)
  | .listRules => some .listRules
  | .create => some (.create (given.flags.contains .force))

/-- What arguments ask for, where `fallback` is the settings file that the environment names. A file
that the arguments of the command name wins over one that those of the program name, and that over
the environment. -/
def parse (arguments : List String) (fallback : Option String) : Except Stop Invocation := do
  match ← read .program {} arguments with
  | (_, none) => .error .usage
  | (outer, some (level, rest)) =>
    let (inner, _) ← read level {} rest
    let innerFile ← settingsOf inner fallback
    let outerFile ← settingsOf outer fallback
    let settings := if inner.settings.isSome ∨ outer.settings.isNone then innerFile else outerFile
    match command level inner with
    | some command => .ok ⟨command, settings⟩
    | none => .error .usage

end CommandLine

end LineLint
