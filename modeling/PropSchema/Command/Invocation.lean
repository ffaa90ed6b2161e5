/-
PropSchema.Command.Invocation — what a command line asks for.

A command line names one command, with flags that count verbosity before it or
anywhere after it. A command takes at most one file, and options of its own: a
flag, or an option with a value, given as the next argument or after `=`. Each
option may be given once. After `--` every argument is a file.

Arguments are taken one by one from the left, and the first that cannot be taken
makes the whole line wrong, unless one that asks for help or for the version
comes before it.
-/
import PropSchema.Text.Split

namespace PropSchema.Command

/-! ## Commands and options -/

/-- The commands. -/
inductive Verb where
  | validate
  | normalize
  | generate
  | version
  deriving DecidableEq, Repr

/-- The options of the commands. -/
inductive Opt where
  | json
  | headerDir
  | sourceDir
  | includeName
  | publicHeaderDir
  deriving DecidableEq, Repr

namespace Verb

/-- Every command. -/
def all : List Verb :=
  [.validate, .normalize, .generate, .version]

/-- The name of a command. -/
def name : Verb → String
  | .validate => "validate"
  | .normalize => "normalize"
  | .generate => "cpp"
  | .version => "version"

/-- The command with the given name. -/
def ofName? (name : String) : Option Verb :=
  all.find? fun v => v.name = name

/-- Whether a command takes a file, which it then needs. -/
def takesFile : Verb → Bool
  | .version => false
  | _ => true

/-- The options that a command takes. -/
def options : Verb → List Opt
  | .validate => [.json]
  | .normalize => []
  | .generate => [.json, .headerDir, .sourceDir, .includeName, .publicHeaderDir]
  | .version => []

end Verb

namespace Opt

/-- The name of an option. -/
def name : Opt → String
  | .json => "json"
  | .headerDir => "header-dir"
  | .sourceDir => "source-dir"
  | .includeName => "include-name"
  | .publicHeaderDir => "public-header-dir"

/-- Whether an option has a value. -/
def takesValue : Opt → Bool
  | .json => false
  | _ => true

/-- Whether a value can be given to an option: only the include name may be
empty, all others are paths. -/
def accepts (o : Opt) (value : String) : Bool :=
  o = .includeName || value ≠ ""

end Opt

/-! ## Requests -/

/-- What a command is to do. -/
inductive Task where
  | validate (file : String) (json : Bool)
  | normalize (file : String)
  | generate (file headerDir sourceDir includeName : String) (publicHeaderDir : Option String)
      (json : Bool)
  | version
  deriving DecidableEq, Repr

/-- A task, and how much is to be said about it. -/
structure Invocation where
  task : Task
  verbosity : Nat
  deriving DecidableEq, Repr

/-- What a command line asks for. -/
inductive Request where
  | run (invocation : Invocation)
  | showVersion
  | showHelp
  | misused
  deriving DecidableEq, Repr

/-! ## Arguments -/

/-- An argument by its form: after `--`, a name and possibly a value; after `-`,
letters; or neither. A single dash has no letters and is none of the forms. -/
inductive Form where
  | escape
  | long (name : String) (value : Option String)
  | short (letters : List Char)
  | plain (text : String)
  deriving DecidableEq, Repr

/-- A name and the value behind the first `=`, if there is one. -/
def nameAndValue (cs : List Char) : String × Option String :=
  match cs.dropWhile (· ≠ '=') with
  | [] => (String.ofList cs, none)
  | _ :: value => (String.ofList (cs.takeWhile (· ≠ '=')), some (String.ofList value))

/-- The form of an argument. -/
def formOf (argument : String) : Form :=
  match argument.toList with
  | ['-', '-'] => .escape
  | '-' :: '-' :: cs =>
    let (name, value) := nameAndValue cs
    .long name value
  | '-' :: c :: cs => .short (c :: cs)
  | _ => .plain argument

/-- What letters after a single dash ask for, up to the first that is not a count
of verbosity. -/
inductive Letters where
  | verbose (count : Nat)
  | help
  | other (letter : Char)
  deriving DecidableEq, Repr

/-- The meaning of letters, after some counts of verbosity. -/
def lettersOf (count : Nat) : List Char → Letters
  | [] => .verbose count
  | 'v' :: cs => lettersOf (count + 1) cs
  | 'h' :: _ => .help
  | c :: _ => .other c

/-- What has been given to a command so far. -/
structure Given where
  file : Option String := none
  values : List (Opt × String) := []
  verbosity : Nat := 0
  deriving DecidableEq, Repr

namespace Given

/-- The value of an option. -/
def value? (g : Given) (o : Opt) : Option String :=
  (g.values.find? fun v => v.1 = o).map (·.2)

/-- Whether an option has been given. -/
def has (g : Given) (o : Opt) : Bool :=
  (g.value? o).isSome

end Given

/-- A request that is settled before the line ends, or what has been given. -/
abbrev Step : Type :=
  Except Request Given

/-- What has been given after one more file. -/
def takeFile (verb : Verb) (g : Given) (file : String) : Step :=
  if verb.takesFile && g.file.isNone && file ≠ "" then .ok { g with file := some file }
  else .error .misused

/-- What has been given after one more option. -/
def takeOption (verb : Verb) (g : Given) (o : Opt) (value : String) : Step :=
  if o ∈ verb.options && !g.has o && o.accepts value then
    .ok { g with values := (o, value) :: g.values }
  else .error .misused

/-- The option of a command that has the given name. -/
def optionOf? (verb : Verb) (name : String) : Option Opt :=
  verb.options.find? fun o => o.name = name

/-- Whether an argument can be the value of an option before it: it does not look
like an option itself. -/
def canBeValue (argument : String) : Bool :=
  match formOf argument with
  | .plain _ => true
  | _ => false

/-- All arguments of a command, as files. -/
def takeFiles (verb : Verb) (g : Given) : List String → Step
  | [] => .ok g
  | file :: files =>
    match takeFile verb g file with
    | .error request => .error request
    | .ok g => takeFiles verb g files

/-- All arguments of a command. -/
def takeArguments (verb : Verb) (g : Given) : List String → Step
  | [] => .ok g
  | argument :: arguments =>
    match formOf argument with
    | .escape => takeFiles verb g arguments
    | .plain file =>
      match takeFile verb g file with
      | .error request => .error request
      | .ok g => takeArguments verb g arguments
    | .short letters =>
      match lettersOf 0 letters with
      | .verbose count => takeArguments verb { g with verbosity := g.verbosity + count } arguments
      | .help => .error .showHelp
      | .other _ => .error .misused
    | .long name value =>
      match optionOf? verb name with
      | none =>
        if value.isSome then .error .misused
        else if name = "verbose" then
          takeArguments verb { g with verbosity := g.verbosity + 1 } arguments
        else if name = "help" then .error .showHelp
        else .error .misused
      | some o =>
        match o.takesValue, value, arguments with
        | false, none, arguments =>
          match takeOption verb g o "true" with
          | .error request => .error request
          | .ok g => takeArguments verb g arguments
        | false, some _, _ => .error .misused
        | true, some value, arguments =>
          match takeOption verb g o value with
          | .error request => .error request
          | .ok g => takeArguments verb g arguments
        | true, none, [] => .error .misused
        | true, none, value :: arguments =>
          if canBeValue value then
            match takeOption verb g o value with
            | .error request => .error request
            | .ok g => takeArguments verb g arguments
          else .error .misused

/-- The task of a command that has been given everything it needs. -/
def taskOf? (verb : Verb) (g : Given) : Option Task :=
  match verb with
  | .validate => g.file.map (.validate · (g.has .json))
  | .normalize => g.file.map .normalize
  | .generate =>
    match g.file, g.value? .headerDir, g.value? .sourceDir, g.value? .includeName with
    | some file, some headerDir, some sourceDir, some includeName =>
      some (.generate file headerDir sourceDir includeName (g.value? .publicHeaderDir)
        (g.has .json))
    | _, _, _, _ => none
  | .version => some .version

/-- What a command and its arguments ask for. The verbosity counted among them,
if there is any, takes the place of the one counted before the command. -/
def requestOf (verb : Verb) (verbosity : Nat) (arguments : List String) : Request :=
  match takeArguments verb {} arguments with
  | .error request => request
  | .ok g =>
    match taskOf? verb g with
    | some task => .run ⟨task, if g.verbosity = 0 then verbosity else g.verbosity⟩
    | none => .misused

/-- What the arguments of the help command ask for: they may name a command. -/
def helpRequest : List String → Request
  | [] => .showHelp
  | [name] => if name = "help" ∨ (Verb.ofName? name).isSome then .showHelp else .misused
  | _ => .misused

/-- What a command line asks for, after some counts of verbosity. -/
def requestAfter (verbosity : Nat) : List String → Request
  | [] => .misused
  | argument :: arguments =>
    match formOf argument with
    | .escape => .misused
    | .plain name =>
      match Verb.ofName? name with
      | some verb => requestOf verb verbosity arguments
      | none => if name = "help" then helpRequest arguments else .misused
    | .short letters =>
      match lettersOf 0 letters with
      | .verbose count => requestAfter (verbosity + count) arguments
      | .help => .showHelp
      | .other letter => if letter = 'V' then .showVersion else .misused
    | .long name value =>
      if value.isSome then .misused
      else if name = "verbose" then requestAfter (verbosity + 1) arguments
      else if name = "version" then .showVersion
      else if name = "help" then .showHelp
      else .misused

/-- What a command line asks for. -/
def Request.ofArguments (arguments : List String) : Request :=
  requestAfter 0 arguments

end PropSchema.Command
