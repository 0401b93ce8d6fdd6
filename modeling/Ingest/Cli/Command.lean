import Ingest.Text.Blank
import Ingest.Text.Digit
import Ingest.Number.Loose

/-!
Command lines of the loader.

A command line is `[-v|--verbose] COMMAND ARGS...` with two commands:

* `check-config CONFIG` compiles a config file and prints the schema;
* `tokenize DATA [-c|--config CONFIG] [-d|--delimiter TEXT] [-n|--limit N]` prints the columns
  of every data line.

Options before the command belong to the program, options after it to the command, where they
may stand before, between or after its arguments. A long option takes its value as `--name=V` or
as the next argument, a short one as `-nV` or as the next argument; a flag takes no value, and
several short flags may share one dash. `--` ends the options. A repeated option keeps its last
value. The limit is a loosely typed integer (`Loose.int?`): blanks around it, a sign, digits
of any script, underscores between digits, and at most 4300 digits, leading zeros included.

`--help` before the command name asks for the program's help, and after it for the command's
help, once the command's arguments read as options and values; then the values do not matter.
Anything else (an unknown option or command, a missing or extra argument, an option without its
value, a limit that is not an integer) is a usage error.
-/

namespace Ingest.Cli

open Ingest.Text

/-- What a command line asks for. -/
inductive Command where
  /-- Compile a config file and print the schema. -/
  | checkConfig (config : String)
  /-- Print the columns of every data line. -/
  | tokenize (data : String) (config delimiter : Option String) (limit : Int)
deriving DecidableEq, Repr

/-- The files a command reads. -/
def Command.paths : Command → List String
  | .checkConfig config => [config]
  | .tokenize data config _ _ => config.toList ++ [data]

/-- A command line: the verbose flag and the command. -/
structure Invocation where
  verbose : Bool
  command : Command
deriving DecidableEq, Repr

/-- Whether an argument is an option: it starts with a dash and is not a lone dash. -/
def isOption (arg : String) : Bool :=
  arg.startsWith "-" && arg.length > 1

/-- The commands of the loader. -/
inductive CommandName where
  | checkConfig
  | tokenize
deriving DecidableEq, Repr

/-- The command of a name. -/
def CommandName.ofString? : String → Option CommandName
  | "check-config" => some .checkConfig
  | "tokenize" => some .tokenize
  | _ => none

/-- What the program's options gather: the verbose flag, the help flag, and the command name
with the arguments after it, when one is given. -/
structure ProgramOptions where
  verbose : Bool := false
  help : Bool := false
  command : Option (String × List String) := none

/-- Reads the program's options up to the command name; `none` on an unknown option. -/
def programOptions (o : ProgramOptions) : List String → Option ProgramOptions
  | [] => some o
  | arg :: rest =>
    if arg = "--" then
      match rest with
      | name :: args => some { o with command := some (name, args) }
      | [] => some o
    else if arg = "--verbose" then programOptions { o with verbose := true } rest
    else if arg = "--help" then programOptions { o with help := true } rest
    else if isOption arg && !arg.startsWith "--" && (arg.toList.drop 1).all (· = 'v') then
      programOptions { o with verbose := true } rest
    else if isOption arg then none
    else some { o with command := some (arg, rest) }

/-- An option of a command, which takes a value: its long name and its short letter. -/
structure OptionSpec where
  long : String
  short : Char

/-- What reading a command's arguments gathers: positional arguments in order, option values by
long name, the last one first, and whether help was asked for. -/
structure Gathered where
  positional : List String := []
  values : List (String × String) := []
  help : Bool := false

/-- The value given last to an option. -/
def Gathered.value? (g : Gathered) (long : String) : Option String :=
  g.values.lookup long

/-- Records the value of an option. -/
def Gathered.set (g : Gathered) (long value : String) : Gathered :=
  { g with values := (long, value) :: g.values }

/-- The option named by an argument and the value attached to it, if any: `--name=V` or `-nV`. -/
def optionOf? (specs : List OptionSpec) (arg : String) : Option (OptionSpec × Option String) :=
  if arg.startsWith "--" then
    let (name, attached) := match arg.splitOn "=" with
      | n :: v :: vs => (n, some ("=".intercalate (v :: vs)))
      | _ => (arg, none)
    (specs.find? fun s => "--" ++ s.long = name).map fun s => (s, attached)
  else
    match arg.toList with
    | _ :: c :: attached =>
      (specs.find? fun s => s.short = c).map fun s =>
        (s, if attached.isEmpty then none else some (String.ofList attached))
    | _ => none

/-- Reads a command's arguments against its options; `none` on a usage error. -/
def gather (specs : List OptionSpec) (g : Gathered) : List String → Option Gathered
  | [] => some g
  | arg :: rest =>
    if arg = "--" then some { g with positional := g.positional ++ rest }
    else if arg = "--help" then gather specs { g with help := true } rest
    else if isOption arg then
      match optionOf? specs arg with
      | none => none
      | some (s, some v) => gather specs (g.set s.long v) rest
      | some (s, none) =>
        match rest with
        | v :: more => gather specs (g.set s.long v) more
        | [] => none
    else gather specs { g with positional := g.positional ++ [arg] } rest

/-- The options of `tokenize`. -/
def tokenizeOptions : List OptionSpec :=
  [⟨"config", 'c'⟩, ⟨"delimiter", 'd'⟩, ⟨"limit", 'n'⟩]

/-- What a command's arguments ask for: the command's help, or the command. -/
inductive Request where
  | help
  | command (c : Command)
deriving DecidableEq, Repr

/-- Reads a command's arguments; `none` on a usage error. Help is asked for once the arguments
read, whatever their values are. -/
def CommandName.request? (name : CommandName) (args : List String) : Option Request :=
  match name with
  | .checkConfig => do
    let g ← gather [] {} args
    if g.help then pure .help
    else match g.positional with
      | [config] => pure (.command (.checkConfig config))
      | _ => none
  | .tokenize => do
    let g ← gather tokenizeOptions {} args
    if g.help then pure .help
    else
      let limit ← match g.value? "limit" with
        | some text => Loose.int? text
        | none => pure 0
      match g.positional with
      | [data] => pure (.command (.tokenize data (g.value? "config") (g.value? "delimiter") limit))
      | _ => none

/-- A command line as read. -/
inductive Reading where
  /-- The program's own help. -/
  | programHelp
  /-- A command: the verbose flag, the command's name, and what its arguments ask for, `none`
  when they are a usage error. -/
  | command (verbose : Bool) (name : CommandName) (request : Option Request)
deriving DecidableEq, Repr

/-- Reads a command line; `none` on a usage error of the program's options or command name.
The program's help wins over everything after it. -/
def Reading.parse? (args : List String) : Option Reading := do
  let o ← programOptions {} args
  if o.help then pure .programHelp
  else
    let (name, rest) ← o.command
    let name ← CommandName.ofString? name
    pure (.command o.verbose name (name.request? rest))

/-- Reads a command line that runs a command. -/
def Invocation.parse? (args : List String) : Option Invocation :=
  match Reading.parse? args with
  | some (.command verbose _ (some (.command c))) => some ⟨verbose, c⟩
  | _ => none

end Ingest.Cli
