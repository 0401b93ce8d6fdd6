import Ingest.Cli.Command
import Ingest.Cli.Help
import Ingest.Records
import Ingest.Schema.Document

/-!
Running the loader's commands.

A run sees the files it may read and the requested log level, and ends with an exit status,
what it printed, and the class of the error that stopped it, if an unexpected one did. The
status is 0 on success, 1 when the config is invalid (it does not read, is empty, or does not
compile, or its options are invalid) and 2 for a usage error, a file that cannot be read or a
log level that is not one of `CRITICAL FATAL ERROR WARN WARNING INFO DEBUG NOTSET` once trimmed
and put in upper case; the verbose flag asks for `DEBUG` and so passes any level.

Text files are read with universal line ends: `\r\n`, `\r` and `\n` all end a line.

`--help` prints a help screen and ends with status 0. `check-config` prints the compiled schema
as a YAML document followed by an empty line.
`tokenize` splits every data line with the delimiter given on the command line, else the
config's, else a comma; it skips the header row when the config says there is one, stops after
`--limit` rows when that is not 0, and prints each row as a JSON array. A negative limit, or one
past the largest 64-bit integer, stops the run with an error before anything is printed.
-/

namespace Ingest.Cli

open Ingest.Text

/-- What a run can see: the files by path, and the requested log level, if any. -/
structure Environment where
  files : List (String × String) := []
  logLevel : Option String := none

/-- How a run ended. -/
structure Outcome where
  exitCode : Nat
  stdout : String := ""
  /-- The class of the unexpected error that stopped the run. -/
  exception : Option String := none

/-- A usage error. -/
def usageError : Outcome := ⟨2, "", none⟩

/-- An invalid config. -/
def invalidConfig : Outcome := ⟨1, "", none⟩

/-- The lines of a text read with universal line ends. -/
def universalLines (text : String) : List String :=
  let rec go (line : List Char) : List Char → List String
    | [] => if line.isEmpty then [] else [String.ofList line.reverse]
    | '\r' :: '\n' :: rest => String.ofList line.reverse :: go [] rest
    | '\r' :: rest => String.ofList line.reverse :: go [] rest
    | '\n' :: rest => String.ofList line.reverse :: go [] rest
    | c :: rest => go (c :: line) rest
  go [] text.toList

/-- A text read with universal line ends: every line end becomes a line feed. -/
def universalText (text : String) : String :=
  let rec go : List Char → List Char
    | [] => []
    | '\r' :: '\n' :: rest => '\n' :: go rest
    | '\r' :: rest => '\n' :: go rest
    | c :: rest => c :: go rest
  String.ofList (go text.toList)

/-- The upper case of a character, exact where it is ASCII text; others are kept. -/
def upperForAscii (c : Char) : List Char :=
  if 'a' ≤ c ∧ c ≤ 'z' then [Char.ofNat (c.toNat - 32)]
  else match c.toNat with
    | 0xDF => ['S', 'S']
    | 0x131 => ['I']
    | 0x17F => ['S']
    | 0xFB00 => ['F', 'F']
    | 0xFB01 => ['F', 'I']
    | 0xFB02 => ['F', 'L']
    | 0xFB03 => ['F', 'F', 'I']
    | 0xFB04 => ['F', 'F', 'L']
    | 0xFB05 | 0xFB06 => ['S', 'T']
    | _ => [c]

/-- The names of the log levels. -/
def levelNames : List String :=
  ["CRITICAL", "FATAL", "ERROR", "WARN", "WARNING", "INFO", "DEBUG", "NOTSET"]

/-- Whether the requested log level is valid. -/
def levelValid (verbose : Bool) (requested : Option String) : Bool :=
  verbose ||
    let name := String.ofList ((trimChars (requested.getD "WARNING").toList).flatMap upperForAscii)
    levelNames.contains name

/-- The schema of a config text, if it is valid. -/
def loadConfig (text : String) : Option Schema.Compiled :=
  match Relaxed.read .relaxed (universalText text) with
  | .ok (some doc) => (Schema.compile (some doc)).toOption
  | _ => none

/-- Prints the compiled schema of a config file. -/
def checkConfig (env : Environment) (path : String) : Outcome :=
  match env.files.lookup path with
  | none => usageError
  | some text =>
    match loadConfig text with
    | none => invalidConfig
    | some schema => ⟨0, schema.document.document ++ "\n", none⟩

/-- The JSON array of the columns of a row. -/
def rowLine (columns : List String) : String :=
  "[" ++ ", ".intercalate (columns.map jsonLiteral) ++ "]\n"

/-- The largest 64-bit signed integer. -/
def maxLimit : Int := Int.pow 2 63 - 1

/-- Prints the columns of every data line. -/
def tokenizeFile (env : Environment) (data : String) (config delimiter : Option String)
    (limit : Int) : Outcome :=
  let given := (delimiter.bind Delimited.Delimiter.ofString?)
  let settings : Except Outcome (Delimited.Delimiter × Bool) :=
    match config with
    | none => .ok (given.getD .comma, false)
    | some path =>
      match env.files.lookup path with
      | none => .error usageError
      | some text =>
        match loadConfig text with
        | none => .error invalidConfig
        | some schema =>
          match Schema.Options.ofTexts schema.settings with
          | .error _ => .error invalidConfig
          | .ok opts => .ok (given.getD opts.delimiter, opts.header)
  match settings with
  | .error o => o
  | .ok (d, header) =>
    match env.files.lookup data with
    | none => usageError
    | some text =>
      let rows := d.rows (universalLines text)
      let rows := if header then rows.drop 1 else rows
      if limit < 0 ∨ limit > maxLimit then ⟨1, "", some "ValueError"⟩
      else
        let rows := if limit = 0 then rows else rows.take limit.toNat
        ⟨0, String.join (rows.map rowLine), none⟩

/-- The help screen of a command. -/
def CommandName.help : CommandName → String
  | .checkConfig => Help.checkConfig
  | .tokenize => Help.tokenize

/-- Runs a command line. The program's help comes before the log level is checked, and a
command's help after it. -/
def run (env : Environment) (args : List String) : Outcome :=
  match Reading.parse? args with
  | none => usageError
  | some .programHelp => ⟨0, Help.program, none⟩
  | some (.command verbose name request) =>
    if !levelValid verbose env.logLevel then usageError
    else match request with
      | none => usageError
      | some .help => ⟨0, name.help, none⟩
      | some (.command (.checkConfig path)) => checkConfig env path
      | some (.command (.tokenize data config delimiter limit)) =>
        tokenizeFile env data config delimiter limit

end Ingest.Cli
