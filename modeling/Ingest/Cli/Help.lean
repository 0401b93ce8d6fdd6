/-!
Help screens of the loader's command line.

A help screen is 80 columns wide. It opens with the usage line and the description, each padded
to the full width between blank lines, and goes on with framed panels: a title in the top rule,
then one row per line of text, each padded to the width inside the frame. The screen ends with an
empty line.

The program's screen lists its options and commands, and each command's screen lists its
arguments and options.
-/

namespace Ingest.Cli.Help

/-- The width of a help screen, in columns. -/
def screenWidth : Nat := 80

/-- A text filled with spaces to `width` characters; a longer text stays as it is. -/
def fill (width : Nat) (text : String) : String :=
  text.pushn ' ' (width - text.length)

/-- A rule of `n` box-drawing strokes. -/
def rule (n : Nat) : String :=
  "".pushn '─' n

/-- A framed panel: the title in the top rule, each row inside the frame. -/
def panel (title : String) (rows : List String) : List String :=
  ("╭─ " ++ title ++ " " ++ rule (screenWidth - 5 - title.length) ++ "╮") ::
    rows.map (fun row => "│ " ++ fill (screenWidth - 4) row ++ " │") ++
    ["╰" ++ rule (screenWidth - 2) ++ "╯"]

/-- A screen: the usage line, the description, then the panels, with the empty line at the end. -/
def screen (usage description : String) (panels : List (List String)) : String :=
  let blank := fill screenWidth ""
  let lines := [blank, fill screenWidth (" Usage: " ++ usage), blank,
    fill screenWidth (" " ++ description), blank] ++ panels.flatten ++ [""]
  "\n".intercalate lines ++ "\n"

/-- The help screen of the program. -/
def program : String :=
  screen "root [OPTIONS] COMMAND [ARGS]..." "dsv-loader CLI"
    [panel "Options"
      ["--verbose             -v        Debug logging",
       "--install-completion            Install completion for the current shell.",
       "--show-completion               Show completion for the current shell, to",
       "                                copy it or customize the installation.",
       "--help                          Show this message and exit."],
     panel "Commands"
      ["check-config  Compile CONFIG and print the compiled schema as YAML.",
       "tokenize      Print the columns of each DATA line as one JSON array per",
       "              line."]]

/-- The help screen of `check-config`. -/
def checkConfig : String :=
  screen "root check-config [OPTIONS] \x7bconfig\x7d"
    "Compile CONFIG and print the compiled schema as YAML."
    [panel "Arguments" ["*    config      <path>  Relaxed-JSON config file [required]"],
     panel "Options" ["--help          Show this message and exit."]]

/-- The help screen of `tokenize`. -/
def tokenize : String :=
  screen "root tokenize [OPTIONS] \x7bdata\x7d"
    "Print the columns of each DATA line as one JSON array per line."
    [panel "Arguments" ["*    data      <path>  DSV data file [required]"],
     panel "Options"
      ["--config     -c      <path>  Take delimiter/header from this config",
       "--delimiter  -d      <str>   Column delimiter (overrides config)",
       "--limit      -n      <int>   Max rows to print (0 = no limit) [default: 0]",
       "--help                       Show this message and exit."]]

theorem fill_length (width : Nat) (text : String) (h : text.length ≤ width) :
    (fill width text).length = width := by
  simp [fill, String.length_pushn]
  omega

end Ingest.Cli.Help
