/-!
# Usage and help

The texts that tell how the toolkit is used.
-/

namespace Intcode.Toolkit

/-- What a text is about: the toolkit or one of its commands. -/
inductive Topic where
  | toolkit
  | run
  | disasm
  | info
  deriving DecidableEq, Repr

namespace Topic

/-- The words that call the toolkit or a command. -/
def call : Topic → String
  | toolkit => "intcodekit"
  | run => "intcodekit run"
  | disasm => "intcodekit disasm"
  | info => "intcodekit info"

/-- Lines, each with its end. -/
def unlines (lines : List String) : String :=
  String.join (lines.map (· ++ "\n"))

/-- How the toolkit or a command is called. -/
def usage : Topic → String
  | toolkit => unlines
    ["usage: intcodekit [-h] [--version] [-v] [-q] [--log-file LOG_FILE] command ..."]
  | run => unlines
    ["usage: intcodekit run [-h] [-i VALUE] [--console] [--max-steps MAX_STEPS]",
      "                      [--trace] [--dump]",
      "                      program"]
  | disasm => unlines
    ["usage: intcodekit disasm [-h] [--start START] [--count COUNT] program"]
  | info => unlines
    ["usage: intcodekit info [-h] program"]

/-- What follows the usage in the help. -/
def details : Topic → String
  | toolkit => unlines
    ["Intcode VM toolkit: run, disassemble, inspect",
      "",
      "positional arguments:",
      "  command",
      "    run                Execute a program",
      "    disasm             Disassemble a program",
      "    info               Summarize a program image",
      "",
      "options:",
      "  -h, --help           show this help message and exit",
      "  --version            show program's version number and exit",
      "  -v, --verbose        Increase log verbosity (-v, -vv)",
      "  -q, --quiet          Only log errors",
      "  --log-file LOG_FILE  Also write a DEBUG log to this file",
      "",
      "commands:",
      "  run        Execute a program",
      "  disasm     Disassemble a program to a listing",
      "  info       Summarize a program image"]
  | run => unlines
    ["positional arguments:",
      "  program               Program file (comma-separated integers)",
      "",
      "options:",
      "  -h, --help            show this help message and exit",
      "  -i VALUE, --input VALUE",
      "                        Input value (repeat for several, consumed in order)",
      "  --console             Read input from stdin instead of --input values",
      "  --max-steps MAX_STEPS",
      "                        Fault after this many instructions (default: no limit)",
      "  --trace               Print an instruction trace to stderr after the run",
      "  --dump                Print final memory after the run"]
  | disasm => unlines
    ["positional arguments:",
      "  program        Program file",
      "",
      "options:",
      "  -h, --help     show this help message and exit",
      "  --start START  Start address (default: 0)",
      "  --count COUNT  Maximum number of listing lines"]
  | info => unlines
    ["positional arguments:",
      "  program     Program file",
      "",
      "options:",
      "  -h, --help  show this help message and exit"]

/-- The help. -/
def help (t : Topic) : String :=
  t.usage ++ "\n" ++ t.details

/-- The complaint about a wrong use. -/
def complaint (t : Topic) (message : String) : String :=
  t.usage ++ t.call ++ ": error: " ++ message ++ "\n"

end Topic

/-- The version of the toolkit. -/
def version : String := "intcodekit 0.1.0"

end Intcode.Toolkit
