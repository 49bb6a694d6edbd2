/-!
# Help texts

What the program tells about itself when it is asked for help or for its version.
-/

namespace SlotChain.CommandLine

/-- The version text. -/
def versionText : String := "dlist 0.1.0\n"

/-- The short help text, with every option on one line. -/
def shortHelp : String := "\n".intercalate [
  "Run a sequence of operations against a doubly linked list of strings",
  "",
  "Usage: dlist [OPTIONS] [OPS]...",
  "",
  "Arguments:",
  "  [OPS]...  Operations to run, in order",
  "",
  "Options:",
  "      --capacity <CAPACITY>  " ++
    "Number of nodes to reserve in the list arena up front [default: 0]",
  "      --script <SCRIPT>      " ++
    "Read operations from a file, one per line. " ++
    "Blank lines and lines starting with `#` are skipped",
  "  -h, --help                 Print help (see more with '--help')",
  "  -V, --version              Print version",
  ""]

/-- The long help text, with the description of every option below it. -/
def longHelp : String := "\n".intercalate [
  "Run a sequence of operations against a doubly linked list of strings.",
  "",
  "Operations: `prepend <value>`, `append <value>`, `delete-head`, `delete-tail`, `len`, `print`. " ++
    "Without any operation, a short demo scenario runs.",
  "",
  "Usage: dlist [OPTIONS] [OPS]...",
  "",
  "Arguments:",
  "  [OPS]...",
  "          Operations to run, in order",
  "",
  "Options:",
  "      --capacity <CAPACITY>",
  "          Number of nodes to reserve in the list arena up front",
  "          ",
  "          [default: 0]",
  "",
  "      --script <SCRIPT>",
  "          Read operations from a file, one per line. " ++
    "Blank lines and lines starting with `#` are skipped",
  "",
  "  -h, --help",
  "          Print help (see a summary with '-h')",
  "",
  "  -V, --version",
  "          Print version",
  ""]

end SlotChain.CommandLine
