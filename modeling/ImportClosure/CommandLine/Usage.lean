import ImportClosure.CommandLine.Arguments

/-!
# `ImportClosure.CommandLine.Usage`: what the command line says about itself

`usage` shows the switches and the positionals in short, `help` explains them, and
`complaint` reports a fault below the usage.
-/

set_option autoImplicit false

namespace ImportClosure.CommandLine

/-- The text of lines, each with a line feed at its end. -/
def ofLines (lines : List String) : Text := lines.flatMap fun line => line.toList ++ ['\n']

/-- The usage. -/
def usage : Text :=
  ofLines
    ["usage: resolve-imports [-h] [--include-manifest] [--with-mtimes]",
     "                       [--log-level LOG_LEVEL]",
     "                       root_path entry_file"]

/-- The help. -/
def help : Text :=
  usage ++ ofLines
    ["",
     "List the project files a module or document depends on.",
     "",
     "positional arguments:",
     "  root_path             project root directory",
     "  entry_file            entry file, absolute or relative to the root",
     "",
     "options:",
     "  -h, --help            show this help message and exit",
     "  --include-manifest    also list <root>/package.json when it exists",
     "  --with-mtimes         emit \x7bpath, modified\x7d objects instead of plain paths",
     "  --log-level LOG_LEVEL",
     "                        override RESOLVER_LOG_LEVEL"]

/-- The report of a fault. -/
def complaint (fault : Fault) : Text :=
  usage ++ "resolve-imports: error: ".toList ++ fault.message ++ ['\n']

end ImportClosure.CommandLine
