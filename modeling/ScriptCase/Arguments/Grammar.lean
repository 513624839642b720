import ScriptCase.Arguments.Switch

/-!
# Grammars of command lines

A grammar tells which switches the words of a command line may hold and what its other words mean. There is one for the
whole command line, one for each command, and one that only looks for the workspace.
-/

namespace ScriptCase

/-- What the words are that belong to no switch. -/
inductive Operands where
  /-- Nothing asks for them. -/
  | none
  /-- Paths, of which there is one at least. -/
  | paths
  /-- A command, to which everything behind it belongs. -/
  | command
  deriving DecidableEq, Repr

/-- The words that a command line or a part of it may hold. -/
structure Grammar where
  /-- The name under which faults are reported. -/
  program : String
  /-- The summary of the command line. -/
  usage : String
  /-- What is told behind the summary to those who ask for help. -/
  explanation : String
  switches : List Switch
  operands : Operands

namespace Grammar

/-- All names of the switches, in order, each with its switch. -/
def names (g : Grammar) : List (String × Switch) := g.switches.flatMap fun s => s.names.map fun n => (n, s)

/-- The switch of a name. -/
def switch? (g : Grammar) (name : String) : Option Switch := (g.names.find? fun n => n.1 == name).map (·.2)

/-- What is told to those who ask for help. -/
def help (g : Grammar) : String := g.usage ++ g.explanation

/-- Looks for the workspace and its settings file and passes over everything else. -/
def workspace : Grammar where
  program := "scpfmt"
  usage := "usage: scpfmt [--config CONFIG] [--workspace WORKSPACE]\n"
  explanation := "\noptions:\n  --config CONFIG\n  --workspace WORKSPACE\n"
  switches := [.config, .workspace]
  operands := .none

/-- The whole command line. -/
def commandLine : Grammar where
  program := "scpfmt"
  usage :=
    "usage: scpfmt [-h] [--version] [--config CONFIG] [--verbose]\n" ++
    "              [--workspace WORKSPACE] [--log-level \x7bdebug,info,warn,error\x7d]\n" ++
    "              \x7bformat,lsp\x7d ...\n"
  explanation :=
    "\nFormatter for SCP (Sphere Script) files\n\n" ++
    "positional arguments:\n" ++
    "  \x7bformat,lsp\x7d          Available commands\n" ++
    "    format              Normalize keyword casing in SCP scripts\n" ++
    "    lsp                 Start the SCP language server on stdio (rooted at\n" ++
    "                        --workspace until the client sends its own root)\n\n" ++
    "options:\n" ++
    "  -h, --help            show this help message and exit\n" ++
    "  --version             show program's version number and exit\n" ++
    "  --config CONFIG       Path to an scpfmt.toml configuration file\n" ++
    "  --verbose             Print full tracebacks and detailed CLI errors (or set\n" ++
    "                        SCPFMT_VERBOSE=1)\n" ++
    "  --workspace WORKSPACE\n" ++
    "                        Workspace root directory (defaults to current working\n" ++
    "                        directory)\n" ++
    "  --log-level \x7bdebug,info,warn,error\x7d\n" ++
    "                        Set logging level (or set SCPFMT_LOG_LEVEL)\n"
  switches := [.help, .version, .config, .verbose, .workspace, .logLevel]
  operands := .command

/-- The command that formats scripts. -/
def format : Grammar where
  program := "scpfmt format"
  usage :=
    "usage: scpfmt format [-h] [--check | --diff] [--keywords KEYWORDS]\n" ++
    "                     [--encoding ENCODING]\n" ++
    "                     paths [paths ...]\n"
  explanation :=
    "\npositional arguments:\n" ++
    "  paths                Files or directories to format ('-' reads stdin and\n" ++
    "                       writes stdout)\n\n" ++
    "options:\n" ++
    "  -h, --help           show this help message and exit\n" ++
    "  --check              Exit with status 1 if any file would be reformatted;\n" ++
    "                       write nothing\n" ++
    "  --diff               Print a unified diff of the changes instead of writing\n" ++
    "                       them\n" ++
    "  --keywords KEYWORDS  Keyword table to use instead of the configured one\n" ++
    "  --encoding ENCODING  Encoding of the script files (default: utf-8)\n"
  switches := [.help, .check, .diff, .keywords, .encoding]
  operands := .paths

/-- The command that starts the language server. -/
def serve : Grammar where
  program := "scpfmt lsp"
  usage := "usage: scpfmt lsp [-h]\n"
  explanation := "\noptions:\n  -h, --help  show this help message and exit\n"
  switches := [.help]
  operands := .none

end Grammar
end ScriptCase
