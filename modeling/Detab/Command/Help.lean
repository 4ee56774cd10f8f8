set_option relaxedAutoImplicit false
set_option autoImplicit false

/-!
# Texts of the command

## Main definitions

* `Detab.Command.helpText`, `Detab.Command.versionText` — what the options of these names print.
* `Detab.Command.sampleConfig` — a config file to start from.
-/

namespace Detab.Command

/-- Lines, each with its end. -/
def ofLines (lines : List String) : String :=
  String.join (lines.map (· ++ "\n"))

/-- The name and the version of the program. -/
def versionText : String :=
  ofLines ["tabs2spaces 0.1.0"]

/-- How the program is used. -/
def helpText : String :=
  ofLines [
    "Replace tabs with spaces in files, in place",
    "",
    "Usage: tabs2spaces [OPTIONS] [TARGETS]...",
    "",
    "Arguments:",
    "  [TARGETS]...  Files or directories to convert. Directories are searched recursively for " ++
      "files whose names match the pattern; files are always converted [default: src]",
    "",
    "Options:",
    "  -s, --spaces <SPACES>    Number of spaces to replace each tab with [default: 4]",
    "  -p, --pattern <PATTERN>  Glob matched against file names in directories [default: *.java]",
    "  -c, --config <CONFIG>    JSON5 config file with `pattern` and `spaces` keys. No config " ++
      "file is read unless this is given",
    "  -q, --quiet              ",
    "      --sample-config      Print a sample config file",
    "  -h, --help               Print help",
    "  -V, --version            Print version"]

/-- **A config file to start from:** it spells out the standard settings. -/
def sampleConfig : String :=
  ofLines [
    "// tabs2spaces config. Pass it with `--config <FILE>`. All keys are optional.",
    "\x7b",
    "  // Glob matched against file names (not full paths) when walking directories.",
    "  \"pattern\": \"*.java\",",
    "",
    "  // Number of spaces to replace each tab with.",
    "  \"spaces\": 4,",
    "\x7d"]

end Detab.Command
