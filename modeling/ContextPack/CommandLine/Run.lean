import ContextPack.CommandLine.Build

/-!
# Running the command line

From the words of a command line to its outcome.
-/

namespace ContextPack.CommandLine

def programName : String := "diff-context"

def programVersion : String := "0.1.0"

/-- How the program is used. -/
def usage : String :=
  "Build bounded, relevance-ranked context packs for a git diff\n\n" ++
  "Usage: diff-context [-v] build [OPTIONS]\n\n" ++
  "Options of build:\n" ++
  "  -p, --path <PATH>           Repository working tree [default: .]\n" ++
  "  -r, --range <RANGE>         Revision range: 'A..B', 'A...B' (from the merge base), or a\n" ++
  "                              single revision compared with the working tree [default: HEAD]\n" ++
  "  -b, --budget <TOKENS>       Token budget (defaults to limits.default_budget_tokens)\n" ++
  "  -f, --format <FORMAT>       Output format: json or markdown [default: json]\n" ++
  "  -o, --output <FILE>         Write output to this file instead of stdout\n" ++
  "  -c, --config <FILE>         Path to config file (diff-context.toml or .diff-context.yml)\n" ++
  "  -i, --include-ext <EXTS>    Include only these extensions when scanning\n" ++
  "  -e, --exclude-glob <GLOBS>  Exclude paths matching these globs\n" ++
  "      --no-gitignore          Ignore .gitignore rules\n" ++
  "      --full-seeds            Use full file content for changed files\n" ++
  "      --no-timestamp          Omit the generation timestamp for reproducible output\n" ++
  "  -v, --verbose               Enable verbose logging\n" ++
  "  -h, --help                  Print help\n" ++
  "  -V, --version               Print version\n"

/-- The version's text. -/
def versionText (command : Option String) : String :=
  let name := match command with
    | some command => programName ++ "-" ++ command
    | none => programName
  name ++ " " ++ programVersion ++ "\n"

variable {m : Type → Type} [Monad m]

/-- Runs the words of a command line: code 2 tells that they make no sense, and
code 1 that the request could not be carried out. -/
def Host.run (host : Host m) (words : List String) : m Outcome := do
  match Command.ofWords? words with
  | none => return ⟨2, "", usage⟩
  | some .help => return ⟨0, usage, ""⟩
  | some (.version command) => return ⟨0, versionText command, ""⟩
  | some (.build request) =>
    match ← (host.build request).run with
    | .ok outcome => return outcome
    | .error problem => return ⟨1, "", "Error: " ++ problem.message ++ "\n"⟩

end ContextPack.CommandLine
