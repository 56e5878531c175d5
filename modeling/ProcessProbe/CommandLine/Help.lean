import ProcessProbe.CommandLine.Arguments

/-!
# Help

What is said about the command line to someone who asks.
-/

namespace ProcessProbe.CommandLine

def Subcommand.about : Subcommand → String
  | .children => "Report whether a process has at least one live child"
  | .directory => "Report the working directory of a process"
  | .relations => "List the parent relations of all live processes"
  | .capabilities => "Show the detected backends and the settings in effect"
  | .version => "Print version information"

def helpLines : List String :=
  [s!"Usage: {programName} [OPTIONS] <COMMAND>", "", "Commands:"] ++
    Subcommand.all.map (fun c =>
      "  " ++ c.name ++ String.ofList (List.replicate (14 - c.name.length) ' ') ++ c.about) ++
    ["", "Options:",
      "  -f, --format <FORMAT>          json or summary",
      "  -v, --verbose                  Say more in the journal, up to three times",
      "  -q, --quiet                    Only errors in the journal",
      "      --timeout-ms <MILLIS>      Time for each diagnostic",
      "      --log-format <FORMAT>      human or jsonl",
      "  -h, --help                     Print help",
      "  -V, --version                  Print version"]

end ProcessProbe.CommandLine
