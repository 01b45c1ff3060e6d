/-!
# Usage texts

What the program and its commands print when they are asked for help or for their version. Lines
are broken by hand, so that the descriptions of options stand in one column.
-/

namespace PacketGen.CommandLine

/-- Lines as one text, each with a line feed. -/
def joinLines (lines : List String) : String := String.join (lines.map (· ++ "\n"))

/-- The usage of the program. -/
def usage : String := joinLines [
  "Usage: pmportc [--version] [<command>] [<args>]",
  "",
  "Port PocketMine-MP packet classes to Go packet definitions.",
  "",
  "Options:",
  "  --version         print tool version and exit.",
  "  --help, help      display usage information",
  "",
  "Commands:",
  "  packets           generate the Go definitions of every packet of a protocol",
  "                    directory.",
  "  ids               generate a standalone Go identifier table from constant",
  "                    declarations."]

/-- The usage of the command that generates packets. -/
def packetsUsage : String := joinLines [
  "Usage: pmportc packets --ids <ids> [--config <config>] [--output <output>] " ++
    "[--output-format <output-format>] [--no-format] [--gofmt <gofmt>] [--] <protocol_dir>",
  "",
  "generate the Go definitions of every packet of a protocol directory.",
  "",
  "Positional Arguments:",
  "  protocol_dir      directory holding the packet classes.",
  "",
  "Options:",
  "  --ids             file declaring the packet identifiers, e.g.",
  "                    ProtocolInfo.php.",
  "  --config          JSON configuration file.",
  "  --output          output file. The output is printed on stdout if omitted.",
  "  --output-format   generate output in this format (\"go\", \"json\").",
  "  --no-format       skip the gofmt pass.",
  "  --gofmt           path of the gofmt binary.",
  "  --help, help      display usage information"]

/-- The usage of the command that generates an identifier table. -/
def idsUsage : String := joinLines [
  "Usage: pmportc ids [--type-name <type-name>] [--repr <repr>] [--package <package>] " ++
    "[--suffix <suffix>] [--declaration-suffix <declaration-suffix>] [--output <output>] " ++
    "[--no-format] [--gofmt <gofmt>] [--] <declarations>",
  "",
  "generate a standalone Go identifier table from constant declarations.",
  "",
  "Positional Arguments:",
  "  declarations      file declaring the identifiers.",
  "",
  "Options:",
  "  --type-name       name of the generated Go type.",
  "  --repr            underlying Go integer type.",
  "  --package         package name of the generated file.",
  "  --suffix          suffix appended to the generated constant names.",
  "  --declaration-suffix",
  "                    only keep declarations ending with this suffix.",
  "  --output          output file. The output is printed on stdout if omitted.",
  "  --no-format       skip the gofmt pass.",
  "  --gofmt           path of the gofmt binary.",
  "  --help, help      display usage information"]

/-- What `--version` prints. -/
def version : String := joinLines ["pmportc 0.1.0", "Copyright (C) 2023 Google LLC"]

end PacketGen.CommandLine
