/-!
The help texts of the command line.
-/

namespace ModuleGateway.CommandLine

/-- The help on all commands. -/
def generalHelp : String :=
  "Serve TypeScript and npm packages to the browser, compiled on demand\n\n" ++
  "Usage: kiln [OPTIONS] <COMMAND>\n\n" ++
  "Commands:\n" ++
  "  serve    Start the gateway server\n" ++
  "  prewarm  Build the configured prewarm packages into the vendor cache\n" ++
  "  clean    Delete the vendor cache\n" ++
  "  check    Show the resolved configuration and trusted packages\n" ++
  "  help     Print this message or the help of the given subcommand(s)\n\n" ++
  "Options:\n" ++
  "  -v, --verbose  Enable verbose logging\n" ++
  "  -h, --help     Print help\n" ++
  "  -V, --version  Print version\n"

/-- The help on a command that has the common options only. -/
def commonHelp (about command : String) : String :=
  about ++ "\n\n" ++
  "Usage: kiln " ++ command ++ " [OPTIONS]\n\n" ++
  "Options:\n" ++
  "  -c, --config <CONFIG>  Path to kiln.toml (default: ./kiln.toml when present)\n" ++
  "  -v, --verbose          Enable verbose logging\n" ++
  "      --root <ROOT>      Override the source root\n" ++
  "  -h, --help             Print help\n"

/-- The help on serving. -/
def serveHelp : String :=
  "Start the gateway server\n\n" ++
  "Usage: kiln serve [OPTIONS]\n\n" ++
  "Options:\n" ++
  "  -c, --config <CONFIG>          Path to kiln.toml (default: ./kiln.toml when present)\n" ++
  "  -v, --verbose                  Enable verbose logging\n" ++
  "      --root <ROOT>              Override the source root\n" ++
  "      --host <HOST>              Host to bind to [default: 127.0.0.1]\n" ++
  "  -p, --port <PORT>              Port to listen on [default: 3000]\n" ++
  "      --static-dir <STATIC_DIR>  Directory served for requests outside the gateway\n" ++
  "  -h, --help                     Print help\n"

/-- The help on help. -/
def helpHelp : String :=
  "Print this message or the help of the given subcommand(s)\n\n" ++
  "Usage: kiln help [COMMAND]...\n\n" ++
  "Arguments:\n" ++
  "  [COMMAND]...  Print help for the subcommand(s)\n"

/-- The help on a command, or on all. -/
def helpText (topic : Option String) : String :=
  match topic with
  | some "serve" => serveHelp
  | some "prewarm" =>
    commonHelp "Build the configured prewarm packages into the vendor cache" "prewarm"
  | some "clean" => commonHelp "Delete the vendor cache" "clean"
  | some "check" => commonHelp "Show the resolved configuration and trusted packages" "check"
  | some "help" => helpHelp
  | _ => generalHelp

end ModuleGateway.CommandLine
