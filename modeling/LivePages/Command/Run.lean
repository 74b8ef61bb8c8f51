import LivePages.Command.Arguments

namespace LivePages

structure CommandResult where
  code : Nat
  output : String
  errors : String
  files : FileStore

def usageText : String :=
  "Usage: iw-build [OPTIONS] --site <DIR> --out <DIR> --assets <DIR>\n"

def helpText : String :=
  "Compile a rendered documentation site with interactive widgets into a deployment\n\n" ++
  usageText ++
  "\nOptions:\n" ++
  "      --site <DIR>     Rendered site directory\n" ++
  "  -o, --out <DIR>      Output directory for the deployment\n" ++
  "      --assets <DIR>   Root of the client-side widget assets\n" ++
  "  -c, --config <FILE>  Site configuration (TOML)\n" ++
  "  -v, --verbose        Enable debug logging\n" ++
  "  -h, --help           Print help\n" ++
  "  -V, --version        Print version\n"

def runCommand (arguments : List String) (files : FileStore) : CommandResult :=
  match CommandRequest.ofArguments arguments with
  | .help => ⟨0, helpText, "", files⟩
  | .version => ⟨0, "iw-build 0.1.0\n", "", files⟩
  | .misuse => ⟨2, "", usageText, files⟩
  | .build options =>
    match (publishSite options).run.run files with
    | (.ok _, files) => ⟨0, "", "", files⟩
    | (.error e, files) => ⟨1, "", "error: " ++ e.message ++ "\n", files⟩

end LivePages
