import OpenApiClient.Text.CodePoint

/-!
# Help Texts

The usage lines and the help text of the program.
-/

namespace OpenApiClient.CommandLine

/-- The name of the program. -/
def programName : Text := "openapi-to-typescript-generator"

/-- The summary of the options. -/
def usageLines : List Text :=
  ["usage: openapi-to-typescript-generator [-h] --input INPUT [--output OUTPUT]",
   "                                       [--client-name CLIENT_NAME]",
   "                                       [--log-level \x7bDEBUG,INFO,WARNING,ERROR\x7d]"]

/-- What the help text says below the usage lines. -/
def explanationLines : List Text :=
  ["",
   "Generates a TypeScript client from an OpenAPI specification",
   "",
   "options:",
   "  -h, --help            show this help message and exit",
   "  --input INPUT, -i INPUT",
   "                        The OpenAPI JSON or YAML file to generate a client",
   "                        from",
   "  --output OUTPUT, -o OUTPUT",
   "                        The output TypeScript file (default: generated.ts)",
   "  --client-name CLIENT_NAME",
   "                        Class name for the generated client instead of one",
   "                        derived from info.title",
   "  --log-level \x7bDEBUG,INFO,WARNING,ERROR\x7d",
   "                        Logging verbosity"]

/-- The help text. -/
def helpLines : List Text :=
  usageLines ++ explanationLines

end OpenApiClient.CommandLine
