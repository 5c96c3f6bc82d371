import ModelGraph.Emission.Config
import ModelGraph.Persistence.Reading

/-!
# Persisted configuration

The data form of the configuration of programs.  A part that is missing keeps its default.
-/

namespace ModelGraph

namespace Config

/-- Writes a configuration. -/
def toJson (config : Config) : Json :=
  .object [("python_module", .text config.pythonModule),
    ("include_header", .bool config.includeHeader)]

/-- Reads a configuration. -/
def ofJson : Json → Read Config :=
  Json.toRecord ["python_module", "include_header"] fun parts => do
    let default : Config := {}
    return {
      pythonModule := (← parts.read? "python_module" Json.toText).getD default.pythonModule
      includeHeader := (← parts.read? "include_header" Json.toBool).getD default.includeHeader }

end Config

end ModelGraph
