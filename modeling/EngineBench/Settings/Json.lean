import EngineBench.Json.Record
import EngineBench.Settings

/-!
# Settings in JSON

Settings are written with all their fields, and read with the rules of `Json.format`.
-/

namespace EngineBench

namespace EngineSettings

/-- The settings of the engine as a JSON value, if the log path is UTF-8. -/
def toJson? (s : EngineSettings) : Option Json := do
  return .record [("program", .text s.program), ("args", .list .text s.arguments),
    ("log_file", ← Json.ofPath? s.log), ("shutdown_timeout", .text s.grace)]

end EngineSettings

namespace ClientSettings

/-- The settings of the client as a JSON value, if the path of the results is UTF-8. -/
def toJson? (s : ClientSettings) : Option Json := do
  return .record [("program", .text s.program), ("args", .list .text s.arguments),
    ("output", ← Json.ofPath? s.results)]

end ClientSettings

namespace RuntimeSettings

/-- The settings of the environment as a JSON value, if the path of the runtime is UTF-8. -/
def toJson? (s : RuntimeSettings) : Option Json := do
  return .record [("prefix", ← Json.ofPathOption? s.root), ("vars", .vars s.vars)]

end RuntimeSettings

namespace Settings

/-- Settings as a JSON value, if all their paths are UTF-8. -/
def toJson? (s : Settings) : Option Json := do
  return .record [("server", ← s.engine.toJson?), ("client", ← s.client.toJson?),
    ("environment", ← s.runtime.toJson?), ("metadata", .record [("enabled", .bool s.metadata)]),
    ("report", .record [("path", ← Json.ofPathOption? s.report)])]

def ofJson? : Json → Option Settings := read? Json.format

end Settings

end EngineBench
