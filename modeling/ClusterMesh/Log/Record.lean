import ClusterMesh.Json.Basic

/-!
# Log records

What is logged about commands, dispatches, decisions and errors: a level, a message and
fields. A field without a value is left out. Records of decisions carry no time of their own.
-/

namespace ClusterMesh

inductive LogLevel
  | debug
  | info
  | error
deriving DecidableEq, Repr

def LogLevel.text : LogLevel → String
  | .debug => "DEBUG"
  | .info => "INFO"
  | .error => "ERROR"

/-- A record: its level, its message, its fields, and whether it carries the time. -/
structure LogRecord where
  level : LogLevel
  message : String
  fields : List (String × Json)
  timestamped : Bool

namespace LogRecord

/-- A field that is there only when it has a value. -/
def optionalField (name : String) (value : Option String) : List (String × Json) :=
  (value.map (fun v => (name, Json.text v))).toList

def command (operation commandId commandType status : String) (details : Option String) :
    LogRecord :=
  ⟨.info, "COMMAND_OPERATION",
    [("operation", .text operation), ("command_id", .text commandId),
      ("command_type", .text commandType), ("status", .text status)] ++
      optionalField "details" details, true⟩

def dispatch (operation eventId eventType : String) (handler : Option String) (status : String) :
    LogRecord :=
  ⟨.debug, "DISPATCH_OPERATION",
    [("operation", .text operation), ("event_id", .text eventId),
      ("event_type", .text eventType), ("status", .text status)] ++
      optionalField "handler" handler, true⟩

def decision (group category item direction : String) (allowed : Bool) : LogRecord :=
  ⟨.debug, "POLICY_DECISION",
    [("group", .text group), ("category", .text category), ("item", .text item),
      ("direction", .text direction), ("allowed", .bool allowed)], false⟩

def error (component operation reason : String) (context : Option String) : LogRecord :=
  ⟨.error, "ERROR",
    [("component", .text component), ("operation", .text operation), ("error", .text reason)] ++
      optionalField "context" context, true⟩

end LogRecord

end ClusterMesh
