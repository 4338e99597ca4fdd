/-!
# Logging

Which messages are logged. A filter is a list of directives, separated by commas: a level for all
messages, or `target=level` for those of one target.
-/

namespace GroundPlane.Logging

/-- The filter when none is given. -/
def defaultFilter : String := "info,wgpu_core=warn,wgpu_hal=warn,naga=warn"

/-- The filter in force: the configured one, else the one from the environment, else the default. -/
def resolve (configured environment : Option String) : String :=
  (configured.or environment).getD defaultFilter

/-- The levels of messages, from none to all. -/
inductive Level
  | off | error | warn | info | debug | trace
deriving DecidableEq, Ord

/-- The level with a name. -/
def Level.ofName? : String → Option Level
  | "off" => some .off
  | "error" => some .error
  | "warn" => some .warn
  | "info" => some .info
  | "debug" => some .debug
  | "trace" => some .trace
  | _ => none

/-- The level of a directive. A target without a level is logged in full, and a directive with an
unknown level is dropped. -/
def directiveLevel? (directive : String) : Option Level :=
  match directive.splitOn "=" with
  | [word] => if word.isEmpty then none else some ((Level.ofName? word.toLower).getD .trace)
  | [_, level] => if level.isEmpty then some .trace else Level.ofName? level.toLower
  | _ => none

/-- The most detailed level that a filter lets through; only errors if it has no directive. -/
def maxLevel (filter : String) : Level :=
  match (filter.splitOn ",").filterMap directiveLevel? with
  | [] => .error
  | first :: rest => rest.foldl (fun a b => if (compare a b).isLT then b else a) first

end GroundPlane.Logging
