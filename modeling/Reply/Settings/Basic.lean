import Reply.BoundedBuffer

namespace Reply

/-!
# Settings

What an operator can set: how much is logged, and how large the body of a
streamed reply may grow.  Settings are checked after they are read; every rule
that is broken is reported, the level's before the capacity's.
-/

/-- The settings of the log. -/
structure LogSettings where
  level : String
  ansi : Bool
  deriving DecidableEq

/-- The settings of streamed replies. -/
structure StreamSettings where
  capacity : Nat
  deriving DecidableEq

/-- All settings. -/
structure Settings where
  log : LogSettings
  stream : StreamSettings
  deriving DecidableEq

/-- A broken rule. -/
inductive Violation
  | unknownLevel (level : String)
  | zeroCapacity
  | capacityTooLarge (capacity : Nat)
  deriving DecidableEq

/-- The largest capacity, 64 mebibytes. -/
def StreamSettings.maximum : Nat :=
  67108864

/-- The wording of a broken rule. -/
def Violation.message : Violation → String
  | .unknownLevel level => "unknown log level '" ++ level ++ "'"
  | .zeroCapacity => "stream.buffer_capacity must be greater than zero"
  | .capacityTooLarge capacity =>
      "stream.buffer_capacity " ++ toString capacity ++
        " exceeds maximum " ++ toString StreamSettings.maximum

/-- The wording of all broken rules together. -/
def Violation.summary (violations : List Violation) : String :=
  "Validation failed: " ++
    String.intercalate ", " (violations.map Violation.message)

namespace LogSettings

/-- The levels, from the most to the least talkative. -/
def levels : List String :=
  ["trace", "debug", "info", "warn", "error"]

/-- Information and above, in colour. -/
def default : LogSettings :=
  ⟨"info", true⟩

/-- Levels may be written in either case. -/
def violations (settings : LogSettings) : List Violation :=
  if levels.contains settings.level.toLower then
    []
  else
    [.unknownLevel settings.level]

/-- The filter that keeps this program's records from the level on. -/
def directive (settings : LogSettings) : String :=
  "response_lifecycle=" ++ settings.level.toLower

end LogSettings

namespace StreamSettings

/-- The capacity of a buffer that is given none. -/
def default : StreamSettings :=
  ⟨BoundedBuffer.defaultCapacity⟩

/-- A body holds at least one octet and at most the maximum. -/
def violations (settings : StreamSettings) : List Violation :=
  if settings.capacity = 0 then
    [.zeroCapacity]
  else if maximum < settings.capacity then
    [.capacityTooLarge settings.capacity]
  else
    []

end StreamSettings

namespace Settings

/-- What holds when nothing is set. -/
def default : Settings :=
  ⟨.default, .default⟩

/-- All broken rules, the level's first. -/
def violations (settings : Settings) : List Violation :=
  settings.log.violations ++ settings.stream.violations

end Settings

end Reply
