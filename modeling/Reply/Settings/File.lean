import Reply.Settings.Basic
import Reply.Toml.Document

namespace Reply

/-!
# Settings files

Settings are written as a TOML document with a table for each section.  A
section may also be an array of its fields in their order.  What is absent has
its default and what is unknown is ignored; a field of the wrong kind makes the
whole document unreadable.
-/

namespace Toml.Value

/-- A text. -/
def text? : Value → Option String
  | .text value => some value
  | _ => none

/-- A truth value. -/
def truth? : Value → Option Bool
  | .truth value => some value
  | _ => none

/-- An integer that is not negative. -/
def natural? : Value → Option Nat
  | .integer value => if 0 ≤ value then some value.toNat else none
  | _ => none

/--
The fields of a section, by name or by position.

A moment counts as a section without fields.
-/
def field?
    (content : Value)
    (name : String)
    (position : Nat) :
    Option (Option Value) :=
  match content with
  | .table entries => some (Registry.find? name entries)
  | .array items => some items[position]?
  | .moment => some none
  | _ => none

end Toml.Value

/-- A field read by its kind; an absent one has its default. -/
def readField
    (kind : Toml.Value → Option α)
    (default : α) :
    Option Toml.Value → Option α
  | some value => kind value
  | none => some default

namespace LogSettings

/-- Read the section, if it is there. -/
def ofSection? : Option Toml.Value → Option LogSettings
  | none => some .default
  | some content => do
      let level ← content.field? "level" 0
      let ansi ← content.field? "ansi" 1
      let level ← readField Toml.Value.text? default.level level
      let ansi ← readField Toml.Value.truth? default.ansi ansi
      some ⟨level, ansi⟩

end LogSettings

namespace StreamSettings

/-- Read the section, if it is there. -/
def ofSection? : Option Toml.Value → Option StreamSettings
  | none => some .default
  | some content => do
      let capacity ← content.field? "buffer_capacity" 0
      let capacity ←
        readField Toml.Value.natural? default.capacity capacity
      some ⟨capacity⟩

end StreamSettings

/-- Why a file could not be read. -/
inductive FileFault
  | notFound
  | isDirectory
  | notText
  | unreadable
  deriving DecidableEq

/-- The wording of a fault. -/
def FileFault.message : FileFault → String
  | .notFound => "no such file"
  | .isDirectory => "is a directory"
  | .notText => "not valid UTF-8"
  | .unreadable => "cannot be read"

/-- Why there are no settings. -/
inductive SettingsFault
  | file (fault : FileFault)
  | malformed
  | invalid (violations : List Violation)
  deriving DecidableEq

/-- The wording of a fault. -/
def SettingsFault.message : SettingsFault → String
  | .file fault => "IO error: " ++ fault.message
  | .malformed => "Parse error: not a document of settings"
  | .invalid violations => Violation.summary violations

namespace Settings

/-- The settings a document writes, whether or not they are valid. -/
def ofDocument? (root : List (String × Toml.Value)) : Option Settings := do
  let log ← LogSettings.ofSection? (Registry.find? "logging" root)
  let stream ← StreamSettings.ofSection? (Registry.find? "stream" root)
  some ⟨log, stream⟩

/-- Accept settings that break no rule. -/
def accept (settings : Settings) : Except SettingsFault Settings :=
  match settings.violations with
  | [] => .ok settings
  | violations => .error (.invalid violations)

/-- Read settings from a text. -/
def read (text : String) : Except SettingsFault Settings :=
  match (Toml.read? text).bind ofDocument? with
  | some settings => settings.accept
  | none => .error .malformed

/-- Read settings from the content of a file. -/
def ofFile (content : Except FileFault ByteArray) : Except SettingsFault Settings :=
  match content with
  | .error fault => .error (.file fault)
  | .ok bytes =>
      match String.fromUTF8? bytes with
      | some text => read text
      | none => .error (.file .notText)

end Settings

end Reply
