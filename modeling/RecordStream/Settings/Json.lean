import RecordStream.Settings.Basic

/-!
# Settings as JSON

Texts are printed and parsed by a library, which is a parameter: it takes the settings as
a record of four numbers and knows their names and defaults, and it does not know which
settings are valid.  So whatever it has parsed is validated before anybody sees it.
-/

namespace RecordStream

/-- What settings use of a JSON library. -/
structure JsonLibrary where
  /-- The text of some settings, on several lines. -/
  print : Settings → Except JsonFlaw String
  /-- The settings that a text stands for, fields that are missing in it having their defaults. -/
  parse : String → Except JsonFlaw Settings

namespace Settings

variable (lib : JsonLibrary)

def toJson (s : Settings) : Except Fault String :=
  (lib.print s).mapError .json

/-- Valid settings from a text. -/
def ofJson (text : String) : Except Fault Settings :=
  match lib.parse text with
  | .error flaw => .error (.json flaw)
  | .ok s => s.validate

end Settings

end RecordStream
