import Gloss.Options
import Gloss.Sheet

/-!
# Options from sheets

A sheet of options is a mapping; one without content leaves every option as it
is.
-/

namespace Gloss.Options

/-- The options that the sheet in a file gives, with the remarks about them. -/
def ofSheet (file text : String) : List String × Except OptionsFault Options :=
  match Sheet.read? text with
  | none => ([], .error (.malformed file))
  | some .null => ofMembers []
  | some (.object members) => ofMembers members
  | some found => ([], .error (.noMapping file found))

end Gloss.Options
