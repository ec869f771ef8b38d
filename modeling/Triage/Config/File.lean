import Triage.Persistence.Config
import Triage.Toml.Reader

/-!
# The settings file

Settings are read from TOML and validated; a file has to exist and to be UTF-8.
-/

namespace Triage.Config

def ofText (text : String) : Except ServiceError Config :=
  match (Toml.parse? text).bind Config.ofDocument? with
  | some c => c.validate
  | none => .error (.config .unreadable)

/-- The settings in a file with the given bytes, if there is such a file. -/
def ofFile : Option ByteArray → Except ServiceError Config
  | none => .error (.io .missing)
  | some bytes =>
    match String.fromUTF8? bytes with
    | some text => ofText text
    | none => .error (.io .notUtf8)

end Triage.Config
