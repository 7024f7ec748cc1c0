import PinMachine.Journal
import PinMachine.Text.Blank

/-!
Journal filters. A filter is the least level that is written, or nothing if the
journal is switched off.
-/

namespace PinMachine

/-- The filter that a name asks for. Blanks around the name and the case of its
letters do not matter. -/
def Level.filterOfName? (name : String) : Option (Option Level) :=
  match String.ofList ((trimBlank name.toList).map Char.toLower) with
  | "debug" | "trace" => some (some .debug)
  | "info" => some (some .info)
  | "warn" | "warning" => some (some .warn)
  | "error" => some (some .error)
  | "off" | "none" => some none
  | _ => none

/-- The filter of a setting. Without a setting, or if its name is not known,
everything from `info` on is written. -/
def Level.filterOfSetting (setting : Option String) : Option Level :=
  (setting.bind Level.filterOfName?).getD (some .info)

def Level.isEnabled (level : Level) (filter : Option Level) : Bool :=
  match filter with
  | none => false
  | some least => least.rank ≤ level.rank

end PinMachine
