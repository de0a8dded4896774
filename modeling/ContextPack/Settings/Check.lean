import ContextPack.Decimal.Shortest
import ContextPack.Error
import ContextPack.Settings.Validate

/-!
# Checking settings

Settings in binary floating point, refused with a report of every problem.
-/

namespace ContextPack

/-- Refuses settings that break a rule. -/
def Settings.check (settings : Settings Float) : Except ContextError Unit :=
  match settings.problems with
  | [] => .ok ()
  | problems => .error (.invalidConfig (problemReport Shortest.plain problems))

end ContextPack
