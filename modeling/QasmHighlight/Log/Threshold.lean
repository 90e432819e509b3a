import QasmHighlight.Log.Event
import QasmHighlight.Text.Count

/-!
# Thresholds

A threshold is the least severe level that a log shows.
-/

namespace QasmHighlight
namespace Log

open Text

/-- The least severe level that is shown; none shows nothing. -/
abbrev Threshold := Option Level

namespace Threshold

def admits (threshold : Threshold) (level : Level) : Bool :=
  threshold.any fun least => level.rank ≤ least.rank

def names : List (String × Threshold) :=
  [("off", none), ("error", some .error), ("warn", some .warn), ("info", some .info),
   ("debug", some .debug), ("trace", some .trace)]

/-- The threshold with a given name, in any case, or with a given number: zero
shows nothing and five everything. -/
def ofName? (text : String) : Option Threshold :=
  match (count? text).bind fun n => names[n]? with
  | some (_, threshold) => some threshold
  | none => names.lookup (String.ofList (text.toList.map Char.toLower))

end Threshold
end Log
end QasmHighlight
