import SymbolAtlas.Json.Basic

/-!
# The journal

What a run reports about itself while it goes on: entries with a level, the name of an event and
some fields.

* `Level` — how important an entry is, with the numbers that thresholds compare;
* `Entry` — one entry.
-/

namespace SymbolAtlas

/-- How important an entry is. -/
inductive Level
  | debug | info | warning | error | critical
  deriving DecidableEq, Repr

namespace Level

/-- The number that a threshold is compared with. -/
def rank : Level → Nat
  | .debug => 10
  | .info => 20
  | .warning => 30
  | .error => 40
  | .critical => 50

/-- The name of a level in the journal. -/
def label : Level → String
  | .debug => "debug"
  | .info => "info"
  | .warning => "warning"
  | .error => "error"
  | .critical => "critical"

end Level

/-- An entry of the journal. -/
structure Entry where
  level : Level
  event : String
  fields : Json.Object := []

end SymbolAtlas
