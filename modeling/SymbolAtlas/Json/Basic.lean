import SymbolAtlas.Fields
import SymbolAtlas.Number.Binary64
import SymbolAtlas.Text.CodePoint

/-!
# JSON values

The values that messages are made of. Strings are texts, which may hold surrogates. Integers and
floating-point numbers are told apart by how they are written, and an object keeps its fields in the
order in which they came.

* `Json` — the value type;
* `Json.Kind` — which of its shapes a value has, and the name that messages use for the shape;
* `Json.truthy` — whether a value counts as true;
* `Json.nesting` — how deeply a value is nested.
-/

namespace SymbolAtlas

/-- A JSON value. -/
inductive Json
  | null
  | bool (b : Bool)
  | int (n : Int)
  | float (x : Binary64)
  | str (s : Text)
  | arr (items : List Json)
  | obj (fields : List (Text × Json))
  deriving Repr, Inhabited

namespace Json

/-- An object value. -/
abbrev Object := Fields Text Json

/-- The shapes of a value. -/
inductive Kind
  | null | bool | int | float | str | arr | obj
  deriving DecidableEq, Repr

/-- The shape of a value. -/
def kind : Json → Kind
  | .null => .null
  | .bool _ => .bool
  | .int _ => .int
  | .float _ => .float
  | .str _ => .str
  | .arr _ => .arr
  | .obj _ => .obj

/-- The name that a message gives to a shape. -/
def Kind.label : Kind → String
  | .null => "NoneType"
  | .bool => "bool"
  | .int => "int"
  | .float => "float"
  | .str => "str"
  | .arr => "list"
  | .obj => "dict"

/-- The field of an object; nothing if the value is no object or has no such field. -/
def field? (v : Json) (name : Text) : Option Json :=
  match v with
  | .obj fs => Fields.get? fs name
  | _ => none

/-- The field of an object, `null` when it is missing. -/
def fieldOrNull (fs : Object) (name : Text) : Json :=
  (Fields.get? fs name).getD .null

/-- Whether the value counts as true: everything but `null`, `false`, zero and what is empty. -/
def truthy : Json → Bool
  | .null => false
  | .bool b => b
  | .int n => n != 0
  | .float x => !x.isZero
  | .str s => !s.isEmpty
  | .arr items => !items.isEmpty
  | .obj fields => !fields.isEmpty

/-- The integer that the value is counted as where an integer is expected: booleans are `0`
and `1`. -/
def asInt? : Json → Option Int
  | .int n => some n
  | .bool b => some (if b then 1 else 0)
  | _ => none

/-- An array of texts. -/
def texts (ss : List Text) : Json :=
  .arr (ss.map .str)

mutual

/-- The number of arrays and objects in one another. -/
def nesting : Json → Nat
  | .arr items => nestingAll items + 1
  | .obj fields => nestingFields fields + 1
  | _ => 0

/-- The deepest nesting among some values. -/
def nestingAll : List Json → Nat
  | [] => 0
  | v :: vs => max (nesting v) (nestingAll vs)

/-- The deepest nesting among the values of some fields. -/
def nestingFields : List (Text × Json) → Nat
  | [] => 0
  | (_, v) :: fields => max (nesting v) (nestingFields fields)

end

theorem nesting_le_nestingAll {v : Json} {vs : List Json} (h : v ∈ vs) :
    v.nesting ≤ nestingAll vs := by
  induction h with
  | head vs => exact Nat.le_max_left _ _
  | tail w _ ih => exact Nat.le_trans ih (Nat.le_max_right _ _)

theorem nesting_lt_of_mem {v : Json} {vs : List Json} (h : v ∈ vs) :
    v.nesting < (Json.arr vs).nesting := by
  rw [nesting]
  exact Nat.lt_succ_of_le (nesting_le_nestingAll h)

theorem nesting_le_nestingFields {fields : Object} {name : Text} {v : Json}
    (h : Fields.get? fields name = some v) : v.nesting ≤ nestingFields fields := by
  induction fields with
  | nil => cases h
  | cons f fields ih =>
    obtain ⟨n, w⟩ := f
    unfold Fields.get? at h
    rw [nestingFields]
    split at h
    · cases h
      exact Nat.le_max_left _ _
    · exact Nat.le_trans (ih h) (Nat.le_max_right _ _)

theorem nesting_lt_of_get? {fields : Object} {name : Text} {v : Json}
    (h : Fields.get? fields name = some v) : v.nesting < (Json.obj fields).nesting := by
  rw [nesting]
  exact Nat.lt_succ_of_le (nesting_le_nestingFields h)

theorem nestingAll_le {vs : List Json} {n : Nat} (h : ∀ v ∈ vs, v.nesting ≤ n) :
    nestingAll vs ≤ n := by
  induction vs with
  | nil => exact Nat.zero_le n
  | cons v vs ih =>
    exact Nat.max_le.2 ⟨h v (List.mem_cons_self ..), ih fun w hw => h w (List.mem_cons_of_mem _ hw)⟩

theorem nestingFields_le {fields : Object} {n : Nat} (h : ∀ f ∈ fields, f.2.nesting ≤ n) :
    nestingFields fields ≤ n := by
  induction fields with
  | nil => exact Nat.zero_le n
  | cons f fields ih =>
    exact Nat.max_le.2 ⟨h f (List.mem_cons_self ..), ih fun g hg => h g (List.mem_cons_of_mem _ hg)⟩

end Json

end SymbolAtlas
