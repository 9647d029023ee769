import AccessTrace.Json.Parser
import AccessTrace.Resource

/-!
# Reading typed values

How the values of a description are read off JSON. Numbers have to be written as integers in
range; a record is an object, or an array of its fields in order; fields that a record does not
have are ignored whatever they hold.
-/

namespace AccessTrace.Json

/-- A truth value. -/
def bool? : Json → Option Bool
  | bool value => some value
  | _ => none

/-- An integer from `lo` up to `hi`. -/
def within? (lo hi : Int) (j : Json) : Option Int :=
  j.integer?.filter fun n => decide (lo ≤ n) && decide (n ≤ hi)

/-- A number of eight bits. -/
def uint8? (j : Json) : Option UInt8 :=
  (j.within? 0 (UInt8.size - 1)).map fun n => .ofNat n.toNat

/-- A number of sixteen bits. -/
def uint16? (j : Json) : Option UInt16 :=
  (j.within? 0 (UInt16.size - 1)).map fun n => .ofNat n.toNat

/-- A number of sixty-four bits. -/
def uint64? (j : Json) : Option UInt64 :=
  (j.within? 0 (UInt64.size - 1)).map fun n => .ofNat n.toNat

/-- A number of sixty-four bits with sign. -/
def int64? (j : Json) : Option Int64 :=
  (j.within? Int64.minValue.toInt Int64.maxValue.toInt).map Int64.ofInt

/-- A size or an index. -/
def size? (j : Json) : Option Nat := (j.within? 0 (wordLimit - 1)).map Int.toNat

/-- A list, element by element. -/
def list? {α : Type} (element : Json → Option α) : Json → Option (List α)
  | array elements => elements.mapM element
  | _ => none

/-- A value or null. -/
def orNull? {α : Type} (value : Json → Option α) : Json → Option (Option α)
  | null => some none
  | j => (value j).map some

/-- One of several names: written as a string, or as an object that holds null under it. -/
def name? {α : Type} (names : List (String × α)) : Json → Option α
  | string written => (unescape? written).bind fun name => names.lookup name
  | object [(written, null)] => (unescape? written).bind fun name => names.lookup name
  | _ => none

/-- The one member of an object, with its key. -/
def tagged? : Json → Option (String × Json)
  | object [(written, value)] => (unescape? written).map (·, value)
  | _ => none

/-- What an object holds under `field`: nothing, or one value; twice is once too often. -/
def member? (members : List (String × Json)) (field : String) : Option (Option Json) :=
  match members.filter (·.1 = field) with
  | [] => some none
  | [(_, value)] => some (some value)
  | _ => none

/-- The fields of a record by name: `none` for one that is missing. All keys have to be texts. An
array may have no more elements than the record has fields. -/
def fields? (names : List String) : Json → Option (List (Option Json))
  | object members => do
    let members ← members.mapM fun (written, value) => (unescape? written).map (·, value)
    names.mapM (member? members)
  | array elements =>
    if elements.length ≤ names.length then
      some (elements.map some ++ List.replicate (names.length - elements.length) none)
    else none
  | _ => none

/-- A field that has to be there. -/
def required {α : Type} (value : Json → Option α) (field : Option Json) : Option α :=
  field >>= value

/-- A field that is `fallback` where it is missing. -/
def optional {α : Type} (value : Json → Option α) (fallback : α) : Option Json → Option α
  | none => some fallback
  | some j => value j

end AccessTrace.Json
