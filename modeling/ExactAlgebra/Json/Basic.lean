import ExactAlgebra.Decimal.Binary64

/-!
# JSON values

The values of stored files and of requests. Members of an object keep the order in which they were
added, and a name occurs once.

## Main definitions

* `Json` — the values;
* `Json.Members` — the members of an object, with `get?`, `put` and `erase`.
-/

namespace ExactAlgebra

/-- **A JSON value.** Numbers with a decimal point or an exponent are doubles, the others are
integers of any size. -/
inductive Json where
  | null
  | bool (value : Bool)
  | int (value : Int)
  | float (value : Binary64)
  | string (value : String)
  | array (items : List Json)
  | object (members : List (String × Json))

namespace Json

/-- **The members of an object**, in order. -/
abbrev Members :=
  List (String × Json)

namespace Members

/-- The value of a member. -/
def get? (name : String) : Members → Option Json
  | [] => none
  | (key, value) :: rest => if key = name then some value else get? name rest

/-- Sets a member: one that exists keeps its place, a new one comes last. -/
def put (name : String) (value : Json) : Members → Members
  | [] => [(name, value)]
  | (key, old) :: rest =>
    if key = name then (key, value) :: rest else (key, old) :: put name value rest

/-- The members without one of them. -/
def erase (name : String) (members : Members) : Members :=
  members.filter (·.1 ≠ name)

/-- The members of the first object, overlaid with those of the second. -/
def overlay (members added : Members) : Members :=
  added.foldl (fun result member => put member.1 member.2 result) members

/-- **What was set is read back, and nothing else changes.** -/
theorem get?_put (name key : String) (value : Json) (members : Members) :
    get? key (put name value members) = if key = name then some value else get? key members := by
  induction members with
  | nil => grind [get?, put]
  | cons member rest ih => grind [get?, put]

end Members

/-- **Whether a value counts as true**: everything but null, false, zero and what is empty. -/
def isTruthy : Json → Bool
  | null => false
  | bool b => b
  | int n => n ≠ 0
  | float x => ! x.isZero
  | string s => s ≠ ""
  | array items => ! items.isEmpty
  | object members => ! members.isEmpty

/-- The text of a string value. -/
def string? : Json → Option String
  | string s => some s
  | _ => none

end Json

end ExactAlgebra
