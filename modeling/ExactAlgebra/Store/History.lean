import ExactAlgebra.Rational.Integer
import ExactAlgebra.Store.Workspace

/-!
# The history of commands

Every record of the history has an id, the command, its answer, the time, and a pin. New records
come first; as many are kept as the settings say. Records are taken from the stored file as they
are, so what is asked for may be missing or of the wrong kind.

## Main definitions

* `Stamp` — id and time of a new record;
* `addRecord`, `clearHistory`, `deleteRecord`, `togglePin` — changes of the history;
* `recordsByPin` — the history, pinned records first;
* `findRecord` — the id that begins with a given text.
-/

namespace ExactAlgebra

open ExactAlgebra.Text

/-- **Id and time of a new record.** -/
structure Stamp where
  id : String
  timestamp : String
  epoch : Binary64

/-- The id that some bytes give, with two hexadecimal digits for each. -/
def idOfBytes (bytes : List UInt8) : String :=
  String.ofList (bytes.flatMap fun b => hexDigits 2 b.toNat)

/-- A new record. -/
def newRecord (stamp : Stamp) (command answer : String) : Json :=
  .object [("id", .string stamp.id), ("command", .string command), ("answer", .string answer),
    ("timestamp", .string stamp.timestamp), ("epoch", .float stamp.epoch),
    ("pinned", .bool false)]

/-! ## Records -/

/-- Why a value that is no object has no members. -/
def noMembers : Json → Error
  | .array _ => .unusableValue "list indices must be integers or slices, not str"
  | .string _ => .unusableValue "string indices must be integers, not 'str'"
  | value => .unusableValue ("'" ++ value.typeName ++ "' object is not subscriptable")

/-- **A member of a record.** -/
def recordMember (name : String) : Json → Except Error Json
  | .object members =>
    match Json.Members.get? name members with
    | some value => .ok value
    | none => .error (.missingField name)
  | value => .error (noMembers value)

/-- Whether a record is pinned; one that does not say is not. -/
def isPinned : Json → Except Error Bool
  | .object members => .ok ((Json.Members.get? "pinned" members).any (·.isTruthy))
  | value => .error (.noSuchPart ("'" ++ value.typeName ++ "' object has no attribute 'get'"))

/-- Whether the id of a record is the given one. -/
def hasId (id : String) (record : Json) : Except Error Bool :=
  (recordMember "id" record).map fun value => value.string? = some id

/-- The id of a record, if it begins with the given text. -/
def idBeginning (start : String) (record : Json) : Except Error (Option String) := do
  match ← recordMember "id" record with
  | .string id => return if start.toList.isPrefixOf id.toList then some id else none
  | value =>
    throw (.noSuchPart ("'" ++ value.typeName ++ "' object has no attribute 'startswith'"))

/-! ## The length of the history -/

/-- **The integer that a setting means.** -/
def integerOf : Json → Except Error Int
  | .bool b => .ok (if b then 1 else 0)
  | .int n => .ok n
  | .float .nan => .error (.notFinite "cannot convert float NaN to integer")
  | .float (.infinite _) => .error .infinityAsInteger
  | .float (.finite negative magnitude) => .ok (Binary64.truncate negative magnitude)
  | .string s => readInt s
  | value =>
    .error (.unusableValue
      ("int() argument must be a string, a bytes-like object or a real number, not '"
        ++ value.typeName ++ "'"))

/-- The first items of a list; a negative number is one of items that are left out at the end. -/
def takeSigned {α : Type} (n : Int) (items : List α) : List α :=
  items.take (if 0 ≤ n then n.toNat else items.length - n.natAbs)

namespace Workspace

/-! ## Changes -/

/-- **Puts a record in front of the history**, and drops the oldest ones if there are too many. -/
def addRecord (w : Workspace) (stamp : Stamp) (command answer : String) :
    Except Error Workspace := do
  let db := w.database
  let limit ← integerOf (Settings.value "history_limit" w.settings)
  return w.keep
    { db with history := takeSigned limit (newRecord stamp command answer :: db.history) }

/-- Deletes all records. -/
def clearHistory (w : Workspace) : Workspace :=
  w.keep { w.database with history := [] }

/-- The records without those with a given id. -/
def withoutId (id : String) : List Json → Except Error (List Json)
  | [] => .ok []
  | record :: rest => do
    let found ← hasId id record
    let others ← withoutId id rest
    return if found then others else record :: others

/-- **Deletes a record.** -/
def deleteRecord (w : Workspace) (id : String) : Except Error Workspace := do
  let db := w.database
  return w.keep { db with history := ← withoutId id db.history }

/-- A record with its pin changed, and whether it is pinned then. -/
def flipPin (record : Json) : Except Error (Bool × Json) := do
  let pinned ← isPinned record
  match record with
  | .object members =>
    return (! pinned, .object (Json.Members.put "pinned" (.bool (! pinned)) members))
  | other => return (! pinned, other)

/-- The records with the pin of the first one with a given id changed. -/
def toggleIn (id : String) : List Json → Except Error (Bool × List Json)
  | [] => .error (.noRecord id)
  | record :: rest => do
    if ← hasId id record then
      let (pinned, changed) ← flipPin record
      return (pinned, changed :: rest)
    else
      let (pinned, others) ← toggleIn id rest
      return (pinned, record :: others)

/-- **Pins a record, or unpins it**, and tells which. -/
def togglePin (w : Workspace) (id : String) : Except Error (Bool × Workspace) := do
  let db := w.database
  let (pinned, history) ← toggleIn id db.history
  return (pinned, w.keep { db with history := history })

/-! ## Look-up -/

/-- Some records with their pins. -/
def withPins : List Json → Except Error (List (Bool × Json))
  | [] => .ok []
  | record :: rest => do
    let pinned ← isPinned record
    return (pinned, record) :: (← withPins rest)

/-- **The history**, pinned records first and otherwise in order. -/
def recordsByPin (w : Workspace) : Except Error (List Json) := do
  let records ← withPins w.database.history
  return (records.filter (·.1)).map (·.2) ++ (records.filter (! ·.1)).map (·.2)

/-- The ids that begin with a given text. -/
def idsBeginning (start : String) : List Json → Except Error (List String)
  | [] => .ok []
  | record :: rest => do
    let id ← idBeginning start record
    return id.toList ++ (← idsBeginning start rest)

/-- **The one id that begins with a given text.** -/
def findRecord (w : Workspace) (text : String) : Except Error String := do
  let start := trim text
  if start = "" then throw (.noRecord start)
  match ← idsBeginning start w.database.history with
  | [] => throw (.noRecord start)
  | [id] => return id
  | several => throw (.ambiguousRecord start several.length)

end Workspace

end ExactAlgebra
