import ExactAlgebra.Json.Token

/-!
# Reading JSON

The tokens of a text are read one after the other, with a stack of the arrays and objects that are
still open. A name that occurs twice in an object keeps its first place and its last value.

## Main definitions

* `Open` — an array or object that is being read;
* `Json.parse?` — the value of a text, unless it is no JSON.
-/

namespace ExactAlgebra.Json

/-- **An array or object that is being read**, with the items so far; the array has them in
reverse. -/
inductive Open where
  | array (items : List Json)
  | object (members : Members)
  /-- An object whose next member has a name already. -/
  | member (name : String) (members : Members)

/-- **What may come next.** -/
inductive Expecting where
  /-- A value. -/
  | value
  /-- A value, or the end of an array that is still empty. -/
  | firstItem
  /-- A name. -/
  | name
  /-- A name, or the end of an object that is still empty. -/
  | firstName
  | colon
  /-- A comma or the end of what is open; the end of the text if nothing is. -/
  | separator

/-- **A state of the reader**: what may come next, what is open, and the value that was closed last
if nothing is open any more. -/
structure Reader where
  expecting : Expecting
  opened : List Open
  result : Option Json

namespace Reader

/-- The reader after a whole value. -/
def complete (value : Json) : List Open → Option Reader
  | [] => some ⟨.separator, [], some value⟩
  | .array items :: outer => some ⟨.separator, .array (value :: items) :: outer, none⟩
  | .member name members :: outer =>
    some ⟨.separator, .object (members.put name value) :: outer, none⟩
  | .object _ :: _ => none

/-- The reader at the start of a value. -/
def beginValue (opened : List Open) : Token → Option Reader
  | .leftBracket => some ⟨.firstItem, .array [] :: opened, none⟩
  | .leftBrace => some ⟨.firstName, .object [] :: opened, none⟩
  | .string s => complete (.string s) opened
  | .scalar value => complete value opened
  | _ => none

/-- The reader at the name of a member. -/
def beginMember : List Open → Token → Option Reader
  | .object members :: outer, .string name => some ⟨.colon, .member name members :: outer, none⟩
  | _, _ => none

/-- The reader at the end of an array or object. -/
def close : List Open → Token → Option Reader
  | .array items :: outer, .rightBracket => complete (.array items.reverse) outer
  | .object members :: outer, .rightBrace => complete (.object members) outer
  | _, _ => none

/-- The reader behind a whole item: at a comma, or at the end of what is open. -/
def separate (opened : List Open) (t : Token) : Option Reader :=
  match opened, t with
  | .array _ :: _, .comma => some ⟨.value, opened, none⟩
  | .object _ :: _, .comma => some ⟨.name, opened, none⟩
  | _, _ => close opened t

/-- **Reads one token.** -/
def step (r : Reader) (t : Token) : Option Reader :=
  match r.expecting, t with
  | .value, _ => beginValue r.opened t
  | .firstItem, .rightBracket => close r.opened t
  | .firstItem, _ => beginValue r.opened t
  | .firstName, .rightBrace => close r.opened t
  | .firstName, _ => beginMember r.opened t
  | .name, _ => beginMember r.opened t
  | .colon, .colon => some ⟨.value, r.opened, none⟩
  | .colon, _ => none
  | .separator, _ => separate r.opened t

end Reader

/-- **The value of a JSON text**; `none` if the text is no JSON. -/
def parse? (text : String) : Option Json := do
  let ts ← tokens? text
  let last ← ts.foldlM Reader.step ⟨.value, [], none⟩
  last.result

end ExactAlgebra.Json
