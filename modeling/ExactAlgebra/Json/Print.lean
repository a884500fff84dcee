import ExactAlgebra.Decimal.Shortest
import ExactAlgebra.Json.Basic
import ExactAlgebra.Text.Quoted

/-!
# JSON as text

Two printers. One writes a JSON file: every item and member on a line of its own, indented by two
blanks for each level, characters beyond ASCII as they are. The other shows a value inside a
message, on one line, with the words `None`, `True` and `False` and with texts in quotes.

## Main definitions

* `Json.print` — a value as a file;
* `Json.shown` — a value inside a message;
* `Json.plain` — the same, but a text stands for itself;
* `Json.typeName` — the kind of a value.
-/

namespace ExactAlgebra.Json

open ExactAlgebra.Text

/-! ## Files -/

/-- A character of a string. Quote, backslash and control characters are escaped. -/
def escapedChar (c : Char) : List Char :=
  match c with
  | '"' => ['\\', '"']
  | '\\' => ['\\', '\\']
  | '\n' => ['\\', 'n']
  | '\r' => ['\\', 'r']
  | '\t' => ['\\', 't']
  | '\x08' => ['\\', 'b']
  | '\x0c' => ['\\', 'f']
  | _ => if c.toNat < 32 then '\\' :: 'u' :: hexDigits 4 c.toNat else [c]

/-- A string with its quotes. -/
def stringText (s : String) : String :=
  String.ofList ('"' :: (s.toList.flatMap escapedChar ++ ['"']))

/-- A line end, and the blanks of a level. -/
def newLine (level : Nat) : String :=
  String.ofList ('\n' :: List.replicate (2 * level) ' ')

/-- Items between a pair of marks, each on a line of its own. -/
def block (left right : String) (level : Nat) (items : List String) : String :=
  match items with
  | [] => left ++ right
  | _ =>
    left ++ newLine (level + 1) ++ ("," ++ newLine (level + 1)).intercalate items
      ++ newLine level ++ right

mutual

/-- A value at a level. -/
def printAt (level : Nat) : Json → String
  | null => "null"
  | bool b => if b then "true" else "false"
  | int n => intText n
  | float x => x.textWith "NaN" "Infinity"
  | string s => stringText s
  | array items => block "[" "]" level (printItems (level + 1) items)
  | object members => block "\x7b" "\x7d" level (printMembers (level + 1) members)

/-- The items of an array. -/
def printItems (level : Nat) : List Json → List String
  | [] => []
  | item :: rest => printAt level item :: printItems level rest

/-- The members of an object. -/
def printMembers (level : Nat) : List (String × Json) → List String
  | [] => []
  | (name, value) :: rest =>
    (stringText name ++ ": " ++ printAt level value) :: printMembers level rest

end

/-- **The text of a JSON file.** -/
def print (value : Json) : String :=
  printAt 0 value

/-! ## Messages -/

mutual

/-- **A value as it is shown inside a message.** -/
def shown : Json → String
  | null => "None"
  | bool b => if b then "True" else "False"
  | int n => intText n
  | float x => x.text
  | string s => quoted s
  | array items => "[" ++ ", ".intercalate (shownItems items) ++ "]"
  | object members => "\x7b" ++ ", ".intercalate (shownMembers members) ++ "\x7d"

/-- The items of an array. -/
def shownItems : List Json → List String
  | [] => []
  | item :: rest => shown item :: shownItems rest

/-- The members of an object. -/
def shownMembers : List (String × Json) → List String
  | [] => []
  | (name, value) :: rest => (quoted name ++ ": " ++ shown value) :: shownMembers rest

end

/-- **A value as part of a line**: a text stands for itself, anything else is shown. -/
def plain : Json → String
  | string s => s
  | value => value.shown

/-- The name of the kind of a value. -/
def typeName : Json → String
  | null => "NoneType"
  | bool _ => "bool"
  | int _ => "int"
  | float _ => "float"
  | string _ => "str"
  | array _ => "list"
  | object _ => "dict"

end ExactAlgebra.Json
