import ExactAlgebra.Error
import ExactAlgebra.Text.Quoted
import ExactAlgebra.Text.Split
import ExactAlgebra.Text.Utf8

/-!
# Paths of requests

A request is sent to an address: a scheme, a host and a path, with a query and a fragment behind it
that do not matter here. An address without scheme or host is meant on the own host, and its path
then begins behind any slashes. A part `.` of a path adds nothing and a part `..` takes the part
before it back. A percent sign with two hexadecimal digits stands for a byte, and the bytes of a
path are the UTF-8 form of a text. Percent signs are read on the way out and again on the way in.

## Main definitions

* `percentDecoded` — the text that percent signs stand for;
* `resolveDots` — the parts without dot parts;
* `Address`, `Address.ofText` — an address and its notation;
* `Address.requested` — the path that a request to an address arrives with.
-/

namespace ExactAlgebra.Service

open ExactAlgebra.Text

/-! ## Percent signs -/

/-- The value of a hexadecimal digit. -/
def hexValue? (c : Char) : Option Nat :=
  let n := c.toNat
  if 48 ≤ n ∧ n ≤ 57 then some (n - 48)
  else if 65 ≤ n ∧ n ≤ 70 then some (n - 55)
  else if 97 ≤ n ∧ n ≤ 102 then some (n - 87)
  else none

/-- The byte that two hexadecimal digits write. -/
def hexByte? (high low : Char) : Option Nat := do
  return 16 * (← hexValue? high) + (← hexValue? low)

/-- The bytes of a text, with every written byte in place of its three characters. A percent sign
before anything but two hexadecimal digits is an ordinary character. -/
def percentBytes : List Char → List Nat
  | [] => []
  | '%' :: high :: low :: rest =>
    match hexByte? high low with
    | some b => b :: percentBytes rest
    | none => 37 :: percentBytes (high :: low :: rest)
  | c :: rest => encodeChar c ++ percentBytes rest

/-- **The text that percent signs stand for.** -/
def percentDecoded (text : String) : String :=
  String.ofList (decodeUtf8 (percentBytes text.toList))

/-! ## Dot parts -/

/-- The parts without dot parts; `before` holds those already read, in reverse. Nothing goes back
beyond the slash that a path begins with. -/
def resolveDots (before : List String) : List String → List String
  | [] => before.reverse
  | part :: rest =>
    if part = "." then resolveDots before rest
    else if part = ".." then
      resolveDots (if before = [""] then before else before.tail) rest
    else resolveDots (part :: before) rest

/-- A path without dot parts. -/
def resolved (path : String) : String :=
  "/".intercalate (resolveDots [] (splitOn "/" path))

/-! ## Addresses -/

/-- **An address.** Scheme and host are empty if they were left out; `hasAuthority` tells whether
anything stood behind two slashes, be it a host or what is said along with one. -/
structure Address where
  scheme : String
  hasAuthority : Bool
  host : String
  path : String
  deriving DecidableEq

namespace Address

/-- The greatest number of characters of an address. -/
def lengthLimit : Nat :=
  65536

/-- Refuses the first ASCII control character of a text. -/
def checkCharacters (text : String) : Except Error Unit :=
  match text.toList.findIdx? (fun c => c.toNat < 32 || c.toNat = 127) with
  | some i =>
    .error (.controlCharacter (quoted (String.ofList ((text.toList.drop i).take 1))) i)
  | none => .ok ()

/-- Whether a character can be in a scheme. -/
def isSchemeChar (c : Char) : Bool :=
  c.isAlphanum || c = '+' || c = '.' || c = '-'

/-- The scheme in front of a colon, which begins with a letter, and what follows. -/
def splitScheme (cs : List Char) : List Char × List Char :=
  let scheme := cs.takeWhile isSchemeChar
  match cs.dropWhile isSchemeChar with
  | ':' :: rest => if scheme.head?.all Char.isAlpha then (scheme, rest) else ([], cs)
  | _ => ([], cs)

/-- Whether a character ends an authority. -/
def endsAuthority (c : Char) : Bool :=
  c = '/' || c = '?' || c = '#'

/-- The authority behind two slashes, and what follows. -/
def splitAuthority : List Char → List Char × List Char
  | '/' :: '/' :: rest =>
    (rest.takeWhile fun c => ! endsAuthority c, rest.dropWhile fun c => ! endsAuthority c)
  | cs => ([], cs)

/-- The host of an authority: what is behind a user and in front of a colon. -/
def hostOf (authority : List Char) : List Char :=
  (authority.reverse.takeWhile (· ≠ '@')).reverse.takeWhile (· ≠ ':')

/-- The path in front of a query or a fragment. -/
def pathOf (cs : List Char) : String :=
  String.ofList (cs.takeWhile fun c => c ≠ '?' ∧ c ≠ '#')

/-- Refuses a path that could be taken for something else. -/
def checkPath (a : Address) : Except Error Unit :=
  if a.scheme ≠ "" ∨ a.hasAuthority then .ok ()
  else
    match a.path.toList with
    | '/' :: '/' :: _ => .error (.pathStart "//")
    | ':' :: _ => .error (.pathStart ":")
    | _ => .ok ()

/-- The schemes that can be asked for. -/
def schemes : List String :=
  ["http", "https"]

/-- Refuses another scheme than the usual ones, if there is a host. -/
def checkScheme (a : Address) : Except Error Unit :=
  if a.scheme = "" ∨ a.host = "" ∨ a.scheme ∈ schemes then .ok ()
  else .error (.unknownScheme a.scheme)

/-- **The address of a text.** -/
def ofText (text : String) : Except Error Address := do
  if lengthLimit < text.length then throw .longAddress
  checkCharacters text
  let (scheme, rest) := splitScheme text.toList
  let (authority, rest) := splitAuthority rest
  let address : Address :=
    { scheme := String.ofList (scheme.map Char.toLower)
      hasAuthority := authority.any fun c => c ≠ '@' ∧ c ≠ ':'
      host := String.ofList (hostOf authority)
      path := pathOf rest }
  address.checkPath
  address.checkScheme
  return address

/-- The address of a path on the own host. -/
def ofPath (path : String) : Address :=
  ⟨"http", true, "localhost", pathOf path.toList⟩

/-- The path without slashes in front of it. -/
def withoutLeadingSlashes (path : String) : String :=
  String.ofList (path.toList.dropWhile (· = '/'))

/-- The path from the root on, without dot parts. -/
def rootedPath (a : Address) : String :=
  let path := if a.scheme = "" ∧ ! a.hasAuthority then a.path else resolved a.path
  if a.scheme = "" ∨ a.host = "" then resolved ("/" ++ withoutLeadingSlashes path)
  else resolved path

/-- **The path that a request arrives with.** -/
def requested (a : Address) : String :=
  percentDecoded (percentDecoded a.rootedPath)

example : (ofText "//x/a/../api/f?x=1").toOption.map requested = some "/api/f" := by
  decide +kernel
example : (ofText "../b%2520c").toOption.map requested = some "/b c" := by decide +kernel
example : (ofText "////x").toOption = none := by decide +kernel

end Address

end ExactAlgebra.Service
