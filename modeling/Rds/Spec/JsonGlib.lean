import Rds.Lib.Json
import Rds.Spec.Globvar

/-!
# The json-glib calls the program makes

Each getter accepts `NULL` and answers `NULL`, 0 or `FALSE` for it, as it does for an
absent member, an index past the end and a value of another type.
-/

namespace Rds

/-- The members of an object, in document order. -/
abbrev JsonObject := List (String × Json)

/-- The elements of an array. -/
abbrev JsonArray := List Json

/-- `json_node_get_object` -/
def jsonNodeGetObject : Option Json → Option JsonObject
  | some (.obj ms) => some ms
  | _ => none

/-- `json_node_get_array` -/
def jsonNodeGetArray : Option Json → Option JsonArray
  | some (.arr es) => some es
  | _ => none

/-- `json_node_get_int` -/
def jsonNodeGetInt : Option Json → ℤ
  | some (.int n) => n
  | some (.real n) => n
  | some (.bool b) => if b then 1 else 0
  | _ => 0

/-- `json_node_get_string` -/
def jsonNodeGetString : Option Json → Option String
  | some (.str s) => some s
  | _ => none

/-- `json_object_get_member` -/
def jsonObjectGetMember (obj : Option JsonObject) (name : String) : Option Json :=
  obj.bind fun ms => ms.lookup name

/-- `json_object_has_member` -/
def jsonObjectHasMember (obj : Option JsonObject) (name : String) : Bool :=
  (jsonObjectGetMember obj name).isSome

/-- `json_object_get_int_member` -/
def jsonObjectGetIntMember (obj : Option JsonObject) (name : String) : ℤ :=
  jsonNodeGetInt (jsonObjectGetMember obj name)

/-- `json_object_get_string_member` -/
def jsonObjectGetStringMember (obj : Option JsonObject) (name : String) : Option String :=
  jsonNodeGetString (jsonObjectGetMember obj name)

/-- `json_object_get_array_member` -/
def jsonObjectGetArrayMember (obj : Option JsonObject) (name : String) : Option JsonArray :=
  jsonNodeGetArray (jsonObjectGetMember obj name)

/-- `json_object_get_null_member` -/
def jsonObjectGetNullMember (obj : Option JsonObject) (name : String) : Bool :=
  match jsonObjectGetMember obj name with
  | some .null => true
  | _ => false

/-- `json_array_get_length` -/
def jsonArrayGetLength (arr : Option JsonArray) : ℕ := (arr.getD []).length

/-- `json_array_get_element` -/
def jsonArrayGetElement (arr : Option JsonArray) (i : ℕ) : Option Json := arr.bind fun es => es[i]?

/-- `json_array_get_string_element` -/
def jsonArrayGetStringElement (arr : Option JsonArray) (i : ℕ) : Option String :=
  jsonNodeGetString (jsonArrayGetElement arr i)

/-- `json_array_get_object_element` -/
def jsonArrayGetObjectElement (arr : Option JsonArray) (i : ℕ) : Option JsonObject :=
  jsonNodeGetObject (jsonArrayGetElement arr i)

/-- `json_array_get_array_element` -/
def jsonArrayGetArrayElement (arr : Option JsonArray) (i : ℕ) : Option JsonArray :=
  jsonNodeGetArray (jsonArrayGetElement arr i)

/-- `json_path_match` of `$.data..name`: the nodes found, as an array, or `NULL` for a
`NULL` root. -/
def jsonPathMatchData (name : String) (root : Option Json) : Option JsonArray :=
  root.map fun _ =>
    match jsonObjectGetMember (jsonNodeGetObject root) "data" with
    | some data => Json.descend name data
    | none => []

/-! ## The generator

What it prints where it is not asked to be pretty, of names and strings of printable characters and
line feeds. The model takes the generator as a parameter; this one is for runs on given inputs. -/

/-- A character in a string. -/
def escape (c : Char) : List Char :=
  if c = '"' then ['\\', '"']
  else if c = '\\' then ['\\', '\\']
  else if c = '\n' then ['\\', 'n']
  else [c]

def quoted (s : String) : List Char := '"' :: s.toList.flatMap escape ++ ['"']

def numeral : ℤ → List Char
  | .ofNat n => Nat.toDigits 10 n
  | .negSucc n => '-' :: Nat.toDigits 10 (n + 1)

mutual

/-- `json_generator_to_data` -/
def jsonGeneratorToData : Json → List Char
  | .null => ['n', 'u', 'l', 'l']
  | .bool true => ['t', 'r', 'u', 'e']
  | .bool false => ['f', 'a', 'l', 's', 'e']
  | .int n => numeral n
  | .real n => numeral n ++ ['.', '0']
  | .str s => quoted s
  | .arr es => '[' :: generateElements es ++ [']']
  | .obj ms => '{' :: generateMembers ms ++ ['}']

def generateElements : List Json → List Char
  | [] => []
  | [e] => jsonGeneratorToData e
  | e :: e' :: es => jsonGeneratorToData e ++ ',' :: generateElements (e' :: es)

def generateMembers : List (String × Json) → List Char
  | [] => []
  | [m] => generateMember m
  | m :: m' :: ms => generateMember m ++ ',' :: generateMembers (m' :: ms)

def generateMember : String × Json → List Char
  | (name, v) => quoted name ++ ':' :: jsonGeneratorToData v

end

/-- The text of a message. -/
def printed (m : Json) : List Byte := (jsonGeneratorToData m).map fun c => c.toNat.toUInt8

end Rds
