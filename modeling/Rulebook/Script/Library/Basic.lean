import Rulebook.Script.Library.Numbers
import Rulebook.Script.Library.Collections
import Rulebook.Pattern.Reader
import Rulebook.Pattern.Search

/-!
# The functions of the language

All functions that need nothing but their arguments. `find` looks a function up by its name and the
kinds of its arguments.
-/

namespace Rulebook.Script.Library

/-- A function that changes nothing. -/
def steady (answer : Answer Datum) : Answer Reply :=
  answer.map fun result => result.map fun value => ⟨value, none⟩

/-- The functions on values of every kind. -/
def general (name : String) (arguments : List Datum) : Answer Datum :=
  match name, arguments with
  | "truthy", [a] => some (.ok (.bool a.isTruthy))
  | "json_parse", [.text s] =>
    some (match Datum.readJson? s with
      | some value => .ok value
      | none => .error (.thrown (.text "Invalid JSON: the text does not follow the grammar")))
  | "json_stringify", [a] => some (.ok (.text a.toJson.compact))
  | "to_string", [a] => some (.ok (.text a.display))
  | "to_debug", [a] => some (.ok (.text a.inspect))
  | "type_of", [a] => some (.ok (.text a.scriptTypeName))
  | "sleep", [.int _] => some (.ok .unit)
  | "sleep", [.float _] => some (.ok .unit)
  | "name", [.function name _] => some (.ok (.text name))
  | "is_anonymous", [.function name _] => some (.ok (.bool (name.startsWith "anon$")))
  | "search", [.text pattern, .text s] =>
    some (.ok (.bool (match Pattern.read? pattern with
      | some pattern => pattern.foundIn s
      | none => false)))
  | _, _ => none

/-- The function of a name for the given arguments. -/
def find (name : String) (arguments : List Datum) : Answer Reply :=
  (steady (general name arguments)).or <|
  (steady (numbers name arguments)).or <|
  (steady (textFunctions name arguments)).or <|
  (textChanges name arguments).or <|
  (steady (listFunctions name arguments)).or <|
  (listChanges name arguments).or <|
  (mapFunctions name arguments).or <|
  byteFunctions name arguments

/-- The functions that may change their first argument. -/
def isChanging (name : String) : Bool :=
  ["push", "append", "insert", "pop", "shift", "remove", "clear", "truncate", "chop", "reverse",
    "dedup", "pad", "set", "drain", "retain", "splice", "sort", "for_each", "mixin", "fill_with",
    "trim", "crop", "replace", "make_upper", "make_lower"].contains name

/-- The functions that can be read like members of a value. -/
def isMemberFunction (name : String) : Bool :=
  ["len", "is_empty", "bytes", "chars", "is_odd", "is_even", "is_zero", "floor", "ceiling", "round",
    "int", "fraction", "is_nan", "is_finite", "is_infinite", "start", "end", "is_exclusive",
    "is_inclusive", "name", "is_anonymous"].contains name

/-- The member of a value that is no map: a function that can be read like a member. -/
def member (value : Datum) (name : String) : Answer Datum :=
  if isMemberFunction name then (find name [value]).map fun reply => reply.map (·.value) else none

end Rulebook.Script.Library
