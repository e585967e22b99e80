import Rulebook.Object.Value

/-!
# Methods of the standing classes

The names under which the standing classes offer methods, and those of the parts that can be read
off their instances. Reading such a name never finds nothing, and some of them cannot be assigned.
-/

set_option autoImplicit false

namespace Rulebook.Builtin

/-- Methods of text and of bytes. -/
def textMethods : List String :=
  ["capitalize", "center", "count", "endswith", "expandtabs", "find", "index", "isalnum", "isalpha",
    "isascii", "isdigit", "islower", "isspace", "istitle", "isupper", "join", "ljust", "lower",
    "lstrip", "maketrans", "partition", "removeprefix", "removesuffix", "replace", "rfind",
    "rindex", "rjust", "rpartition", "rsplit", "rstrip", "split", "splitlines", "startswith",
    "strip", "swapcase", "title", "translate", "upper", "zfill"]

/-- The methods that a class itself defines. -/
def methods : Builtin → List String
  | .int =>
    ["as_integer_ratio", "bit_count", "bit_length", "conjugate", "from_bytes", "to_bytes"]
  | .float => ["as_integer_ratio", "conjugate", "fromhex", "hex", "is_integer"]
  | .fraction =>
    ["as_integer_ratio", "conjugate", "from_decimal", "from_float", "limit_denominator"]
  | .text =>
    ["casefold", "encode", "format", "format_map", "isdecimal", "isidentifier", "isnumeric",
      "isprintable"] ++ textMethods
  | .bytes => ["decode", "fromhex", "hex"] ++ textMethods
  | .list =>
    ["append", "clear", "copy", "count", "extend", "index", "insert", "pop", "remove", "reverse",
      "sort"]
  | .tuple | .range => ["count", "index"]
  | .set =>
    ["add", "clear", "copy", "difference", "difference_update", "discard", "intersection",
      "intersection_update", "isdisjoint", "issubset", "issuperset", "pop", "remove",
      "symmetric_difference", "symmetric_difference_update", "union", "update"]
  | .mapping =>
    ["clear", "copy", "fromkeys", "get", "items", "keys", "pop", "popitem", "setdefault", "update",
      "values"]
  | .proxy => ["copy", "get", "items", "keys", "values"]
  | _ => []

/-- The parts of an instance that a class itself makes readable. -/
def parts : Builtin → List String
  | .int => ["denominator", "imag", "numerator", "real"]
  | .float => ["imag", "real"]
  | .complex => ["imag", "real"]
  | .decimal => ["imag", "real"]
  | .fraction => ["denominator", "imag", "numerator", "real"]
  | .range => ["start", "step", "stop"]
  | .pattern => ["pattern"]
  | .settings => ["abort_early", "strip_unknown"]
  | .keys => ["name", "value"]
  | _ => []

/-- The class and what it inherits from. -/
def ancestry : Builtin → List Builtin
  | .object => [.object]
  | .bool => [.bool, .int, .object]
  | b => [b, .object]

end Rulebook.Builtin
