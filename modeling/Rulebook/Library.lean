import Rulebook.Failure

/-!
# The library of names

Configurations refer to classes and predicates by dotted paths. A path names a member of a module;
what modules there are, and what they hold, is part of the world.
-/

set_option autoImplicit false

namespace Rulebook

/-- What stands before the last point of a path, and the name after it; none when there is no
point. -/
def splitPath? (path : String) : Option (String × String) :=
  let letters := path.toList.reverse
  match letters.dropWhile (· ≠ '.') with
  | [] => none
  | _ :: module =>
    some (String.ofList module.reverse, String.ofList (letters.takeWhile (· ≠ '.')).reverse)

/-- The names of the modules around one, the nearest first, given the parts of its name from the
last to the first. -/
def enclosing : List String → List String
  | [] | [_] => []
  | _ :: part :: rest => ".".intercalate (part :: rest).reverse :: enclosing (part :: rest)

namespace World

/-- Why there is no module of a name, given the names of those around it. -/
def whyMissing (w : World) (name : String) : List String → String
  | [] => "No module named " ++ Quoted.text name
  | parent :: others =>
    match w.modules.get? parent with
    | none => w.whyMissing parent others
    | some m =>
      "No module named " ++ Quoted.text name
        ++ if m.isPackage then "" else "; " ++ Quoted.text parent ++ " is not a package"

/-- The module of a name. -/
def findModule (w : World) (name : String) : Except Fault Module :=
  match name.toList with
  | [] => throw .emptyModuleName
  | '.' :: _ => throw (.relativeModule name)
  | _ =>
    match w.modules.get? name with
    | some m => return m
    | none => throw (.noModule (w.whyMissing name (enclosing (name.splitOn ".").reverse)))

/-- The object at a path. -/
def load (w : World) (path : Value) : Except Failure Value :=
  match (w.heap.text? path).bind splitPath? with
  | none => throw (.misconfigured (.badPath (w.plainText path)))
  | some (module, name) =>
    match w.findModule module with
    | .error (.noModule text) =>
      throw (.misconfigured (.importFailed (w.plainText path) (.noModule text)))
    | .error fault => throw (.fault fault)
    | .ok m =>
      match m.members.get? name with
      | some v => return v
      | none => throw (.misconfigured (.notFound name module (w.plainText path)))

end World

end Rulebook
