import Rulebook.Number.Layout
import Rulebook.Text.Quoted
import Rulebook.World

/-!
# The text of values

Two forms of text: the plain one of messages, in which text stands for itself, and the precise one
inside containers, in which text is quoted and numbers of special kinds are named. A container
inside itself is written as an ellipsis. Every value has a text: neither form ever fails, as it
could for instances whose class words them by code of its own.
-/

set_option autoImplicit false

namespace Rulebook

/-- The flags of a pattern by name. -/
def Pattern.Flags.names (f : Pattern.Flags) : List String :=
  let pick (b : Bool) (name : String) : List String := if b then [name] else []
  pick f.ignoreCase "re.IGNORECASE" ++ pick f.lines "re.MULTILINE" ++ pick f.dotAll "re.DOTALL"
    ++ pick f.verbose "re.VERBOSE" ++ pick f.ascii "re.ASCII"

/-- A pattern in precise form. Of a long one only the beginning is shown. -/
def CompiledPattern.display (p : CompiledPattern) : String :=
  let source := String.ofList ((Quoted.text p.source).toList.take 200)
  let flags := if p.flags.names.isEmpty then "" else ", " ++ "|".intercalate p.flags.names
  "re.compile(" ++ source ++ flags ++ ")"

namespace Display

/-- A truth value. -/
def bool (b : Bool) : String := if b then "True" else "False"

/-- A fraction in plain form. -/
def fraction (q : Rat) : String :=
  if q.den = 1 then toString q.num else toString q.num ++ "/" ++ toString q.den

/-- A range. -/
def range (start stop step : Int) : String :=
  let bounds := toString start ++ ", " ++ toString stop
  "range(" ++ bounds ++ (if step = 1 then "" else ", " ++ toString step) ++ ")"

/-- Texts with commas between them. -/
def commas (parts : List String) : String := ", ".intercalate parts

/-- A list of texts. -/
def list (parts : List String) : String := "[" ++ commas parts ++ "]"

/-- A tuple of texts: a single one keeps its comma. -/
def tuple (parts : List String) : String :=
  match parts with
  | [part] => "(" ++ part ++ ",)"
  | _ => "(" ++ commas parts ++ ")"

/-- Texts in braces. -/
def braces (parts : List String) : String := "\x7b" ++ commas parts ++ "\x7d"

/-- A set of texts, under the name of its class unless this is the usual one. -/
def set (name : String) (parts : List String) : String :=
  if parts.isEmpty then name ++ "()"
  else if name = Builtin.set.name then braces parts
  else name ++ "(" ++ braces parts ++ ")"

/-- The options of a validation. -/
def settings (s : Settings) : String :=
  "ValidatorOptions(abort_early=" ++ bool s.abortEarly ++ ", strip_unknown=" ++ bool s.stripUnknown
    ++ ")"

end Display

namespace World

/-- A class in precise form. -/
def classText (w : World) : ClassId → String
  | .builtin b => "<class '" ++ b.qualifiedName ++ "'>"
  | c => "<class '" ++ w.moduleName c ++ "." ++ w.className c ++ "'>"

/-- A value that is no container, in precise form. -/
def preciseSimple (w : World) (v : Value) : String :=
  match w.heap.plain v with
  | .nothing => "None"
  | .missing => "MISSING"
  | .bool b => Display.bool b
  | .int n => toString n
  | .float d => d.text
  | .fraction q =>
    w.nameOfClassOf v ++ "(" ++ toString q.num ++ ", " ++ toString q.den ++ ")"
  | .decimal d => "Decimal(" ++ Quoted.text d.text ++ ")"
  | .complex re im => Double.complexText re im
  | .text s => Quoted.text s
  | .bytes bs => Quoted.bytes bs
  | .byteArray bs => Quoted.byteArray bs
  | .ofClass c => w.classText c
  | .function name => "<function " ++ name ++ ">"
  | .object _ =>
    match w.heap.content? v with
    | some (.range start stop step) => Display.range start stop step
    | some (.pattern p) => p.display
    | some (.settings s) => Display.settings s
    | some (.member name value) =>
      "<" ++ w.nameOfClassOf v ++ "." ++ name ++ ": "
        ++ (match value with
          | .text s => Quoted.text s
          | _ => "") ++ ">"
    | _ => "<" ++ w.nameOfClassOf v ++ " object>"

/-- A value in precise form, `path` being the containers around it. -/
def preciseWithin (w : World) : Nat → List Address → Value → String
  | 0, _, _ => "..."
  | room + 1, path, v =>
    match v, w.heap.content? v with
    | .object a, some (.list items) =>
      if path.contains a then "[...]"
      else Display.list (items.toList.map (preciseWithin w room (a :: path)))
    | .object a, some (.tuple items) =>
      if path.contains a then "(...)"
      else Display.tuple (items.toList.map (preciseWithin w room (a :: path)))
    | .object a, some (.set items) =>
      if path.contains a then w.nameOfClassOf v ++ "(...)"
      else Display.set (w.nameOfClassOf v) (items.map (preciseWithin w room (a :: path)))
    | .object a, some (.mapping entries) =>
      let shown :=
        if path.contains a then "\x7b...\x7d"
        else Display.braces (entries.pairs.map fun (key, value) =>
          preciseWithin w room (a :: path) key ++ ": " ++ preciseWithin w room (a :: path) value)
      if w.isDict v then shown else w.nameOfClassOf v ++ "(" ++ shown ++ ")"
    | _, _ => w.preciseSimple v

/-- A value in precise form. -/
def preciseText (w : World) (v : Value) : String := w.preciseWithin (w.heap.size + 1) [] v

/-- A value in plain form. -/
def plainText (w : World) (v : Value) : String :=
  match w.heap.plain v, w.heap.content? v with
  | .text s, _ => s
  | .fraction q, _ => Display.fraction q
  | .decimal d, _ => d.text
  | _, some (.member name _) => w.nameOfClassOf v ++ "." ++ name
  | _, _ => w.preciseText v

end World

end Rulebook
