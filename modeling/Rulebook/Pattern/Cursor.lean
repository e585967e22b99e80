import Rulebook.Pattern.Basic
import Rulebook.Pattern.Error
import Rulebook.Text.Identifier

/-!
# Reading a pattern token by token

A token is a character or a backslash with the character after it. The cursor holds the tokens
ahead and what reading has found out so far: groups, names and flags. A backslash at the very end is
noticed as soon as it is the next token.
-/

set_option autoImplicit false

namespace Rulebook.Pattern

/-- A character of the pattern, or a backslash with the character after it. -/
structure Token where
  position : Nat
  escaped : Bool
  char : Char
deriving DecidableEq

namespace Token

/-- The token as written. -/
def text (t : Token) : List Char := if t.escaped then ['\\', t.char] else [t.char]

/-- The token is this character without a backslash. -/
def is (t : Token) (c : Char) : Bool := !t.escaped && t.char = c

/-- The tokens of a pattern from a position on, and where a lone backslash ends it. -/
def split (position : Nat) : List Char → List Token × Option Nat
  | [] => ([], none)
  | ['\\'] => ([], some position)
  | '\\' :: c :: rest =>
    let (tokens, dangling) := split (position + 2) rest
    (⟨position, true, c⟩ :: tokens, dangling)
  | c :: rest =>
    let (tokens, dangling) := split (position + 1) rest
    (⟨position, false, c⟩ :: tokens, dangling)

end Token

/-- What flags in force mean for the parts of a pattern. -/
structure Flags where
  ignoreCase : Bool
  lines : Bool
  dotAll : Bool
  verbose : Bool
  ascii : Bool
  unicode : Bool
deriving DecidableEq

namespace Flags

/-- No flag is set. -/
def none : Flags := ⟨false, false, false, false, false, false⟩

/-- Flags set in either. -/
def union (a b : Flags) : Flags :=
  ⟨a.ignoreCase || b.ignoreCase, a.lines || b.lines, a.dotAll || b.dotAll, a.verbose || b.verbose,
    a.ascii || b.ascii, a.unicode || b.unicode⟩

/-- Flags after some are switched on and some off. Of `a` and `u` the new one replaces the old. -/
def switch (flags on off : Flags) : Flags :=
  let typed := on.ascii || on.unicode
  let both := union { flags with
    ascii := flags.ascii && !typed
    unicode := flags.unicode && !typed } on
  { both with
    ignoreCase := both.ignoreCase && !off.ignoreCase
    lines := both.lines && !off.lines
    dotAll := both.dotAll && !off.dotAll
    verbose := both.verbose && !off.verbose }

/-- How characters are compared. -/
def folding (flags : Flags) : Folding :=
  if flags.ignoreCase then if flags.ascii then .ascii else .full else .exact

/-- The set with these elements. -/
def charSet (flags : Flags) (negated : Bool) (items : List Item) : CharSet :=
  ⟨negated, items.flatMap flags.folding.close, flags.folding, flags.ascii⟩

end Flags

/-- Where reading stands. -/
structure Cursor where
  ahead : List Token
  /-- The length of the pattern. -/
  size : Nat
  /-- The place of a lone backslash at the end. -/
  dangling : Option Nat
  /-- The index of the next group. -/
  groups : Nat
  /-- The groups that are complete. -/
  closed : List Nat
  names : List (String × Nat)
  /-- The first group index inside the look-behind being read. -/
  behind : Option Nat
  /-- Groups asked about by number, with the place of the question. -/
  asked : List (Nat × Nat)
  /-- Flags of the whole pattern. -/
  flags : Flags

/-- A step of reading. -/
abbrev Reading := StateT Cursor (Except Error)

namespace Reading

/-- The place of the next token. -/
def position : Reading Nat := do
  let c ← get
  return match c.ahead with
    | [] => c.size
    | t :: _ => t.position

/-- Stops because of a cause so many characters before the next token. -/
def fail {α : Type} (cause : Cause) (before : Nat) : Reading α := do
  throw (.malformed cause (some ((← position) - before)))

/-- The next token, without taking it. -/
def peek : Reading (Option Token) := return (← get).ahead.head?

/-- A lone backslash must not be next. -/
def checkNext : Reading Unit := do
  let c ← get
  match c.ahead, c.dangling with
  | [], some p => throw (.malformed .danglingEscape (some p))
  | _, _ => pure ()

/-- Takes the next token. -/
def take : Reading (Option Token) := do
  let c ← get
  match c.ahead with
  | [] => return none
  | t :: rest =>
    set { c with ahead := rest }
    checkNext
    return some t

/-- Takes the next token if it is this character. -/
def takeIf (ch : Char) : Reading Bool := do
  match ← peek with
  | some t => if t.is ch then do discard take; return true else return false
  | none => return false

/-- Takes at most `limit` characters that satisfy a test. -/
def takeWhile (test : Char → Bool) : Nat → Reading (List Char)
  | 0 => return []
  | limit + 1 => do
    match ← peek with
    | some t =>
      if !t.escaped && test t.char then do
        discard take
        return t.char :: (← takeWhile test limit)
      else return []
    | none => return []

/-- Takes the text up to a terminator, which must come and must not come at once. -/
def takeUntil (terminator : Char) (what : String) (soFar : List Char) :
    Nat → Reading (List Char)
  | 0 => return soFar
  | room + 1 => do
    match ← take with
    | none =>
      if soFar.isEmpty then fail (.missingName what) 0
      else fail (.unterminatedName terminator) soFar.length
    | some t =>
      if t.is terminator then
        if soFar.isEmpty then fail (.missingName what) 1 else return soFar
      else takeUntil terminator what (soFar ++ t.text) room

/-- The text up to a terminator. -/
def nameUntil (terminator : Char) (what : String) : Reading String := do
  return String.ofList (← takeUntil terminator what [] ((← get).ahead.length + 1))

/-- Stops unless the text is a name. -/
def checkName (name : String) : Reading Unit :=
  if Identifier.holds name.toList then pure () else fail (.badGroupName name) (name.length + 1)

/-- The group is complete. -/
def isClosed (index : Nat) : Reading Bool := return (← get).closed.contains index

/-- Inside a look-behind, stops unless the group was complete before it. -/
def checkBehind (index : Nat) : Reading Unit := do
  match (← get).behind with
  | none => pure ()
  | some first =>
    if !(← isClosed index) then fail .openGroup 0
    else if first ≤ index then fail .sameLookBehind 0
    else pure ()

/-- Begins a group, which takes the next index. -/
def beginGroup (name : Option String) : Reading Nat := do
  let c ← get
  match name with
  | none =>
    set { c with groups := c.groups + 1 }
    return c.groups
  | some n =>
    match c.names.lookup n with
    | some earlier => fail (.redefinedGroup n c.groups earlier) (n.length + 1)
    | none =>
      set { c with groups := c.groups + 1, names := (n, c.groups) :: c.names }
      return c.groups

/-- Completes a group. -/
def endGroup (index : Nat) : Reading Unit :=
  modify fun c => { c with closed := index :: c.closed }

end Reading

end Rulebook.Pattern
