import Rulebook.Pattern.Cursor

/-!
# Reading patterns

`Pattern.parse` reads the text of a pattern into its tree or says what is wrong with it. A pattern
is a choice of sequences; a sequence is made of pieces, each of which may be repeated. Look-behinds
must have one width, which is computed once the whole pattern has been read.
-/

set_option autoImplicit false

namespace Rulebook.Pattern

open Reading

/-- The value of digits in a base. -/
def valueOf (base : Nat) (digits : List Char) : Nat :=
  digits.foldl (fun n c =>
    let d := c.toLower
    base * n + (if d.isDigit then d.toNat - 48 else d.toNat - 87)) 0

/-- A hexadecimal digit. -/
def isHex (c : Char) : Bool := c.isDigit || ('a' ≤ c && c ≤ 'f') || ('A' ≤ c && c ≤ 'F')

/-- An octal digit. -/
def isOctal (c : Char) : Bool := '0' ≤ c && c ≤ '7'

/-- Stops at an escape that means nothing. -/
def badEscape {α : Type} (text : List Char) : Reading α :=
  fail (.badEscape (String.ofList text)) text.length

/-- Reads the digits of `\x`, `\u` or `\U`. -/
def codeEscape (text : List Char) (digits : Nat) : Reading Nat := do
  let hex ← takeWhile isHex digits
  if hex.length ≠ digits then
    let whole := text ++ hex
    fail (.incompleteEscape (String.ofList whole)) whole.length
  else
    let n := valueOf 16 hex
    if n < 0x110000 then return n else badEscape (text ++ hex)

/-- Reads the name of a character after `\N`. No names are known. -/
def namedEscape : Reading Nat := do
  if !(← takeIf '\x7b') then fail .missingBrace 0
  else
    let name ← nameUntil '\x7d' "character name"
    fail (.undefinedCharacter name) (name.length + 4)

/-- Escapes of single characters that have letters of their own. -/
def controlEscape (c : Char) : Option Nat :=
  match c with
  | 'a' => some 7
  | 'b' => some 8
  | 'f' => some 12
  | 'n' => some 10
  | 'r' => some 13
  | 't' => some 9
  | 'v' => some 11
  | '\\' => some 92
  | _ => none

/-- Escapes of character classes. -/
def classEscape (c : Char) : Option Item :=
  match c with
  | 'd' => some (.member .digit false)
  | 'D' => some (.member .digit true)
  | 's' => some (.member .blank false)
  | 'S' => some (.member .blank true)
  | 'w' => some (.member .word false)
  | 'W' => some (.member .word true)
  | _ => none

/-- An ASCII letter. -/
def isLetter (c : Char) : Bool := c.isAlpha

/-- Reads an escape inside a set. -/
def setEscape (t : Token) : Reading Item := do
  let point (n : Nat) : Item := .between n n
  match controlEscape t.char, classEscape t.char with
  | some n, _ => return point n
  | none, some item => return item
  | none, none =>
    let c := t.char
    if c = 'x' then return point (← codeEscape t.text 2)
    else if c = 'u' then return point (← codeEscape t.text 4)
    else if c = 'U' then return point (← codeEscape t.text 8)
    else if c = 'N' then return point (← namedEscape)
    else if isOctal c then
      let more ← takeWhile isOctal 2
      let n := valueOf 8 (c :: more)
      if 0o377 < n then
        let whole := t.text ++ more
        fail (.octalTooLarge (String.ofList whole)) whole.length
      else return point n
    else if c.isDigit || isLetter c then badEscape t.text
    else return point c.toNat

/-- An element of a set as read: the element, and the token that began it. -/
abbrev SetPart := Item × Token

/-- The only code point of an element. -/
def Item.point? : Item → Option Nat
  | .between low high => if low = high then some low else none
  | .member .. => none

/-- Reads one element at a token already taken. -/
def setPart (t : Token) : Reading Item :=
  if t.escaped then setEscape t else pure (.between t.char.toNat t.char.toNat)

/-- Reads the elements of a set up to its closing bracket. -/
def setItems (start : Nat) (items : List Item) : Nat → Reading (List Item)
  | 0 => return items
  | room + 1 => do
    let unterminated {α : Type} : Reading α :=
      throw (.malformed .unterminatedSet (some start))
    match ← take with
    | none => unterminated
    | some t =>
      if t.is ']' && !items.isEmpty then return items
      else
        let low ← setPart t
        if !(← takeIf '-') then setItems start (items ++ [low]) room
        else match ← take with
          | none => unterminated
          | some u =>
            if u.is ']' then return items ++ [low, .between 45 45]
            else
              let high ← setPart u
              let bad {α : Type} : Reading α :=
                fail (.badRange (String.ofList t.text) (String.ofList u.text))
                  (t.text.length + 1 + u.text.length)
              match low.point?, high.point? with
              | some a, some b =>
                if b < a then bad else setItems start (items ++ [.between a b]) room
              | _, _ => bad

/-- What may follow a piece: places cannot be repeated, repetitions not twice. -/
inductive PieceKind where
  | place
  | repetition
  | other
deriving DecidableEq

/-- A piece of a sequence. -/
structure Piece where
  node : Node
  kind : PieceKind

/-- The sequence of pieces. -/
def sequence (pieces : List Piece) : Node :=
  match pieces with
  | [] => .empty
  | [p] => p.node
  | p :: rest => .seq p.node (sequence rest)

/-- A single code point. -/
def literal (flags : Flags) (n : Nat) : Piece :=
  ⟨.char (flags.charSet false [.between n n]), .other⟩

/-- Reads an escape outside of sets. -/
def escape (flags : Flags) (t : Token) : Reading Piece := do
  let c := t.char
  let anchor (a : Anchor) : Reading Piece := return ⟨.anchor a, .place⟩
  if c = 'A' then anchor (.start false)
  else if c = 'Z' then anchor .veryEnd
  else if c = 'b' then anchor (.boundary false flags.ascii)
  else if c = 'B' then anchor (.boundary true flags.ascii)
  else match classEscape c, controlEscape c with
  | some item, _ => return ⟨.char (flags.charSet false [item]), .other⟩
  | none, some n => return literal flags n
  | none, none =>
    if c = 'x' then return literal flags (← codeEscape t.text 2)
    else if c = 'u' then return literal flags (← codeEscape t.text 4)
    else if c = 'U' then return literal flags (← codeEscape t.text 8)
    else if c = 'N' then return literal flags (← namedEscape)
    else if c = '0' then return literal flags (valueOf 8 (← takeWhile isOctal 2))
    else if c.isDigit then numbered c
    else if isLetter c then badEscape t.text
    else return literal flags c.toNat
where
  /-- An octal escape of three digits, or a reference to a group. -/
  numbered (c : Char) : Reading Piece := do
    let second ← takeWhile Char.isDigit 1
    let third ← match second with
      | [d] => if isOctal c && isOctal d then takeWhile isOctal 1 else pure []
      | _ => pure []
    let digits := c :: second ++ third
    let length := digits.length + 1
    if third ≠ [] then
      let n := valueOf 8 digits
      if 0o377 < n then fail (.octalTooLarge (String.ofList ('\\' :: digits))) length
      else return literal flags n
    else
      let index := valueOf 10 digits
      if index < (← get).groups then
        if !(← isClosed index) then fail .openGroup length
        else
          checkBehind index
          return ⟨.again index flags.folding, .other⟩
      else fail (.invalidReference index) (length - 1)

/-- The largest number of rounds that can be asked for, plus one. -/
def repetitionLimit : Nat := 4294967295

/-- Reads the bounds of a repetition in braces after the opening one; none when the brace stands
for itself. -/
def bounds : Reading (Option (Nat × Option Nat)) := do
  let here ← position
  let before ← get
  match before.ahead with
  | t :: _ => if t.is '\x7d' then return none
  | [] => pure ()
  let room := before.ahead.length + 1
  let low ← takeWhile Char.isDigit room
  let comma ← takeIf ','
  let high ← if comma then takeWhile Char.isDigit room else pure low
  if !(← takeIf '\x7d') then
    set before
    return none
  else
    let least := valueOf 10 low
    let most := if high.isEmpty then none else some (valueOf 10 high)
    if repetitionLimit ≤ least then throw .repetitionTooLarge
    match most with
    | some m =>
      if repetitionLimit ≤ m then throw .repetitionTooLarge
      if m < least then throw (.malformed .leastAboveMost (some here))
      return some (least, most)
    | none => return some (least, none)

/-- Reads the mark that makes a repetition lazy or possessive. -/
def greedMark : Reading Greed := do
  match ← peek with
  | some t =>
    if t.is '?' then
      discard take
      return .lazy
    else if t.is '+' then
      discard take
      return .possessive
    else return .greedy
  | none => return .greedy

/-- Repeats the last piece. -/
def repeatLast (start : Nat) (pieces : List Piece) (least : Nat) (most : Option Nat) :
    Reading (List Piece) := do
  match pieces.getLast? with
  | none => throw (.malformed .nothingToRepeat (some start))
  | some p =>
    match p.kind with
    | .place => throw (.malformed .nothingToRepeat (some start))
    | .repetition => throw (.malformed .multipleRepeat (some start))
    | .other =>
      let greed ← greedMark
      return pieces.dropLast ++ [⟨.loop greed least most p.node, .repetition⟩]

/-- One flag letter: the flag, whether it chooses between `a` and `u`, and whether it may only be
set for the whole pattern. -/
def flag? (c : Char) : Option (Flags × Bool × Bool) :=
  match c with
  | 'i' => some ({ Flags.none with ignoreCase := true }, false, false)
  | 'm' => some ({ Flags.none with lines := true }, false, false)
  | 's' => some ({ Flags.none with dotAll := true }, false, false)
  | 'x' => some ({ Flags.none with verbose := true }, false, false)
  | 'a' => some ({ Flags.none with ascii := true }, true, false)
  | 'u' => some ({ Flags.none with unicode := true }, true, false)
  | 'L' => some (Flags.none, true, false)
  | 't' => some (Flags.none, false, true)
  | _ => none

/-- Flags read in parentheses. -/
inductive FlagGroup where
  /-- For the whole pattern. -/
  | whole (flags : Flags)
  /-- For one group. -/
  | scoped (on off : Flags)

/-- A letter in any script. -/
def isAlphabetic (t : Token) : Bool :=
  !t.escaped && CharClass.word.mem t.char && !CharClass.digit.mem t.char && t.char ≠ '_'

/-- Reads flags to switch off, after the minus. -/
def flagsOff (on : Flags) (onGlobal : Bool) (off : Flags) (offGlobal : Bool) (t : Token) :
    Nat → Reading FlagGroup
  | 0 => fail .missingColon 0
  | room + 1 => do
    match if t.escaped then none else flag? t.char with
    | none => fail (if isAlphabetic t then .unknownFlag else .missingColon) t.text.length
    | some (f, typed, global) =>
      if typed then fail .typeFlagOff 0
      else
        let off := off.union f
        let offGlobal := offGlobal || global
        match ← take with
        | none => fail .missingColon 0
        | some u =>
          if u.is ':' then
            if offGlobal then fail .globalFlagOff 1
            else if (on.ignoreCase && off.ignoreCase) || (on.lines && off.lines)
                || (on.dotAll && off.dotAll) || (on.verbose && off.verbose) then
              fail .flagOnAndOff 1
            else return .scoped on off
          else flagsOff on onGlobal off offGlobal u room

/-- Reads what follows the minus among flags. -/
def flagsMinus (on : Flags) (global : Bool) (room : Nat) : Reading FlagGroup := do
  if global then fail .globalFlagOn 1
  else match ← take with
    | none => fail .missingFlag 0
    | some t =>
      match if t.escaped then none else flag? t.char with
      | none => fail (if isAlphabetic t then .unknownFlag else .missingFlag) t.text.length
      | some _ => flagsOff on global Flags.none false t room

/-- Reads flags to switch on, beginning with a token already taken. -/
def flagsOn (on : Flags) (global : Bool) (t : Token) : Nat → Reading FlagGroup
  | 0 => fail .missingFlagEnd 0
  | room + 1 => do
    match if t.escaped then none else flag? t.char with
    | none => fail (if isAlphabetic t then .unknownFlag else .missingFlagEnd) t.text.length
    | some (f, typed, isGlobal) =>
      if t.char = 'L' then fail .localeFlag 0
      else
        let on := on.union f
        let global := global || isGlobal
        if typed && on.ascii && on.unicode then fail .clashingFlags 0
        else match ← take with
          | none => fail .missingFlagEnd 0
          | some u =>
            if u.is ')' then return .whole on
            else if u.is ':' then
              if global then fail .globalFlagOn 1 else return .scoped on Flags.none
            else if u.is '-' then flagsMinus on global (room + 1)
            else flagsOn on global u room

/-- The number that a group is asked about by; none when the text is no number. -/
def groupNumber? (s : String) : Option Nat :=
  let trimmed := ((s.toList.dropWhile CharClass.blank.mem).reverse.dropWhile
    CharClass.blank.mem).reverse
  let digits := match trimmed with
    | '+' :: rest => rest
    | cs => cs
  let plain := digits.filter (· ≠ '_')
  if plain.isEmpty || !plain.all Char.isDigit || digits.head? = some '_'
      || digits.getLast? = some '_' then none
  else some (valueOf 10 plain)

/-- Reads the group that a condition asks about. -/
def condGroup : Reading Nat := do
  let name ← nameUntil ')' "group name"
  let index ←
    if Identifier.holds name.toList then
      match (← get).names.lookup name with
      | some index => pure index
      | none => fail (.unknownGroupName name) (name.length + 1)
    else match groupNumber? name with
      | none => fail (.badGroupName name) (name.length + 1)
      | some 0 => fail .zeroReference (name.length + 1)
      | some index =>
        if 1073741823 ≤ index then fail (.invalidReference index) (name.length + 1)
        else
          let place := (← position) - name.length - 1
          modify fun c => if (c.asked.lookup index).isSome then c
            else { c with asked := c.asked ++ [(index, place)] }
          pure index
  checkBehind index
  return index

/-- Skips a comment up to its closing parenthesis. -/
def skipComment (start : Nat) : Nat → Reading Unit
  | 0 => return
  | room + 1 => do
    match ← take with
    | none => throw (.malformed .unterminatedComment (some start))
    | some t => if t.is ')' then return else skipComment start room

/-- Skips to the end of the line. -/
def skipLine : Nat → Reading Unit
  | 0 => return
  | room + 1 => do
    match ← take with
    | none => return
    | some t => if t.is '\n' then return else skipLine room

/-- A blank that verbose patterns ignore. -/
def isLayout (t : Token) : Bool :=
  !t.escaped && (t.char = ' ' || ('\t' ≤ t.char && t.char ≤ '\r'))

/-- The closing parenthesis of the group that began at `start`. -/
def closeParen (start : Nat) : Reading Unit := do
  if ← takeIf ')' then return
  else throw (.malformed .unterminatedGroup (some start))

mutual

/-- Reads a choice of sequences. At the top, flags for the whole pattern change those in force. -/
def choice (top : Bool) (flags : Flags) : Nat → Reading Node
  | 0 => return .empty
  | room + 1 => do
    let first ← pieces top top flags [] room
    choices top flags (sequence first) room

/-- Reads further alternatives. -/
def choices (top : Bool) (flags : Flags) (first : Node) : Nat → Reading Node
  | 0 => return first
  | room + 1 => do
    if ← takeIf '|' then
      let c ← get
      let flags := if top then c.flags else flags
      let next ← pieces top false flags [] room
      return .alt first (← choices top flags (sequence next) room)
    else return first

/-- Reads the pieces of a sequence. -/
def pieces (top first : Bool) (flags : Flags) (done : List Piece) : Nat → Reading (List Piece)
  | 0 => return done
  | room + 1 => do
    match ← peek with
    | none => return done
    | some t =>
      if t.is '|' || t.is ')' then return done
      else
        discard take
        if flags.verbose && isLayout t then pieces top first flags done room
        else if flags.verbose && t.is '#' then
          skipLine ((← get).ahead.length + 1)
          pieces top first flags done room
        else if t.escaped then
          pieces top first flags (done ++ [← escape flags t]) room
        else
          let add (p : Piece) : Reading (List Piece) := pieces top first flags (done ++ [p]) room
          let again (least : Nat) (most : Option Nat) : Reading (List Piece) := do
            pieces top first flags (← repeatLast t.position done least most) room
          match t.char with
          | '[' =>
            let negated ← takeIf '^'
            let c ← get
            let items ← setItems t.position [] (c.ahead.length + 1)
            add ⟨.char (flags.charSet negated items), .other⟩
          | '?' => again 0 (some 1)
          | '*' => again 0 none
          | '+' => again 1 none
          | '\x7b' =>
            match ← bounds with
            | none => add (literal flags t.char.toNat)
            | some (least, most) => again least most
          | '.' =>
            let breaks : List Item := if flags.dotAll then [] else [.between 10 10]
            add ⟨.char ⟨true, breaks, .exact, false⟩, .other⟩
          | '^' => add ⟨.anchor (.start flags.lines), .place⟩
          | '$' => add ⟨.anchor (.finish flags.lines), .place⟩
          | '(' =>
            match ← parenthesis t.position flags room with
            | .inl piece => add piece
            | .inr none => pieces top first flags done room
            | .inr (some on) =>
              if !first || !done.isEmpty then
                throw (.malformed .lateFlags (some t.position))
              else
                modify fun c => { c with flags := c.flags.union on }
                let whole ← get
                pieces top first whole.flags done room
          | _ => add (literal flags t.char.toNat)

/-- Reads what follows an opening parenthesis: a piece, nothing, or flags for the whole pattern. -/
def parenthesis (start : Nat) (flags : Flags) :
    Nat → Reading (Piece ⊕ Option Flags)
  | 0 => return .inr none
  | room + 1 => do
    if !(← takeIf '?') then return .inl (← capture start none flags room)
    else match ← take with
      | none => fail .unexpectedEnd 0
      | some t =>
        if t.is 'P' then
          if ← takeIf '<' then
            let name ← nameUntil '>' "group name"
            checkName name
            return .inl (← capture start (some name) flags room)
          else if ← takeIf '=' then
            let name ← nameUntil ')' "group name"
            checkName name
            match (← get).names.lookup name with
            | none => fail (.unknownGroupName name) (name.length + 1)
            | some index =>
              if !(← isClosed index) then fail .openGroup (name.length + 1)
              else
                checkBehind index
                return .inl ⟨.again index flags.folding, .other⟩
          else match ← take with
            | none => fail .unexpectedEnd 0
            | some u => fail (.unknownExtension (String.ofList ('P' :: u.text))) (u.text.length + 2)
        else if t.is ':' then
          let body ← choice false flags room
          closeParen start
          return .inl ⟨body, .other⟩
        else if t.is '#' then
          skipComment start ((← get).ahead.length + 1)
          return .inr none
        else if t.is '=' || t.is '!' then
          let body ← choice false flags room
          closeParen start
          return .inl ⟨.ahead (t.is '!') body, .other⟩
        else if t.is '<' then
          match ← take with
          | none => fail .unexpectedEnd 0
          | some u =>
            if u.is '=' || u.is '!' then
              let outer := (← get).behind
              if outer.isNone then modify fun c => { c with behind := some c.groups }
              let body ← choice false flags room
              if outer.isNone then modify fun c => { c with behind := none }
              closeParen start
              return .inl ⟨.behind (u.is '!') 0 body, .other⟩
            else fail (.unknownExtension (String.ofList ('<' :: u.text))) (u.text.length + 2)
        else if t.is '(' then
          let index ← condGroup
          let yes := sequence (← pieces false false flags [] room)
          let no ←
            if ← takeIf '|' then
              let no := sequence (← pieces false false flags [] room)
              match ← peek with
              | some u => if u.is '|' then fail .threeBranches 0 else pure no
              | none => pure no
            else pure .empty
          closeParen start
          return .inl ⟨.cond index yes no, .other⟩
        else if t.is '>' then
          let body ← choice false flags room
          closeParen start
          return .inl ⟨.atomic body, .other⟩
        else if t.is '-' || (!t.escaped && (flag? t.char).isSome) then
          let length := (← get).ahead.length + 2
          let read ←
            if t.is '-' then flagsMinus Flags.none false length
            else flagsOn Flags.none false t length
          match read with
          | .whole on => return .inr (some on)
          | .scoped on off =>
            let body ← choice false (flags.switch on off) room
            closeParen start
            return .inl ⟨body, .other⟩
        else fail (.unknownExtension (String.ofList t.text)) (t.text.length + 1)

/-- Reads the rest of a group that captures. -/
def capture (start : Nat) (name : Option String) (flags : Flags) : Nat → Reading Piece
  | 0 => return ⟨.empty, .other⟩
  | room + 1 => do
    let index ← beginGroup name
    let body ← choice false flags room
    closeParen start
    endGroup index
    return ⟨.group index body, .other⟩

end

/-- The least and the greatest number of characters; none stands for no limit. -/
abbrev Width := Nat × Option Nat

/-- The widths of groups, by index. -/
abbrev Widths := List (Nat × Width)

/-- The width of a sequence. -/
def Width.add (a b : Width) : Width :=
  (a.1 + b.1, match a.2, b.2 with
    | some m, some n => some (m + n)
    | _, _ => none)

/-- The width of a choice. -/
def Width.choose (a b : Width) : Width :=
  (min a.1 b.1, match a.2, b.2 with
    | some m, some n => some (max m n)
    | _, _ => none)

/-- The width of a repetition. -/
def Width.times (a : Width) (least : Nat) (most : Option Nat) : Width :=
  (a.1 * least, match a.2, most with
    | some 0, none => some 0
    | some m, some n => some (m * n)
    | none, some 0 => some 0
    | _, _ => none)

/-- Computes widths, groups first to last, and gives every look-behind its own. -/
def Node.measure : Node → Widths → Except Cause (Node × Width × Widths)
  | .empty, ws => .ok (.empty, (0, some 0), ws)
  | .char s, ws => .ok (.char s, (1, some 1), ws)
  | .anchor a, ws => .ok (.anchor a, (0, some 0), ws)
  | .seq a b, ws => do
    let (a, wa, ws) ← Node.measure a ws
    let (b, wb, ws) ← Node.measure b ws
    return (.seq a b, wa.add wb, ws)
  | .alt a b, ws => do
    let (a, wa, ws) ← Node.measure a ws
    let (b, wb, ws) ← Node.measure b ws
    return (.alt a b, wa.choose wb, ws)
  | .group index body, ws => do
    let (body, w, ws) ← Node.measure body ws
    return (.group index body, w, (index, w) :: ws)
  | .again index folding, ws =>
    .ok (.again index folding, (ws.lookup index).getD (0, some 0), ws)
  | .loop greed least most body, ws => do
    let (body, w, ws) ← Node.measure body ws
    return (.loop greed least most body, w.times least most, ws)
  | .ahead negated body, ws => do
    let (body, _, ws) ← Node.measure body ws
    return (.ahead negated body, (0, some 0), ws)
  | .behind negated _ body, ws => do
    let (body, w, ws) ← Node.measure body ws
    if w.2 = some w.1 then
      if w.1 < 4294967296 then return (.behind negated w.1 body, (0, some 0), ws)
      else throw .wideLookBehind
    else throw .variableLookBehind
  | .atomic body, ws => do
    let (body, w, ws) ← Node.measure body ws
    return (.atomic body, w, ws)
  | .cond index yes no, ws => do
    let (yes, wy, ws) ← Node.measure yes ws
    let (no, wn, ws) ← Node.measure no ws
    return (.cond index yes no, wy.choose wn, ws)

/-- Reads the whole pattern: its tree, and the flags that hold throughout. -/
def readWhole : Reading (Node × Flags) := do
  checkNext
  let node ← choice true Flags.none (6 * (← get).ahead.length + 8)
  let c ← get
  if c.flags.ascii && c.flags.unicode then throw .incompatibleFlags
  if !c.ahead.isEmpty then fail .unbalanced 0
  match c.asked.find? fun (index, _) => c.groups ≤ index with
  | some (index, place) => throw (.malformed (.invalidReference index) (some place))
  | none =>
    match node.measure [] with
    | .ok (node, _, _) => return (node, c.flags)
    | .error cause => throw (.malformed cause none)

/-- Reads a pattern: its tree, and the flags that hold throughout. -/
def parse (pattern : String) : Except Error (Node × Flags) :=
  let cs := pattern.toList
  let (tokens, dangling) := Token.split 0 cs
  let start : Cursor := ⟨tokens, cs.length, dangling, 1, [], [], none, [], Flags.none⟩
  (readWhole.run start).map (·.1)

end Rulebook.Pattern
