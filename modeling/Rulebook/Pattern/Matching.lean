import Rulebook.Pattern.Basic

/-!
# Matching

A pattern is tried at a place of the text by backtracking: `Node.run` takes what remains to be done
as a function and returns the first way through. Alternatives are tried in order, greedy
repetitions from the most rounds down, lazy ones from the least up. A round that consumes nothing
is not followed by another, which bounds every repetition by the length of the text.
-/

set_option autoImplicit false

namespace Rulebook.Pattern

/-- Where each group last matched, by index. -/
abbrev Captures := List (Nat × Nat × Nat)

/-- The end of a match, and its groups. -/
abbrev Found := Option (Nat × Captures)

/-- What remains to be matched after a part. -/
abbrev Rest := Nat → Captures → Found

/-- Nothing remains. -/
def accept : Rest := fun p c => some (p, c)

/-- The first way through, or else the second. -/
@[inline] def orElse (a : Found) (b : Unit → Found) : Found :=
  match a with
  | some r => some r
  | none => b ()

/-- The place of a group. -/
def Captures.find? (c : Captures) (index : Nat) : Option (Nat × Nat) := c.lookup index

/-- Records the place of a group. -/
def Captures.record (c : Captures) (index start finish : Nat) : Captures :=
  (index, start, finish) :: c.filter (·.1 ≠ index)

namespace Anchor

/-- A word character stands at the place. -/
def wordAt (s : Array Char) (asciiWords : Bool) (p : Nat) : Bool :=
  match s[p]? with
  | some c => if asciiWords then CharClass.word.memAscii c else CharClass.word.mem c
  | none => false

/-- The condition holds at the place. An empty text has neither boundaries nor their absence. -/
def holds (s : Array Char) (p : Nat) : Anchor → Bool
  | .start lines => p = 0 || (lines && s[p - 1]? = some '\n')
  | .finish lines =>
    p = s.size || (p + 1 = s.size && s[p]? = some '\n') || (lines && s[p]? = some '\n')
  | .veryEnd => p = s.size
  | .boundary negated asciiWords =>
    let before := p ≠ 0 && wordAt s asciiWords (p - 1)
    let after := wordAt s asciiWords p
    s.size ≠ 0 && ((before != after) != negated)

end Anchor

/-- How many characters from a place on belong to the set, up to a limit. -/
def countMembers (s : Array Char) (set : CharSet) (p limit count : Nat) : Nat :=
  match limit with
  | 0 => count
  | limit + 1 =>
    match s[p]? with
    | some c => if set.mem c then countMembers s set (p + 1) limit (count + 1) else count
    | none => count

/-- Tries what remains after `rounds` characters, then after one fewer, down to `least`. -/
def downTo (k : Rest) (c : Captures) (p least : Nat) : Nat → Found
  | 0 => if least = 0 then k p c else none
  | rounds + 1 =>
    if rounds + 1 < least then none
    else orElse (k (p + (rounds + 1)) c) fun _ => downTo k c p least rounds

/-- Tries what remains after `rounds` characters, then after one more, for `more` times. -/
def upTo (k : Rest) (c : Captures) (p rounds : Nat) : Nat → Found
  | 0 => k (p + rounds) c
  | more + 1 => orElse (k (p + rounds) c) fun _ => upTo k c p (rounds + 1) more

/-- Repeats a single character. -/
def repeatChar (s : Array Char) (set : CharSet) (greed : Greed) (least : Nat) (most : Option Nat)
    (k : Rest) (p : Nat) (c : Captures) : Found :=
  let limit := match most with
    | some m => min m (s.size - p)
    | none => s.size - p
  let available := countMembers s set p limit 0
  if available < least then none
  else match greed with
    | .greedy => downTo k c p least available
    | .lazy => upTo k c p least (available - least)
    | .possessive => k (p + available) c

/-- Another round is allowed after `count` of them: the limit is not reached, and the last optional
round consumed something. -/
def mayRepeat (most : Option Nat) (count : Nat) (last : Option Nat) (p : Nat) : Bool :=
  (match most with | some m => count < m | none => true) && last ≠ some p

/-- Repeats a part, as often as possible first. -/
def greedyLoop (body : Rest → Rest) (least : Nat) (most : Option Nat) (k : Rest) :
    Nat → Nat → Option Nat → Rest
  | 0, _, _ => fun _ _ => none
  | room + 1, count, last => fun p c =>
    if count < least then body (greedyLoop body least most k room (count + 1) last) p c
    else if mayRepeat most count last p then
      orElse (body (greedyLoop body least most k room (count + 1) (some p)) p c) fun _ => k p c
    else k p c

/-- Repeats a part, as seldom as possible first. -/
def lazyLoop (body : Rest → Rest) (least : Nat) (most : Option Nat) (k : Rest) :
    Nat → Nat → Option Nat → Rest
  | 0, _, _ => fun _ _ => none
  | room + 1, count, last => fun p c =>
    if count < least then body (lazyLoop body least most k room (count + 1) last) p c
    else orElse (k p c) fun _ =>
      if mayRepeat most count last p then
        body (lazyLoop body least most k room (count + 1) (some p)) p c
      else none

/-- Repeats a part as often as possible, each round taken as it first matches. -/
def possessiveLoop (body : Rest → Rest) (least : Nat) (most : Option Nat) (k : Rest) :
    Nat → Nat → Option Nat → Rest
  | 0, _, _ => fun _ _ => none
  | room + 1, count, last => fun p c =>
    if count < least then
      match body accept p c with
      | some (p, c) => possessiveLoop body least most k room (count + 1) last p c
      | none => none
    else if mayRepeat most count last p then
      match body accept p c with
      | some (q, d) => possessiveLoop body least most k room (count + 1) (some p) q d
      | none => k p c
    else k p c

/-- The text from a place on repeats the captured text. -/
def repeats (s : Array Char) (folding : Folding) (start finish p : Nat) : Bool :=
  p + (finish - start) ≤ s.size &&
    (List.range (finish - start)).all fun i =>
      (s[start + i]?.map folding.apply) = (s[p + i]?.map folding.apply)

/-- Matches a pattern at a place, then what remains. -/
def Node.run (s : Array Char) : Node → Rest → Rest
  | .empty, k => k
  | .char set, k => fun p c =>
    match s[p]? with
    | some ch => if set.mem ch then k (p + 1) c else none
    | none => none
  | .anchor a, k => fun p c => if a.holds s p then k p c else none
  | .seq a b, k => Node.run s a (Node.run s b k)
  | .alt a b, k => fun p c => orElse (Node.run s a k p c) fun _ => Node.run s b k p c
  | .group index body, k => fun p c =>
    Node.run s body (fun q d => k q (Captures.record d index p q)) p c
  | .again index folding, k => fun p c =>
    match Captures.find? c index with
    | some (start, finish) =>
      if repeats s folding start finish p then k (p + (finish - start)) c else none
    | none => none
  | .loop greed least most (.char set), k => repeatChar s set greed least most k
  | .loop greed least most body, k =>
    let room := least + s.size + 2
    match greed with
    | .greedy => greedyLoop (Node.run s body) least most k room 0 none
    | .lazy => lazyLoop (Node.run s body) least most k room 0 none
    | .possessive => possessiveLoop (Node.run s body) least most k room 0 none
  | .ahead negated body, k => fun p c =>
    match Node.run s body accept p c, negated with
    | some (_, d), false => k p d
    | none, true => k p c
    | _, _ => none
  | .behind negated width body, k => fun p c =>
    let found := if width ≤ p then Node.run s body accept (p - width) c else none
    match found, negated with
    | some (_, d), false => k p d
    | none, true => k p c
    | _, _ => none
  | .atomic body, k => fun p c =>
    match Node.run s body accept p c with
    | some (q, d) => k q d
    | none => none
  | .cond index yes no, k => fun p c =>
    if (Captures.find? c index).isSome then Node.run s yes k p c else Node.run s no k p c

/-- Tries the pattern at a place and at those after it. -/
def searchFrom (s : Array Char) (node : Node) (p : Nat) : Nat → Bool
  | 0 => (node.run s accept p []).isSome
  | more + 1 => (node.run s accept p []).isSome || searchFrom s node (p + 1) more

/-- The pattern matches somewhere in the text. -/
def Node.search (node : Node) (text : String) : Bool :=
  let s := text.toList.toArray
  searchFrom s node 0 s.size

end Rulebook.Pattern
