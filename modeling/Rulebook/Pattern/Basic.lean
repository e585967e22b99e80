import Rulebook.Text.CharClass
import Rulebook.Text.Case

/-!
# Patterns

The tree of a text pattern, after its flags have been worked into the parts they govern. Every part
that consumes one character is a `CharSet`; sequences and alternatives are binary.
-/

set_option autoImplicit false

namespace Rulebook.Pattern

/-- An element of a character set: a range of code points, or a class or its complement. -/
inductive Item where
  | between (low high : Nat)
  | member (c : CharClass) (negated : Bool)
deriving DecidableEq

/-- Which characters count as equal. -/
inductive Folding where
  | exact
  | ascii
  | full
deriving DecidableEq

namespace Folding

/-- The representative of a character. -/
def apply : Folding → Char → Char
  | .exact => id
  | .ascii => Case.lowerAscii
  | .full => Case.lower

/-- What a single code point adds to a set that is asked about representatives only. -/
def closePoint (f : Folding) (n : Nat) : List Item :=
  let c := Char.ofNat n
  let self : List Item := if c.toNat = n then [.between (f.apply c).toNat (f.apply c).toNat] else []
  match f with
  | .full => self ++ (Case.alike (f.apply c)).map fun d => .between d.toNat d.toNat
  | _ => self

/-- The characters that share a capital letter with one between the bounds. -/
def alikeBetween (low high : Nat) : List Item :=
  Case.siblings.toList.flatMap fun family =>
    if family.any fun n => low ≤ n && n ≤ high then family.map fun n => .between n n else []

/-- What a range of code points adds to a set that is asked about representatives only. -/
def closeRange (f : Folding) (low high : Nat) : List Item :=
  match f with
  | .exact => [.between low high]
  | .ascii =>
    let (a, z) := ('A'.toNat, 'Z'.toNat)
    if low ≤ z && a ≤ high then [.between low high, .between (max low a + 32) (min high z + 32)]
    else [.between low high]
  | .full =>
    let small := Case.lowerBetween (Char.ofNat low) (Char.ofNat high)
    .between low high :: small.map (fun c => .between c.toNat c.toNat)
      ++ alikeBetween low high
      ++ small.flatMap fun c => (Case.alike c).map fun d => .between d.toNat d.toNat

/-- Adds to an element of a set all that counts as equal to it. -/
def close (f : Folding) : Item → List Item
  | .between low high => if low = high then f.closePoint low else f.closeRange low high
  | item => [item]

end Folding

/-- A set of characters. Its items are closed under the folding, so that a character belongs to the
set when its representative does. -/
structure CharSet where
  negated : Bool
  items : List Item
  folding : Folding
  /-- Classes reach over the first 128 characters only. -/
  asciiClasses : Bool
deriving DecidableEq

namespace CharSet

/-- The element contains the character. -/
def itemMem (asciiClasses : Bool) (c : Char) : Item → Bool
  | .between low high => low ≤ c.toNat && c.toNat ≤ high
  | .member k negated => (if asciiClasses then k.memAscii c else k.mem c) != negated

/-- The set contains the character. -/
def mem (s : CharSet) (c : Char) : Bool :=
  s.items.any (itemMem s.asciiClasses (s.folding.apply c)) != s.negated

end CharSet

/-- A condition on a place in the text. -/
inductive Anchor where
  /-- The start of the text, or of a line. -/
  | start (lines : Bool)
  /-- The end of the text or before its last line break, or the end of a line. -/
  | finish (lines : Bool)
  /-- The very end of the text. -/
  | veryEnd
  /-- Between a word character and something else, or not so. -/
  | boundary (negated : Bool) (asciiWords : Bool)
deriving DecidableEq

/-- How a repetition chooses its number of rounds. -/
inductive Greed where
  | greedy
  | lazy
  | possessive
deriving DecidableEq

/-- A pattern. -/
inductive Node where
  | empty
  | char (s : CharSet)
  | anchor (a : Anchor)
  | seq (a b : Node)
  | alt (a b : Node)
  | group (index : Nat) (body : Node)
  | again (index : Nat) (folding : Folding)
  | loop (greed : Greed) (least : Nat) (most : Option Nat) (body : Node)
  | ahead (negated : Bool) (body : Node)
  | behind (negated : Bool) (width : Nat) (body : Node)
  | atomic (body : Node)
  | cond (index : Nat) (yes no : Node)
deriving DecidableEq, Inhabited

end Rulebook.Pattern
