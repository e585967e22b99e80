import Rulebook.Text.Quoted

/-!
# Malformed patterns

Why a pattern cannot be read, and at which character.
-/

set_option autoImplicit false

namespace Rulebook.Pattern

/-- What is wrong with a pattern. -/
inductive Cause where
  | unterminatedSet
  | nothingToRepeat
  | multipleRepeat
  | leastAboveMost
  | unterminatedGroup
  | unterminatedComment
  | unbalanced
  | badRange (low high : String)
  | danglingEscape
  | badEscape (escape : String)
  | incompleteEscape (escape : String)
  | octalTooLarge (escape : String)
  | missingBrace
  | undefinedCharacter (name : String)
  | missingName (what : String)
  | unterminatedName (terminator : Char)
  | badGroupName (name : String)
  | unknownGroupName (name : String)
  | redefinedGroup (name : String) (index earlier : Nat)
  | invalidReference (index : Nat)
  | zeroReference
  | openGroup
  | sameLookBehind
  | unknownExtension (text : String)
  | unexpectedEnd
  | lateFlags
  | unknownFlag
  | missingFlag
  | missingFlagEnd
  | missingColon
  | localeFlag
  | clashingFlags
  | typeFlagOff
  | globalFlagOn
  | globalFlagOff
  | flagOnAndOff
  | threeBranches
  | variableLookBehind
  | wideLookBehind
deriving DecidableEq

/-- The wording of a cause. -/
def Cause.text : Cause → String
  | .unterminatedSet => "unterminated character set"
  | .nothingToRepeat => "nothing to repeat"
  | .multipleRepeat => "multiple repeat"
  | .leastAboveMost => "min repeat greater than max repeat"
  | .unterminatedGroup => "missing ), unterminated subpattern"
  | .unterminatedComment => "missing ), unterminated comment"
  | .unbalanced => "unbalanced parenthesis"
  | .badRange low high => "bad character range " ++ low ++ "-" ++ high
  | .danglingEscape => "bad escape (end of pattern)"
  | .badEscape escape => "bad escape " ++ escape
  | .incompleteEscape escape => "incomplete escape " ++ escape
  | .octalTooLarge escape => "octal escape value " ++ escape ++ " outside of range 0-0o377"
  | .missingBrace => "missing \x7b"
  | .undefinedCharacter name => "undefined character name " ++ Quoted.text name
  | .missingName what => "missing " ++ what
  | .unterminatedName terminator => "missing " ++ toString terminator ++ ", unterminated name"
  | .badGroupName name => "bad character in group name " ++ Quoted.text name
  | .unknownGroupName name => "unknown group name " ++ Quoted.text name
  | .redefinedGroup name index earlier =>
    "redefinition of group name " ++ Quoted.text name ++ " as group " ++ toString index
      ++ "; was group " ++ toString earlier
  | .invalidReference index => "invalid group reference " ++ toString index
  | .zeroReference => "bad group number"
  | .openGroup => "cannot refer to an open group"
  | .sameLookBehind => "cannot refer to group defined in the same lookbehind subpattern"
  | .unknownExtension text => "unknown extension ?" ++ text
  | .unexpectedEnd => "unexpected end of pattern"
  | .lateFlags => "global flags not at the start of the expression"
  | .unknownFlag => "unknown flag"
  | .missingFlag => "missing flag"
  | .missingFlagEnd => "missing -, : or )"
  | .missingColon => "missing :"
  | .localeFlag => "bad inline flags: cannot use 'L' flag with a str pattern"
  | .clashingFlags => "bad inline flags: flags 'a', 'u' and 'L' are incompatible"
  | .typeFlagOff => "bad inline flags: cannot turn off flags 'a', 'u' and 'L'"
  | .globalFlagOn => "bad inline flags: cannot turn on global flag"
  | .globalFlagOff => "bad inline flags: cannot turn off global flag"
  | .flagOnAndOff => "bad inline flags: flag turned on and off"
  | .threeBranches => "conditional backref with more than two branches"
  | .variableLookBehind => "look-behind requires fixed-width pattern"
  | .wideLookBehind => "looks too much behind"

/-- Why reading a pattern stops: it is malformed, possibly at a known place, or it asks for
something that no pattern can do. -/
inductive Error where
  | malformed (cause : Cause) (position : Option Nat)
  | repetitionTooLarge
  | incompatibleFlags
deriving DecidableEq

/-- The line of a place, and its column there, both counted from one. -/
def lineAndColumn (pattern : List Char) (position : Nat) : Nat × Nat :=
  let before := pattern.take position
  (before.count '\n' + 1, (before.reverse.takeWhile (· ≠ '\n')).length + 1)

/-- The wording of a cause at a place. A pattern of several lines also gets line and column. -/
def describe (pattern : String) (cause : Cause) (position : Option Nat) : String :=
  match position with
  | none => cause.text
  | some p =>
    let place := " at position " ++ toString p
    if pattern.toList.contains '\n' then
      let (line, column) := lineAndColumn pattern.toList p
      cause.text ++ place ++ " (line " ++ toString line ++ ", column " ++ toString column ++ ")"
    else cause.text ++ place

end Rulebook.Pattern
