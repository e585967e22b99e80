/-!
# Mail addresses

A mail address is a local part and a domain with an at sign between them. The domain is a sequence
of labels with points between them, each of 1 to 63 letters, digits and hyphens that neither begins
nor ends with a hyphen. `Email.accepts` decides this in one pass.
-/

set_option autoImplicit false

namespace Rulebook.Email

/-- A letter or digit among the first 128 characters. -/
def isLetterOrDigit (c : Char) : Bool := c.isAlphanum

/-- A character of the local part. -/
def isLocal (c : Char) : Bool :=
  isLetterOrDigit c || ".!#$%&'*+/=?^_\x60\x7b|\x7d~-".toList.contains c

/-- Reads labels to the end, `taken` characters of the present one being read already, the last of
them a hyphen or not. -/
def labels (taken : Nat) (hyphen : Bool) : List Char → Bool
  | [] => 0 < taken && !hyphen
  | c :: rest =>
    if c = '.' then 0 < taken && !hyphen && labels 0 false rest
    else if c = '-' then 0 < taken && taken < 63 && labels (taken + 1) true rest
    else isLetterOrDigit c && taken < 63 && labels (taken + 1) false rest

/-- Reads the local part, of which some has been read already or not, and the domain. -/
def address (begun : Bool) : List Char → Bool
  | [] => false
  | c :: rest =>
    if c = '@' then begun && labels 0 false rest
    else isLocal c && address true rest

/-- The text is a mail address. -/
def accepts (s : String) : Bool := address false s.toList

end Rulebook.Email
