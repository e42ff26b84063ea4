import SoapRelay.Text.Blank

/-!
# The organization behind a certificate

The subject of a certificate is rendered most specific part first, each value up to its first zero
character, and the organization is its common name: the text after the first `CN=` whose value ends
before a line break, up to the next comma, without blanks at its ends.
-/

namespace SoapRelay.Identity

/-- The text up to the first comma, unless a line break comes first. -/
def value? : List Char → Option (List Char)
  | [] => some []
  | c :: rest =>
    if c = ',' then some []
    else if c = '\n' then none
    else (c :: ·) <$> value? rest

/-- The value of the first `CN=` that has one. -/
def firstValue? : List Char → Option (List Char)
  | 'C' :: 'N' :: '=' :: rest => (value? rest).or (firstValue? ('N' :: '=' :: rest))
  | _ :: rest => firstValue? rest
  | [] => none

/-- The common name in a rendered subject; a blank one is none. -/
def commonName? (subject : String) : Option String :=
  match firstValue? subject.toList with
  | some value =>
    match Blank.trim value with
    | [] => none
    | name => some (String.ofList name)
  | none => none

/-- The text of an attribute value, which ends before a zero character. -/
def shown (value : String) : String :=
  String.ofList (value.toList.takeWhile (· ≠ '\x00'))

/-- Renders a name, given as its attributes in certificate order. -/
def subjectText (attributes : List (String × String)) : String :=
  ", ".intercalate (attributes.reverse.map fun a => a.1 ++ "=" ++ shown a.2)

end SoapRelay.Identity
