import TopicFeed.Text.Ascii

/-!
# Header names and values

Names are compared without letter case and kept in lower case. A value may hold any character but
controls; it can be read back as text only if it is visible ASCII.
-/

namespace TopicFeed.Request.Header

/-- A character of a header name. -/
def isNameChar (c : Char) : Bool :=
  Ascii.isAlphanumeric c || "!#$%&'*+-.^_`|~".toList.contains c

/-- The longest header name. -/
abbrev maxNameLength : Nat := 0xFFFF

/-- A header name in its kept form, if the text is one. -/
def name? (s : String) : Option String :=
  if s.toList.all isNameChar && 1 ≤ s.length && s.length ≤ maxNameLength then
    some (String.ofList (s.toList.map Ascii.lower))
  else none

/-- The same name, but for the letter case. -/
def isSame (name other : String) : Bool :=
  name.toList.map Ascii.lower == other.toList.map Ascii.lower

/-- A character of a header value. -/
def isValueChar (c : Char) : Bool := c == '\t' || (' ' ≤ c && c != '\x7F')

/-- The text is a header value. -/
def isValue (s : String) : Bool := s.toList.all isValueChar

/-- The value can be read back as text. -/
def isVisible (s : String) : Bool :=
  s.toList.all fun c => c == '\t' || (' ' ≤ c && c < '\x7F')

/-- The name of the header that carries credentials. -/
abbrev authorization : String := "authorization"

end TopicFeed.Request.Header
