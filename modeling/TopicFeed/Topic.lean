import TopicFeed.Error

/-!
# Topics

A topic is given by a short name, by host and path, or by a full URL. Resolving turns each of
them into the URL of the topic; only short names are checked, since the other two are for the
server to judge.
-/

namespace TopicFeed.Topic

/-- A character of a short topic name. -/
def isNameChar (c : Char) : Bool :=
  ('A' ≤ c && c ≤ 'Z') || ('a' ≤ c && c ≤ 'z') || ('0' ≤ c && c ≤ '9') || c == '-' || c == '_'

/-- The longest short name. -/
abbrev maxLength : Nat := 64

/-- The text is a short topic name: one to sixty-four letters, digits, `-` and `_`, all ASCII. -/
def isValid (topic : String) : Bool :=
  1 ≤ topic.length && topic.length ≤ maxLength && topic.toList.all isNameChar

/-- What follows the given beginning of a text, if the text begins so. -/
def after? (beginning text : String) : Option String :=
  (beginning.toList.isPrefixOf? text.toList).map String.ofList

/-- The text is a URL that is taken as it is. -/
def isUrl (topic : String) : Bool :=
  (after? "http://" topic).isSome || (after? "https://" topic).isSome

/-- The URL of a topic. A full URL stands for itself; a text with a slash is host and path, to be
reached securely; anything else must be a short name, and lies below the default host. -/
def resolve (topic defaultHost : String) : Except ClientError String :=
  if isUrl topic then .ok topic
  else if topic.toList.contains '/' then .ok ("https://" ++ topic)
  else if isValid topic then .ok (defaultHost ++ "/" ++ topic)
  else .error (.invalidTopic topic)

/-- A topic URL without its scheme, as it is shown in logs. -/
def short (url : String) : String :=
  match after? "https://" url with
  | some rest => rest
  | none => (after? "http://" url).getD url

end TopicFeed.Topic
