import TopicFeed.Url.Percent

/-!
# Paths

The path of a URL as its list of segments. A segment of one dot means where it stands, one of two
dots means one segment back; each of them at the end of a path leaves an empty segment there.
-/

namespace TopicFeed.Url.Path

/-- The pieces of a text between its separators; one more than there are separators. -/
def split (isSeparator : Char → Bool) : List Char → List (List Char)
  | [] => [[]]
  | c :: r =>
    if isSeparator c then [] :: split isSeparator r
    else match split isSeparator r with
      | [] => [[c]]
      | piece :: pieces => (c :: piece) :: pieces

/-- The segment with each encoded dot as a dot. -/
def dots : List Char → List Char
  | '%' :: '2' :: 'e' :: r | '%' :: '2' :: 'E' :: r => '.' :: dots r
  | c :: r => c :: dots r
  | [] => []

/-- The segment means the place where it stands. -/
def isHere (segment : List Char) : Bool := dots segment == ['.']

/-- The segment means one segment back. -/
def isBack (segment : List Char) : Bool := dots segment == ['.', '.']

/-- Resolves the dots. The segments so far are kept in reverse; `keepsRoot` holds for a first
segment that going back does not leave. -/
def resolve (keepsRoot : List Char → Bool) (done : List (List Char)) :
    List (List Char) → List (List Char)
  | [] => done.reverse
  | segment :: rest =>
    let atEnd := if rest.isEmpty then [[]] else []
    if isBack segment then
      let shorter := match done with
        | [root] => if keepsRoot root then [root] else []
        | _ => done.drop 1
      resolve keepsRoot (atEnd ++ shorter) rest
    else if isHere segment then resolve keepsRoot (atEnd ++ done) rest
    else resolve keepsRoot (segment :: done) rest

end TopicFeed.Url.Path
