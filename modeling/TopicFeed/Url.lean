import TopicFeed.Url.Form
import TopicFeed.Url.Host
import TopicFeed.Url.Path

/-!
# URLs

A URL read from a text, and its written form. Reading is lenient in the way of browsers: blanks
around the text and line breaks in it do not count, and what a place does not allow is
percent-encoded. In the *special* schemes a backslash counts as a slash, any number of slashes may
lead to the host, and the host is never empty.
-/

namespace TopicFeed

namespace Url

/-- The path: a list of segments, or any text where there is no hierarchy. -/
inductive Hierarchy where
  | text (path : String)
  | segments (path : List String)
  deriving DecidableEq, Repr

/-- The schemes of the web, each with the number that stands for no number behind its hosts. -/
def specialSchemes : List (String × Option Nat) :=
  [("http", some 80), ("https", some 443), ("ws", some 80), ("wss", some 443), ("ftp", some 21),
    ("file", none)]

/-- The scheme is special. -/
def isSpecialScheme (scheme : String) : Bool := specialSchemes.any (·.1 == scheme)

/-- The number that need not be written behind a host. -/
def usualNumber? (scheme : String) : Option Nat :=
  ((specialSchemes.find? (·.1 == scheme)).bind (·.2))

end Url

/-- A URL. Its parts are in their written form: lower case where case does not count, and
percent-encoded where a character is not allowed. -/
structure Url where
  scheme : String
  username : String := ""
  password : String := ""
  host : Option Url.Host := none
  /-- The number behind the host, unless it is the usual one. -/
  portNumber : Option Nat := none
  path : Url.Hierarchy
  query : Option String := none
  fragment : Option String := none
  deriving DecidableEq, Repr

namespace Url

/-! ### Writing -/

/-- A host that is not empty. -/
def hasHost (u : Url) : Bool :=
  match u.host with
  | none | some (.domain "") => false
  | some _ => true

/-- The written form of the path. -/
def pathText (u : Url) : String :=
  match u.path with
  | .text path => path
  | .segments path =>
    -- Two slashes where no host stands would be taken for one.
    let apart := if u.host.isNone && 1 < path.length && path.head? == some "" then "/." else ""
    apart ++ String.join (path.map ("/" ++ ·))

/-- The written form of the user's name and password, with the sign that ends it. -/
def userText (u : Url) : String :=
  if u.username.isEmpty && u.password.isEmpty then ""
  else u.username ++ (if u.password.isEmpty then "" else ":" ++ u.password) ++ "@"

/-- The written form of the host and the number behind it. -/
def hostText (u : Url) : String :=
  (u.host.map Host.toText).getD "" ++ (u.portNumber.map fun n => ":" ++ toString n).getD ""

/-- The path and the query: what is asked of the host. -/
def target (u : Url) : String := u.pathText ++ (u.query.map ("?" ++ ·)).getD ""

/-- The written form of a URL. -/
def toText (u : Url) : String :=
  u.scheme ++ ":" ++ (if u.host.isSome then "//" ++ u.userText ++ u.hostText else "") ++ u.target ++
    (u.fragment.map ("#" ++ ·)).getD ""

/-! ### Reading -/

/-- A control or a space. -/
def isMargin (c : Char) : Bool := c ≤ ' '

/-- A character that does not count anywhere. -/
def isIgnored (c : Char) : Bool := c == '\t' || c == '\n' || c == '\r'

/-- The characters of a text that count. -/
def significant (s : String) : List Char :=
  (((s.toList.dropWhile isMargin).reverse.dropWhile isMargin).reverse).filter (!isIgnored ·)

/-- A character of a scheme behind its first one. -/
def isSchemeChar (c : Char) : Bool := Ascii.isAlphanumeric c || c == '+' || c == '-' || c == '.'

/-- The scheme in lower case, and what stands behind its colon. -/
def splitScheme? (cs : List Char) : Option (String × List Char) :=
  let scheme := cs.takeWhile isSchemeChar
  match scheme, cs.drop scheme.length with
  | c :: _, ':' :: rest =>
    if Ascii.isAlphanumeric c && !c.isDigit then
      some (String.ofList (scheme.map Ascii.lower), rest)
    else none
  | _, _ => none

/-- What stands before the first such character, and behind it if there is one. -/
def cut (mark : Char) (cs : List Char) : List Char × Option (List Char) :=
  match cs.dropWhile (· ≠ mark) with
  | [] => (cs, none)
  | _ :: behind => (cs.takeWhile (· ≠ mark), some behind)

/-- What stands before and behind the last `@`, if there is one. -/
def splitUser (cs : List Char) : Option (List Char × List Char) :=
  if cs.contains '@' then
    let host := (cs.reverse.takeWhile (· ≠ '@')).reverse
    some (cs.take (cs.length - host.length - 1), host)
  else none

/-- The host before the first colon that stands in no bracket, and what follows it. -/
def splitHost (inBrackets : Bool) : List Char → List Char × List Char
  | [] => ([], [])
  | c :: r =>
    if c = ':' && !inBrackets then ([], c :: r)
    else
      let inside := if c = '[' then true else if c = ']' then false else inBrackets
      let (host, rest) := splitHost inside r
      (c :: host, rest)

/-- The number behind the colon of a host: decimal digits, below 65536. No digits mean no
number. -/
def number? (cs : List Char) : Option (Option Nat) :=
  match cs with
  | [] => some none
  | _ :: digits =>
    if digits.isEmpty then some none
    else ((Host.number? 10 digits).filter (· < 0x10000)).map some

/-- Characters as text, those bytes encoded that are of the class. -/
def written (encoded : UInt8 → Bool) (cs : List Char) : String :=
  String.ofList (Percent.encodeChars encoded cs)

/-- The authority: user, host and the number behind it. -/
def authority? (scheme : String) (cs : List Char) :
    Option (String × String × Host × Option Nat) :=
  let (user, hostPart) := (splitUser cs).getD ([], cs)
  let (username, password) := cut ':' user
  let (host, rest) := splitHost false hostPart
  let host? := if isSpecialScheme scheme then Host.special? host else Host.general? host
  match host?, number? rest with
  | some host, some number =>
    let username := written Percent.userinfo username
    let password := written Percent.userinfo (password.getD [])
    if host = .domain "" && !(username.isEmpty && password.isEmpty && rest.isEmpty) then none
    else some (username, password, host, number.filter fun n => usualNumber? scheme != some n)
  | _, _ => none

/-- A letter and a colon, or a bar in the place of the colon. -/
def isDrive (segment : List Char) : Bool :=
  match segment with
  | [c, mark] => c.isAlpha && (mark == ':' || mark == '|')
  | _ => false

/-- The segments of a path that follows an authority. In a `file` URL a leading drive stays. -/
def segments (scheme : String) (cs : List Char) : List String :=
  let isSlash (c : Char) : Bool := c == '/' || (isSpecialScheme scheme && c == '\\')
  let isFile := scheme == "file"
  let body := match cs with
    | c :: r => if isSlash c then r else cs
    | [] => []
  let raw := (Path.split isSlash body).map (Percent.encodeChars Percent.path)
  let raw := match raw with
    | first :: rest => (if isFile && isDrive first then [first.headD ' ', ':'] else first) :: rest
    | [] => []
  (Path.resolve (fun root => isFile && isDrive root) [] raw).map String.ofList

/-- The path of a URL that has an authority. -/
def pathBehind (scheme : String) (cs : List Char) : Hierarchy :=
  if cs.isEmpty && !isSpecialScheme scheme then .segments [] else .segments (segments scheme cs)

/-- A slash that leads to a host. -/
def isLeading (c : Char) : Bool := c == '/' || c == '\\'

/-- What a `file` URL holds behind its scheme: a host only behind two slashes. -/
def fileParts? (cs : List Char) : Option Url :=
  let whole : Url := { scheme := "file", host := some (.domain ""), path := .segments [] }
  match cs with
  | a :: b :: r =>
    if isLeading a && isLeading b then
      let name := r.takeWhile (!isLeading ·)
      if isDrive name then some { whole with path := pathBehind "file" r }
      else if name.isEmpty then some { whole with path := pathBehind "file" r }
      else (Host.special? name).map fun host =>
        { whole with
          host := some (if host = .domain "localhost" then .domain "" else host)
          path := pathBehind "file" (r.drop name.length) }
    else some { whole with path := pathBehind "file" cs }
  | _ => some { whole with path := pathBehind "file" cs }

/-- A URL without query and fragment, from behind its scheme. -/
def parts? (scheme : String) (cs : List Char) : Option Url :=
  let behind (rest : List Char) (isEnd : Char → Bool) : Option Url :=
    let name := rest.takeWhile (!isEnd ·)
    (authority? scheme name).map fun (username, password, host, number) =>
      { scheme, username, password, host := some host, portNumber := number
        path := pathBehind scheme (rest.drop name.length) }
  if scheme = "file" then fileParts? cs
  else if isSpecialScheme scheme then behind (cs.dropWhile isLeading) isLeading
  else match cs with
    | '/' :: '/' :: rest => behind rest (· == '/')
    | '/' :: _ => some { scheme, path := .segments (segments scheme cs) }
    | _ => some { scheme, path := .text (written Percent.control cs) }

/-- The URL that a text writes, if it writes one. -/
def ofText? (s : String) : Option Url :=
  (splitScheme? (significant s)).bind fun (scheme, rest) =>
    let (rest, fragment) := cut '#' rest
    let (rest, query) := cut '?' rest
    let queryClass := if isSpecialScheme scheme then Percent.specialQuery else Percent.query
    (parts? scheme rest).map fun u =>
      { u with
        query := query.map (written queryClass)
        fragment := fragment.map (written Percent.fragment) }

end Url

end TopicFeed
