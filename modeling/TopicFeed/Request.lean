import TopicFeed.Request.Spec
import TopicFeed.Text.Base64
import TopicFeed.Url

/-!
# Requests

A request as it is sent, made from a specification and an address. What the specification asks
for is already checked; what can still fail is the address, and a token that no header can carry.
-/

namespace TopicFeed

namespace Request

/-- What is asked for: to hand something over, or to be told. -/
inductive Method where
  | get
  | post
  deriving DecidableEq, Repr

/-- The header value that carries credentials. A token is sent as it is, and may be no header
value; name and password are sent in Base64. -/
def Credentials.value? : Credentials → Option String
  | .basic user password =>
    some ("Basic " ++ String.ofList (Text.Base64.encode (Bytes.ofString (user ++ ":" ++ password))))
  | .token t => let value := "Bearer " ++ t; if Header.isValue value then some value else none

end Request

/-- A request. Headers are in the order in which they are sent. -/
structure Request where
  method : Request.Method
  url : Url
  headers : List (String × String)
  body : Bytes := []
  deriving DecidableEq, Repr

namespace Url

/-- A URL without a user. -/
def withoutUser (u : Url) : Url := { u with username := "", password := "" }

/-- The text that a percent-encoded one means. -/
def meant? (s : String) : Option String := Utf8.decode? (Percent.decode (Bytes.ofString s))

/-- The credentials that a URL holds. A name that is no text counts as none at all. -/
def credentials? (u : Url) : Option Request.Credentials :=
  (meant? u.username).bind fun user =>
    let password := if u.password.isEmpty then none else meant? u.password
    if user.isEmpty && password.isNone then none else some (.basic user (password.getD ""))

/-- A URL with pairs at the end of its query. -/
def addPairs (u : Url) (pairs : List (String × String)) : Url :=
  if pairs.isEmpty then u
  else
    let added := String.ofList (Form.encode pairs)
    let query := match u.query with
      | none | some "" => added
      | some q => q ++ "&" ++ added
    { u with query := some query }

end Url

namespace Request

/-- The schemes that requests are sent with. How long a URL may be is not limited here. -/
def isSendable (u : Url) : Bool := u.scheme == "http" || u.scheme == "https"

/-- The headers of a request: an authorization from the address comes first, and gives way to one
of the specification; the credentials of the specification come last. -/
def headersOf (own credentials : Option String) (spec : Spec) : List (String × String) :=
  let entry (value : Option String) := value.toList.map fun v => (Header.authorization, v)
  (if (spec.headers.get? Header.authorization).isSome then [] else entry own) ++
    spec.headers ++ entry credentials

/-- Makes a request of a specification. Credentials in the address become an authorization and are
not part of the URL any more. -/
def ofSpec (method : Method) (address : String) (spec : Spec) (body : Bytes) :
    Except TransportFault Request :=
  match Url.ofText? address with
  | none => .error .unbuildable
  | some url =>
    if !url.hasHost then .error (.scheme url.toText)
    else
      let own := url.credentials?
      let url := (if own.isSome then url.withoutUser else url).addPairs spec.query
      let request (credentials : Option String) : Except TransportFault Request :=
        if isSendable url then
          .ok {
            method, url, body
            headers := headersOf (own.bind Credentials.value?) credentials spec }
        else .error (.scheme url.toText)
      match spec.credentials with
      | none => request none
      | some c =>
        match c.value? with
        | none => .error .unbuildable
        | some value => request (some value)

end Request

end TopicFeed
