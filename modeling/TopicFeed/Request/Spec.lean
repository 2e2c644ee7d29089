import TopicFeed.Error
import TopicFeed.Request.Header
import TopicFeed.Request.Named

/-!
# Request specifications

What a request will carry, before there is one: headers, query parameters and credentials. The
last setting of a name wins. Credentials and an `authorization` header exclude each other as far
as setting goes: giving credentials takes the header away, and removing the header takes the
credentials away too.

A change that can be refused gives both the specification that it leaves and the fault, if there is
one. Nothing is put back: a change that is refused half way leaves what it did before that.
-/

namespace TopicFeed.Request

/-- Who sends the request. -/
inductive Credentials where
  | basic (user password : String)
  | token (token : String)
  deriving DecidableEq, Repr

/-- Headers, query parameters and credentials of a request to come. -/
structure Spec where
  headers : Named := []
  query : Named := []
  credentials : Option Credentials := none
  deriving DecidableEq, Repr

namespace Spec

/-- Sets a header. The name is checked before the value. -/
def setHeader (spec : Spec) (name value : String) : Spec × Option OptionFault :=
  match Header.name? name with
  | none => (spec, some (.headerName name))
  | some key =>
    if Header.isValue value then ({ spec with headers := spec.headers.set key value }, none)
    else (spec, some (.headerValue key value))

/-- Removes a header, and with `authorization` the credentials. A name that no header can have
removes nothing. -/
def removeHeader (spec : Spec) (name : String) : Spec :=
  match Header.name? name with
  | none => spec
  | some key =>
    { spec with
      headers := spec.headers.erase key
      credentials := if key = Header.authorization then none else spec.credentials }

/-- Sets a query parameter. -/
def setQuery (spec : Spec) (name value : String) : Spec :=
  { spec with query := spec.query.set name value }

/-- Sets the credentials, in place of any `authorization` header. -/
def setCredentials (spec : Spec) (credentials : Credentials) : Spec :=
  { spec with
    headers := spec.headers.erase Header.authorization
    credentials := some credentials }

/-- The value kept for a header, whether or not it can be shown. -/
def storedHeader? (spec : Spec) (name : String) : Option String :=
  (Header.name? name).bind fun key => spec.headers.get? key

/-- The value of a header, if it is set and can be read back as text. -/
def header? (spec : Spec) (name : String) : Option String :=
  (spec.storedHeader? name).filter Header.isVisible

/-- The value of a query parameter. -/
def query? (spec : Spec) (name : String) : Option String := spec.query.get? name

end Spec

end TopicFeed.Request
