import ModuleGateway.Bytes
import ModuleGateway.Freshness

/-!
Requests and replies, apart from any protocol that carries them.
-/

namespace ModuleGateway

/-- A request's method, as far as the gateway tells methods apart. -/
inductive Method where
  | get
  | head
  | other
  deriving DecidableEq, Repr

/-- A method by its name, which is in capital letters. -/
def Method.ofName (name : String) : Method :=
  if name = "GET" then .get else if name = "HEAD" then .head else .other

/-- What the gateway reads of a request. -/
structure Request where
  method : Method := .get
  /-- The path with the query and the fragment behind it, if there are any. -/
  target : String
  /-- The tags that the client already holds, as the header says them. -/
  ifNoneMatch : Option String := none
  deriving DecidableEq, Repr

/-- The path that a target asks for, without query and fragment. -/
def Request.path (r : Request) : String :=
  String.ofList (r.target.toList.takeWhile fun c => c ≠ '?' && c ≠ '#')

/-- A response of the gateway. -/
structure Response where
  status : Nat
  contentType : Option String
  cacheControl : String
  etag : Option Validator := none
  body : ByteArray
  deriving DecidableEq

namespace Response

/-- A body that is served. -/
def ok (contentType cacheControl : String) (body : ByteArray) : Response :=
  { status := 200, contentType := some contentType, cacheControl, body }

/-- The client's copy is current. -/
def notModified (etag : Validator) (cacheControl : String) : Response :=
  { status := 304
    contentType := none
    cacheControl
    etag := some etag
    body := ByteArray.empty }

end Response

/-- What becomes of a request. -/
inductive Reply where
  | respond (response : Response)
  /-- The client is sent to another address. -/
  | redirect (url : String)
  /-- The request is none of the gateway's. -/
  | pass
  deriving DecidableEq

/-- A reply as the method wants it: without its body when only the head is asked for. -/
def Reply.fit (method : Method) : Reply → Reply
  | .respond response =>
    if method = .head then .respond { response with body := ByteArray.empty }
    else .respond response
  | reply => reply

end ModuleGateway
