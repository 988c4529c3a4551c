import ModuleGateway.Gateway.Message

/-!
Requests and responses of HTTP, as far as the server reads and writes them.
-/

namespace ModuleGateway.Http

/-- The version that the program tells. -/
def version : String :=
  "0.1.0"

/-- The path and the query of an address. -/
structure Uri where
  path : String
  query? : Option String := none
  deriving DecidableEq, Repr

namespace Uri

/-- The part of an address behind its scheme and host, if it names them. -/
def local? (text : List Char) : Option (List Char) :=
  if text.head? = some '/' then none
  else do
    let (_, rest) ← Text.cut? ':' text
    let authority ← Text.after? ['/', '/'] rest
    some (authority.dropWhile fun c => c ≠ '/' && c ≠ '?')

/-- An address as a request names it. A fragment does not count. -/
def ofText (text : String) : Uri :=
  let written := text.toList.takeWhile (· ≠ '#')
  let rest := (local? written).getD written
  match Text.cut? '?' rest with
  | none => ⟨String.ofList (if rest = [] then ['/'] else rest), none⟩
  | some (path, query) =>
    ⟨String.ofList (if path = [] then ['/'] else path), some (String.ofList query)⟩

/-- The path and the query as they are written. -/
def text (u : Uri) : String :=
  match u.query? with
  | some query => u.path ++ "?" ++ query
  | none => u.path

/-- The address with a slash behind its path. -/
def withSlash (u : Uri) : Uri :=
  { u with path := u.path ++ "/" }

end Uri

/-- A request. -/
structure Call where
  method : String := "GET"
  uri : Uri
  ifNoneMatch : Option String := none
  deriving DecidableEq, Repr

/-- Whether a character can stand in a header. -/
def isHeaderChar (c : Char) : Bool :=
  c = '\t' || (0x20 ≤ c.toNat && c.toNat ≠ 0x7f)

/-- Whether a header with this text can be read as text. -/
def isReadable (header : String) : Bool :=
  header.toList.all fun c => isHeaderChar c && c.toNat < 0x80

/-- The gateway's view of a request. A header that cannot be read as text does not count. -/
def Call.request (c : Call) : Request where
  method := Method.ofName c.method
  target := c.uri.path
  ifNoneMatch := c.ifNoneMatch.filter isReadable

/-- A response. -/
structure Response where
  status : Nat
  contentType : Option String := none
  cacheControl : Option String := none
  etag : Option String := none
  location : Option String := none
  body : ByteArray := ByteArray.empty
  deriving DecidableEq

namespace Response

/-- A response with a text. -/
def ofText (status : Nat) (contentType body : String) : Response :=
  { status, contentType := some contentType, body := body.toUTF8 }

/-- The response that sends a client to another address. An address that no header can hold is a
fault of the server. -/
def redirect (status : Nat) (url : String) : Response :=
  if url.toList.all isHeaderChar then { status, location := some url }
  else ofText 500 "text/plain; charset=utf-8" "failed to parse header value"

/-- A response as the method wants it: without its body when only the head is asked for. -/
def fit (method : String) (r : Response) : Response :=
  if method = "HEAD" then { r with body := ByteArray.empty } else r

end Response

end ModuleGateway.Http
