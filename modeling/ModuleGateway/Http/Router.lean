import ModuleGateway.Gateway.Serving
import ModuleGateway.Http.StaticFiles
import ModuleGateway.Json.Quote

/-!
The server around a gateway. The gateway stands in front of everything; what it passes on goes to the
routes of the server, and then to the directory of static files, if there is one.
-/

namespace ModuleGateway.Http

/-- A JSON string literal. -/
def jsonText (text : String) : String :=
  String.ofList (Json.quote text.toList)

/-- A response with a JSON object of one level, whose values are written already. -/
def jsonResponse (fields : List (String × String)) : Response :=
  let written := fields.map fun (key, value) => jsonText key ++ ":" ++ value
  .ofText 200 "application/json" ("\x7b" ++ String.intercalate "," written ++ "\x7d")

/-- That the server lives, and its version. -/
def health : Response :=
  jsonResponse [("status", jsonText "ok"), ("version", jsonText version)]

/-- The packages that the gateway may bundle. -/
def trusted (w : World) : Response :=
  let names := w.trusted.sorted.map jsonText
  jsonResponse [("trusted", "[" ++ String.intercalate "," names ++ "]")]

/-- The response of the server's own route at a path, if there is one. -/
def route? (w : World) (path : String) : Option Response :=
  match path with
  | "/health" => some health
  | "/api/trusted" => some (trusted w)
  | _ => none

/-- The response for what the gateway passes on. -/
def passedOn (staticDirectory : Option Path) (w : World) (c : Call) : Response :=
  match route? w c.uri.path, staticDirectory with
  | some response, _ =>
    if c.method = "GET" || c.method = "HEAD" then response else { status := 405 }
  | none, some directory => staticResponse w.fs directory c
  | none, none => { status := 404 }

/-- A response of the gateway with its headers. -/
def Response.ofGateway (r : ModuleGateway.Response) : Response where
  status := r.status
  contentType := r.contentType
  cacheControl := some r.cacheControl
  etag := r.etag.map (·.text)
  body := r.body

/-- Answers one request. Every request about options is answered as a question about foreign origins,
which are all welcome. -/
def answer (g : Gateway) (staticDirectory : Option Path) (w : World) (c : Call) : Response × World :=
  if c.method = "OPTIONS" then ({ status := 200 }, w)
  else
    let (reply, next) := g.handle w c.request
    let response :=
      match reply with
      | .respond r => Response.ofGateway r
      | .redirect url => Response.redirect 302 url
      | .pass => passedOn staticDirectory next c
    (response.fit c.method, next)

end ModuleGateway.Http
