import ModuleGateway.Diagnostic
import ModuleGateway.Gateway.Building
import ModuleGateway.Gateway.Message
import ModuleGateway.Gateway.Routing

/-!
How a request is answered. The steps before a build only look at the world. What is refused, a path
outside the source root or a package that is not trusted, is passed on like a request that is none of
the gateway's, so that a client cannot tell the two apart. A build that fails is answered with an
asset that shows the failure.
-/

namespace ModuleGateway

/-- How far a request has come, by what is done next. -/
inductive Progress where
  /-- Look into the store. -/
  | recalling (specifier : String)
  /-- See whether the package is trusted. -/
  | trusting (specifier : String)
  | locating (specifier : String)
  | resolving (path : String) (kind : AssetKind)
  /-- Compare the file's tag with those that the client holds. -/
  | validating (file : Location) (kind : AssetKind)
  /-- Wait for a build. -/
  | building (b : Building)
  | answered (reply : Reply)
  deriving DecidableEq

namespace Gateway

/-- Clients may keep a vendor module for ever: its address names one specifier, whose persisted build
does not change. -/
def vendorCacheControl : String :=
  "public, max-age=31536000, immutable"

/-- What shows a failure, or a runtime global, is asked for again every time. -/
def noCache : String :=
  "no-cache"

/-- The response with the module of a specifier. -/
def vendorResponse (contentType : String) (content : ByteArray) : Reply :=
  .respond (.ok contentType vendorCacheControl content)

/-- The response with a text that is not kept. -/
def transientResponse (kind : AssetKind) (body : String) : Reply :=
  .respond (.ok kind.contentType noCache body.toUTF8)

/-- The reply for a specifier that is not served: the CDN's address, when it is used. -/
def missed (g : Gateway) (specifier : String) : Reply :=
  match g.sources.cdnUrl? specifier with
  | some url => .redirect url
  | none => .pass

/-- Where a request starts. -/
def start (g : Gateway) (r : Request) : Progress :=
  if r.method = .other then .answered .pass
  else
    match Route.ofPath? g.settings r.path with
    | none => .answered .pass
    | some (.source path) => .resolving path (AssetKind.ofPath path)
    | some (.vendor specifier) =>
      if !Specifier.isServable specifier then .answered .pass
      else
        match g.sources.global? specifier with
        | some expression =>
          .answered (transientResponse .script (Diagnostic.globalShim expression))
        | none => .recalling specifier

/-- What the tag of a file is derived from, if the file is there. -/
def stamp? (fs : FileSystem) (file : Location) : Option Stamp :=
  match fs.stat file.path with
  | .ok (.file data) => some ⟨data.content.size, data.modified⟩
  | _ => none

/-- One step of a request up to its build. It changes nothing. -/
def look (g : Gateway) (r : Request) (w : World) : Progress → Progress
  | .recalling specifier =>
    match g.store.read? w.fs specifier with
    | some content => .answered (vendorResponse AssetKind.script.contentType content)
    | none => .trusting specifier
  | .trusting specifier =>
    if w.trusted.trusts specifier then .locating specifier
    else .answered (g.missed specifier)
  | .locating specifier =>
    match g.sources.locate? w.fs specifier with
    | some m => .building (.vendor specifier m)
    | none => .answered (g.missed specifier)
  | .resolving path kind =>
    match Source.resolve? w.fs g.root kind path with
    | some file => .validating file kind
    | none => .answered .pass
  | .validating file kind =>
    match stamp? w.fs file with
    | none => .answered .pass
    | some stamp =>
      match Freshness.check stamp g.settings.minify r.ifNoneMatch with
      | .fresh v => .answered (.respond (.notModified v g.settings.localCacheControl))
      | .stale v => .building (.source file v kind)
  | .building b => .building b
  | .answered reply => .answered reply

/-- Some steps of a request, with nothing between them. -/
def looks (g : Gateway) (r : Request) (w : World) : Nat → Progress → Progress
  | 0, p => p
  | n + 1, p => g.looks r w n (g.look r w p)

/-- The number of steps after which every request waits for a build or is answered. -/
def longestLook : Nat := 3

/-- A file's path below the source root, as a failure shows it. -/
def shownPath (g : Gateway) (file : Location) : String :=
  String.ofList ((String.intercalate "/" (file.drop g.root.length)).toList.map
    fun c => if c = '\\' then '/' else c)

/-- The reply with the result of a build. -/
def replyOf (g : Gateway) (b : Building) (outcome : Build.Outcome) : Reply :=
  match b, outcome with
  | .vendor .., .success content contentType => vendorResponse contentType content
  | .vendor specifier _, .failure message =>
    transientResponse .script (Diagnostic.render .script specifier message)
  | .source _ v _, .success content contentType =>
    .respond { Response.ok contentType g.settings.localCacheControl content with etag := some v }
  | .source file _ kind, .failure message =>
    transientResponse kind (Diagnostic.render kind (g.shownPath file) message)

/-- The name of the client in a world where requests are answered one after another. -/
def onlyClient : String :=
  "request"

/-- Answers one request while nothing else happens. -/
def handle (g : Gateway) (w : World) (r : Request) : Reply × World :=
  match g.looks r w longestLook (g.start r) with
  | .answered reply => (reply.fit r.method, w)
  | .building b =>
    let (outcome, worked) := g.work (w.join onlyClient b) b
    ((g.replyOf b outcome).fit r.method, worked.wake.2)
  | _ => (.pass, w)

end Gateway

end ModuleGateway
