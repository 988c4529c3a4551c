/-!
The two kinds of asset a request can ask for.
-/

namespace ModuleGateway

/-- What a request asks for. -/
inductive AssetKind where
  | script
  | style
  deriving DecidableEq, Repr

namespace AssetKind

/-- A path that ends in `.css` asks for a style sheet, any other for a script. -/
def ofPath (path : String) : AssetKind :=
  if ".css".toList.isSuffixOf path.toList then .style else .script

/-- The content type an asset is served with. -/
def contentType : AssetKind → String
  | .script => "application/javascript; charset=utf-8"
  | .style => "text/css; charset=utf-8"

end AssetKind

end ModuleGateway
