import ModuleGateway.FileSystem.Access
import ModuleGateway.Http.MediaType
import ModuleGateway.Http.Message
import ModuleGateway.Text.Percent

/-!
Files served as they are. A path never leads above the directory, though links in the directory may.
A directory is served by its index, at the address that ends with a slash.
-/

namespace ModuleGateway.Http

/-- The file that an address means below a directory; none when it steps up or starts anew. -/
def staticPath? (directory : Path) (uri : Uri) : Option Path := do
  let inner := String.ofList (Text.trimStart (· = '/') uri.path.toList)
  let decoded ← Text.percentDecode? inner
  (Path.mk decoded).components.foldlM (fun (p : Path) step =>
    match step with
    | .name text => some (p.join ⟨text⟩)
    | .here => some p
    | .up | .root => none) directory

/-- The response with the file at a path. What is no file, and what cannot be read, is not found. -/
def fileResponse (fs : FileSystem) (path : Path) : Response :=
  match fs.read path with
  | .ok content => { status := 200, contentType := some (mediaType path), body := content }
  | .error _ => { status := 404 }

/-- The response for an address below a directory. -/
def staticResponse (fs : FileSystem) (directory : Path) (c : Call) : Response :=
  if c.method ≠ "GET" && c.method ≠ "HEAD" then { status := 405 }
  else
    match staticPath? directory c.uri with
    | none => { status := 404 }
    | some path =>
      if !fs.isDirectory path then fileResponse fs path
      else if c.uri.path.toList.getLast? = some '/' then
        fileResponse fs (path.join ⟨"index.html"⟩)
      else Response.redirect 307 c.uri.withSlash.text

end ModuleGateway.Http
