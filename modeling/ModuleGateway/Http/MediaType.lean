import ModuleGateway.Path

/-!
The media types of files by their extensions.
-/

namespace ModuleGateway.Http

/-- Extensions with the media types they stand for. -/
def mediaTypes : List (String × String) :=
  [("avif", "image/avif"),
   ("bmp", "image/bmp"),
   ("css", "text/css"),
   ("csv", "text/csv"),
   ("eot", "application/vnd.ms-fontobject"),
   ("gif", "image/gif"),
   ("gz", "application/gzip"),
   ("htm", "text/html"),
   ("html", "text/html"),
   ("ico", "image/x-icon"),
   ("jpeg", "image/jpeg"),
   ("jpg", "image/jpeg"),
   ("js", "text/javascript"),
   ("json", "application/json"),
   ("jsx", "text/jscript"),
   ("log", "text/plain"),
   ("m4a", "audio/m4a"),
   ("map", "application/json"),
   ("md", "text/markdown"),
   ("mjs", "text/javascript"),
   ("mp3", "audio/mpeg"),
   ("mp4", "video/mp4"),
   ("oga", "audio/ogg"),
   ("ogg", "audio/ogg"),
   ("ogv", "video/ogg"),
   ("otf", "font/otf"),
   ("pdf", "application/pdf"),
   ("png", "image/png"),
   ("rtf", "application/rtf"),
   ("sh", "application/x-sh"),
   ("svg", "image/svg+xml"),
   ("tar", "application/x-tar"),
   ("tif", "image/tiff"),
   ("tiff", "image/tiff"),
   ("toml", "text/x-toml"),
   ("ts", "video/vnd.dlna.mpeg-tts"),
   ("ttf", "font/ttf"),
   ("txt", "text/plain"),
   ("wasm", "application/wasm"),
   ("wav", "audio/wav"),
   ("webm", "video/webm"),
   ("webmanifest", "application/manifest+json"),
   ("webp", "image/webp"),
   ("woff", "font/woff"),
   ("woff2", "font/woff2"),
   ("xhtml", "application/xhtml+xml"),
   ("xml", "text/xml"),
   ("yaml", "text/x-yaml"),
   ("yml", "text/x-yaml"),
   ("zip", "application/zip")]

/-- The media type of a file; plain bytes when its extension does not tell. Case does not count. -/
def mediaType (path : Path) : String :=
  let known := path.extension?.bind fun ext => mediaTypes.lookup ext.toLower
  known.getD "application/octet-stream"

end ModuleGateway.Http
