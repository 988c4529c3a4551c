import ModuleGateway.AssetKind
import ModuleGateway.Json.Quote
import ModuleGateway.Text.Blank
import ModuleGateway.Text.Split

/-!
Build failures as assets a browser can load. A script logs the failure and shows it in an overlay;
a style sheet prints it above the page. Texts enter a body only as literals, so no text can end the
literal it stands in.
-/

namespace ModuleGateway.Diagnostic

open Text

/-- A script string literal that is also safe inside an inline script: it holds no `</` and no
line separator. -/
def scriptLiteral (text : String) : String :=
  let encoded := Json.quote text.toList
  let closed := replaceAll ['<', '/'] ['<', '\\', '/'] encoded
  let lines := replaceAll ['\u2028'] "\\u2028".toList closed
  String.ofList (replaceAll ['\u2029'] "\\u2029".toList lines)

/-- One character of a style sheet string. A character escape by number ends at the space after
it. -/
def styleChar (c : Char) : List Char :=
  if c = '"' then ['\\', '"']
  else if c = '\\' then ['\\', '\\']
  else if c = '\n' then ['\\', 'A', ' ']
  else if c = '<' then ['\\', '3', 'C', ' ']
  else if isControl c then '\\' :: upperHex c.toNat ++ [' ']
  else [c]

/-- A style sheet string. -/
def styleLiteral (text : String) : String :=
  String.ofList ('"' :: text.toList.flatMap styleChar ++ ['"'])

/-- A script that logs the failure and, when there is a document, shows it in an overlay. -/
def script (path message : String) : String :=
  "const __kiln_path = " ++ scriptLiteral path ++ ";\n" ++
  "const __kiln_message = " ++ scriptLiteral message ++ ";\n" ++
  "console.error(\"[kiln] build failed: \" + __kiln_path + \"\\n\" + __kiln_message);\n" ++
  "if (typeof document !== \"undefined\") \x7b\n" ++
  "  const show = () => \x7b\n" ++
  "    const overlay = document.createElement(\"pre\");\n" ++
  "    overlay.setAttribute(\"data-kiln-error\", __kiln_path);\n" ++
  "    overlay.style.cssText = \"position:fixed;inset:0;z-index:2147483647;margin:0;" ++
  "padding:24px;overflow:auto;background:rgba(24,0,0,.92);color:#ffb4b4;" ++
  "font:13px/1.5 ui-monospace,monospace;white-space:pre-wrap\";\n" ++
  "    overlay.textContent = \"Build failed: \" + __kiln_path + \"\\n\\n\" + __kiln_message;\n" ++
  "    document.body.appendChild(overlay);\n" ++
  "  \x7d;\n" ++
  "  if (document.body) show(); else document.addEventListener(\"DOMContentLoaded\", show);\n" ++
  "\x7d\n" ++
  "export \x7b\x7d;\n"

/-- A style sheet that prints the failure above the page. -/
def style (path message : String) : String :=
  "body::before \x7b\n  content: " ++
  styleLiteral ("Build failed: " ++ path ++ "\n\n" ++ message) ++
  ";\n  display: block;\n  white-space: pre-wrap;\n  padding: 24px;\n  background: #180000;\n" ++
  "  color: #ffb4b4;\n  font: 13px/1.5 ui-monospace, monospace;\n\x7d\n"

/-- The failure of the asset at `path` as an asset of the same kind. -/
def render (kind : AssetKind) (path message : String) : String :=
  match kind with
  | .script => script path message
  | .style => style path message

/-- A module whose default export is the runtime global that a dotted path such as `React` or
`window.preact` names. Empty parts of the path are passed over. -/
def globalShim (expression : String) : String :=
  let parts := (Text.split '.' expression.toList).filter (· ≠ [])
  let access := parts.flatMap fun part => '[' :: Json.quote part ++ [']']
  "const __kiln_global = globalThis" ++ String.ofList access ++
  ";\nexport default __kiln_global;\n"

end ModuleGateway.Diagnostic
