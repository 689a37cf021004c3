import CodeTabs.Diagnostic.Basic
import CodeTabs.JavaScriptNames
import CodeTabs.Text.Word

/-!
The files of a tab are shaped before they are shown. By default the TypeScript tab loses the
lines that only speak to a type checker, and the files of the JavaScript tab take JavaScript
names.
-/

namespace CodeTabs.Shaping

def directives : List Text := ["// @ts-ignore", "// @ts-expect-error"]

/-- Whether a line without its terminator is a directive: white space, then a directive as a
whole word. -/
def isDirective (line : Text) : Bool :=
  let start := line.dropWhile CodeTabs.isBlank
  directives.any fun directive => (Text.after? directive start).any Text.wordEndsAt

def stripDirectives (code : Text) : Text :=
  (code.pieces.filter fun piece => !isDirective piece.body).flatten

def typeScript (files : FileSet) : FileSet :=
  files.map fun _ file => { file with code := stripDirectives file.code }

/-- The files under their JavaScript names. Two files that come to one name are one file, in the
place of the first and with the code of the second. -/
def javaScript (compiled : CompiledSet) : FileSet :=
  .ofList (compiled.entries.map fun entry =>
    (JavaScriptNames.path entry.1, ⟨entry.2.code, entry.2.skip⟩))

end CodeTabs.Shaping
