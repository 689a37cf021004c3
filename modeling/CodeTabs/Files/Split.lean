import CodeTabs.Files.Basic
import CodeTabs.Files.Marker
import CodeTabs.Path

/-!
A code block is split into files at its marker lines. Text before the first marker belongs to
the default file and is dropped only when it is blank; a file that is named again collects the
text of all its regions. For display the files are put together again: one alone as it is, several
behind marker lines, each trimmed and two blank lines apart.
-/

namespace CodeTabs

namespace Block

def defaultName : Text := "index.ts"

/-- The text before the first marker line, and each marker with the text up to the next one. -/
def regions : (pieces : List Text) → Text × List (Marker × Text)
  | [] => ([], [])
  | piece :: rest =>
    let (leading, marked) := regions rest
    match Marker.parse? piece.body with
    | some marker => ([], (marker, leading) :: marked)
    | none => (piece ++ leading, marked)

def parts (raw : Text) : List (Text × SourceFile) :=
  let (leading, marked) := regions raw.pieces
  let named := marked.map fun region => (region.1.path, ⟨region.2, region.1.noEmit⟩)
  if marked.isEmpty || !leading.isBlank then (defaultName, ⟨leading, false⟩) :: named else named

def filePath (folder name : Text) : Text := folder ++ '/' :: name

def split (raw folder : Text) : FileSet :=
  (parts raw).foldl (fun files part => files.accumulate (filePath folder part.1) part.2) .empty

end Block

namespace FileSet

def separator : Text := "\n\n\n"

def markedSection (folder : Text) (entry : Text × SourceFile) : Text :=
  Marker.line (Path.relative entry.1 folder) ++ '\n' :: entry.2.code.trim

def assemble (files : FileSet) (folder : Text) : Text :=
  match files.emitted with
  | [(_, only)] => only.code
  | several => Text.joined separator (several.map (markedSection folder))

end FileSet

end CodeTabs
