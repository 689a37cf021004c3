import CodeTabs.Diagnostic.Basic
import CodeTabs.Diagnostic.Excerpt
import CodeTabs.Failure
import CodeTabs.Occurrence

/-!
Diagnostics are reported in terms of the document. A diagnostic at line `L` of a file of a block
whose fence stands on line `S` is reported at line `S + L`, as far as a machine word goes, and its
column is kept. The first diagnostic, files in their order, fails the whole document.
-/

namespace CodeTabs

/-- A diagnostic in terms of the document; without a location it is about its block as a whole. -/
structure RemappedDiagnostic where
  virtualFile : Text
  message : Text
  location : Option (Nat × Option Nat)
deriving DecidableEq

def Diagnostic.remap (diagnostic : Diagnostic) (virtualFile : Text) (block : Occurrence) :
    RemappedDiagnostic :=
  ⟨virtualFile, diagnostic.message,
    diagnostic.location?.map fun (line, column) => (block.documentLine line, column)⟩

def Diagnostic.failure (diagnostic : Diagnostic) (path : Text) (file : CompiledFile)
    (source : Option SourceFile) (block : Occurrence) : Failure :=
  let line := diagnostic.location?.map Prod.fst
  let failure := (Cause.diagnostic path line diagnostic.message).failure.withVirtualFile path
  match line, (diagnostic.remap path block).location with
  | some line, some (documentLine, column) =>
    { failure with
      line := some documentLine
      column := column
      context := Excerpt.choose file.code (source.map SourceFile.code) line }
  | _, _ => failure.withLocation block.startLine block.startColumn

namespace CompiledSet

def firstDiagnostic? (compiled : CompiledSet) : Option (Text × CompiledFile × Diagnostic) :=
  compiled.entries.findSome? fun entry =>
    entry.2.diagnostics.head?.map fun diagnostic => (entry.1, entry.2, diagnostic)

def check (compiled : CompiledSet) (sources : FileSet) (block : Occurrence) (document : Text) :
    Except Failure Unit :=
  match compiled.firstDiagnostic? with
  | none => .ok ()
  | some (path, file, diagnostic) =>
    .error ((diagnostic.failure path file (sources.get? path) block).withFile document)

end CompiledSet

end CodeTabs
