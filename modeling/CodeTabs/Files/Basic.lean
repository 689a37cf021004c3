import CodeTabs.OrderedMap
import CodeTabs.Text.Lines

/-!
The files a code block is made of. A file is known by its folder and name; a skipped file is
compiled with the others and never shown.
-/

namespace CodeTabs

structure SourceFile where
  code : Text
  skip : Bool
deriving DecidableEq

namespace SourceFile

def empty : SourceFile := ⟨[], false⟩
def shown (code : Text) : SourceFile := ⟨code, false⟩
def hidden (code : Text) : SourceFile := ⟨code, true⟩

end SourceFile

abbrev FileSet := OrderedMap SourceFile

namespace FileSet

/-- Add a file; a path that is already there keeps its place, gains the code at its end and is
skipped when either says so. -/
def accumulate (files : FileSet) (path : Text) (file : SourceFile) : FileSet :=
  files.alter path fun
    | none => file
    | some old => ⟨old.code ++ file.code, old.skip || file.skip⟩

def emitted (files : FileSet) : List (Text × SourceFile) :=
  files.entries.filter fun entry => !entry.2.skip

def emittedCount (files : FileSet) : Nat := files.emitted.length

end FileSet

def virtualFolder (document : Text) (index : Nat) : Text :=
  Text.dropEndWhile (· == '/') document ++ "/codeBlock_" ++ Text.decimal index

end CodeTabs
