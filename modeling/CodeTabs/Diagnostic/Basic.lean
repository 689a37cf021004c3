import CodeTabs.Files.Basic
import CodeTabs.Text.Position

/-!
A diagnostic is what a compiler has to say about one file. Its line, if it has one, is counted
from one within that file; line zero means that the line is not known.
-/

namespace CodeTabs

structure Diagnostic where
  message : Text
  line : Option Nat
  column : Option Nat
deriving DecidableEq

namespace Diagnostic

def unlocated (message : Text) : Diagnostic := ⟨message, none, none⟩

def located (message : Text) (line column : Nat) : Diagnostic := ⟨message, some line, some column⟩

def atOffset (message source : Text) (offset : Nat) : Diagnostic :=
  let p := source.positionAt offset
  located message p.line p.column

def location? (diagnostic : Diagnostic) : Option (Nat × Option Nat) :=
  match diagnostic.line with
  | none => none
  | some line => if line = 0 then none else some (line, diagnostic.column)

end Diagnostic

structure CompiledFile where
  code : Text
  diagnostics : List Diagnostic
  skip : Bool
deriving DecidableEq

def CompiledFile.clean (code : Text) : CompiledFile := ⟨code, [], false⟩

abbrev CompiledSet := OrderedMap CompiledFile

def CompiledSet.withSkipOf (compiled : CompiledSet) (sources : FileSet) : CompiledSet :=
  compiled.map fun path file => { file with skip := (sources.get? path).elim file.skip (·.skip) }

end CodeTabs
