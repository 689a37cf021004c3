import CodeTabs.Diagnostic.Basic
import CodeTabs.Failure
import CodeTabs.Tree.Basic

/-!
What a host provides: a compiler for whole sets of files, or settings for the built-in one, and
hooks that shape the files of the two tabs and assemble the nodes that show them. Compilers and
hooks may keep a state between calls.
-/

namespace CodeTabs

structure Settings where
  preserveJsx : Bool
  onlyRemoveTypeImports : Bool
  checkSemantics : Bool
deriving DecidableEq

def Settings.standard : Settings := ⟨true, true, true⟩

/-- A step that reads and changes a state of type `σ` and may fail; a failed step still leaves
its state behind. -/
abbrev Action (σ ε α : Type) := ExceptT ε (StateM σ) α

structure Compiler (σ : Type) where
  name : Text
  compile : FileSet → Action σ CompilerError CompiledSet

def Compiler.defaultName : Text := "compiler"

/-- The messages of a failed hook, the outermost first. -/
abbrev ErrorChain := List Text

abbrev SourceHook (σ : Type) := FileSet → (document : Text) → Action σ ErrorChain FileSet

abbrev CompiledHook (σ : Type) := CompiledSet → (document : Text) → Action σ ErrorChain FileSet

structure ReplacementInput where
  block : CodeBlock
  document : Text
  folder : Text
  typeScript : FileSet
  javaScript : FileSet

abbrev Assembler (σ : Type) := ReplacementInput → Action σ ErrorChain (List Node)

end CodeTabs
