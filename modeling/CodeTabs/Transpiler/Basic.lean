import CodeTabs.Diagnostic.Report
import CodeTabs.Imports
import CodeTabs.Path
import CodeTabs.Shaping
import CodeTabs.Tabs
import CodeTabs.Transpiler.Options
import CodeTabs.Tree.Replace

/-!
A transpiler turns the TypeScript blocks of a document into pairs of tabs. The missing imports
come first; then each block in document order is split, compiled, checked, shaped and assembled;
only when all of them have succeeded are the blocks replaced. The first failure ends the document
and leaves its blocks as they were.
-/

namespace CodeTabs

structure Transpiler (σ : Type) where
  compiler : Compiler σ
  relocate : Text → Text
  typeScriptHook : SourceHook σ
  javaScriptHook : CompiledHook σ
  assembler : Assembler σ
  fileExtensions : List Text
  tabsImport : Text
  tabItemImport : Text

structure TransformReport where
  skipped : Bool
  importsAdded : Nat
  codeBlocks : Nat
  transpiled : Nat
deriving DecidableEq

structure Outcome where
  tree : Node
  result : Except Failure TransformReport

namespace Transpiler

variable {σ : Type}

def ofCompiler (options : Options σ) (compiler : Compiler σ) : Transpiler σ where
  compiler
  relocate := options.relocate.getD id
  typeScriptHook := options.typeScriptHook.getD fun files _ => pure (Shaping.typeScript files)
  javaScriptHook := options.javaScriptHook.getD fun files _ => pure (Shaping.javaScript files)
  assembler := options.assembler.getD fun input =>
    pure (Tabs.nodes input.block input.folder input.typeScript input.javaScript)
  fileExtensions := options.fileExtensions
  tabsImport := options.tabsImport
  tabItemImport := options.tabItemImport

def make (options : Options σ) (registry : Registry (Compiler σ)) (alive : Nat → Bool) :
    Except Failure (Transpiler σ) × Registry (Compiler σ) :=
  match options.compiler, options.settings with
  | some compiler, _ => (.ok (ofCompiler options compiler), registry)
  | none, some shared =>
    let (compiler, registry) := registry.lookup alive shared
    (.ok (ofCompiler options compiler), registry)
  | none, none => (.error (Cause.compiler .missingSettings).failure, registry)

def describe (transpiler : Transpiler σ) : Text :=
  "Transpiler \x7b compiler: " ++ Describe.quoted transpiler.compiler.name ++
    ", file_extensions: " ++
    Describe.list (transpiler.fileExtensions.map Describe.quoted) ++ ", .. \x7d"

def accepts (transpiler : Transpiler σ) (path : Text) : Bool :=
  Document.hasExtension path transpiler.fileExtensions

def failing {ε α : Type} (step : Action σ ε α) (failure : ε → Failure) : Action σ Failure α :=
  step.adapt failure

def processBlock (transpiler : Transpiler σ) (document : Text) (block : CodeBlock)
    (occurrence : Occurrence) : Action σ Failure (List Node) := do
  let files := Block.split block.value occurrence.folder
  let compiled ← failing (transpiler.compiler.compile files) fun error =>
    ((Cause.compiler error).failure.withFile document).withLocation
      occurrence.startLine occurrence.startColumn
  let compiled := compiled.withSkipOf files
  CompiledSet.check compiled files occurrence document
  let typeScript ← failing (transpiler.typeScriptHook files document) fun chain =>
    (Cause.postProcess "TypeScript" chain).failure.withFile document
  let javaScript ← failing (transpiler.javaScriptHook compiled document) fun chain =>
    (Cause.postProcess "JavaScript" chain).failure.withFile document
  failing (transpiler.assembler ⟨block, document, occurrence.folder, typeScript, javaScript⟩)
    fun chain => ((Cause.assembly chain).failure.withFile document).withLocation
      occurrence.startLine occurrence.startColumn

def processAll (transpiler : Transpiler σ) (document : Text) :
    List (CodeBlock × Occurrence) → Action σ Failure (List (List Node))
  | [] => pure []
  | (block, occurrence) :: rest => do
    let nodes ← processBlock transpiler document block occurrence
    let others ← processAll transpiler document rest
    return nodes :: others

def transform (transpiler : Transpiler σ) (tree : Node) (path : Text) : StateM σ Outcome := do
  if !transpiler.accepts path then
    return ⟨tree, .ok ⟨true, 0, 0, 0⟩⟩
  let document := transpiler.relocate path
  let (tree, importsAdded) :=
    (ImportPresence.scan tree).inject transpiler.tabsImport transpiler.tabItemImport tree
  let pending := tree.pending document
  match ← (transpiler.processAll document pending).run with
  | .error failure => return ⟨tree, .error failure⟩
  | .ok replacements =>
    return ⟨(tree.replace replacements).1,
      .ok ⟨false, importsAdded, (Node.codeBlocksOf tree.children).length, replacements.length⟩⟩

end Transpiler

end CodeTabs
