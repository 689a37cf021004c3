import CodeTabs.Engine

/-!
A compiler that works file by file with an engine. What came of a file is remembered under its path
and taken again as long as the text of the file is the same; whether the file is skipped is not
remembered but asked of the file at hand.
-/

namespace CodeTabs.CachedCompiler

variable {δ π : Type}

abbrev Cache := OrderedMap (Text × CompiledFile)

def Cache.hit? (cache : Cache) (path code : Text) : Option CompiledFile :=
  match cache.get? path with
  | none => none
  | some (source, compiled) => if source = code then some compiled else none

def compileCached (engine : Engine δ π) (settings : Settings) (path : Text) (file : SourceFile) :
    Action Cache CompilerError CompiledFile := do
  match (← get).hit? path file.code with
  | some compiled => return { compiled with skip := file.skip }
  | none =>
    let compiled ← (engine.compileFile settings path file : Except CompilerError CompiledFile)
    modify fun cache => cache.insert path (file.code, compiled)
    return compiled

def compileEntries (engine : Engine δ π) (settings : Settings) :
    List (Text × SourceFile) → Action Cache CompilerError (List (Text × CompiledFile))
  | [] => return []
  | (path, file) :: rest => do
    let compiled ← compileCached engine settings path file
    let others ← compileEntries engine settings rest
    return (path, compiled) :: others

def compiler (engine : Engine δ π) (settings : Settings) : Compiler Cache where
  name := "oxc"
  compile files := return .ofList (← compileEntries engine settings files.entries)

end CodeTabs.CachedCompiler
