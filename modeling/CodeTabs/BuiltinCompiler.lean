import CodeTabs.CachedCompiler
import CodeTabs.Path
import CodeTabs.Script.Emit
import CodeTabs.Script.Grammar
import CodeTabs.Script.Scope

/-!
The built-in compiler, within a small language. The name of a file tells its dialect, and a script
is parsed, checked and emitted as that dialect has it.
-/

namespace CodeTabs.BuiltinCompiler

def dialects : List (Text × Script.Dialect) :=
  [("js", .plain), ("mjs", .plain), ("cjs", .plain), ("jsx", .plain),
    ("ts", .typed), ("mts", .typed), ("cts", .typed), ("tsx", .typed)]

/-- Whether a file holds declarations only: `d` is the part of its name before the extension, or
the part before that if the extension is `ts`. -/
def isDeclarationFile (path extension : Text) : Bool :=
  let parts : List Text := (((Path.fileName? path).getD []).splitAt '.').reverse.drop 1
  (parts.take (if extension = "ts" then 2 else 1)).contains "d".toList

def dialect? (path : Text) : Option Script.Dialect := do
  let extension ← Path.extension? path
  let dialect ← OrderedMap.find? extension dialects
  return if dialect = .typed && extension != "tsx".toList && isDeclarationFile path extension
    then .declarations else dialect

def engine : Engine Script.Dialect (Script.Dialect × List Script.Statement) where
  dialect?
  parse dialect code :=
    match Script.parse dialect code with
    | .error flaw => ⟨(dialect, []), [⟨flaw.fault.message, some flaw.offset⟩], true⟩
    | .ok script => ⟨(dialect, script), [], false⟩
  check semantics program :=
    (Script.Scope.check semantics program.2).map fun (misuse, offset) =>
      ⟨misuse.message, some offset⟩
  transform settings _ program :=
    ((program.1, Script.Emit.strip settings.onlyRemoveTypeImports program.2), [])
  print program := if program.1 = .declarations then [] else Script.Emit.script program.2

abbrev Cache := CachedCompiler.Cache

def compiler (settings : Settings) : Compiler Cache := CachedCompiler.compiler engine settings

end CodeTabs.BuiltinCompiler
