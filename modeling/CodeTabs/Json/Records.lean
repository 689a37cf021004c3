import CodeTabs.Compiler
import CodeTabs.Json.Basic

/-!
The JSON forms of what is handed to compilers and what they hand back. A record is read from an
object, where members it does not know are passed over and none it knows may occur twice, or from
the array of its fields in order.
-/

namespace CodeTabs.Json

/-- The value at each name, if there is one. An array gives all values, unless fields may be
left out. -/
def fields? (names : List Text) (mayOmit : Bool) : Json → Option (List (Option Json))
  | .object members => names.mapM fun name =>
    match members.filter (·.1 == name) with
    | [] => some none
    | [(_, value)] => some (some value)
    | _ => none
  | .array items =>
    if names.length < items.length || (!mayOmit && items.length < names.length) then none
    else some (items.map some ++ List.replicate (names.length - items.length) none)
  | _ => none

def optional? {α : Type} (read : Json → Option α) : Option Json → Option (Option α)
  | none => some none
  | some .null => some none
  | some value => (read value).map some

def settings? (json : Json) : Option Settings := do
  let names : List Text := ["preserveJsx", "onlyRemoveTypeImports", "checkSemantics"]
  let [jsx, imports, semantics] ← fields? names true json | none
  let flag (given : Option Json) (standard : Bool) := given.elim (some standard) asBool?
  return ⟨← flag jsx Settings.standard.preserveJsx,
    ← flag imports Settings.standard.onlyRemoveTypeImports,
    ← flag semantics Settings.standard.checkSemantics⟩

def ofSettings (settings : Settings) : Json :=
  .object [("preserveJsx", .bool settings.preserveJsx),
    ("onlyRemoveTypeImports", .bool settings.onlyRemoveTypeImports),
    ("checkSemantics", .bool settings.checkSemantics)]

def sourceFile? (json : Json) : Option SourceFile := do
  let [code, skip] ← fields? ["code", "skip"] false json | none
  return ⟨← code.bind asText?, ← skip.bind asBool?⟩

def ofSourceFile (file : SourceFile) : Json :=
  .object [("code", .string file.code), ("skip", .bool file.skip)]

def diagnostic? (json : Json) : Option Diagnostic := do
  let [message, line, column] ← fields? ["message", "line", "column"] false json | none
  return ⟨← message.bind asText?, ← optional? asNat? line, ← optional? asNat? column⟩

def ofDiagnostic (diagnostic : Diagnostic) : Json :=
  .object [("message", .string diagnostic.message), ("line", ofOption .nat diagnostic.line),
    ("column", ofOption .nat diagnostic.column)]

def compiledFile? (json : Json) : Option CompiledFile := do
  let [code, diagnostics, skip] ← fields? ["code", "diagnostics", "skip"] false json | none
  return ⟨← code.bind asText?, ← (← diagnostics.bind asArray?).mapM diagnostic?,
    ← skip.bind asBool?⟩

def ofCompiledFile (file : CompiledFile) : Json :=
  .object [("code", .string file.code), ("diagnostics", .array (file.diagnostics.map ofDiagnostic)),
    ("skip", .bool file.skip)]

/-- A kind is its name, or an object that has the name as its only key, over null. -/
def kind? : Json → Option Failure.Kind
  | .string name => Failure.Kind.ofName? name
  | .object [(name, .null)] => Failure.Kind.ofName? name
  | _ => none

def ofKind (kind : Failure.Kind) : Json := .string kind.name

def failure? (json : Json) : Option Failure := do
  let names : List Text :=
    ["kind", "message", "file", "virtual_file", "line", "column", "context", "suggestion"]
  let [kind, message, file, virtualFile, line, column, context, suggestion] ←
    fields? names false json | none
  return {
    kind := ← kind.bind kind?
    message := ← message.bind asText?
    file := ← optional? asText? file
    virtualFile := ← optional? asText? virtualFile
    line := ← optional? asNat? line
    column := ← optional? asNat? column
    context := ← optional? asText? context
    suggestion := ← optional? asText? suggestion }

def ofFailure (failure : Failure) : Json :=
  .object [("kind", ofKind failure.kind), ("message", .string failure.message),
    ("file", ofOption .string failure.file),
    ("virtual_file", ofOption .string failure.virtualFile),
    ("line", ofOption .nat failure.line), ("column", ofOption .nat failure.column),
    ("context", ofOption .string failure.context),
    ("suggestion", ofOption .string failure.suggestion)]

end CodeTabs.Json
