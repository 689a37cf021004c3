import CodeTabs.Script.Quoted
import CodeTabs.Script.Statement

/-!
Scripts are emitted without their types, one statement a line. Imports and exports of types go
with the types; other imported names stay, or go as well when they are never used as a value or
are hidden by a variable. A script that has lost all its imports and exports still says that it is
a module.
-/

namespace CodeTabs.Script.Emit

/-- What remains of an import; `used` holds the names used as values if unused ones are to go. -/
def keepImport (used : Option (List Text)) (clause : ImportClause) : Option ImportClause :=
  let isUsed (binding : Binding) : Bool := used.all fun names => names.contains binding.name
  let kept : ImportClause := { clause with
    default := clause.default.filter isUsed
    whole := clause.whole.filter isUsed
    named := clause.named.filter fun specifier => !specifier.isType && isUsed specifier.renamed }
  if clause.isType then none
  else if used.isSome && kept.bindings.isEmpty && !clause.bindings.isEmpty then none
  else some kept

def keepExport (isType : Text → Bool) (names : List Specifier) (source : Option Text) :
    Option Statement :=
  let kept := names.filter fun specifier =>
    !specifier.isType && (source.isSome || !isType specifier.name)
  if kept.isEmpty && !names.isEmpty then none else some (.exportNames kept source)

def keepStatement (used : Option (List Text)) (isType : Text → Bool) :
    Statement → Option Statement
  | .type .. => none
  | .imports clause => (keepImport used clause).map .imports
  | .exportNames names source => keepExport isType names source
  | statement => some statement

def isModular : Statement → Bool
  | .declare exported .. => exported
  | .type exported .. => exported
  | .imports _ | .exportNames .. | .exportAll .. | .exportDefault .. => true
  | _ => false

def usedNames (script : List Statement) : List Text :=
  let hidden := script.flatMap Statement.variableNames
  (script.flatMap Statement.values).filterMap fun
    | .name name => if hidden.contains name then none else some name
    | _ => none

def isTypeName (script : List Statement) (name : Text) : Bool :=
  (script.flatMap Statement.typeNames).contains name &&
    !(script.flatMap Statement.valueNames).contains name

def strip (onlyTypeImports : Bool) (script : List Statement) : List Statement :=
  let used := if onlyTypeImports then none else some (usedNames script)
  let kept := script.filterMap (keepStatement used (isTypeName script))
  if script.any isModular && !kept.any isModular then kept ++ [.exportNames [] none] else kept

def value : Value → Text
  | .number text => text
  | .string contents => Quoted.render contents
  | .name name => name

def specifier (specifier : Specifier) : Text :=
  if specifier.name = specifier.renamed.name then specifier.name
  else specifier.name ++ " as " ++ specifier.renamed.name

def braces (items : List Text) : Text :=
  if items.isEmpty then "\x7b\x7d" else "\x7b " ++ Text.joined ", " items ++ " \x7d"

def importLine (clause : ImportClause) : Text :=
  let names := clause.named.map specifier
  let whole (binding : Binding) : Text := "* as " ++ binding.name
  let parts := clause.default.toList.map Binding.name ++ clause.whole.toList.map whole ++
    if names.isEmpty then [] else [braces names]
  if parts.isEmpty then "import " ++ Quoted.render clause.source
  else "import " ++ Text.joined ", " parts ++ " from " ++ Quoted.render clause.source

def given {α : Type} (lead : Text) (write : α → Text) : Option α → Text
  | none => []
  | some a => lead ++ write a

def statement : Statement → Text
  | .declare exported constant binding initial =>
    let keywords : Text :=
      if exported then (if constant then "export const " else "export let ")
      else (if constant then "const " else "let ")
    keywords ++ binding.name ++ given " = " value initial
  | .type .. => []
  | .imports clause => importLine clause
  | .exportNames names source =>
    "export " ++ braces (names.map specifier) ++ given " from " Quoted.render source
  | .exportAll rename source =>
    "export *" ++ given " as " Binding.name rename ++ " from " ++ Quoted.render source
  | .exportDefault _ exported => "export default " ++ value exported
  | .leave _ => "break"
  | .evaluate evaluated => value evaluated
  | .assign target assigned => target.name ++ " = " ++ value assigned
  | .empty => []

def script (statements : List Statement) : Text :=
  statements.flatMap fun line => statement line ++ ";\n"

end CodeTabs.Script.Emit
