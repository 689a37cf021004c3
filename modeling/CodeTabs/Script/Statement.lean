import CodeTabs.Text.Basic

/-!
The statements of a script. Types leave no trace in them but the places where a whole statement
or a name in braces is nothing but a type, and the names that they declare.
-/

namespace CodeTabs.Script

structure Binding where
  name : Text
  offset : Nat
deriving DecidableEq

inductive Role
  | variable
  | imported
  | typeAlias
  | interface
deriving DecidableEq

/-- Whether a name that has the one role cannot be declared in the other. Names of types and names
of values do not meet, an imported name may be hidden by another declaration, and interfaces of
one name are one. -/
def Role.excludes : Role → Role → Bool
  | .variable, .variable => true
  | .imported, .imported => true
  | .typeAlias, .typeAlias => true
  | .typeAlias, .interface => true
  | .interface, .typeAlias => true
  | _, _ => false

/-- For each binding that cannot be declared beside those in `earlier` and before it, the first
one of its name. -/
def Binding.repeated (earlier : List (Role × Binding)) : List (Role × Binding) → List Binding
  | [] => []
  | (role, binding) :: rest =>
    let same := earlier.filter fun other => other.2.name == binding.name
    let others := repeated (earlier ++ [(role, binding)]) rest
    if same.any fun other => other.1.excludes role then (same.head?.map Prod.snd).toList ++ others
    else others

inductive Value
  | number (text : Text)
  | string (contents : Text)
  | name (text : Text)
deriving DecidableEq

structure Specifier where
  name : Text
  renamed : Binding
  isType : Bool
deriving DecidableEq

structure ImportClause where
  isType : Bool
  default : Option Binding
  whole : Option Binding
  named : List Specifier
  source : Text
deriving DecidableEq

inductive Statement
  | declare (exported constant : Bool) (binding : Binding) (value : Option Value)
  | type (exported : Bool) (role : Role) (binding : Binding)
  | imports (clause : ImportClause)
  | exportNames (names : List Specifier) (source : Option Text)
  | exportAll (rename : Option Binding) (source : Text)
  | exportDefault (offset : Nat) (value : Value)
  | leave (offset : Nat)
  | evaluate (value : Value)
  | assign (target : Binding) (value : Value)
  | empty
deriving DecidableEq

namespace ImportClause

def bindings (clause : ImportClause) : List Binding :=
  clause.default.toList ++ clause.whole.toList ++ clause.named.map Specifier.renamed

def typeBindings (clause : ImportClause) : List Binding :=
  if clause.isType then clause.bindings
  else (clause.named.filter Specifier.isType).map Specifier.renamed

end ImportClause

namespace Statement

def declarations : Statement → List (Role × Binding)
  | .declare _ _ binding _ => [(.variable, binding)]
  | .type _ role binding => [(role, binding)]
  | .imports clause => clause.bindings.map fun binding => (.imported, binding)
  | _ => []

def typeNames : Statement → List Text
  | .type _ _ binding => [binding.name]
  | .imports clause => clause.typeBindings.map Binding.name
  | _ => []

def valueNames : Statement → List Text
  | .declare _ _ binding _ => [binding.name]
  | .imports clause =>
    (clause.bindings.filter (!clause.typeBindings.contains ·)).map Binding.name
  | _ => []

def exports : Statement → List Binding
  | .declare true _ binding _ => [binding]
  | .exportNames names _ => names.map Specifier.renamed
  | .exportAll rename _ => rename.toList
  | .exportDefault offset _ => [⟨"default", offset⟩]
  | _ => []

def variableNames : Statement → List Text
  | .declare _ _ binding _ => [binding.name]
  | _ => []

def values : Statement → List Value
  | .declare _ _ _ value => value.toList
  | .exportNames names none => names.map fun specifier => .name specifier.name
  | .exportDefault _ value => [value]
  | .evaluate value => [value]
  | .assign target value => [.name target.name, value]
  | _ => []

end Statement

end CodeTabs.Script
