import CodeTabs.Script.Fault
import CodeTabs.Script.Statement

/-!
Checks beyond the grammar. A name that is declared again, in a role that excludes one it has, is
reported once for each further declaration, at the place of its first one. The other checks, which
can be turned off, find statements that are out of place.
-/

namespace CodeTabs.Script

inductive Misuse
  | redeclared (name : Text)
  | illegalBreak
  | reservedLet
deriving DecidableEq

def Misuse.message : Misuse → Text
  | .redeclared name => "Identifier " ++ inTicks name ++ " has already been declared"
  | .illegalBreak => "Illegal break statement"
  | .reservedLet => "The keyword 'let' is reserved"

namespace Scope

def redeclarations (script : List Statement) : List (Misuse × Nat) :=
  (Binding.repeated [] (script.flatMap Statement.declarations)).map fun first =>
    (.redeclared first.name, first.offset)

def misplaced : Statement → List (Misuse × Nat)
  | .leave offset => [(.illegalBreak, offset)]
  | .assign target _ => if target.name = "let" then [(.reservedLet, target.offset)] else []
  | _ => []

def check (semantics : Bool) (script : List Statement) : List (Misuse × Nat) :=
  redeclarations script ++ if semantics then script.flatMap misplaced else []

end Scope

end CodeTabs.Script
