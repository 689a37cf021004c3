import CodeTabs.Engine
import CodeTabs.Tree.Basic

/-!
Blocks of module statements. A Markdown parser hands each of them to a check, and the check asks a
parser of scripts. The first thing that this one finds is refused with its line and column in the
block. What is handed back for its place is the number of the line, where a count of bytes from the
start of the block is asked for.
-/

namespace CodeTabs.Markdown

namespace Esm

/-- What a check says of a block: the words, a count of bytes that stands for the place in the
block, where in the block that is, and the line in question. -/
structure Refusal where
  message : Text
  place : Nat
  whereabouts : Text
  line : Text
deriving DecidableEq

def refusal (value : Text) (finding : Finding) : Refusal :=
  let p := value.positionAt (finding.offset.getD 0)
  { message := "Invalid ESM syntax: " ++ finding.message
    place := p.line
    whereabouts := "at line " ++ Text.decimal p.line ++ ", column " ++ Text.decimal p.column
    line := (value.lines[p.line - 1]?).getD [] }

def check (parse : Text → List Finding) (value : Text) : Except Refusal Unit :=
  match parse value with
  | [] => .ok ()
  | finding :: _ => .error (refusal value finding)

def Refusal.complaint (refusal : Refusal) (place : Nat × Nat) : Text :=
  Text.decimal place.1 ++ ":" ++ Text.decimal place.2 ++ ": " ++ refusal.message ++
    " (" ++ refusal.whereabouts ++ ":" ++ refusal.line ++ ")"

end Esm

/-- A Markdown parser that leaves module statements to a check. The blocks that it hands on are
listed with the byte of the document that each begins at. -/
structure Reader where
  blocks : (source : Text) → List (Nat × Text)
  place : (source : Text) → (offset : Nat) → Nat × Nat
  read : (check : Text → Except Esm.Refusal Unit) → (source : Text) → Except Text Node

end CodeTabs.Markdown
