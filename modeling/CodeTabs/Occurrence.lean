import CodeTabs.Files.Basic
import CodeTabs.Text.Blank
import CodeTabs.Tree.Basic

/-!
An occurrence says where a code block stands in its document: its rank among all code blocks,
counted from one, the place of its opening fence and the tags of its metadata.
-/

namespace CodeTabs

namespace CodeBlock

def noTranspileTag : Text := "no-transpile"

def typeScriptLangs : List Text := ["ts", "tsx", "typescript"]

def tags (block : CodeBlock) : List Text := block.metadata.elim [] Text.words

def isTranspilable (block : CodeBlock) : Bool :=
  block.lang.any typeScriptLangs.contains && !block.tags.contains noTranspileTag

end CodeBlock

structure Occurrence where
  index : Nat
  startLine : Nat
  startColumn : Nat
  tags : List Text
  folder : Text
deriving DecidableEq

namespace Occurrence

/-- The occurrence of the `index`-th code block; a block without a place counts as first. -/
def ofBlock (block : CodeBlock) (index : Nat) (document : Text) : Occurrence where
  index
  startLine := block.span.elim 1 (·.start.line)
  startColumn := block.span.elim 1 (·.start.column)
  tags := block.tags
  folder := virtualFolder document index

/-- The line of the document that is reported for a line of a file. Both are machine words, and so
is their sum: behind the last word it starts over. -/
def documentLine (occurrence : Occurrence) (line : Nat) : Nat :=
  (occurrence.startLine + line) % UInt64.size

theorem documentLine_eq {occurrence : Occurrence} {line : Nat}
    (h : occurrence.startLine + line < UInt64.size) :
    occurrence.documentLine line = occurrence.startLine + line := Nat.mod_eq_of_lt h

def hasTag (occurrence : Occurrence) (tag : Text) : Bool := occurrence.tags.contains tag

end Occurrence

end CodeTabs
