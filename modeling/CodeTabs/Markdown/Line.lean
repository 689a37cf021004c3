import CodeTabs.Text.Blank
import CodeTabs.Text.Lines
import CodeTabs.Tree.Basic

/-!
The lines of a document, each with its place. Inside a container a line stands without the
characters that put it there, and its column and offset say where it goes on.
-/

namespace CodeTabs.Markdown

structure Line where
  number : Nat
  column : Nat
  offset : Nat
  content : Text
  ending : Text

namespace Line

def isInlineSpace (c : Char) : Bool := c == ' ' || c == '\t'

def isBlank (line : Line) : Bool := line.content.all isInlineSpace

def start (line : Line) : Place := ⟨line.number, line.column, line.offset⟩

def stop (line : Line) : Place :=
  ⟨line.number, line.column + line.content.length, line.offset + Text.byteSize line.content⟩

def drop (line : Line) (n : Nat) : Line :=
  let dropped := line.content.take n
  { line with
    column := line.column + dropped.length
    offset := line.offset + Text.byteSize dropped
    content := line.content.drop n }

def leadingSpaces (content : Text) : Nat := (content.takeWhile (· == ' ')).length

def dedent (line : Line) (most : Nat) : Line := line.drop (min most (leadingSpaces line.content))

def ofPieces (number offset : Nat) : List Text → List Line
  | [] => []
  | piece :: rest =>
    let content := piece.chomp
    ⟨number, 1, offset, content, piece.drop content.length⟩ ::
      ofPieces (number + 1) (offset + Text.byteSize piece) rest

def ofText (text : Text) : List Line := ofPieces 1 0 text.pieces

def text (lines : List Line) : Text := lines.flatMap fun line => line.content ++ line.ending

def openEnded : List Line → List Line
  | [] => []
  | [line] => [{ line with ending := [] }]
  | line :: rest => line :: openEnded rest

/-- The contents of lines, each with its own line ending but the last. -/
def join : List Line → Text
  | [] => []
  | [line] => line.content
  | line :: rest => line.content ++ line.ending ++ join rest

end Line

end CodeTabs.Markdown
