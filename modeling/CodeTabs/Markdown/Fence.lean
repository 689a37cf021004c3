import CodeTabs.Markdown.Line

/-!
Fenced code. A fence is three or more backticks or tildes after at most three spaces; it is closed
by at least as many of the same character with nothing behind them, or by the end of what it
stands in. The first word behind an opening fence is the language, the rest the metadata.
-/

namespace CodeTabs.Markdown

structure Fence where
  indent : Nat
  mark : Char
  size : Nat
  info : Text

namespace Fence

def opening? (content : Text) : Option Fence :=
  let indent := Line.leadingSpaces content
  match content.drop indent with
  | [] => none
  | mark :: rest =>
    let size := (rest.takeWhile (· == mark)).length + 1
    let info := (rest.dropWhile (· == mark)).dropWhile Line.isInlineSpace
    if indent ≤ 3 && (mark == '`' || mark == '~') && 3 ≤ size &&
        !(mark == '`' && info.contains '`') then
      some ⟨indent, mark, size, info⟩
    else none

def isClosedBy (fence : Fence) (content : Text) : Bool :=
  let indent := Line.leadingSpaces content
  let run := (content.drop indent).takeWhile (· == fence.mark)
  indent ≤ 3 && fence.size ≤ run.length &&
    ((content.drop indent).drop run.length).all Line.isInlineSpace

def given (text : Text) : Option Text := if text.isEmpty then none else some text

def lang (fence : Fence) : Option Text := given (fence.info.takeWhile (!Line.isInlineSpace ·))

def metadata (fence : Fence) : Option Text :=
  given ((fence.info.dropWhile (!Line.isInlineSpace ·)).dropWhile Line.isInlineSpace)

/-- The code block that a fence on `line` opens over the lines after it, and what follows. The
value does not hold the line ending before the end of the block. -/
def block (fence : Fence) (line : Line) (rest : List Line) : Node × List Line :=
  let inside := rest.takeWhile fun line => !fence.isClosedBy line.content
  let after := rest.drop inside.length
  let last := (after.head?.or inside.getLast?).getD line
  (.code {
    value := Text.chomp (Line.text (inside.map (·.dedent fence.indent)))
    lang := fence.lang
    metadata := fence.metadata
    span := some ⟨(line.drop fence.indent).start, last.stop⟩ },
    after.drop 1)

end Fence

end CodeTabs.Markdown
