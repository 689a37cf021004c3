import CodeTabs.Markdown.Esm
import CodeTabs.Markdown.Fence
import CodeTabs.Script.Grammar

/-!
A reader of Markdown within a small language: frontmatter, headings, fenced code, module
statements, block quotes, lists and paragraphs of plain words. Containers hold paragraphs and
fenced code.
-/

namespace CodeTabs.Markdown

def paragraph (lines : List Line) : Node :=
  let trimmed := lines.map fun line =>
    { line with
      content := Text.dropEndWhile Line.isInlineSpace
        (line.content.dropWhile Line.isInlineSpace) }
  .parent "paragraph" [] [.text (Line.join trimmed)]

def flow : (fuel : Nat) → List Line → List Node
  | 0, _ => []
  | _, [] => []
  | fuel + 1, line :: rest =>
    if line.isBlank then flow fuel rest
    else match Fence.opening? line.content with
      | some fence =>
        let (node, rest) := fence.block line rest
        node :: flow fuel rest
      | none =>
        let ends (line : Line) : Bool := line.isBlank || (Fence.opening? line.content).isSome
        paragraph (line :: rest.takeWhile (!ends ·)) :: flow fuel (rest.dropWhile (!ends ·))

def isHash (c : Char) : Bool := c == '#'

/-- The words of a heading, without what consists of hashes alone at either end. Hashes right
before a first word go too; those right behind the last word are part of it. -/
def headingWords (text : Text) : Text :=
  let isEdge (c : Char) : Bool := Line.isInlineSpace c || isHash c
  let words := text.dropWhile isEdge
  let body := Text.dropEndWhile isEdge words
  body ++ (words.drop body.length).takeWhile isHash

def heading? (content : Text) : Option (Nat × Text) :=
  let content := content.drop (min 3 (Line.leadingSpaces content))
  let depth := (content.takeWhile isHash).length
  let rest := content.dropWhile isHash
  if 1 ≤ depth && depth ≤ 6 && rest.head?.all Line.isInlineSpace then
    some (depth, headingWords rest)
  else none

def heading (depth : Nat) (words : Text) : Node :=
  .parent "heading" [("depth", .nat depth)] (if words.isEmpty then [] else [.text words])

def quoted? (line : Line) : Option Line :=
  match line.content with
  | '>' :: ' ' :: _ => some (line.drop 2)
  | '>' :: _ => some (line.drop 1)
  | _ => none

def isItem (line : Line) : Bool := ("- " : Text).isPrefixOf line.content

def continuesItem (line : Line) : Bool := line.isBlank || 2 ≤ Line.leadingSpaces line.content

/-- The lines of a container, by the line after it. Where that line stands outside all containers,
the line ending before it is outside too. -/
def closed (inside : List Line) (after : List Line) : List Line :=
  match after with
  | [] => inside
  | next :: _ => if (quoted? next).isSome || isItem next then inside else Line.openEnded inside

def listItems : (fuel : Nat) → List Line → List Node × List Line
  | 0, lines => ([], lines)
  | _, [] => ([], [])
  | fuel + 1, line :: rest =>
    if isItem line then
      let after := rest.dropWhile continuesItem
      let inside :=
        closed (line.drop 2 :: (rest.takeWhile continuesItem).map (·.dedent 2)) after
      let (items, rest) := listItems fuel after
      (.parent "listItem" [] (flow inside.length inside) :: items, rest)
    else ([], line :: rest)

def interrupts (line : Line) : Bool :=
  line.isBlank || (Fence.opening? line.content).isSome || (heading? line.content).isSome ||
    (quoted? line).isSome || isItem line

namespace Esm

def starters : List Text := ["import ", "export "]

def startsAt (line : Line) : Bool :=
  line.column == 1 && starters.any fun word => word.isPrefixOf line.content

def findings (value : Text) : List Finding :=
  match Script.parse .plain value with
  | .error flaw => [⟨flaw.fault.message, some flaw.offset⟩]
  | .ok _ => []

end Esm

inductive Part
  | markup (node : Node)
  | statements (value : Text) (start stop : Place)

namespace Part

def node : Part → Node
  | .markup node => node
  | .statements value start stop => .esm ⟨value, some ⟨start, stop⟩, [(0, start.offset)]⟩

def handed? : Part → Option (Nat × Text)
  | .markup _ => none
  | .statements value start _ => some (start.offset, value)

def ofStatements (line : Line) (rest : List Line) : Part :=
  let inside := line :: rest.takeWhile (!·.isBlank)
  .statements (Line.join inside) line.start ((inside.getLast?).getD line).stop

end Part

def parts : (fuel : Nat) → List Line → List Part
  | 0, _ => []
  | _, [] => []
  | fuel + 1, line :: rest =>
    if line.isBlank then parts fuel rest
    else if let some (depth, words) := heading? line.content then
      .markup (heading depth words) :: parts fuel rest
    else if let some fence := Fence.opening? line.content then
      let (node, rest) := fence.block line rest
      .markup node :: parts fuel rest
    else if Esm.startsAt line then
      .ofStatements line rest :: parts fuel (rest.dropWhile (!·.isBlank))
    else if (quoted? line).isSome then
      let after := rest.dropWhile fun line => (quoted? line).isSome
      let inside := closed
        (((line :: rest).takeWhile fun line => (quoted? line).isSome).filterMap quoted?) after
      .markup (.parent "blockquote" [] (flow inside.length inside)) :: parts fuel after
    else if isItem line then
      let (items, rest) := listItems (rest.length + 1) (line :: rest)
      .markup (.parent "list" [] items) :: parts fuel rest
    else
      .markup (paragraph (line :: rest.takeWhile (!interrupts ·))) ::
        parts fuel (rest.dropWhile (!interrupts ·))

def frontmatterKinds : List (Text × Text) := [("---", "yaml"), ("+++", "toml")]

def frontmatter? (lines : List Line) : Option (Node × List Line) :=
  match lines with
  | [] => none
  | line :: rest =>
    match frontmatterKinds.find? fun kind => kind.1 == line.content with
    | none => none
    | some (mark, kind) =>
      match rest.dropWhile fun line => line.content != mark with
      | [] => none
      | _ :: after =>
        let inside := rest.takeWhile fun line => line.content != mark
        some (.literal kind (Line.join inside), after)

def partsOf (source : Text) : List Part :=
  let lines := Line.ofText source
  match frontmatter? lines with
  | some (front, lines) => .markup front :: parts lines.length lines
  | none => parts lines.length lines

def statementsOf (source : Text) : List (Nat × Text) := (partsOf source).filterMap Part.handed?

/-- The line and the column in bytes that are reached over `bytes` bytes. -/
def placeAt (number column : Nat) : Text → (bytes : Nat) → Nat × Nat
  | [], bytes => (number, column + bytes)
  | c :: rest, bytes =>
    if bytes < c.utf8Size then (number, column + bytes)
    else if c = '\n' then placeAt (number + 1) 1 rest (bytes - c.utf8Size)
    else placeAt number (column + c.utf8Size) rest (bytes - c.utf8Size)

def firstRefused? (check : Text → Except Esm.Refusal Unit) (statements : List (Nat × Text)) :
    Option (Nat × Esm.Refusal) :=
  statements.findSome? fun (start, value) =>
    match check value with
    | .ok _ => none
    | .error refusal => some (start, refusal)

def readWith (check : Text → Except Esm.Refusal Unit) (source : Text) : Except Text Node :=
  match firstRefused? check (statementsOf source) with
  | some (start, refusal) =>
    .error (refusal.complaint (placeAt 1 1 source (start + refusal.place)))
  | none => .ok (.parent "root" [] ((partsOf source).map Part.node))

def reader : Reader := ⟨statementsOf, placeAt 1 1, readWith⟩

end CodeTabs.Markdown
