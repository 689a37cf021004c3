import CodeTabs.Text.Word

/-!
A marker is a line `// file: path flag …` that opens a file within a code block. The path is the
longest run of path characters; flags stand after a space. A line that looks like a marker and
has no such form is ordinary code.
-/

namespace CodeTabs

structure Marker where
  path : Text
  flags : List Text
deriving DecidableEq

namespace Marker

def opening : Text := "// file: "

def noEmitFlag : Text := "noEmit"

def isPathChar (c : Char) : Bool :=
  isWord c || c == '-' || c == '.' || c == '/' || c == '[' || c == ']'

/-- What may stand after the path: nothing but white space, or a space and flags on one line. -/
def isTail (tail : Text) : Bool :=
  tail.isBlank || (tail.head? == some ' ' && !(tail.trimEnd.contains '\n'))

def parse? (line : Text) : Option Marker :=
  match Text.after? opening line with
  | none => none
  | some rest =>
    let path := rest.takeWhile isPathChar
    let tail := rest.dropWhile isPathChar
    if !path.isEmpty && isTail tail then some ⟨path, Text.words tail⟩ else none

def noEmit (marker : Marker) : Bool := marker.flags.contains noEmitFlag

def line (path : Text) : Text := opening ++ path

end Marker

end CodeTabs
