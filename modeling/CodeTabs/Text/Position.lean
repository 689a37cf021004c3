import CodeTabs.Text.Basic

/-!
A place in a text is a line and a column, both counted from one and the column in characters. A
byte offset into the UTF-8 form names the place of the first character that starts at it or
after it.
-/

namespace CodeTabs

structure Position where
  line : Nat
  column : Nat
deriving DecidableEq

namespace Position

def start : Position := ⟨1, 1⟩

def next (p : Position) (c : Char) : Position :=
  if c = '\n' then ⟨p.line + 1, 1⟩ else ⟨p.line, p.column + 1⟩

/-- The place reached from `p` over the characters that start within the next `bytes` bytes. -/
def advance (p : Position) : Text → (bytes : Nat) → Position
  | [], _ => p
  | c :: text, bytes =>
    if bytes = 0 then p else advance (p.next c) text (bytes - c.utf8Size)

end Position

def Text.positionAt (text : Text) (offset : Nat) : Position := Position.start.advance text offset

end CodeTabs
