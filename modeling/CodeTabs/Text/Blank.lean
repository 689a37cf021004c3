import CodeTabs.Text.Basic

/-!
White space is the Unicode property of that name. It separates words, and it is what trimming
removes from both ends.
-/

namespace CodeTabs

def isBlank (c : Char) : Bool :=
  let n := c.toNat
  (9 ≤ n && n ≤ 13) || n == 0x20 || n == 0x85 || n == 0xA0 || n == 0x1680 ||
    (0x2000 ≤ n && n ≤ 0x200A) || n == 0x2028 || n == 0x2029 || n == 0x202F || n == 0x205F ||
    n == 0x3000

namespace Text

def isBlank (text : Text) : Bool := text.all CodeTabs.isBlank

def trimEnd (text : Text) : Text := dropEndWhile CodeTabs.isBlank text

def trim (text : Text) : Text := trimEnd (text.dropWhile CodeTabs.isBlank)

def words : Text → List Text
  | [] => []
  | c :: text =>
    if CodeTabs.isBlank c then words text
    else if text.head?.all CodeTabs.isBlank then [c] :: words text
    else match words text with
      | [] => [[c]]
      | word :: rest => (c :: word) :: rest

end Text

end CodeTabs
