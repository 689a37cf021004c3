import CodeTabs.Text.Lines

/-!
An excerpt shows a line of code among its neighbours: up to five numbered lines on each side, the
numbers padded with zeros to one width, the line in question marked.
-/

namespace CodeTabs.Excerpt

def radius : Nat := 5

def number (width n : Nat) : Text :=
  let digits := Text.decimal n
  List.replicate (width - digits.length) '0' ++ digits

def row (width marked n : Nat) (content : Text) : Text :=
  (if n = marked then '>' else ' ') :: ' ' :: number width n ++ " | " ++ content ++ "\n"

def render (code : Text) (line : Nat) : Text :=
  let lines := code.lines
  if line = 0 || lines.length < line then []
  else
    let last := min (line + radius) lines.length
    let near := (lines.zipIdx 1).filter fun entry => line ≤ entry.2 + radius && entry.2 ≤ last
    near.flatMap fun entry => row (Text.decimal last).length line entry.2 entry.1

def choose (emitted : Text) (source : Option Text) (line : Nat) : Option Text :=
  [some emitted, source].findSome? fun code =>
    code.bind fun code =>
      let excerpt := render code line
      if excerpt.isEmpty then none else some excerpt

end CodeTabs.Excerpt
