import CodeTabs.Text.Basic

/-!
A text is cut after each line feed, and a piece keeps its terminator, so the pieces of a text
join back to it. A reader that wants the line alone either removes one line feed and one carriage
return before it (`lines`) or every such character at the end (`body`).
-/

namespace CodeTabs.Text

/-- The lines with their terminators; an empty last line is no piece. -/
def pieces : Text → List Text
  | [] => []
  | c :: text =>
    if c = '\n' then [c] :: pieces text
    else match pieces text with
      | [] => [[c]]
      | piece :: rest => (c :: piece) :: rest

def body (piece : Text) : Text := dropEndWhile (fun c => c == '\n' || c == '\r') piece

def chomp (piece : Text) : Text :=
  match before? "\n" piece with
  | none => piece
  | some line => (before? "\r" line).getD line

def lines (text : Text) : List Text := (pieces text).map chomp

theorem flatten_pieces (text : Text) : (pieces text).flatten = text := by
  induction text with
  | nil => rfl
  | cons c text ih =>
    by_cases h : c = '\n'
    · simp [pieces, h, ih]
    · simp only [pieces, h, if_false]
      cases hp : pieces text with
      | nil => simp_all
      | cons piece rest => simp_all

end CodeTabs.Text
