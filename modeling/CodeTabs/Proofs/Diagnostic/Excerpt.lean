import CodeTabs.Diagnostic.Excerpt
import CodeTabs.Proofs.Text.Decimal
import CodeTabs.Proofs.Text.Lines
import Mathlib.Data.List.Sort

/-!
What an excerpt shows. It is a table of rows, one for each line of the code that is at most five
lines away from the line in question. A row is read as a mark, digits and a line of the code, and
the digits tell the number of that line.
-/

namespace CodeTabs.Excerpt

structure Row where
  mark : Char
  digits : Text
  content : Text

namespace Row

def text (row : Row) : Text := row.mark :: ' ' :: row.digits ++ " | " ++ row.content ++ "\n"

def number (row : Row) : Nat := Nat.ofDigitChars 10 row.digits 0

end Row

theorem length_number {width n : Nat} (h : (Text.decimal n).length ≤ width) :
    (number width n).length = width := by
  rw [number, List.length_append, List.length_replicate]
  omega

theorem isDigit_of_mem_number {width n : Nat} {c : Char} (h : c ∈ number width n) :
    c.isDigit = true := by
  rcases List.mem_append.mp h with hzero | hdigit
  · rw [List.eq_of_mem_replicate hzero]
    rfl
  · exact Text.isDigit_of_mem_decimal hdigit

theorem ofDigitChars_number (width n : Nat) : Nat.ofDigitChars 10 (number width n) 0 = n := by
  simp [number, Nat.ofDigitChars_append, Nat.ofDigitChars_replicate_zero, Text.decimal]

def lastShown (code : Text) (line : Nat) : Nat := min (line + radius) code.lines.length

def shown (code : Text) (line : Nat) : List (Text × Nat) :=
  (code.lines.zipIdx 1).filter fun entry =>
    line ≤ entry.2 + radius && entry.2 ≤ lastShown code line

def rowOf (width line : Nat) (entry : Text × Nat) : Row :=
  ⟨if entry.2 = line then '>' else ' ', number width entry.2, entry.1⟩

def rows (code : Text) (line : Nat) : List Row :=
  (shown code line).map (rowOf (Text.decimal (lastShown code line)).length line)

variable {code : Text} {line : Nat}

theorem render_eq_flatMap (hpos : 0 < line) (hle : line ≤ code.lines.length) :
    render code line = (rows code line).flatMap Row.text := by
  have hin : (line = 0 || decide (code.lines.length < line)) = false := by
    simp only [Bool.or_eq_false_iff, decide_eq_false_iff_not]
    omega
  rw [rows, List.flatMap_map, render]
  simp only [hin, Bool.false_eq_true, if_false]
  rfl

theorem map_snd_shown (code : Text) (line : Nat) : (shown code line).map Prod.snd =
    List.range' (max 1 (line - 5)) (min code.lines.length (line + 5) + 1 - max 1 (line - 5)) := by
  have hfilter : (shown code line).map Prod.snd = (List.range' 1 code.lines.length).filter
      fun n => line ≤ n + radius && n ≤ lastShown code line := by
    rw [← List.zipIdx_map_snd, List.filter_map]
    rfl
  rw [hfilter]
  apply List.Pairwise.eq_of_mem_iff (r := (· < ·))
  · exact (List.pairwise_lt_range' 1).filter _
  · exact List.pairwise_lt_range' 1
  · intro n
    simp only [List.mem_filter, List.mem_range'_1, Bool.and_eq_true, decide_eq_true_eq]
    unfold lastShown radius
    omega

theorem map_number_rows (code : Text) (line : Nat) : (rows code line).map Row.number =
    List.range' (max 1 (line - 5)) (min code.lines.length (line + 5) + 1 - max 1 (line - 5)) := by
  rw [← map_snd_shown, rows, List.map_map]
  apply List.map_congr_left
  intro entry _
  exact ofDigitChars_number _ _

section Rows

variable {row : Row}

theorem exists_of_mem_rows (h : row ∈ rows code line) : ∃ content n,
    row = rowOf (Text.decimal (lastShown code line)).length line (content, n) ∧
      1 ≤ n ∧ n ≤ lastShown code line ∧ code.lines[n - 1]? = some content := by
  obtain ⟨⟨content, n⟩, hentry, rfl⟩ := List.mem_map.mp h
  obtain ⟨hmem, hnear⟩ := List.mem_filter.mp hentry
  obtain ⟨hpos, hlt, hcontent⟩ := List.mem_zipIdx hmem
  simp only [Bool.and_eq_true, decide_eq_true_eq] at hnear
  exact ⟨content, n, rfl, hpos, hnear.2, by rw [hcontent, List.getElem?_eq_getElem]⟩

theorem number_rowOf (width line : Nat) (entry : Text × Nat) :
    (rowOf width line entry).number = entry.2 := ofDigitChars_number _ _

theorem mark_of_mem_rows (h : row ∈ rows code line) :
    row.mark = if row.number = line then '>' else ' ' := by
  obtain ⟨content, n, rfl, -⟩ := exists_of_mem_rows h
  rw [number_rowOf]
  rfl

theorem content_of_mem_rows (h : row ∈ rows code line) :
    code.lines[row.number - 1]? = some row.content := by
  obtain ⟨content, n, rfl, -, -, hcontent⟩ := exists_of_mem_rows h
  rw [number_rowOf]
  exact hcontent

theorem digits_of_mem_rows (h : row ∈ rows code line) :
    row.digits.length = (Text.decimal (lastShown code line)).length ∧
      ∀ c ∈ row.digits, c.isDigit = true := by
  obtain ⟨content, n, rfl, -, hle, -⟩ := exists_of_mem_rows h
  exact ⟨length_number (Text.length_decimal_le hle), fun c hc => isDigit_of_mem_number hc⟩

theorem exists_line_of_mem_rows (h : row ∈ rows code line) :
    ∃ text : Text, '\n' ∉ text ∧ row.text = text ++ ['\n'] := by
  refine ⟨row.mark :: ' ' :: row.digits ++ " | " ++ row.content, ?_, rfl⟩
  have hmark : row.mark ≠ '\n' := by
    rw [mark_of_mem_rows h]
    split <;> decide
  have hdigits : '\n' ∉ row.digits := by
    intro hmem
    exact absurd ((digits_of_mem_rows h).2 _ hmem) (by decide)
  have hcontent : '\n' ∉ row.content :=
    Text.line_feed_not_mem_of_mem_lines (List.mem_of_getElem? (content_of_mem_rows h))
  simp [hmark.symm, hdigits, hcontent]

end Rows

theorem pieces_render (hpos : 0 < line) (hle : line ≤ code.lines.length) :
    (render code line).pieces = (rows code line).map Row.text := by
  rw [render_eq_flatMap hpos hle]
  exact Text.pieces_flatMap fun row hrow => exists_line_of_mem_rows hrow

theorem map_number_marked (hpos : 0 < line) (hle : line ≤ code.lines.length) :
    ((rows code line).filter fun row => row.mark == '>').map Row.number = [line] := by
  have hmarks : ∀ row ∈ rows code line, (row.mark == '>') = (row.number == line) := by
    intro row hrow
    rw [mark_of_mem_rows hrow]
    split
    · next h => simp [h]
    · next h => simp [h]
  have hmem : line ∈ (rows code line).map Row.number := by
    rw [map_number_rows, List.mem_range'_1]
    omega
  have hnodup : ((rows code line).map Row.number).Nodup := by
    rw [map_number_rows]
    exact List.nodup_range'
  have hmap : ((rows code line).filter fun row => row.number == line).map Row.number =
      ((rows code line).map Row.number).filter (· == line) := by
    rw [List.filter_map]
    rfl
  rw [List.filter_congr hmarks, hmap, List.filter_beq, List.count_eq_one_of_mem hnodup hmem]
  rfl

theorem render_eq_nil_iff (code : Text) (line : Nat) :
    render code line = [] ↔ line = 0 ∨ code.lines.length < line := by
  by_cases h : line = 0 ∨ code.lines.length < line
  · have hout : (line = 0 || decide (code.lines.length < line)) = true := by simpa using h
    simp [render, hout, h]
  · -- The row of the line itself is there.
    obtain ⟨hpos, hle⟩ : 0 < line ∧ line ≤ code.lines.length := by omega
    have hmarked := map_number_marked hpos hle
    have hpieces := pieces_render hpos hle
    constructor
    · intro hnil
      rw [hnil] at hpieces
      have hrows : rows code line = [] := List.map_eq_nil_iff.mp hpieces.symm
      rw [hrows] at hmarked
      cases hmarked
    · intro hout
      exact absurd hout h

/-- An excerpt is empty just when the code has no such line. Otherwise its rows are numbered one by
one from five lines above to five below, as far as the code goes; each shows its line of the code,
and only the line in question is marked. -/
theorem render_rows (code : Text) (line : Nat) :
    (render code line = [] ↔ line = 0 ∨ code.lines.length < line) ∧
    (0 < line → line ≤ code.lines.length → ∃ (rows : List Row) (width : Nat),
      (render code line).pieces = rows.map Row.text ∧
      rows.map Row.number = List.range' (max 1 (line - 5))
        (min code.lines.length (line + 5) + 1 - max 1 (line - 5)) ∧
      (∀ row ∈ rows, row.digits.length = width ∧ (∀ c ∈ row.digits, c.isDigit = true) ∧
        code.lines[row.number - 1]? = some row.content ∧
        row.mark = if row.number = line then '>' else ' ') ∧
      (rows.filter fun row => row.mark == '>').map Row.number = [line]) := by
  refine ⟨render_eq_nil_iff code line, fun hpos hle => ?_⟩
  refine ⟨rows code line, (Text.decimal (lastShown code line)).length, pieces_render hpos hle,
    map_number_rows code line, ?_, map_number_marked hpos hle⟩
  intro row hrow
  obtain ⟨hwidth, hdigits⟩ := digits_of_mem_rows hrow
  exact ⟨hwidth, hdigits, content_of_mem_rows hrow, mark_of_mem_rows hrow⟩

def alphabet : Text := "a\nb\nc\nd\ne\nf\ng\r\nh\n\nj\nk\nl\nm"

theorem render_rows_alphabet : (0 < 8 ∧ 8 ≤ alphabet.lines.length) ∧ render alphabet 14 = [] ∧
    ∃ (rows : List Row) (width : Nat), (render alphabet 8).pieces = rows.map Row.text ∧
      rows.map Row.number = [3, 4, 5, 6, 7, 8, 9, 10, 11, 12, 13] ∧
      (∀ row ∈ rows, row.digits.length = width) ∧
      (rows.filter fun row => row.mark == '>').map Row.number = [8] := by
  have hle : 8 ≤ alphabet.lines.length := by decide
  obtain ⟨rows, width, hpieces, hnumbers, hrows, hmarked⟩ :=
    (render_rows alphabet 8).2 (by omega) hle
  refine ⟨⟨by omega, hle⟩, (render_rows alphabet 14).1.mpr (.inr (by decide)), rows, width, hpieces,
    hnumbers.trans (by decide), fun row hrow => (hrows row hrow).1, hmarked⟩

example : render "a\r\nb\n" 2 = "  1 | a\n> 2 | b\n".toList := by decide

end CodeTabs.Excerpt
