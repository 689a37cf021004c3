import CodeTabs.Text.Position

/-!
Going on in a text, a place moves down one line for each line feed and otherwise to the right. Since
every character takes at least one byte, no place is more lines down than bytes. Bytes are used up
line by line: a line feed is reached by an offset behind it and by none before.
-/

namespace CodeTabs

theorem Text.byteSize_append (text rest : Text) :
    byteSize (text ++ rest) = byteSize text + byteSize rest := by
  induction text with
  | nil => exact (Nat.zero_add _).symm
  | cons c text ih => rw [List.cons_append, byteSize, byteSize, ih, Nat.add_assoc]

namespace Position

theorem line_next (p : Position) (c : Char) :
    (p.next c).line = if c = '\n' then p.line + 1 else p.line := by
  unfold next
  split <;> rfl

theorem advance_zero (p : Position) (text : Text) : p.advance text 0 = p := by
  cases text <;> rfl

theorem line_le_advance (p : Position) (text : Text) (bytes : Nat) :
    p.line ≤ (p.advance text bytes).line := by
  induction text generalizing p bytes with
  | nil => exact Nat.le_refl _
  | cons c text ih =>
    rw [advance]
    split
    · exact Nat.le_refl _
    · refine Nat.le_trans ?_ (ih (p.next c) (bytes - c.utf8Size))
      rw [line_next]
      split <;> omega

theorem line_advance_le (p : Position) (text : Text) (bytes : Nat) :
    (p.advance text bytes).line ≤ p.line + bytes := by
  induction text generalizing p bytes with
  | nil => exact Nat.le_add_right _ _
  | cons c text ih =>
    have hsize := c.utf8Size_pos
    rw [advance]
    split
    · omega
    · refine Nat.le_trans (ih (p.next c) (bytes - c.utf8Size)) ?_
      rw [line_next]
      split <;> omega

theorem line_advance_append_le {start : Text} (h : '\n' ∉ start) (p : Position) (rest : Text)
    (bytes : Nat) : (p.advance (start ++ rest) bytes).line ≤ p.line + (bytes - start.length) := by
  induction start generalizing p bytes with
  | nil => exact line_advance_le p rest bytes
  | cons c start ih =>
    rw [List.mem_cons, not_or] at h
    have hsize := c.utf8Size_pos
    rw [List.cons_append, advance]
    split
    · omega
    · refine Nat.le_trans (ih h.2 (p.next c) (bytes - c.utf8Size)) ?_
      rw [line_next, if_neg (Ne.symm h.1), List.length_cons]
      omega

theorem line_advance_within {line : Text} (h : '\n' ∉ line) (p : Position) (rest : Text)
    {bytes : Nat} (hbytes : bytes ≤ line.byteSize) :
    (p.advance (line ++ rest) bytes).line = p.line := by
  induction line generalizing p bytes with
  | nil =>
    rw [Nat.le_zero.mp hbytes, advance_zero]
  | cons c line ih =>
    rw [List.mem_cons, not_or] at h
    rw [Text.byteSize] at hbytes
    rw [List.cons_append, advance]
    split
    · rfl
    · rw [ih h.2 (p.next c) (by omega), line_next, if_neg (Ne.symm h.1)]

def behind (p : Position) (text : Text) : Position := text.foldl next p

theorem behind_append (p : Position) (text rest : Text) :
    p.behind (text ++ rest) = (p.behind text).behind rest :=
  List.foldl_append

theorem behind_of_no_line_feed {line : Text} (h : '\n' ∉ line) (p : Position) :
    p.behind line = ⟨p.line, p.column + line.length⟩ := by
  induction line generalizing p with
  | nil => rfl
  | cons c line ih =>
    rw [List.mem_cons, not_or] at h
    have hnext : p.next c = ⟨p.line, p.column + 1⟩ := if_neg (Ne.symm h.1)
    have hstep : p.behind (c :: line) = (p.next c).behind line := rfl
    rw [hstep, ih h.2, hnext, List.length_cons, Nat.add_assoc, Nat.add_comm 1]

theorem behind_line {line : Text} (h : '\n' ∉ line) (p : Position) :
    p.behind (line ++ ['\n']) = ⟨p.line + 1, 1⟩ := by
  rw [behind_append, behind_of_no_line_feed h]
  rfl

theorem advance_append (p : Position) (text rest : Text) {bytes : Nat}
    (h : text.byteSize ≤ bytes) :
    p.advance (text ++ rest) bytes = (p.behind text).advance rest (bytes - text.byteSize) := by
  induction text generalizing p bytes with
  | nil => rfl
  | cons c text ih =>
    have hsize := c.utf8Size_pos
    rw [Text.byteSize] at h
    have hpos : ¬bytes = 0 := by omega
    rw [List.cons_append, advance, if_neg hpos, ih (p.next c) (by omega), Text.byteSize,
      Nat.sub_sub]
    rfl

theorem advance_line {line : Text} (h : '\n' ∉ line) (p : Position) (rest : Text) {bytes : Nat}
    (hbytes : line.byteSize < bytes) : p.advance (line ++ '\n' :: rest) bytes =
      advance ⟨p.line + 1, 1⟩ rest (bytes - (line.byteSize + 1)) := by
  have hsize : Text.byteSize (line ++ ['\n']) = line.byteSize + 1 := Text.byteSize_append line _
  rw [List.append_cons, advance_append p _ rest (by omega), behind_line h, hsize]

end Position

end CodeTabs
