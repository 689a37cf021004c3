import CodeTabs.Proofs.Text.Lines
import CodeTabs.Proofs.Text.Position
import Mathlib.Data.Prod.Lex
import Mathlib.Order.Monotone.Basic

/-!
Positions in the order of reading, line by line and column by column. The places of a text follow
one another in that order, so no two of them have one position, and the position of a character says
in which line of the text it stands, and where.
-/

namespace CodeTabs

namespace Position

instance : Preorder Position := Preorder.lift fun p => toLex (p.line, p.column)

theorem lt_iff {p q : Position} :
    p < q ↔ p.line < q.line ∨ p.line = q.line ∧ p.column < q.column :=
  Prod.Lex.toLex_lt_toLex

theorem lt_next (p : Position) (c : Char) : p < p.next c := by
  rw [lt_iff, next]
  split
  · exact .inl (Nat.lt_succ_self _)
  · exact .inr ⟨rfl, Nat.lt_succ_self _⟩

theorem le_behind (p : Position) (text : Text) : p ≤ p.behind text := by
  induction text generalizing p with
  | nil => exact le_rfl
  | cons c text ih => exact (lt_next p c).le.trans (ih (p.next c))

theorem lt_behind (p : Position) {text : Text} (h : text ≠ []) : p < p.behind text := by
  cases text with
  | nil => exact absurd rfl h
  | cons c text => exact (lt_next p c).trans_le (le_behind (p.next c) text)

end Position

namespace Text

/-- The offset is the end of a beginning of the text, so it is inside of no character. -/
def IsBoundary (text : Text) (offset : Nat) : Prop :=
  ∃ before after, text = before ++ after ∧ offset = before.byteSize

/-- The character `c` starts at the offset, and `after` is the text behind it. -/
def StandsAt (text : Text) (offset : Nat) (c : Char) (after : Text) : Prop :=
  ∃ before, text = before ++ c :: after ∧ offset = before.byteSize

def EndsItsLine (c : Char) (after : Text) : Prop :=
  c = '\n' ∨ c = '\r' ∧ after.head? = some '\n'

instance (c : Char) (after : Text) : Decidable (EndsItsLine c after) :=
  inferInstanceAs (Decidable (_ ∨ _))

theorem positionAt_append (before after : Text) :
    positionAt (before ++ after) before.byteSize = Position.start.behind before := by
  rw [positionAt, Position.advance_append _ _ _ le_rfl, Nat.sub_self, Position.advance_zero]

theorem IsBoundary.exists_standsAt {text : Text} {offset : Nat} (h : text.IsBoundary offset)
    (hlt : offset < text.byteSize) : ∃ c after, text.StandsAt offset c after := by
  obtain ⟨before, after, rfl, rfl⟩ := h
  cases after with
  | nil => simp at hlt
  | cons c after => exact ⟨c, after, before, rfl, rfl⟩

theorem strictMonoOn_positionAt (text : Text) :
    StrictMonoOn text.positionAt {offset | text.IsBoundary offset} := by
  rintro _ ⟨before, after, rfl, rfl⟩ _ ⟨before', after', htext, rfl⟩ hlt
  -- Both offsets are ends of beginnings of the text, and the shorter beginning begins the longer.
  have hprefix : before <+: before' := by
    rcases List.prefix_or_prefix_of_prefix ⟨after, htext⟩ ⟨after', rfl⟩ with h | ⟨more, rfl⟩
    · exact h
    · rw [byteSize_append] at hlt
      omega
  obtain ⟨more, rfl⟩ := hprefix
  have hmore : more ≠ [] := by
    rintro rfl
    simp at hlt
  rw [positionAt_append, htext, positionAt_append, Position.behind_append]
  exact Position.lt_behind _ hmore

theorem positionAt_inside {text : Text} {offset : Nat} {c : Char} {after : Text}
    (h : text.StandsAt offset c after) {inner : Nat} (hlt : offset < inner)
    (hle : inner ≤ offset + c.utf8Size) :
    text.positionAt inner = text.positionAt (offset + c.utf8Size) := by
  obtain ⟨before, rfl, rfl⟩ := h
  have hnext : ∀ bytes, before.byteSize < bytes → bytes ≤ before.byteSize + c.utf8Size →
      positionAt (before ++ c :: after) bytes = (Position.start.behind before).next c := by
    intro bytes hlt hle
    have hpos : ¬bytes - before.byteSize = 0 := by omega
    have hend : bytes - before.byteSize - c.utf8Size = 0 := by omega
    rw [positionAt, Position.advance_append _ _ _ hlt.le, Position.advance, if_neg hpos, hend,
      Position.advance_zero]
  rw [hnext inner hlt hle, hnext _ (hlt.trans_le hle) le_rfl]

theorem positionAt_past_end (text : Text) {offset : Nat} (h : text.byteSize ≤ offset) :
    text.positionAt offset = text.positionAt text.byteSize := by
  have hend : ∀ bytes, text.byteSize ≤ bytes →
      text.positionAt bytes = Position.start.behind text := by
    intro bytes hle
    have hadvance := Position.advance_append Position.start text [] hle
    rwa [List.append_nil] at hadvance
  rw [hend offset h, hend _ le_rfl]

/-! ### The line of a character -/

def withoutReturn (line : Text) : Text := (before? "\r" line).getD line

theorem length_withoutReturn_le (line : Text) : (withoutReturn line).length ≤ line.length := by
  unfold withoutReturn
  cases hbefore : before? "\r" line with
  | none => exact le_rfl
  | some start => simp [before?_eq_some_iff.mp hbefore]

theorem getElem?_withoutReturn (front : Text) (c : Char) (back : Text) :
    (withoutReturn (front ++ c :: back))[front.length]? =
      if c = '\r' ∧ back = [] then none else some c := by
  unfold withoutReturn
  cases hbefore : before? "\r" (front ++ c :: back) with
  | none =>
    have hlast : ¬(c = '\r' ∧ back = []) := by
      rintro ⟨rfl, rfl⟩
      have hfront : before? "\r" (front ++ ['\r']) = some front := before?_eq_some_iff.mpr rfl
      rw [hfront] at hbefore
      cases hbefore
    rw [if_neg hlast]
    simp
  | some start =>
    have hstart : front ++ c :: back = start ++ ['\r'] := before?_eq_some_iff.mp hbefore
    rcases List.eq_nil_or_concat back with rfl | ⟨middle, last, rfl⟩
    · obtain ⟨rfl, hc⟩ := List.append_inj' hstart rfl
      simp [List.cons.inj hc]
    · rw [List.concat_eq_append, ← List.cons_append, ← List.append_assoc] at hstart
      obtain ⟨rfl, -⟩ := List.append_inj' hstart rfl
      simp

theorem not_endsItsLine_of_not_mem {c : Char} {after : Text} (h : '\n' ∉ c :: after) :
    ¬EndsItsLine c after := by
  rintro (rfl | ⟨-, hhead⟩)
  · exact h List.mem_cons_self
  · exact h (List.mem_cons_of_mem _ (List.mem_of_head? hhead))

theorem endsItsLine_append_iff {c : Char} {back : Text} (h : '\n' ∉ c :: back) (rest : Text) :
    EndsItsLine c (back ++ '\n' :: rest) ↔ c = '\r' ∧ back = [] := by
  rw [List.mem_cons, not_or] at h
  cases back with
  | nil => simp [EndsItsLine, Ne.symm h.1]
  | cons d back =>
    have hd : d ≠ '\n' := fun heq => h.2 (heq ▸ List.mem_cons_self)
    simp [EndsItsLine, Ne.symm h.1, hd]

theorem exists_first_line {before : Text} (h : '\n' ∉ before) (c : Char) (after : Text) :
    ∃ content, (lines (before ++ c :: after))[0]? = some content ∧
      content[before.length]? = if EndsItsLine c after then none else some c := by
  by_cases hfeed : '\n' ∈ c :: after
  · obtain ⟨start, rest, hsplit, hstart⟩ := List.eq_append_cons_of_mem hfeed
    have hline : '\n' ∉ before ++ start := by simp [h, hstart]
    have hlines : lines (before ++ start ++ '\n' :: rest) =
        withoutReturn (before ++ start) :: lines rest := lines_line hline rest
    rw [List.append_assoc, ← hsplit] at hlines
    refine ⟨withoutReturn (before ++ start), by rw [hlines, List.getElem?_cons_zero], ?_⟩
    cases start with
    | nil =>
      -- The character is the line feed, and the line is no longer than what is before it.
      obtain ⟨rfl, rfl⟩ := List.cons.inj hsplit
      have hends : EndsItsLine '\n' after := .inl rfl
      rw [if_pos hends, List.append_nil, List.getElem?_eq_none_iff]
      exact length_withoutReturn_le before
    | cons d back =>
      obtain ⟨rfl, rfl⟩ := List.cons.inj hsplit
      have hends := endsItsLine_append_iff hstart rest
      exact (getElem?_withoutReturn before c back).trans (if_congr hends rfl rfl).symm
  · have hline : '\n' ∉ before ++ c :: after := by simp [h, hfeed]
    refine ⟨before ++ c :: after, ?_, ?_⟩
    · rw [lines_last hline (by simp), List.getElem?_cons_zero]
    · rw [if_neg (not_endsItsLine_of_not_mem hfeed)]
      simp

theorem exists_line (before : Text) (c : Char) (after : Text) (n : Nat) :
    ∃ line column content, Position.behind ⟨n + 1, 1⟩ before = ⟨n + line + 1, column + 1⟩ ∧
      (lines (before ++ c :: after))[line]? = some content ∧
      content[column]? = if EndsItsLine c after then none else some c := by
  induction before using lineInduction generalizing n with
  | nil =>
    obtain ⟨content, hcontent, hchar⟩ := exists_first_line List.not_mem_nil c after
    exact ⟨0, 0, content, rfl, hcontent, hchar⟩
  | last line hline _ =>
    obtain ⟨content, hcontent, hchar⟩ := exists_first_line hline c after
    refine ⟨0, line.length, content, ?_, hcontent, hchar⟩
    rw [Position.behind_of_no_line_feed hline, Nat.add_comm 1]
  | cons first rest hfirst ih =>
    obtain ⟨line, column, content, hposition, hcontent, hchar⟩ := ih (n + 1)
    refine ⟨line + 1, column, content, ?_, ?_, hchar⟩
    · rw [List.append_cons, Position.behind_append, Position.behind_line hfirst, hposition]
      congr 1
      omega
    · rwa [List.append_assoc, List.cons_append, lines_line hfirst, List.getElem?_cons_succ]

/-- Later places have later positions. The position of a character is that of the character in its
line, and one that ends its line is past the others. Within a character the position is that of the
next one, and past the end of the text that of the end. -/
theorem positionAt_tells_places (text : Text) :
    StrictMonoOn text.positionAt {offset | text.IsBoundary offset} ∧
    Set.InjOn text.positionAt {offset | text.IsBoundary offset} ∧
    (∀ offset, text.IsBoundary offset → offset < text.byteSize →
      ∃ c after, text.StandsAt offset c after ∧ ∃ line column content,
        text.positionAt offset = ⟨line + 1, column + 1⟩ ∧ text.lines[line]? = some content ∧
        content[column]? = if EndsItsLine c after then none else some c) ∧
    (∀ offset c after, text.StandsAt offset c after →
      ∀ inner, offset < inner → inner < offset + c.utf8Size →
        text.positionAt inner = text.positionAt (offset + c.utf8Size)) ∧
    ∀ offset, text.byteSize ≤ offset → text.positionAt offset = text.positionAt text.byteSize := by
  have hmono := strictMonoOn_positionAt text
  refine ⟨hmono, hmono.injOn, ?_, ?_, fun offset => positionAt_past_end text⟩
  · intro offset hboundary hlt
    obtain ⟨c, after, hstands⟩ := hboundary.exists_standsAt hlt
    refine ⟨c, after, hstands, ?_⟩
    obtain ⟨before, rfl, rfl⟩ := hstands
    obtain ⟨line, column, content, hposition, hline⟩ := exists_line before c after 0
    refine ⟨line, column, content, ?_, hline⟩
    rw [positionAt_append, Position.start, hposition, Nat.zero_add]
  · intro offset c after hstands inner hlt hinner
    exact positionAt_inside hstands hlt hinner.le

def clef : Text := "é\r\n𝄞x\r"

theorem positionAt_clef :
    (clef.IsBoundary 3 ∧ clef.IsBoundary 9 ∧ 9 < clef.byteSize ∧ clef.StandsAt 4 '𝄞' "x\r" ∧
      clef.byteSize ≤ 12) ∧
    clef.positionAt 3 < clef.positionAt 9 ∧ clef.positionAt 3 ≠ clef.positionAt 9 ∧
    (∃ c after, clef.StandsAt 9 c after ∧ ∃ line column content,
      clef.positionAt 9 = ⟨line + 1, column + 1⟩ ∧ clef.lines[line]? = some content ∧
      content[column]? = if EndsItsLine c after then none else some c) ∧
    clef.positionAt 6 = ⟨2, 2⟩ ∧ clef.positionAt 12 = ⟨2, 4⟩ := by
  have hfeed : clef.IsBoundary 3 := ⟨"é\r", "\n𝄞x\r", by decide, by decide⟩
  have hreturn : clef.IsBoundary 9 := ⟨"é\r\n𝄞x", "\r", by decide, by decide⟩
  have hclef : clef.StandsAt 4 '𝄞' "x\r" := ⟨"é\r\n", by decide, by decide⟩
  have hbefore : 9 < clef.byteSize := by decide
  have hpast : clef.byteSize ≤ 12 := by decide
  obtain ⟨hmono, hinj, hlines, hinside, hend⟩ := positionAt_tells_places clef
  have hdistinct : clef.positionAt 3 ≠ clef.positionAt 9 := by
    intro h
    exact absurd (hinj hfeed hreturn h) (by decide)
  refine ⟨⟨hfeed, hreturn, hbefore, hclef, hpast⟩, hmono hfeed hreturn (by decide), hdistinct,
    hlines 9 hreturn hbefore, ?_, ?_⟩
  · rw [hinside 4 '𝄞' "x\r" hclef 6 (by decide) (by decide)]
    decide
  · rw [hend 12 hpast]
    decide

end Text

end CodeTabs
