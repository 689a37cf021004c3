import CodeTabs.Engine
import CodeTabs.Proofs.Diagnostic.Report
import CodeTabs.Proofs.Text.Position

/-!
Where a finding stands in the text it is about. Positions count line feeds, while the lines of a
text end with them, so behind a line feed that ends the text is a place without a line. Every other
place of a text that is not empty, its end among them, is on one of its lines.
-/

namespace CodeTabs

namespace Text

/-- The offset is that of the end of the text, right behind a line feed. -/
def IsBelow (text : Text) (offset : Nat) : Prop :=
  text.getLast? = some '\n' ∧ offset = text.byteSize

theorem byteSize_line (line rest : Text) :
    byteSize (line ++ '\n' :: rest) = line.byteSize + 1 + rest.byteSize := by
  rw [byteSize_append, byteSize, ← Nat.add_assoc]
  rfl

theorem isBelow_line {rest : Text} (hne : rest ≠ []) (line : Text) {bytes : Nat}
    (hbytes : line.byteSize < bytes) :
    IsBelow (line ++ '\n' :: rest) bytes ↔ rest.IsBelow (bytes - (line.byteSize + 1)) := by
  have hlast : (line ++ '\n' :: rest).getLast? = rest.getLast? := by
    rw [List.append_cons, List.getLast?_append_of_ne_nil _ hne]
  rw [IsBelow, IsBelow, hlast, byteSize_line]
  exact and_congr_right fun _ => by omega

end Text

namespace Position

theorem line_advance_le_lines {text : Text} (hne : text ≠ []) (p : Position) {bytes : Nat}
    (hbytes : bytes ≤ text.byteSize) :
    (p.advance text bytes).line ≤ p.line + text.lines.length ∧
      ((p.advance text bytes).line = p.line + text.lines.length ↔ text.IsBelow bytes) := by
  induction text using Text.lineInduction generalizing p bytes with
  | nil => exact absurd rfl hne
  | last line hline hne =>
    have hsame := line_advance_within hline p [] hbytes
    rw [List.append_nil] at hsame
    have hlast : ¬line.IsBelow bytes := fun h => hline (List.mem_of_getLast? h.1)
    rw [hsame, Text.lines_last hline hne, List.length_singleton]
    exact ⟨by omega, by omega, fun h => absurd h hlast⟩
  | cons line rest hline ih =>
    rw [Text.byteSize_line] at hbytes
    rw [Text.lines_line hline, List.length_cons]
    by_cases hwithin : bytes ≤ line.byteSize
    · have habove : ¬Text.IsBelow (line ++ '\n' :: rest) bytes := by
        rw [Text.IsBelow, Text.byteSize_line]
        omega
      rw [line_advance_within hline p _ hwithin]
      exact ⟨by omega, by omega, fun h => absurd h habove⟩
    · rw [advance_line hline p rest (by omega)]
      by_cases hrest : rest = []
      · -- The offset is behind the line feed, where no line follows.
        subst hrest
        have hend : bytes = Text.byteSize (line ++ ['\n']) := by
          rw [Text.byteSize_line]
          exact Nat.le_antisymm hbytes (by simp only [Text.byteSize]; omega)
        exact ⟨Nat.le_refl _, fun _ => ⟨List.getLast?_concat, hend⟩, fun _ => rfl⟩
      · obtain ⟨hle, heq⟩ := ih hrest ⟨p.line + 1, 1⟩
          (Nat.sub_le_iff_le_add'.mpr hbytes)
        dsimp only at hle heq
        rw [Text.isBelow_line hrest line (by omega), ← heq]
        exact ⟨by omega, by omega, by omega⟩

end Position

theorem Finding.diagnostic_of_offset {finding : Finding} {offset : Nat}
    (h : finding.offset = some offset) (source : Text) : finding.diagnostic source =
      .located finding.message (source.positionAt offset).line
        (source.positionAt offset).column := by
  rw [Finding.diagnostic, h]
  rfl

theorem Excerpt.choose_eq_none_iff {line : Nat} (hpos : 0 < line) (emitted source : Text) :
    choose emitted (some source) line = none ↔
      emitted.lines.length < line ∧ source.lines.length < line := by
  rw [choose_eq hpos, Option.bind_some]
  split
  · next h => simp [Nat.not_lt.mpr h]
  · next h =>
    split
    · next hsource => simp [Nat.not_lt.mpr hsource]
    · next hsource => simp [Nat.lt_of_not_le h, Nat.lt_of_not_le hsource]

namespace Finding

/-- A finding that points into a text, its end included, is on one of the lines of that text and is
shown with an excerpt, unless it points below the last line. There the source has no excerpt to
show, and the failure comes without one if the emitted code has no more lines than the source. -/
theorem line_inside_iff_not_below {source : Text} (nonempty : source ≠ []) {finding : Finding}
    {offset : Nat} (located : finding.offset = some offset) (inside : offset ≤ source.byteSize) :
    finding.diagnostic source = .located finding.message (source.positionAt offset).line
        (source.positionAt offset).column ∧
    1 ≤ (source.positionAt offset).line ∧
    ((source.positionAt offset).line ≤ source.lines.length ↔ ¬source.IsBelow offset) ∧
    (Excerpt.render source (source.positionAt offset).line ≠ [] ↔ ¬source.IsBelow offset) ∧
    ∀ (compiled : CompiledSet) (sources : FileSet) (block : Occurrence)
      (document path emitted : Text) (skip : Bool),
      compiled.FailsAt path emitted (finding.diagnostic source) →
      sources.get? path = some ⟨source, skip⟩ →
      ∃ failure, compiled.check sources block document = .error failure ∧
        (failure.context = none ↔
          source.IsBelow offset ∧ emitted.lines.length ≤ source.lines.length) := by
  have hdiagnostic := diagnostic_of_offset located source
  have hpos : 1 ≤ (source.positionAt offset).line :=
    Position.line_le_advance Position.start source offset
  obtain ⟨hle, hbelow⟩ : (source.positionAt offset).line ≤ 1 + source.lines.length ∧
      ((source.positionAt offset).line = 1 + source.lines.length ↔ source.IsBelow offset) :=
    Position.line_advance_le_lines nonempty Position.start inside
  refine ⟨hdiagnostic, hpos, ?_, ?_, ?_⟩
  · rw [← hbelow]
    omega
  · rw [← hbelow, ne_eq, Excerpt.render_eq_nil_iff]
    omega
  · intro compiled sources block document path emitted skip hfails hsource
    refine ⟨_, hfails.check sources block document, ?_⟩
    rw [hdiagnostic, Diagnostic.failure_of_line rfl hpos, hsource]
    refine (Excerpt.choose_eq_none_iff hpos emitted source).trans ?_
    rw [← hbelow]
    omega

def unfinished : Text := "let a = \n"

def valueMissing : Finding := ⟨"Unexpected token", some 9⟩

def unfinishedSet : CompiledSet :=
  .ofList [("d/index.ts", ⟨[], [valueMissing.diagnostic unfinished], false⟩)]

theorem valueMissing_below :
    (unfinished ≠ [] ∧ valueMissing.offset = some 9 ∧ 9 ≤ unfinished.byteSize) ∧
    unfinished.lines.length < (unfinished.positionAt 9).line ∧
    ∃ failure, unfinishedSet.check (.ofList [("d/index.ts", .shown unfinished)])
      ⟨1, 5, 1, [], "d"⟩ "d.mdx" = .error failure ∧ failure.context = none := by
  have hlocated : valueMissing.offset = some 9 := rfl
  have hinside : 9 ≤ unfinished.byteSize := by decide
  have hbelow : unfinished.IsBelow 9 := ⟨rfl, rfl⟩
  obtain ⟨-, -, hline, -, hfails⟩ :=
    line_inside_iff_not_below (List.cons_ne_nil _ _) hlocated hinside
  obtain ⟨failure, hcheck, hcontext⟩ := hfails unfinishedSet
    (.ofList [("d/index.ts", .shown unfinished)]) ⟨1, 5, 1, [], "d"⟩ "d.mdx" "d/index.ts" [] false
    ⟨[], [], false, [], rfl, nofun⟩ rfl
  exact ⟨⟨List.cons_ne_nil _ _, hlocated, hinside⟩, Nat.lt_of_not_le fun h => hline.mp h hbelow,
    failure, hcheck, hcontext.mpr ⟨hbelow, Nat.zero_le _⟩⟩

theorem line_not_inside : ¬∀ (source : Text) (offset : Nat), source ≠ [] →
    offset ≤ source.byteSize → 1 ≤ (source.positionAt offset).line ∧
      (source.positionAt offset).line ≤ source.lines.length := by
  intro h
  have hline := (h unfinished 9 (List.cons_ne_nil _ _) (by decide)).2
  revert hline
  decide

end Finding

end CodeTabs
