import CodeTabs.Proofs.Markdown.Reader
import CodeTabs.Transpiler.Source

/-!
The place that is reported for a flaw in module statements. A reader of Markdown asks for the byte
of the block at which the flaw is, and is given the number of the line. So no flaw is reported
where it is in the document, unless it stands at the second byte of the block.
-/

namespace CodeTabs.Markdown.Esm

theorem plain_of_mem_starters :
    ∀ word ∈ starters, '\n' ∉ word ∧ word.length = 7 ∧ word.byteSize = 7 := by decide

section Statements

variable {value : Text} {offset : Nat}

/-- Module statements begin with a word and a space, and from there on every offset is greater than
the number of its line. -/
theorem line_eq_offset_iff (begins : ∃ word ∈ starters, word <+: value) (offset : Nat) :
    (value.positionAt offset).line = offset ↔ offset = 1 := by
  obtain ⟨word, hword, rest, rfl⟩ := begins
  obtain ⟨hplain, hlength, -⟩ := plain_of_mem_starters word hword
  have hfirst : 1 ≤ (Text.positionAt (word ++ rest) offset).line :=
    Position.line_le_advance Position.start (word ++ rest) offset
  have hlast : (Text.positionAt (word ++ rest) offset).line ≤ 1 + (offset - word.length) :=
    Position.line_advance_append_le hplain Position.start rest offset
  omega

theorem line_le_byteSize (begins : ∃ word ∈ starters, word <+: value)
    (inside : offset ≤ value.byteSize) : (value.positionAt offset).line ≤ value.byteSize := by
  obtain ⟨word, hword, rest, rfl⟩ := begins
  obtain ⟨hplain, hlength, hword⟩ := plain_of_mem_starters word hword
  have hsize : Text.byteSize (word ++ rest) = 7 + Text.byteSize rest := by
    rw [Text.byteSize_append, hword]
  have hlast : (Text.positionAt (word ++ rest) offset).line ≤ 1 + (offset - word.length) :=
    Position.line_advance_append_le hplain Position.start rest offset
  omega

theorem check_of_first {statements : Text → List Finding} {finding : Finding}
    {others : List Finding} (first : statements value = finding :: others)
    (located : finding.offset = some offset) :
    ∃ refusal, check statements value = .error refusal ∧
      refusal.whereabouts = "at line " ++ Text.decimal (value.positionAt offset).line ++
        ", column " ++ Text.decimal (value.positionAt offset).column ∧
      refusal.place = (value.positionAt offset).line := by
  have hoffset : finding.offset.getD 0 = offset := by
    rw [located]
    rfl
  refine ⟨refusal value finding, by rw [check, first], ?_, ?_⟩
  · unfold refusal
    rw [hoffset]
  · unfold refusal
    rw [hoffset]

end Statements

section Documents

variable {statements : Text → List Finding} {reader : Reader} {source value : Text} {start : Nat}
  {accepted others : List (Nat × Text)} {refusal : Refusal}

theorem parseWith_refused (documented : reader.Documented)
    (handed : reader.blocks source = accepted ++ (start, value) :: others)
    (passed : ∀ block ∈ accepted, statements block.2 = [])
    (stopped : check statements value = .error refusal) :
    parseWith reader statements source = .error (Cause.unparsable
      (refusal.complaint (reader.place source (start + refusal.place)))).failure := by
  have haccepted : ∀ block ∈ accepted, check statements block.2 = .ok () := by
    intro block hblock
    rw [check, passed block hblock]
  rw [parseWith, documented.refused handed haccepted stopped]

theorem place_add_inj (documented : reader.Documented)
    (handed : (start, value) ∈ reader.blocks source) {offset offset' : Nat}
    (inside : offset ≤ value.byteSize) (inside' : offset' ≤ value.byteSize) :
    reader.place source (start + offset) = reader.place source (start + offset') ↔
      offset = offset' := by
  obtain ⟨before, after, hsource, hbefore⟩ := documented.inside handed
  have hsize : source.byteSize = start + value.byteSize + after.byteSize := by
    rw [hsource, Text.byteSize_append, Text.byteSize_append, hbefore]
  have hmem {offset : Nat} (h : offset ≤ value.byteSize) :
      start + offset ∈ {offset | offset ≤ source.byteSize} := by
    change start + offset ≤ source.byteSize
    omega
  rw [(documented.place_injOn source).eq_iff (hmem inside) (hmem inside')]
  exact Nat.add_left_cancel_iff

end Documents

/-- Whatever parser checks a block, the number of a line is handed on for the place of the first
thing that it finds. Whatever reader handed on the block, the document is not parsed, and the place
that it is told is the right one only for what is found at the second byte. -/
theorem parse_refusal_place {reader : Reader} (documented : reader.Documented)
    {statements : Text → List Finding} {source value : Text} {start : Nat}
    {accepted later : List (Nat × Text)}
    (handed : reader.blocks source = accepted ++ (start, value) :: later)
    (passed : ∀ block ∈ accepted, statements block.2 = []) {finding : Finding}
    {others : List Finding} {offset : Nat} (first : statements value = finding :: others)
    (located : finding.offset = some offset) (inside : offset ≤ value.byteSize) :
    ∃ refusal, check statements value = .error refusal ∧
      refusal.whereabouts = "at line " ++ Text.decimal (value.positionAt offset).line ++
        ", column " ++ Text.decimal (value.positionAt offset).column ∧
      refusal.place = (value.positionAt offset).line ∧
      (refusal.place = offset ↔ offset = 1) ∧
      parseWith reader statements source = .error (Cause.unparsable
        (refusal.complaint (reader.place source (start + refusal.place)))).failure ∧
      (parseWith reader statements source = .error (Cause.unparsable
        (refusal.complaint (reader.place source (start + offset)))).failure ↔ offset = 1) := by
  obtain ⟨refusal, hcheck, hwhere, hplace⟩ := check_of_first first located
  have hmem : (start, value) ∈ reader.blocks source := by
    rw [handed]
    exact List.mem_append_right _ List.mem_cons_self
  have hbegins := documented.begins hmem
  have hline : refusal.place = offset ↔ offset = 1 := by
    rw [hplace]
    exact line_eq_offset_iff hbegins offset
  have hinside : refusal.place ≤ value.byteSize := by
    rw [hplace]
    exact line_le_byteSize hbegins inside
  have hparse := parseWith_refused documented handed passed hcheck
  refine ⟨refusal, hcheck, hwhere, hplace, hline, hparse, ?_⟩
  rw [hparse, ← hline]
  constructor
  · intro h
    have hmessage := congrArg Failure.message (Except.error.inj h)
    have hplaces := refusal.complaint_injective (List.append_cancel_left hmessage)
    exact (place_add_inj documented hmem hinside inside).mp hplaces
  · intro h
    rw [h]

def unseparated : Text := "import a from 'a'\nfoo bar"

theorem findings_unseparated :
    findings unseparated = [⟨Script.Fault.missingSemicolon.message, some 21⟩] := by decide +kernel

theorem blocks_unseparated :
    reader.blocks (unseparated ++ "\n") = [] ++ [(0, unseparated)] := rfl

theorem parse_unseparated :
    (reader.Documented ∧ reader.blocks (unseparated ++ "\n") = [] ++ [(0, unseparated)] ∧
      findings unseparated = [⟨Script.Fault.missingSemicolon.message, some 21⟩] ∧
      21 ≤ unseparated.byteSize) ∧
    ∃ refusal, check findings unseparated = .error refusal ∧
      refusal.whereabouts = "at line 2, column 4" ∧ refusal.place = 2 ∧
      parse (unseparated ++ "\n") =
        .error (Cause.unparsable (refusal.complaint (1, 3))).failure ∧
      parse (unseparated ++ "\n") ≠
        .error (Cause.unparsable (refusal.complaint (2, 4))).failure := by
  have hinside : 21 ≤ unseparated.byteSize := by decide
  obtain ⟨refusal, hcheck, hwhere, hplace, -, hparse, hright⟩ :=
    parse_refusal_place documented_reader blocks_unseparated nofun findings_unseparated rfl hinside
  have hline : refusal.place = 2 := hplace.trans (by decide)
  rw [hline] at hparse
  refine ⟨⟨documented_reader, blocks_unseparated, findings_unseparated, hinside⟩, refusal, hcheck,
    hwhere.trans (by decide), hline, hparse, fun h => ?_⟩
  exact absurd (hright.mp h) (by decide)

theorem refusal_place_ne_offset : ¬∀ (reader : Reader) (source value : Text) (start : Nat)
    (statements : Text → List Finding) (finding : Finding) (others : List Finding) (offset : Nat)
    (refusal : Refusal), reader.Documented → (start, value) ∈ reader.blocks source →
      statements value = finding :: others → finding.offset = some offset →
        offset ≤ value.byteSize → check statements value = .error refusal →
          refusal.place = offset := by
  intro h
  have hmem : (0, unseparated) ∈ reader.blocks (unseparated ++ "\n") := by
    rw [blocks_unseparated]
    exact List.mem_singleton_self _
  have hplace := h reader _ unseparated 0 findings _ [] 21 _ documented_reader hmem
    findings_unseparated rfl (by decide) (by rw [check, findings_unseparated])
  revert hplace
  decide

end CodeTabs.Markdown.Esm
