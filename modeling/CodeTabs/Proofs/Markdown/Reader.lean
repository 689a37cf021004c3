import CodeTabs.Markdown.Document
import CodeTabs.Proofs.Text.Decimal
import CodeTabs.Proofs.Text.Position
import Mathlib.Data.Set.Function

/-!
What a reader of Markdown says about the module statements it hands on: where in the document they
are, and what becomes of the first that are refused. The reader of the small language does as much.
-/

namespace CodeTabs.Markdown

namespace Esm

theorem Refusal.complaint_injective (refusal : Refusal) : Function.Injective refusal.complaint := by
  intro place place' h
  obtain ⟨line, column⟩ := place
  obtain ⟨line', column'⟩ := place'
  have hdigit {n : Nat} : ∀ c ∈ Text.decimal n, c.isDigit = true := fun c hc =>
    Text.isDigit_of_mem_decimal hc
  simp only [complaint, List.append_assoc] at h
  obtain ⟨hline, hrest⟩ := Text.run_append_inj hdigit hdigit rfl rfl h
  obtain ⟨hcolumn, -⟩ := Text.run_append_inj hdigit hdigit rfl rfl (List.cons.inj hrest).2
  rw [Text.decimal_injective hline, Text.decimal_injective hcolumn]

end Esm

/-- The promises that come with a reader, apart from what tree it makes. A refusal is worded at the
place of the document that the byte of the block it names has there. -/
structure Reader.Documented (reader : Reader) : Prop where
  begins : ∀ {source start value}, (start, value) ∈ reader.blocks source →
    ∃ word ∈ Esm.starters, word <+: value
  inside : ∀ {source start value}, (start, value) ∈ reader.blocks source →
    ∃ before after, source = before ++ value ++ after ∧ Text.byteSize before = start
  place_injOn : ∀ source, Set.InjOn (reader.place source) {offset | offset ≤ source.byteSize}
  refused : ∀ {check source accepted start value others refusal},
    reader.blocks source = accepted ++ (start, value) :: others →
    (∀ block ∈ accepted, check block.2 = .ok ()) → check value = .error refusal →
      reader.read check source =
        .error (refusal.complaint (reader.place source (start + refusal.place)))

namespace Line

theorem chomp_append_drop (piece : Text) :
    piece.chomp ++ piece.drop piece.chomp.length = piece := by
  have hprefix : piece.chomp <+: piece := by
    unfold Text.chomp
    split
    · exact List.prefix_rfl
    · next line hline =>
      rw [Text.before?_eq_some_iff.mp hline]
      cases hreturn : Text.before? "\r" line with
      | none => exact List.prefix_append _ _
      | some content =>
        rw [Text.before?_eq_some_iff.mp hreturn, List.append_assoc]
        exact List.prefix_append _ _
  exact List.prefix_iff_eq_append.mp hprefix

theorem text_ofPieces (number offset : Nat) (pieces : List Text) :
    text (ofPieces number offset pieces) = pieces.flatten := by
  induction pieces generalizing number offset with
  | nil => rfl
  | cons piece pieces ih =>
    change piece.chomp ++ piece.drop piece.chomp.length ++ text (ofPieces _ _ pieces) = _
    rw [chomp_append_drop, ih, List.flatten_cons]

theorem exists_before_of_suffix {number offset : Nat} {pieces : List Text} {line : Line}
    {rest : List Line} (h : line :: rest <:+ ofPieces number offset pieces) :
    ∃ before, pieces.flatten = before ++ text (line :: rest) ∧
      line.offset = offset + Text.byteSize before := by
  induction pieces generalizing number offset with
  | nil => cases List.suffix_nil.mp h
  | cons piece pieces ih =>
    rcases List.suffix_cons_iff.mp h with heq | hsuffix
    · refine ⟨[], ?_, ?_⟩
      · rw [← text_ofPieces number offset, heq]
        rfl
      · rw [(List.cons.inj heq).1]
        rfl
    · obtain ⟨before, hflatten, hoffset⟩ := ih hsuffix
      refine ⟨piece ++ before, ?_, ?_⟩
      · rw [List.flatten_cons, hflatten, List.append_assoc]
      · rw [hoffset, Text.byteSize_append, Nat.add_assoc]

theorem content_prefix_join (line : Line) (rest : List Line) :
    line.content <+: join (line :: rest) := by
  cases rest with
  | nil => exact List.prefix_rfl
  | cons next rest =>
    change line.content <+: line.content ++ line.ending ++ join (next :: rest)
    rw [List.append_assoc]
    exact List.prefix_append _ _

theorem join_prefix_text (inside after : List Line) : join inside <+: text (inside ++ after) := by
  induction inside with
  | nil => exact List.nil_prefix
  | cons line inside ih =>
    cases inside with
    | nil =>
      change line.content <+: line.content ++ line.ending ++ text after
      rw [List.append_assoc]
      exact List.prefix_append _ _
    | cons next inside => exact (List.prefix_append_right_inj (line.content ++ line.ending)).mpr ih

end Line

theorem Fence.block_suffix (fence : Fence) (line : Line) (rest : List Line) :
    (fence.block line rest).2 <:+ rest :=
  (List.drop_suffix _ _).trans (List.drop_suffix _ _)

theorem listItems_suffix (fuel : Nat) (lines : List Line) : (listItems fuel lines).2 <:+ lines := by
  induction fuel generalizing lines with
  | zero => exact List.suffix_rfl
  | succ fuel ih =>
    cases lines with
    | nil => exact List.suffix_rfl
    | cons line rest =>
      rw [listItems]
      split
      · exact ((ih _).trans (List.dropWhile_suffix _)).trans (List.suffix_cons line rest)
      · exact List.suffix_rfl

theorem frontmatter?_suffix {lines after : List Line} {front : Node}
    (h : frontmatter? lines = some (front, after)) : after <:+ lines := by
  cases lines with
  | nil => cases h
  | cons line rest =>
    simp only [frontmatter?] at h
    split at h
    · cases h
    · next mark _ _ =>
      split at h
      · cases h
      · next close after' hclose =>
        obtain rfl := (Prod.mk.inj (Option.some.inj h)).2
        have hsuffix : close :: after' <:+ rest := by
          rw [← hclose]
          exact List.dropWhile_suffix _
        exact ((List.suffix_cons close after').trans hsuffix).trans (List.suffix_cons line rest)

/-- What a document begins with is passed over, is one node, or is module statements. -/
theorem parts_cons (fuel : Nat) (line : Line) (rest : List Line) : ∃ after,
    after <:+ line :: rest ∧ (parts (fuel + 1) (line :: rest) = parts fuel after ∨
      (∃ node, parts (fuel + 1) (line :: rest) = .markup node :: parts fuel after) ∨
      Esm.startsAt line = true ∧
        parts (fuel + 1) (line :: rest) = .ofStatements line rest :: parts fuel after) := by
  have hrest : rest <:+ line :: rest := List.suffix_cons line rest
  have hdrop (p : Line → Bool) : rest.dropWhile p <:+ line :: rest :=
    (List.dropWhile_suffix p).trans hrest
  rw [parts]
  split
  · exact ⟨rest, hrest, .inl rfl⟩
  split
  · exact ⟨rest, hrest, .inr (.inl ⟨_, rfl⟩)⟩
  split
  · exact ⟨_, (Fence.block_suffix _ line rest).trans hrest, .inr (.inl ⟨_, rfl⟩)⟩
  split
  · next hstarts => exact ⟨_, hdrop _, .inr (.inr ⟨hstarts, rfl⟩)⟩
  split
  · exact ⟨_, hdrop _, .inr (.inl ⟨_, rfl⟩)⟩
  split
  · exact ⟨(listItems (rest.length + 1) (line :: rest)).2, listItems_suffix _ _,
      .inr (.inl ⟨_, rfl⟩)⟩
  · exact ⟨_, hdrop _, .inr (.inl ⟨_, rfl⟩)⟩

theorem exists_line_of_mem_parts {all : List Line} {start : Nat} {value : Text} (fuel : Nat)
    {lines : List Line} (hlines : lines <:+ all)
    (h : (start, value) ∈ (parts fuel lines).filterMap Part.handed?) :
    ∃ line rest, line :: rest <:+ all ∧ Esm.startsAt line = true ∧ start = line.offset ∧
      value = Line.join (line :: rest.takeWhile (!·.isBlank)) := by
  induction fuel generalizing lines with
  | zero => cases h
  | succ fuel ih =>
    cases lines with
    | nil => cases h
    | cons line rest =>
      obtain ⟨after, hafter, hparts⟩ := parts_cons fuel line rest
      have hahead := hafter.trans hlines
      obtain hparts | ⟨node, hparts⟩ | ⟨hstarts, hparts⟩ := hparts <;> rw [hparts] at h
      · exact ih hahead h
      · exact ih hahead h
      · rcases List.mem_cons.mp h with heq | hlater
        · obtain ⟨rfl, rfl⟩ := Prod.mk.inj heq
          exact ⟨line, rest, hlines, hstarts, rfl, rfl⟩
        · exact ih hahead hlater

theorem exists_line_of_mem_blocks {source value : Text} {start : Nat}
    (h : (start, value) ∈ reader.blocks source) :
    ∃ line rest, line :: rest <:+ Line.ofText source ∧ Esm.startsAt line = true ∧
      start = line.offset ∧ value = Line.join (line :: rest.takeWhile (!·.isBlank)) := by
  change (start, value) ∈ (partsOf source).filterMap Part.handed? at h
  rw [partsOf] at h
  split at h
  · next front lines hfront =>
    exact exists_line_of_mem_parts _ (frontmatter?_suffix hfront) h
  · exact exists_line_of_mem_parts _ List.suffix_rfl h

theorem le_placeAt (number column : Nat) (text : Text) (bytes : Nat) :
    number < (placeAt number column text bytes).1 ∨
      number = (placeAt number column text bytes).1 ∧
        column ≤ (placeAt number column text bytes).2 := by
  induction text generalizing number column bytes with
  | nil => exact .inr ⟨rfl, Nat.le_add_right _ _⟩
  | cons c text ih =>
    rw [placeAt]
    split
    · exact .inr ⟨rfl, Nat.le_add_right _ _⟩
    · split
      · have h := ih (number + 1) 1 (bytes - c.utf8Size)
        omega
      · have h := ih number (column + c.utf8Size) (bytes - c.utf8Size)
        omega

theorem placeAt_lt (number column : Nat) (text : Text) {bytes more : Nat} (h : bytes < more) :
    (placeAt number column text bytes).1 < (placeAt number column text more).1 ∨
      (placeAt number column text bytes).1 = (placeAt number column text more).1 ∧
        (placeAt number column text bytes).2 < (placeAt number column text more).2 := by
  induction text generalizing number column bytes more with
  | nil => exact .inr ⟨rfl, Nat.add_lt_add_left h column⟩
  | cons c text ih =>
    rw [placeAt, placeAt]
    by_cases hmore : more < c.utf8Size
    · rw [if_pos hmore, if_pos (Nat.lt_trans h hmore)]
      exact .inr ⟨rfl, Nat.add_lt_add_left h column⟩
    · rw [if_neg hmore]
      by_cases hbytes : bytes < c.utf8Size
      · rw [if_pos hbytes]
        split
        · have hrest := le_placeAt (number + 1) 1 text (more - c.utf8Size)
          omega
        · have hrest := le_placeAt number (column + c.utf8Size) text (more - c.utf8Size)
          omega
      · rw [if_neg hbytes]
        have hrest : bytes - c.utf8Size < more - c.utf8Size := by omega
        split
        · exact ih (number + 1) 1 hrest
        · exact ih number (column + c.utf8Size) hrest

theorem placeAt_injective (number column : Nat) (text : Text) :
    Function.Injective (placeAt number column text) := by
  intro bytes other h
  rcases Nat.lt_trichotomy bytes other with hlt | heq | hlt
  · have hplaces := placeAt_lt number column text hlt
    rw [h] at hplaces
    omega
  · exact heq
  · have hplaces := placeAt_lt number column text hlt
    rw [h] at hplaces
    omega

theorem firstRefused?_append {check : Text → Except Esm.Refusal Unit}
    {accepted others : List (Nat × Text)} {start : Nat} {value : Text} {refusal : Esm.Refusal}
    (passed : ∀ block ∈ accepted, check block.2 = .ok ()) (stopped : check value = .error refusal) :
    firstRefused? check (accepted ++ (start, value) :: others) = some (start, refusal) := by
  induction accepted with
  | nil =>
    simp only [List.nil_append, firstRefused?, List.findSome?_cons, stopped]
  | cons block accepted ih =>
    obtain ⟨hblock, haccepted⟩ := List.forall_mem_cons.mp passed
    simp only [List.cons_append, firstRefused?, List.findSome?_cons, hblock]
    exact ih haccepted

theorem documented_reader : reader.Documented where
  begins h := by
    obtain ⟨line, rest, -, hstarts, -, rfl⟩ := exists_line_of_mem_blocks h
    rw [Esm.startsAt, Bool.and_eq_true, List.any_eq_true] at hstarts
    obtain ⟨-, word, hword, hprefix⟩ := hstarts
    refine ⟨word, hword, ?_⟩
    exact (List.isPrefixOf_iff_prefix.mp hprefix).trans (Line.content_prefix_join line _)
  inside h := by
    obtain ⟨line, rest, hsuffix, -, rfl, rfl⟩ := exists_line_of_mem_blocks h
    obtain ⟨before, hsource, hoffset⟩ := Line.exists_before_of_suffix hsuffix
    obtain ⟨after, hafter⟩ := Line.join_prefix_text (line :: rest.takeWhile (!·.isBlank))
      (rest.dropWhile (!·.isBlank))
    rw [List.cons_append, List.takeWhile_append_dropWhile] at hafter
    rw [Text.flatten_pieces, ← hafter, ← List.append_assoc] at hsource
    exact ⟨before, after, hsource, by omega⟩
  place_injOn source := (placeAt_injective 1 1 source).injOn
  refused {check source} _ _ _ _ _ hblocks passed stopped := by
    have hstatements : statementsOf source = _ := hblocks
    change readWith check source = _
    rw [readWith, hstatements, firstRefused?_append passed stopped]
    rfl

end CodeTabs.Markdown
