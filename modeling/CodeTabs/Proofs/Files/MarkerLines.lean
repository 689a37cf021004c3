import CodeTabs.Files.Split
import CodeTabs.Proofs.Text.Lines

/-!
The line that opens a file reads as the marker of that file. A text none of whose lines is a marker
stays such a text when line feeds are put behind it.
-/

namespace CodeTabs

namespace Marker

theorem ne_of_isPathChar {c : Char} (h : isPathChar c = true) : c ≠ '\n' ∧ c ≠ '\r' := by
  constructor
  · intro heq
    rw [heq] at h
    exact absurd h (by decide)
  · intro heq
    rw [heq] at h
    exact absurd h (by decide)

theorem line_feed_not_mem_line {name : Text} (h : name.all isPathChar = true) :
    '\n' ∉ line name := by
  intro hmem
  rcases List.mem_append.mp hmem with hopening | hname
  · exact absurd hopening (by decide)
  · exact (ne_of_isPathChar (List.all_eq_true.mp h _ hname)).1 rfl

theorem body_line {name : Text} (hne : name ≠ []) (h : name.all isPathChar = true) :
    (line name).body = line name := by
  have hline : line name ≠ [] := List.append_ne_nil_of_right_ne_nil _ hne
  have hlast : (line name).getLast hline = name.getLast hne :=
    List.getLast_append_of_ne_nil hline hne
  have hchar := ne_of_isPathChar (List.all_eq_true.mp h _ (List.getLast_mem hne))
  rw [Text.body, Text.dropEndWhile_eq_rdropWhile, List.rdropWhile_eq_self_iff]
  intro hl
  rw [hlast]
  simp [hchar.1, hchar.2]

theorem parse?_line {name : Text} (hne : name ≠ []) (h : name.all isPathChar = true) :
    parse? (line name) = some ⟨name, []⟩ := by
  have hafter : Text.after? opening (line name) = some name := Text.after?_eq_some_iff.mpr rfl
  have hchars := List.all_eq_true.mp h
  have hpath : name.takeWhile isPathChar = name := List.takeWhile_eq_self_iff.mpr hchars
  have htail : name.dropWhile isPathChar = [] := List.dropWhile_eq_nil_iff.mpr hchars
  have hempty : name.isEmpty = false := by simpa using hne
  simp only [parse?, hafter, hpath, htail, hempty]
  rfl

theorem parse?_eq_some_iff {line : Text} {marker : Marker} :
    parse? line = some marker ↔ ∃ rest, line = opening ++ rest ∧
      rest.takeWhile isPathChar ≠ [] ∧ isTail (rest.dropWhile isPathChar) = true ∧
      marker = ⟨rest.takeWhile isPathChar, Text.words (rest.dropWhile isPathChar)⟩ := by
  unfold parse?
  cases hafter : Text.after? opening line with
  | none =>
    constructor
    · intro h
      cases h
    · rintro ⟨rest, hline, -⟩
      rw [Text.after?_eq_some_iff.mpr hline] at hafter
      cases hafter
  | some rest =>
    have hline := Text.after?_eq_some_iff.mp hafter
    have hrest : ∀ other, line = opening ++ other → other = rest :=
      fun other hother => List.append_cancel_left (hother.symm.trans hline)
    simp only [Option.ite_none_right_eq_some, Bool.and_eq_true, Bool.not_eq_true',
      List.isEmpty_eq_false_iff, Option.some.injEq]
    constructor
    · rintro ⟨⟨hpath, htail⟩, rfl⟩
      exact ⟨rest, hline, hpath, htail, rfl⟩
    · rintro ⟨other, hother, hpath, htail, rfl⟩
      obtain rfl := hrest other hother
      exact ⟨⟨hpath, htail⟩, rfl⟩

theorem path_of_parse? {line : Text} {marker : Marker} (h : parse? line = some marker) :
    marker.path ≠ [] ∧ marker.path.all isPathChar = true := by
  obtain ⟨rest, -, hpath, -, rfl⟩ := parse?_eq_some_iff.mp h
  exact ⟨hpath, List.all_takeWhile⟩

theorem ink_pos_of_parse? {line : Text} (h : (parse? line).isSome = true) : 0 < line.ink := by
  obtain ⟨marker, hmarker⟩ := Option.isSome_iff_exists.mp h
  obtain ⟨rest, rfl, -⟩ := parse?_eq_some_iff.mp hmarker
  have hopening : 0 < Text.ink opening := by decide
  rw [Text.ink_append]
  omega

theorem isTail_append_blank {tail space : Text} (h : isTail tail = true)
    (hspace : space.isBlank = true) : isTail (tail ++ space) = true := by
  rw [isTail, Text.isBlank_append, Text.trimEnd_append_blank tail hspace, hspace, Bool.and_true]
  cases tail with
  | nil => rfl
  | cons c tail => exact h

theorem isSome_parse?_append_blank {line space : Text} (h : (parse? line).isSome = true)
    (hspace : space.isBlank = true) : (parse? (line ++ space)).isSome = true := by
  obtain ⟨marker, hmarker⟩ := Option.isSome_iff_exists.mp h
  obtain ⟨rest, rfl, hpath, htail, -⟩ := parse?_eq_some_iff.mp hmarker
  refine Option.isSome_iff_exists.mpr ⟨_, parse?_eq_some_iff.mpr
    ⟨rest ++ space, List.append_assoc _ _ _, ?_, ?_, rfl⟩⟩
  · rw [List.takeWhile_append]
    split
    · exact List.append_ne_nil_of_left_ne_nil (fun hnil => hpath (by rw [hnil]; rfl)) _
    · exact hpath
  · rw [List.dropWhile_append]
    split
    · have hblank : Text.isBlank (space.dropWhile isPathChar) = true :=
        Text.isBlank_of_subset hspace (List.dropWhile_sublist _).subset
      rw [isTail, hblank]
      rfl
    · exact isTail_append_blank htail hspace

end Marker

namespace Block

def marker? (line : Text) : Option Marker := Marker.parse? line.body

def Unmarked (text : Text) : Prop := ∀ line ∈ text.pieces, marker? line = none

instance (text : Text) : Decidable (Unmarked text) :=
  inferInstanceAs (Decidable (∀ line ∈ text.pieces, marker? line = none))

theorem marker?_line {name : Text} (hne : name ≠ []) (h : name.all Marker.isPathChar = true) :
    marker? (Marker.line name ++ ['\n']) = some ⟨name, []⟩ := by
  rw [marker?, Text.body_concat, Marker.body_line hne h]
  exact Marker.parse?_line hne h

theorem Unmarked.concat {text : Text} (h : Unmarked text) : Unmarked (text ++ ['\n']) := by
  intro line hline
  rw [marker?]
  rcases Text.body_of_mem_pieces_concat hline with hbody | ⟨old, hold, hbody⟩
  · rw [hbody]
    rfl
  · rw [hbody]
    exact h old hold

theorem Unmarked.append_replicate {text : Text} (h : Unmarked text) (n : Nat) :
    Unmarked (text ++ List.replicate n '\n') := by
  induction n with
  | zero => simpa using h
  | succ n ih =>
    rw [List.replicate_succ', ← List.append_assoc]
    exact ih.concat

theorem isSome_marker?_append_blank {line space : Text} (h : (marker? line).isSome = true)
    (hspace : space.isBlank = true) : (marker? (line ++ space)).isSome = true := by
  obtain ⟨more, hbody, hmore⟩ := Text.exists_body_append line hspace
  rw [marker?, hbody]
  exact Marker.isSome_parse?_append_blank h hmore

def opensMarked (text : Text) : Bool := (text.pieces.head?.bind marker?).isSome

theorem Unmarked.opensMarked {text : Text} (h : Unmarked text) : opensMarked text = false := by
  unfold Block.opensMarked
  cases hhead : text.pieces.head? with
  | none => rfl
  | some line => simp [h line (List.mem_of_head? hhead)]

theorem pieces_of_opensMarked {text space : Text} (h : opensMarked text = true)
    (hspace : space.isBlank = true) : ∃ line others,
      Text.pieces (text ++ space) = line :: others ∧ (marker? line).isSome = true := by
  unfold opensMarked at h
  cases hhead : text.pieces.head? with
  | none => simp [hhead] at h
  | some line =>
    rw [hhead] at h
    rw [List.head?_eq_getElem?] at hhead
    obtain ⟨more, hmore, hstart⟩ := Text.getElem?_pieces_append hhead space
    rw [← List.head?_eq_getElem?] at hmore
    obtain ⟨others, hothers⟩ := List.head?_eq_some_iff.mp hmore
    exact ⟨line ++ more, others, hothers,
      isSome_marker?_append_blank h (Text.isBlank_of_subset hspace hstart.subset)⟩

theorem Unmarked.trim_iff {text : Text} (h : Unmarked text) :
    Unmarked text.trim ↔ Block.opensMarked text.trim = false := by
  -- Trimming changes the first and the last line only, and what is cut off at the end cannot keep a
  -- line from being a marker.
  refine ⟨fun htrim => htrim.opensMarked, fun hopen => ?_⟩
  obtain ⟨lead, tail, htext, -, htail⟩ := Text.exists_trim text
  intro line hline
  obtain ⟨i, hi⟩ := List.mem_iff_getElem?.mp hline
  cases i with
  | zero =>
    rw [← List.head?_eq_getElem?] at hi
    simpa [Block.opensMarked, hi] using hopen
  | succ i =>
    obtain ⟨more, hmore, hstart⟩ := Text.getElem?_pieces_append hi tail
    have hblank : more.isBlank = true := Text.isBlank_of_subset htail hstart.subset
    have hmem : line ++ more ∈ text.pieces := by
      have htail : (line ++ more) ∈ (Text.pieces (text.trim ++ tail)).tail :=
        List.mem_iff_getElem?.mpr ⟨i, by rw [List.getElem?_tail, hmore]⟩
      have hsuffix := Text.tail_pieces_append lead (text.trim ++ tail)
      rw [← htext] at hsuffix
      exact List.mem_of_mem_tail (hsuffix.subset htail)
    cases hmarker : marker? line with
    | none => rfl
    | some marker =>
      have hsome := isSome_marker?_append_blank (by rw [hmarker]; rfl) hblank
      rw [h _ hmem] at hsome
      cases hsome

end Block

end CodeTabs
