import CodeTabs.Proofs.Files.MarkerLines
import CodeTabs.Proofs.Text.Words

/-!
The grammar of marker lines. `Parts` divides a line at the end of its path, and what may stand
behind the path is said by `EndsLine`. `Match` follows the pattern that a line has to match, part
by part; a line can match it in more than one way, and all of them come to the same marker.
-/

namespace CodeTabs

def blanks : List Nat :=
  [9, 10, 11, 12, 13, 0x20, 0x85, 0xA0, 0x1680, 0x2000, 0x2001, 0x2002, 0x2003, 0x2004, 0x2005,
    0x2006, 0x2007, 0x2008, 0x2009, 0x200A, 0x2028, 0x2029, 0x202F, 0x205F, 0x3000]

theorem toNat_mem_blanks {c : Char} (h : isBlank c = true) : c.toNat ∈ blanks := by
  simp only [isBlank, Bool.or_eq_true, Bool.and_eq_true, decide_eq_true_eq, beq_iff_eq] at h
  simp only [blanks, List.mem_cons, List.not_mem_nil, or_false]
  omega

namespace Marker

theorem isPathChar_of_isBlank {c : Char} (h : isBlank c = true) : isPathChar c = false := by
  have hnone : ∀ n ∈ blanks, isPathChar (Char.ofNat n) = false := by decide +kernel
  have hc := hnone c.toNat (toNat_mem_blanks h)
  rwa [Char.ofNat_toNat] at hc

structure Parts (line path tail : Text) : Prop where
  line_eq : line = opening ++ (path ++ tail)
  ne_nil : path ≠ []
  chars : ∀ c ∈ path, isPathChar c = true
  longest : ∀ run, run <+: path ++ tail → (∀ c ∈ run, isPathChar c = true) →
    run.length ≤ path.length

def EndsLine (tail : Text) : Prop :=
  tail.isBlank = true ∨ tail.head? = some ' ' ∧
    ∃ front space, tail = front ++ space ∧ '\n' ∉ front ∧ space.isBlank = true

theorem parts_iff {line path tail : Text} : Parts line path tail ↔
    path ≠ [] ∧ ∃ rest, line = opening ++ rest ∧ rest.takeWhile isPathChar = path ∧
      rest.dropWhile isPathChar = tail := by
  constructor
  · intro h
    have hrun := h.longest (path ++ tail.takeWhile isPathChar)
      ((List.prefix_append_right_inj path).mpr (List.takeWhile_prefix isPathChar))
      (List.forall_mem_append.mpr ⟨h.chars, List.all_eq_true.mp List.all_takeWhile⟩)
    have hnil : tail.takeWhile isPathChar = [] := by
      apply List.eq_nil_of_length_eq_zero
      rw [List.length_append] at hrun
      omega
    have htail : tail.dropWhile isPathChar = tail := by
      have hsplit := List.takeWhile_append_dropWhile (p := isPathChar) (l := tail)
      rwa [hnil] at hsplit
    refine ⟨h.ne_nil, path ++ tail, h.line_eq, ?_, ?_⟩
    · rw [List.takeWhile_append_of_pos h.chars, hnil, List.append_nil]
    · rw [List.dropWhile_append_of_pos h.chars, htail]
  · rintro ⟨hne, rest, rfl, rfl, rfl⟩
    refine ⟨by rw [List.takeWhile_append_dropWhile], hne,
      List.all_eq_true.mp List.all_takeWhile, ?_⟩
    rintro run ⟨more, hrun⟩ hchars
    rw [List.takeWhile_append_dropWhile] at hrun
    rw [← hrun, List.takeWhile_append_of_pos hchars, List.length_append]
    omega

theorem parts_of_head {path tail : Text} (hne : path ≠ [])
    (hchars : ∀ c ∈ path, isPathChar c = true) (hend : ∀ c ∈ tail.head?, isPathChar c = false) :
    Parts (opening ++ (path ++ tail)) path tail := by
  refine parts_iff.mpr ⟨hne, path ++ tail, rfl, ?_, ?_⟩
  · rw [List.takeWhile_append_of_pos hchars]
    cases tail with
    | nil => simp
    | cons c tail => simp [hend c rfl]
  · rw [List.dropWhile_append_of_pos hchars]
    cases tail with
    | nil => rfl
    | cons c tail => simp [hend c rfl]

theorem isTail_iff {tail : Text} : isTail tail = true ↔ EndsLine tail := by
  simp only [isTail, EndsLine, Bool.or_eq_true, Bool.and_eq_true, beq_iff_eq, Bool.not_eq_true',
    List.contains_eq_mem, decide_eq_false_iff_not]
  apply or_congr Iff.rfl
  apply and_congr Iff.rfl
  constructor
  · intro h
    obtain ⟨space, htail, hspace⟩ := Text.exists_dropEndWhile isBlank tail
    exact ⟨tail.trimEnd, space, htail, h, hspace⟩
  · rintro ⟨front, space, rfl, hfront, hspace⟩ hmem
    rw [Text.trimEnd_append_blank front hspace] at hmem
    obtain ⟨rest, hrest, -⟩ := Text.exists_dropEndWhile isBlank front
    have hsublist : front.trimEnd <+: front := ⟨rest, hrest.symm⟩
    exact hfront (hsublist.subset hmem)

theorem parse?_iff_parts {line : Text} {marker : Marker} : parse? line = some marker ↔
    ∃ tail, Parts line marker.path tail ∧ EndsLine tail ∧ Text.Spaced tail marker.flags := by
  rw [parse?_eq_some_iff]
  constructor
  · rintro ⟨rest, hline, hpath, htail, rfl⟩
    exact ⟨_, parts_iff.mpr ⟨hpath, rest, hline, rfl, rfl⟩, isTail_iff.mp htail,
      Text.spaced_words _⟩
  · rintro ⟨tail, hparts, htail, hflags⟩
    obtain ⟨hne, rest, hline, hpath, rfl⟩ := parts_iff.mp hparts
    refine ⟨rest, hline, hpath ▸ hne, isTail_iff.mpr htail, ?_⟩
    rw [hpath, hflags.words_eq]

/-- The ways in which a line matches: a path, then perhaps a space and a text on one line, then
white space up to the end. -/
inductive Match (line : Text) : (path : Text) → (text : Option Text) → Prop
  | bare {path space : Text} (hline : line = opening ++ (path ++ space)) (hne : path ≠ [])
      (hchars : ∀ c ∈ path, isPathChar c = true) (hspace : space.isBlank = true) :
      Match line path none
  | flagged {path text space : Text} (hline : line = opening ++ (path ++ ' ' :: (text ++ space)))
      (hne : path ≠ []) (hchars : ∀ c ∈ path, isPathChar c = true) (htext : '\n' ∉ text)
      (hspace : space.isBlank = true) : Match line path (some text)

theorem Match.parse?_eq {line path : Text} {text : Option Text} (h : Match line path text) :
    parse? line = some ⟨path, text.elim [] Text.words⟩ := by
  apply parse?_iff_parts.mpr
  cases h with
  | @bare space hline hne hchars hspace =>
    refine ⟨space, hline ▸ parts_of_head hne hchars ?_, .inl hspace, .blank hspace⟩
    intro c hc
    exact isPathChar_of_isBlank (List.all_eq_true.mp hspace c (List.mem_of_head? hc))
  | @flagged text space hline hne hchars htext hspace =>
    refine ⟨' ' :: (text ++ space), hline ▸ parts_of_head hne hchars ?_, .inr ⟨rfl, ?_⟩, ?_⟩
    · intro c hc
      obtain rfl : ' ' = c := by simpa using hc
      decide
    · exact ⟨' ' :: text, space, rfl, by simp [htext], hspace⟩
    · apply Text.spaced_iff.mpr
      have hlead : Text.isBlank [' '] = true := by decide
      exact (Text.words_blank_append hlead (text ++ space)).trans
        (Text.words_append_blank text hspace)

theorem exists_match {line : Text} {marker : Marker} (h : parse? line = some marker) :
    ∃ text, Match line marker.path text := by
  obtain ⟨tail, hparts, htail, -⟩ := parse?_iff_parts.mp h
  rcases htail with hblank | ⟨hhead, front, space, rfl, hfront, hspace⟩
  · exact ⟨none, .bare hparts.line_eq hparts.ne_nil hparts.chars hblank⟩
  · cases front with
    | nil => exact ⟨none, .bare hparts.line_eq hparts.ne_nil hparts.chars hspace⟩
    | cons c text =>
      obtain rfl : c = ' ' := by simpa using hhead
      have htext : '\n' ∉ text := fun hmem => hfront (List.mem_cons_of_mem _ hmem)
      exact ⟨some text, .flagged hparts.line_eq hparts.ne_nil hparts.chars htext hspace⟩

theorem parse?_iff_match {line : Text} {marker : Marker} : parse? line = some marker ↔
    ∃ text, Match line marker.path text ∧ text.elim [] Text.words = marker.flags := by
  constructor
  · intro h
    obtain ⟨text, hmatch⟩ := exists_match h
    have hmarker := Option.some.inj (hmatch.parse?_eq.symm.trans h)
    exact ⟨text, hmatch, congrArg Marker.flags hmarker⟩
  · rintro ⟨text, hmatch, hflags⟩
    rw [hmatch.parse?_eq, hflags]

structure Writable (marker : Marker) : Prop where
  ne_nil : marker.path ≠ []
  chars : ∀ c ∈ marker.path, isPathChar c = true
  flags : ∀ flag ∈ marker.flags, flag ≠ [] ∧ ∀ c ∈ flag, isBlank c = false

theorem writable_iff {marker : Marker} : marker.Writable ↔ marker.path ≠ [] ∧
    marker.path.all isPathChar = true ∧
      marker.flags.all (fun flag => flag ≠ [] && flag.all (!isBlank ·)) = true := by
  simp only [List.all_eq_true, Bool.and_eq_true, decide_eq_true_eq, Bool.not_eq_true']
  constructor
  · rintro ⟨hne, hchars, hflags⟩
    exact ⟨hne, hchars, hflags⟩
  · rintro ⟨hne, hchars, hflags⟩
    exact ⟨hne, hchars, hflags⟩

instance (marker : Marker) : Decidable marker.Writable := decidable_of_iff' _ writable_iff

def written (marker : Marker) : Text := line marker.path ++ marker.flags.flatMap (' ' :: ·)

theorem Writable.parse?_written {marker : Marker} (h : marker.Writable) :
    parse? marker.written = some marker := by
  have hfeed : '\n' ∉ marker.flags.flatMap (' ' :: ·) := by
    intro hmem
    obtain ⟨flag, hflag, hmem⟩ := List.mem_flatMap.mp hmem
    rcases List.mem_cons.mp hmem with heq | hmem
    · exact absurd heq (by decide)
    · exact absurd ((h.flags flag hflag).2 _ hmem) (by decide)
  have hwords := Text.spaced_iff.mpr (Text.words_flatMap_space h.flags)
  apply parse?_iff_parts.mpr
  refine ⟨marker.flags.flatMap (' ' :: ·), ?_, ?_, hwords⟩
  · rw [written, line, List.append_assoc]
    apply parts_of_head h.ne_nil h.chars
    cases marker.flags with
    | nil => simp
    | cons flag others =>
      intro c hc
      obtain rfl : ' ' = c := by simpa using hc
      decide
  · cases hflags : marker.flags with
    | nil => exact .inl rfl
    | cons flag others =>
      rw [hflags] at hfeed
      exact .inr ⟨rfl, _, [], (List.append_nil _).symm, hfeed, rfl⟩

/-- A line is a marker just when it divides so; the marker has its path and the words of its tail.
It is the same marker for every way to match the line, and a marker that is written is read back. -/
theorem parse?_grammar :
    (∀ (line : Text) (marker : Marker), parse? line = some marker ↔
      ∃ tail, Parts line marker.path tail ∧ EndsLine tail ∧ Text.Spaced tail marker.flags) ∧
    (∀ (line : Text) (marker : Marker), parse? line = some marker ↔
      ∃ text, Match line marker.path text ∧ text.elim [] Text.words = marker.flags) ∧
    ∀ marker : Marker, marker.Writable → parse? marker.written = some marker :=
  ⟨fun _ _ => parse?_iff_parts, fun _ _ => parse?_iff_match, fun _ h => h.parse?_written⟩

def page : Marker := ⟨"src/pages/[id].tsx", ["noEmit", "other", "noEmit"]⟩

theorem parse?_page : page.Writable ∧ parse? page.written = some page ∧
    (∃ tail, Parts page.written page.path tail ∧ EndsLine tail ∧ Text.Spaced tail page.flags) ∧
    ∃ text, Match page.written page.path text ∧ text.elim [] Text.words = page.flags := by
  have writable : page.Writable := by decide
  have hread := parse?_grammar.2.2 page writable
  exact ⟨writable, hread, (parse?_grammar.1 _ _).mp hread, (parse?_grammar.2.1 _ _).mp hread⟩

example : parse? "// file: a.ts x\ny" = none ∧ parse? "// file: a.ts\tx" = none ∧
    parse? "// file: a.ts  x\u2003x \n\r" = some ⟨"a.ts", ["x", "x"]⟩ := by decide

end Marker

end CodeTabs
