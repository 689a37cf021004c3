import CodeTabs.Proofs.Files.Ink

/-!
What is shown of a block splits into the same files again, unless the code of one of several files
begins with an indented marker: trimming takes the white space in front of it, and the line opens a
file. A file more cannot make up for it, since such a line would be ink that is lost.
-/

namespace CodeTabs

namespace Block

open FileSet (markedSection respaced separator)

theorem placed_of_mem_split {raw folder : Text} {e : Text × SourceFile}
    (h : e ∈ (split raw folder).entries) : ∃ name, Placed folder name e := by
  obtain ⟨name, hname, hpath, -⟩ := exists_name_of_mem_split h
  obtain ⟨hne, hchars⟩ := name_of_mem_names hname
  exact ⟨name, hpath, hne, hchars⟩

theorem mem_entries_of_mem_emitted {files : FileSet} {e : Text × SourceFile}
    (h : e ∈ files.emitted) : e ∈ files.entries := (List.mem_filter.mp h).1

theorem placed_emitted (raw folder : Text) :
    ∀ e ∈ (split raw folder).emitted, ∃ name, Placed folder name e :=
  fun _ he => placed_of_mem_split (mem_entries_of_mem_emitted he)

theorem regions_of_unmarked {text : Text} (h : Unmarked text) :
    regions text.pieces = (text, []) := by
  have hregions := regions_append_code h []
  rw [List.append_nil, Text.flatten_pieces] at hregions
  rw [hregions, regions, List.append_nil]

theorem entries_split_of_unmarked {text : Text} (h : Unmarked text) (folder : Text) :
    (split text folder).entries = [(filePath folder defaultName, .shown text)] := by
  have hparts : parts text = [(defaultName, .shown text)] := by
    simp [parts, regions_of_unmarked h, SourceFile.shown]
  rw [split_eq_collect, hparts]
  rfl

theorem assemble_split_of_unmarked {text : Text} (h : Unmarked text) (folder : Text) :
    (split text folder).assemble folder = text := by
  have hemitted : (split text folder).emitted =
      [(filePath folder defaultName, .shown text)] := by
    rw [FileSet.emitted, entries_split_of_unmarked h]
    rfl
  rw [FileSet.assemble, hemitted]
  rfl

theorem unmarked_assemble_of_few {raw folder : Text}
    (few : (split raw folder).emitted.length < 2) :
    Unmarked ((split raw folder).assemble folder) := by
  unfold FileSet.assemble
  split
  · next path only hemitted =>
    have hmem : (path, only) ∈ (split raw folder).emitted := by simp [hemitted]
    exact unmarked_of_mem_split (mem_entries_of_mem_emitted hmem)
  · next hsingle =>
    have hnil : (split raw folder).emitted = [] := by
      cases hemitted : (split raw folder).emitted with
      | nil => rfl
      | cons e rest =>
        rw [hemitted, List.length_cons] at few
        obtain rfl := List.eq_nil_of_length_eq_zero (by omega : rest.length = 0)
        exact absurd hemitted (hsingle e.1 e.2)
    rw [hnil]
    exact nofun

/-- No body that is shown begins with a marker once the white space around it is gone. -/
def Settled (files : FileSet) : Prop := ∀ e ∈ files.emitted, opensMarked e.2.code.trim = false

instance (files : FileSet) : Decidable (Settled files) :=
  inferInstanceAs (Decidable (∀ e ∈ files.emitted, _))

theorem markable_of_unmarked {raw folder : Text} {e : Text × SourceFile}
    (h : e ∈ (split raw folder).emitted) (unmarked : Unmarked e.2.code.trim) :
    ∃ name, Markable folder name e := by
  obtain ⟨name, hname⟩ := placed_emitted raw folder e h
  exact ⟨name, hname.path, hname.nonempty, hname.chars, unmarked⟩

theorem settled_iff_unmarked (raw folder : Text) : Settled (split raw folder) ↔
    ∀ e ∈ (split raw folder).emitted, Unmarked e.2.code.trim := by
  refine forall₂_congr fun e he => ?_
  exact (unmarked_of_mem_split (mem_entries_of_mem_emitted he)).trim_iff.symm

theorem entries_split_joined {folder : Text} {entries : List (Text × SourceFile)}
    (hne : entries ≠ []) (distinct : (entries.map Prod.fst).Nodup)
    (h : ∀ e ∈ entries, ∃ name, Markable folder name e) :
    (split (Text.joined separator (entries.map (markedSection folder))) folder).entries =
      respaced entries := by
  rw [split_eq_collect, parts_joined hne h, FileSet.collect_of_nodup]
  rwa [FileSet.map_fst_respaced]

theorem map_section_respaced (folder : Text) (entries : List (Text × SourceFile)) :
    (respaced entries).map (markedSection folder) = entries.map (markedSection folder) := by
  have h := congrArg (List.map fun x : Text × Text × Bool =>
    Marker.line (Path.relative x.1 folder) ++ '\n' :: x.2.1) (FileSet.trim_respaced entries)
  rw [List.map_map, List.map_map] at h
  exact h

theorem exists_mem_respaced {e : Text × SourceFile} {entries : List (Text × SourceFile)}
    (h : e ∈ entries) : ∃ n,
      (e.1, SourceFile.shown (e.2.code.trim ++ List.replicate n '\n')) ∈ respaced entries := by
  induction entries using FileSet.respaced.induct with
  | case1 => cases h
  | case2 last =>
    obtain rfl := List.mem_singleton.mp h
    exact ⟨0, by simp [respaced]⟩
  | case3 first next rest ih =>
    rcases List.mem_cons.mp h with rfl | h
    · exact ⟨3, List.mem_cons_self⟩
    · obtain ⟨n, hn⟩ := ih h
      exact ⟨n, List.mem_cons_of_mem _ hn⟩

theorem code_ne_nil_of_respaced {entries before rest : List (Text × SourceFile)}
    {first next : Text × SourceFile} (h : respaced entries = before ++ first :: next :: rest) :
    first.2.code ≠ [] := by
  induction entries using FileSet.respaced.induct generalizing before with
  | case1 => simp [respaced] at h
  | case2 last =>
    have hlength := congrArg List.length h
    simp only [respaced, List.length_append, List.length_cons, List.length_nil] at hlength
    omega
  | case3 e e' entries ih =>
    rw [respaced] at h
    cases before with
    | nil =>
      rw [← (List.cons.inj h).1]
      simp [SourceFile.shown]
    | cons _ before => exact ih (List.cons.inj h).2

theorem regions_suffix (before rest : List Text) :
    (regions rest).2 <:+ (regions (before ++ rest)).2 := by
  induction before with
  | nil => exact List.suffix_rfl
  | cons line before ih =>
    rw [List.cons_append]
    cases h : marker? line with
    | some marker =>
      rw [regions_cons_marker h]
      exact ih.trans (List.suffix_cons _ _)
    | none =>
      rw [regions_cons_code h]
      exact ih

theorem marker?_of_joined {folder : Text} {entries : List (Text × SourceFile)}
    (h : ∀ e ∈ entries, ∃ name, Markable folder name e) {before after : List Text}
    {line next : Text}
    (hpieces : Text.pieces (Text.joined separator (entries.map (markedSection folder))) =
      before ++ line :: next :: after)
    (hline : (marker? line).isSome = true) : marker? next = none := by
  obtain ⟨marker, hline⟩ := Option.isSome_iff_exists.mp hline
  cases hnext : marker? next with
  | none => rfl
  | some marker' =>
    have hsuffix := regions_suffix before (line :: next :: after)
    rw [← hpieces, regions_joined h, regions_cons_marker hline, regions_cons_marker hnext]
      at hsuffix
    obtain ⟨earlier, hregions⟩ := hsuffix
    obtain ⟨_, later, hrespaced, -, hlater⟩ := List.map_eq_append_iff.mp hregions.symm
    obtain ⟨first, _, rfl, hfirst, hlater⟩ := List.map_eq_cons_iff.mp hlater
    obtain ⟨_, _, rfl, -, -⟩ := List.map_eq_cons_iff.mp hlater
    exact absurd (Prod.mk.inj hfirst).2 (code_ne_nil_of_respaced hrespaced)

theorem exists_adjacent_markers {folder : Text} {entries : List (Text × SourceFile)}
    (h : ∀ e ∈ entries, ∃ name, Placed folder name e) {e : Text × SourceFile} (he : e ∈ entries)
    (hopen : opensMarked e.2.code.trim = true) : ∃ before line next after,
      Text.pieces (Text.joined separator (entries.map (markedSection folder))) =
        before ++ line :: next :: after ∧
      (marker? line).isSome = true ∧ (marker? next).isSome = true := by
  obtain ⟨name, hname⟩ := h e he
  obtain ⟨n, hn⟩ := exists_mem_respaced he
  obtain ⟨earlier, later, hrespaced⟩ := List.append_of_mem hn
  have hblank : Text.isBlank (List.replicate n '\n') = true := by
    simp [Text.isBlank, List.all_replicate, isBlank]
  obtain ⟨line, others, hpieces, hmarker⟩ := pieces_of_opensMarked hopen hblank
  refine ⟨earlier.flatMap fun e => opener folder e :: e.2.code.pieces, opener folder e, line,
    others ++ later.flatMap fun e => opener folder e :: e.2.code.pieces, ?_, ?_, hmarker⟩
  · rw [pieces_joined h, hrespaced, List.flatMap_append, List.flatMap_cons, SourceFile.shown,
      hpieces]
    rfl
  · rw [hname.marker?_opener]
    rfl

def display (raw folder : Text) : Text := (split raw folder).assemble folder

section Several

variable {raw folder : Text} (several : 2 ≤ (split raw folder).emitted.length)

include several

theorem pieces_display : (display raw folder).pieces =
    (respaced (split raw folder).emitted).flatMap fun e => opener folder e :: e.2.code.pieces := by
  rw [display, FileSet.assemble_of_several several]
  exact pieces_joined (placed_emitted raw folder)

theorem not_unmarked_display : ¬Unmarked (display raw folder) := by
  intro hunmarked
  obtain ⟨e, he⟩ := List.exists_mem_of_length_pos (by omega : 0 < (split raw folder).emitted.length)
  obtain ⟨name, hname⟩ := placed_emitted raw folder e he
  obtain ⟨n, hn⟩ := exists_mem_respaced he
  have hopener : opener folder e ∈ (display raw folder).pieces := by
    rw [pieces_display several]
    exact List.mem_flatMap.mpr ⟨_, hn, List.mem_cons_self⟩
  have hnone := hunmarked _ hopener
  rw [hname.marker?_opener] at hnone
  cases hnone

theorem entries_split_display (settled : Settled (split raw folder)) :
    (split (display raw folder) folder).entries = respaced (split raw folder).emitted := by
  have hne : (split raw folder).emitted ≠ [] := by
    intro hnil
    simp [hnil] at several
  rw [display, FileSet.assemble_of_several several]
  refine entries_split_joined hne (FileSet.nodup_emitted _) fun e he => ?_
  exact markable_of_unmarked he ((settled_iff_unmarked raw folder).mp settled e he)

theorem display_display_of_settled (settled : Settled (split raw folder)) :
    display (display raw folder) folder = display raw folder := by
  have hentries := entries_split_display several settled
  have hemitted : (split (display raw folder) folder).emitted =
      respaced (split raw folder).emitted := by
    rw [FileSet.emitted, hentries]
    refine List.filter_eq_self.mpr fun e he => ?_
    obtain ⟨old, -, n, rfl⟩ := mem_respaced he
    rfl
  have hlength : (respaced (split raw folder).emitted).length =
      (split raw folder).emitted.length := by
    have h := congrArg List.length (FileSet.map_fst_respaced (split raw folder).emitted)
    rwa [List.length_map, List.length_map] at h
  rw [display, FileSet.assemble_of_several (by rw [hemitted, hlength]; exact several), hemitted,
    map_section_respaced, ← FileSet.assemble_of_several several]
  rfl

theorem settled_of_trims (h : (split (display raw folder) folder).entries.map
      (fun e => (e.1, e.2.code.trim)) =
        (split raw folder).emitted.map fun e => (e.1, e.2.code.trim)) :
    Settled (split raw folder) := by
  have hink := congrArg (fun pairs => (pairs.map fun pair => Text.ink pair.2).sum) h
  simp only [List.map_map, Function.comp_def, Text.ink_trim] at hink
  rw [sum_ink_split] at hink
  rw [settled_iff_unmarked]
  refine unmarked_of_sum_ink_le (placed_emitted raw folder) ?_
  rw [← FileSet.assemble_of_several several]
  exact hink.ge

theorem settled_of_display_display (h : display (display raw folder) folder = display raw folder) :
    Settled (split raw folder) := by
  have several' : 2 ≤ (split (display raw folder) folder).emitted.length := by
    by_contra few
    refine not_unmarked_display several ?_
    rw [← h]
    exact unmarked_assemble_of_few (by omega)
  have hjoined := FileSet.assemble_of_several several' folder
  rw [← display, h] at hjoined
  -- Nothing that comes up in the second round holds a marker, for no ink is lost on the way.
  have hunmarked : ∀ e ∈ (split (display raw folder) folder).emitted, Unmarked e.2.code.trim := by
    refine unmarked_of_sum_ink_le (placed_emitted (display raw folder) folder) ?_
    rw [← hjoined, ← sum_ink_split (display raw folder) folder]
    exact FileSet.sum_ink_emitted_le _
  by_contra unsettled
  simp only [Settled, not_forall, Bool.not_eq_false] at unsettled
  obtain ⟨e, he, hopen⟩ := unsettled
  obtain ⟨before, line, next, after, hpieces, hline, hnext⟩ :=
    exists_adjacent_markers (placed_emitted raw folder) he hopen
  rw [← FileSet.assemble_of_several several, ← display, hjoined] at hpieces
  rw [marker?_of_joined (fun e he => markable_of_unmarked he (hunmarked e he)) hpieces hline]
    at hnext
  cases hnext

end Several

/-- To show what is shown changes nothing, and brings the same files back when there are several,
just when no shown body of several begins with an indented marker. -/
theorem display_normal_form (raw folder : Text) :
    (display (display raw folder) folder = display raw folder ↔
      (2 ≤ (split raw folder).emitted.length → Settled (split raw folder))) ∧
    (2 ≤ (split raw folder).emitted.length →
      ((split (display raw folder) folder).entries.map (fun e => (e.1, e.2.code.trim)) =
          (split raw folder).emitted.map (fun e => (e.1, e.2.code.trim)) ↔
        Settled (split raw folder))) := by
  refine ⟨⟨fun h several => settled_of_display_display several h, fun h => ?_⟩,
    fun several => ⟨settled_of_trims several, fun settled => ?_⟩⟩
  · by_cases several : 2 ≤ (split raw folder).emitted.length
    · exact display_display_of_settled several (h several)
    · exact assemble_split_of_unmarked (unmarked_assemble_of_few (by omega)) folder
  · rw [entries_split_display several settled]
    have h := congrArg (List.map fun x : Text × Text × Bool => (x.1, x.2.1))
      (FileSet.trim_respaced (split raw folder).emitted)
    rwa [List.map_map, List.map_map] at h

theorem display_three_files :
    let raw : Text := "// file: a.ts\n\n  one()\n// file: b.ts noEmit\n  // file: a.ts\n" ++
      "// file: [id]/c.ts\n\tthree()\n// file: a.ts\nfour()"
    2 ≤ (split raw "docs/codeBlock_1").emitted.length ∧ Settled (split raw "docs/codeBlock_1") ∧
      display (display raw "docs/codeBlock_1") "docs/codeBlock_1" =
        "// file: a.ts\none()\nfour()\n\n\n// file: [id]/c.ts\nthree()" := by
  intro raw
  have hnormal := display_normal_form raw "docs/codeBlock_1"
  have settled : Settled (split raw "docs/codeBlock_1") := by decide
  refine ⟨by decide, settled, ?_⟩
  rw [hnormal.1.mpr fun _ => settled]
  decide

/-- A marker that is indented on the first line of its file is code, and opens a file once it is
shown. -/
theorem display_indented_marker : ¬∀ raw folder : Text,
    display (display raw folder) folder = display raw folder ∧
      (2 ≤ (split raw folder).emitted.length →
        (split (display raw folder) folder).entries.map (fun e => (e.1, e.2.code.trim)) =
          (split raw folder).emitted.map fun e => (e.1, e.2.code.trim)) := by
  intro h
  have hround := (h "// file: a.ts\n  // file: b.ts\n// file: c.ts\nx\n" "d/codeBlock_1").1
  revert hround
  decide

end Block

end CodeTabs
