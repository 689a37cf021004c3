import CodeTabs.Files.Split
import CodeTabs.Proofs.Files.Partition
import CodeTabs.Proofs.Path

/-!
Several files that are put together come apart again at their marker lines. They keep their paths
and their order; of each code the text without surrounding white space remains, and the separator
goes to the file before it.
-/

namespace CodeTabs

theorem Path.relative_filePath (folder name : Text) :
    relative (Block.filePath folder name) folder = name :=
  relative_written folder name

namespace FileSet

theorem nodup_emitted (files : FileSet) : (files.emitted.map Prod.fst).Nodup :=
  files.distinct.sublist (List.filter_sublist.map Prod.fst)

theorem assemble_of_several {files : FileSet} (several : 2 ≤ files.emitted.length)
    (folder : Text) : files.assemble folder =
      Text.joined separator (files.emitted.map (markedSection folder)) := by
  unfold assemble
  split
  · next h =>
    rw [h] at several
    simp at several
  · rfl

/-- Files as they come back: each trimmed, and all but the last with three line feeds behind. -/
def respaced : List (Text × SourceFile) → List (Text × SourceFile)
  | [] => []
  | [last] => [(last.1, .shown last.2.code.trim)]
  | first :: next :: rest =>
    (first.1, .shown (first.2.code.trim ++ List.replicate 3 '\n')) :: respaced (next :: rest)

theorem map_fst_respaced (entries : List (Text × SourceFile)) :
    (respaced entries).map Prod.fst = entries.map Prod.fst := by
  induction entries using respaced.induct with
  | case1 => rfl
  | case2 last => rfl
  | case3 first next rest ih =>
    rw [respaced, List.map_cons, ih]
    rfl

theorem trim_respaced (entries : List (Text × SourceFile)) :
    (respaced entries).map (fun e => (e.1, e.2.code.trim, e.2.skip)) =
      entries.map fun e => (e.1, e.2.code.trim, false) := by
  induction entries using respaced.induct with
  | case1 => rfl
  | case2 last => simp [respaced, SourceFile.shown, Text.trim_trim]
  | case3 first next rest ih =>
    have hblank : Text.isBlank (List.replicate 3 '\n') = true := by decide
    have hfirst : (first.2.code.trim ++ List.replicate 3 '\n').trim = first.2.code.trim := by
      rw [Text.trim_append_blank _ hblank, Text.trim_trim]
    rw [respaced, List.map_cons, ih, SourceFile.shown, hfirst]
    rfl

end FileSet

namespace Block

open FileSet (markedSection respaced separator)

structure Markable (folder name : Text) (e : Text × SourceFile) : Prop where
  path : e.1 = filePath folder name
  nonempty : name ≠ []
  chars : name.all Marker.isPathChar = true
  unmarked : Unmarked e.2.code.trim

structure Placed (folder name : Text) (e : Text × SourceFile) : Prop where
  path : e.1 = filePath folder name
  nonempty : name ≠ []
  chars : name.all Marker.isPathChar = true

theorem Markable.placed {folder name : Text} {e : Text × SourceFile}
    (h : Markable folder name e) : Placed folder name e :=
  ⟨h.path, h.nonempty, h.chars⟩

theorem Placed.relative {folder name : Text} {e : Text × SourceFile}
    (h : Placed folder name e) : Path.relative e.1 folder = name := by
  rw [h.path, Path.relative_filePath]

def opener (folder : Text) (e : Text × SourceFile) : Text :=
  Marker.line (Path.relative e.1 folder) ++ ['\n']

theorem Placed.marker?_opener {folder name : Text} {e : Text × SourceFile}
    (h : Placed folder name e) : marker? (opener folder e) = some ⟨name, []⟩ := by
  rw [opener, h.relative]
  exact marker?_line h.nonempty h.chars

theorem Placed.pieces_section {folder name : Text} {e : Text × SourceFile}
    (h : Placed folder name e) (rest : Text) :
    Text.pieces (markedSection folder e ++ rest) =
      opener folder e :: Text.pieces (e.2.code.trim ++ rest) := by
  rw [markedSection, opener, h.relative, List.append_assoc, List.cons_append]
  exact Text.pieces_line (Marker.line_feed_not_mem_line h.chars) _

theorem pieces_separated (text rest : Text) :
    Text.pieces (text ++ (separator ++ rest)) =
      Text.pieces (text ++ List.replicate 3 '\n') ++ rest.pieces := by
  have hpieces := Text.pieces_append_line (text ++ ['\n', '\n']) rest
  rw [List.append_assoc, List.append_assoc] at hpieces
  exact hpieces

theorem pieces_joined {folder : Text} {entries : List (Text × SourceFile)}
    (h : ∀ e ∈ entries, ∃ name, Placed folder name e) :
    Text.pieces (Text.joined separator (entries.map (markedSection folder))) =
      (respaced entries).flatMap fun e => opener folder e :: e.2.code.pieces := by
  induction entries using FileSet.respaced.induct with
  | case1 => rfl
  | case2 last =>
    obtain ⟨name, hlast⟩ := h last (List.mem_singleton_self last)
    have hpieces := hlast.pieces_section []
    rw [List.append_nil, List.append_nil] at hpieces
    rw [List.map_singleton, Text.joined, List.intercalate_singleton, hpieces, respaced,
      List.flatMap_singleton]
    rfl
  | case3 first next rest ih =>
    rw [List.forall_mem_cons] at h
    obtain ⟨name, hfirst⟩ := h.1
    have hjoined : Text.joined separator ((first :: next :: rest).map (markedSection folder)) =
        markedSection folder first ++ (separator ++
          Text.joined separator ((next :: rest).map (markedSection folder))) := by
      simp only [Text.joined, List.map_cons, List.intercalate_cons_cons, List.append_assoc]
    rw [hjoined, hfirst.pieces_section, pieces_separated, ih h.2, respaced, List.flatMap_cons]
    rfl

theorem regions_append_code {lines : List Text} (h : ∀ line ∈ lines, marker? line = none)
    (rest : List Text) :
    regions (lines ++ rest) = (lines.flatten ++ (regions rest).1, (regions rest).2) := by
  induction lines with
  | nil => rfl
  | cons line lines ih =>
    rw [List.forall_mem_cons] at h
    rw [List.cons_append, regions_cons_code h.1, ih h.2, List.flatten_cons, List.append_assoc]

theorem regions_sections {folder : Text} {entries : List (Text × SourceFile)}
    (h : ∀ e ∈ entries, (∃ name, Placed folder name e) ∧ Unmarked e.2.code) :
    regions (entries.flatMap fun e => opener folder e :: e.2.code.pieces) =
      ([], entries.map fun e => (⟨Path.relative e.1 folder, []⟩, e.2.code)) := by
  induction entries with
  | nil => rfl
  | cons e rest ih =>
    rw [List.forall_mem_cons] at h
    obtain ⟨⟨name, hplaced⟩, hcode⟩ := h.1
    rw [List.flatMap_cons, List.cons_append, regions_cons_marker hplaced.marker?_opener,
      regions_append_code hcode, ih h.2, Text.flatten_pieces, List.append_nil, List.map_cons,
      hplaced.relative]

theorem mem_respaced {e : Text × SourceFile} {entries : List (Text × SourceFile)}
    (h : e ∈ respaced entries) : ∃ old ∈ entries, ∃ n,
      e = (old.1, .shown (old.2.code.trim ++ List.replicate n '\n')) := by
  induction entries using FileSet.respaced.induct with
  | case1 => cases h
  | case2 last =>
    refine ⟨last, List.mem_singleton_self last, 0, ?_⟩
    rw [List.mem_singleton.mp h, List.replicate_zero, List.append_nil]
  | case3 first next rest ih =>
    rw [respaced, List.mem_cons] at h
    rcases h with rfl | h
    · exact ⟨first, List.mem_cons_self, 3, rfl⟩
    · obtain ⟨old, hold, n, he⟩ := ih h
      exact ⟨old, List.mem_cons_of_mem first hold, n, he⟩

theorem regions_joined {folder : Text} {entries : List (Text × SourceFile)}
    (h : ∀ e ∈ entries, ∃ name, Markable folder name e) :
    regions (Text.pieces (Text.joined separator (entries.map (markedSection folder)))) =
      ([], (respaced entries).map fun e => (⟨Path.relative e.1 folder, []⟩, e.2.code)) := by
  rw [pieces_joined fun e he => (h e he).imp fun _ => Markable.placed]
  refine regions_sections fun e he => ?_
  obtain ⟨old, hold, n, rfl⟩ := mem_respaced he
  obtain ⟨name, hname⟩ := h old hold
  exact ⟨⟨name, hname.path, hname.nonempty, hname.chars⟩, hname.unmarked.append_replicate n⟩

theorem parts_joined {folder : Text} {entries : List (Text × SourceFile)}
    (hne : entries ≠ []) (h : ∀ e ∈ entries, ∃ name, Markable folder name e) :
    (parts (Text.joined separator (entries.map (markedSection folder)))).map
        (fun part => (filePath folder part.1, part.2)) = respaced entries := by
  have hpaths := FileSet.map_fst_respaced entries
  have hrespaced : respaced entries ≠ [] := by
    intro hnil
    rw [hnil] at hpaths
    exact hne (List.map_eq_nil_iff.mp hpaths.symm)
  have hmarked : ((respaced entries).map fun e =>
      ((⟨Path.relative e.1 folder, []⟩ : Marker), e.2.code)).isEmpty = false := by
    simpa using hrespaced
  simp only [parts, regions_joined h, hmarked]
  rw [if_neg (by simp [Text.isBlank]), List.map_map, List.map_map]
  refine (List.map_congr_left ?_).trans (List.map_id' _)
  intro e he
  obtain ⟨old, hold, n, rfl⟩ := mem_respaced he
  obtain ⟨name, hname⟩ := h old hold
  have hentry : filePath folder (Path.relative old.1 folder) = old.1 := by
    rw [hname.placed.relative, hname.path]
  exact Prod.ext hentry rfl

theorem split_assemble {files : FileSet} {folder : Text} (several : 2 ≤ files.emitted.length)
    (markable : ∀ e ∈ files.emitted, ∃ name, Markable folder name e) :
    (split (files.assemble folder) folder).entries = respaced files.emitted ∧
      (split (files.assemble folder) folder).entries.map
          (fun e => (e.1, e.2.code.trim, e.2.skip)) =
        files.emitted.map fun e => (e.1, e.2.code.trim, false) := by
  have hne : files.emitted ≠ [] := by
    intro hnil
    simp [hnil] at several
  have hparts := parts_joined hne markable
  have hnodup : ((respaced files.emitted).map Prod.fst).Nodup := by
    rw [FileSet.map_fst_respaced]
    exact files.nodup_emitted
  have hentries : (split (files.assemble folder) folder).entries = respaced files.emitted := by
    rw [split_eq_collect, FileSet.assemble_of_several several, hparts,
      FileSet.collect_of_nodup hnodup]
  rw [hentries]
  exact ⟨rfl, FileSet.trim_respaced files.emitted⟩

def page (name code : Text) : Text × SourceFile :=
  (filePath "docs/codeBlock_1" name, .shown code)

def pages : FileSet := .ofList [page "main.ts" "\n  // file: ?\n\trun()\r\n\n",
  (filePath "docs/codeBlock_1" "types.ts", .hidden "// file: other.ts"),
  page "[id]/page-1.tsx" " \n", page "index.ts" "start()"]

theorem split_assemble_pages :
    (2 ≤ pages.emitted.length ∧
      ∀ e ∈ pages.emitted, ∃ name, Markable "docs/codeBlock_1" name e) ∧
      (split (pages.assemble "docs/codeBlock_1") "docs/codeBlock_1").entries =
        [page "main.ts" "// file: ?\n\trun()\n\n\n", page "[id]/page-1.tsx" "\n\n\n",
          page "index.ts" "start()"] := by
  have hemitted : pages.emitted = [page "main.ts" "\n  // file: ?\n\trun()\r\n\n",
      page "[id]/page-1.tsx" " \n", page "index.ts" "start()"] := by decide
  have several : 2 ≤ pages.emitted.length := by
    rw [hemitted]
    decide
  have markable : ∀ e ∈ pages.emitted, ∃ name, Markable "docs/codeBlock_1" name e := by
    simp only [hemitted, List.forall_mem_cons]
    exact ⟨⟨"main.ts", rfl, by decide, by decide, by decide⟩,
      ⟨"[id]/page-1.tsx", rfl, by decide, by decide, by decide⟩,
      ⟨"index.ts", rfl, by decide, by decide, by decide⟩, nofun⟩
  refine ⟨⟨several, markable⟩, ?_⟩
  rw [(split_assemble several markable).1, hemitted]
  decide

end Block

end CodeTabs
