import CodeTabs.Proofs.Files.Collect
import CodeTabs.Proofs.Files.MarkerLines

/-!
The files of a block are a partition of its lines. A line that is no marker belongs to the file
that the nearest marker before it names, and the lines before all markers to the default file, when
they are kept.
-/

namespace CodeTabs.Block

def markers (lines : List Text) : List Marker := lines.filterMap marker?

def leading (lines : List Text) : Text :=
  (lines.takeWhile fun line => (marker? line).isNone).flatten

def keepsLeading (lines : List Text) : Bool :=
  (markers lines).isEmpty || !(leading lines).isBlank

def names (lines : List Text) : List Text :=
  (if keepsLeading lines then [defaultName] else []) ++ (markers lines).map Marker.path

/-- The name of the file that the line of number `i` belongs to, unless it is dropped. -/
def owner? (lines : List Text) (i : Nat) : Option Text :=
  match (markers (lines.take i)).getLast? with
  | some marker => some marker.path
  | none => if keepsLeading lines then some defaultName else none

def linesOf (lines : List Text) (name : Text) : List (Text × Nat) :=
  lines.zipIdx.filter fun (line, i) => (marker? line).isNone && owner? lines i == some name

theorem markers_cons_marker {line : Text} {marker : Marker} (h : marker? line = some marker)
    (rest : List Text) : markers (line :: rest) = marker :: markers rest := by
  simp [markers, h]

theorem markers_cons_code {line : Text} (h : marker? line = none) (rest : List Text) :
    markers (line :: rest) = markers rest := by
  simp [markers, h]

theorem markers_append (first second : List Text) :
    markers (first ++ second) = markers first ++ markers second :=
  List.filterMap_append

theorem regions_cons_marker {line : Text} {marker : Marker} (h : marker? line = some marker)
    (rest : List Text) :
    regions (line :: rest) = ([], (marker, (regions rest).1) :: (regions rest).2) := by
  unfold marker? at h
  simp [regions, h]

theorem regions_cons_code {line : Text} (h : marker? line = none) (rest : List Text) :
    regions (line :: rest) = (line ++ (regions rest).1, (regions rest).2) := by
  unfold marker? at h
  simp [regions, h]

theorem regions_fst (lines : List Text) : (regions lines).1 = leading lines := by
  induction lines with
  | nil => rfl
  | cons line rest ih =>
    cases h : marker? line with
    | some marker => simp [regions_cons_marker h, leading, h]
    | none => simp [regions_cons_code h, leading, h, ih]

theorem map_fst_regions (lines : List Text) : (regions lines).2.map Prod.fst = markers lines := by
  induction lines with
  | nil => rfl
  | cons line rest ih =>
    cases h : marker? line with
    | some marker => simp [regions_cons_marker h, markers_cons_marker h, ih]
    | none => simp [regions_cons_code h, markers_cons_code h, ih]

theorem take_succ_append (before rest : List Text) (line : Text) :
    (before ++ line :: rest).take (before.length + 1) = before ++ [line] := by
  rw [List.append_cons]
  exact List.take_left' (by simp)

theorem owner?_succ_marker {before rest : List Text} {line : Text} {marker : Marker}
    (h : marker? line = some marker) :
    owner? (before ++ line :: rest) (before.length + 1) = some marker.path := by
  rw [owner?, take_succ_append, markers_append, markers_cons_marker h]
  simp [markers]

theorem owner?_succ_code {before rest : List Text} {line : Text} (h : marker? line = none) :
    owner? (before ++ line :: rest) (before.length + 1) =
      owner? (before ++ line :: rest) before.length := by
  rw [owner?, owner?, take_succ_append, markers_append, markers_cons_code h, List.take_left]
  simp [markers]

theorem flatten_linesFrom (name : Text) (before rest : List Text) :
    (((rest.zipIdx before.length).filter fun (line, i) =>
        (marker? line).isNone && owner? (before ++ rest) i == some name).map Prod.fst).flatten =
      (if owner? (before ++ rest) before.length = some name then (regions rest).1 else []) ++
        ((regions rest).2.filter fun region => region.1.path == name).flatMap Prod.snd := by
  -- The lines before stay in the statement, for they say to whom the next one belongs.
  induction rest generalizing before with
  | nil => simp [regions]
  | cons line rest ih =>
    have hrest := ih (before ++ [line])
    rw [List.append_assoc, List.singleton_append, List.length_append, List.length_singleton]
      at hrest
    cases h : marker? line with
    | some marker =>
      rw [owner?_succ_marker h] at hrest
      simp only [List.zipIdx_cons, List.filter_cons, h, regions_cons_marker h, Option.isNone_some,
        Bool.false_and, Bool.false_eq_true, if_false]
      rw [hrest]
      by_cases hname : marker.path = name
      · simp [hname]
      · simp [hname]
    | none =>
      rw [owner?_succ_code h] at hrest
      simp only [List.zipIdx_cons, List.filter_cons, h, regions_cons_code h, Option.isNone_none,
        Bool.true_and, beq_iff_eq]
      by_cases hname : owner? (before ++ line :: rest) before.length = some name
      · simp only [hname, if_true, List.map_cons, List.flatten_cons] at hrest ⊢
        rw [hrest, List.append_assoc]
      · simp only [hname, if_false] at hrest ⊢
        exact hrest

theorem parts_eq (raw : Text) : parts raw =
    (if keepsLeading raw.pieces then [(defaultName, ⟨leading raw.pieces, false⟩)] else []) ++
      (regions raw.pieces).2.map fun region =>
        (region.1.path, ⟨region.2, region.1.noEmit⟩) := by
  have hmarked : (regions raw.pieces).2.isEmpty = (markers raw.pieces).isEmpty := by
    rw [← map_fst_regions, List.isEmpty_map]
  unfold parts keepsLeading
  simp only [regions_fst, hmarked]
  split <;> rfl

theorem map_fst_parts (raw : Text) : (parts raw).map Prod.fst = names raw.pieces := by
  rw [parts_eq, names, List.map_append, List.map_map, ← map_fst_regions, List.map_map]
  split <;> rfl

theorem filePath_injective (folder : Text) : Function.Injective (filePath folder) := by
  intro a b h
  simpa [filePath] using h

theorem split_eq_collect (raw folder : Text) :
    split raw folder = .collect ((parts raw).map fun part => (filePath folder part.1, part.2)) := by
  rw [FileSet.collect, List.foldl_map]
  rfl

theorem merged_filePath (folder name : Text) (parts : List (Text × SourceFile)) :
    FileSet.merged (parts.map fun part => (filePath folder part.1, part.2)) (filePath folder name) =
      FileSet.merged parts name := by
  have heq : ∀ part : Text × SourceFile,
      (filePath folder part.1 == filePath folder name) = (part.1 == name) := by
    intro part
    rw [Bool.eq_iff_iff, beq_iff_eq, beq_iff_eq]
    exact (filePath_injective folder).eq_iff
  simp only [FileSet.merged, List.filter_map, Function.comp_def, heq, List.flatMap_map,
    List.any_map]

theorem owner?_zero (lines : List Text) :
    owner? lines 0 = if keepsLeading lines then some defaultName else none := rfl

theorem flatten_linesOf (lines : List Text) (name : Text) :
    ((linesOf lines name).map Prod.fst).flatten =
      (if keepsLeading lines ∧ defaultName = name then leading lines else []) ++
        ((regions lines).2.filter fun region => region.1.path == name).flatMap Prod.snd := by
  have h := flatten_linesFrom name [] lines
  rw [List.nil_append, List.length_nil, owner?_zero, regions_fst] at h
  rw [linesOf, h]
  cases keepsLeading lines <;> simp

theorem merged_parts (raw name : Text) : FileSet.merged (parts raw) name =
    ⟨((linesOf raw.pieces name).map Prod.fst).flatten,
      (markers raw.pieces).any fun marker => marker.path == name && marker.noEmit⟩ := by
  rw [flatten_linesOf, ← map_fst_regions, FileSet.merged, parts_eq]
  rw [SourceFile.mk.injEq]
  constructor
  · rw [List.filter_append, List.flatMap_append, List.filter_map, List.flatMap_map]
    by_cases hname : defaultName = name
    · cases keepsLeading raw.pieces <;> simp [hname, Function.comp_def]
    · cases keepsLeading raw.pieces <;> simp [hname, Function.comp_def]
  · rw [List.filter_append, List.any_append, List.filter_map, List.any_map, List.any_filter,
      List.any_map]
    cases keepsLeading raw.pieces <;> simp [Function.comp_def]

theorem perm_flatMap_filter {α κ : Type} [BEq κ] [LawfulBEq κ] (key? : α → Option κ)
    {keys : List κ} (distinct : keys.Nodup) (xs : List α) :
    (keys.flatMap fun key => xs.filter fun x => key? x == some key).Perm
      (xs.filter fun x => keys.any fun key => key? x == some key) := by
  induction keys with
  | nil => simp
  | cons key keys ih =>
    obtain ⟨hkey, hkeys⟩ := List.nodup_cons.mp distinct
    have hsplit := List.filter_append_perm (fun x => key? x == some key)
      (xs.filter fun x => (key :: keys).any fun key => key? x == some key)
    rw [List.filter_filter, List.filter_filter] at hsplit
    refine .trans ?_ hsplit
    rw [List.flatMap_cons]
    refine .append (.of_eq (List.filter_congr fun x _ => ?_))
      ((ih hkeys).trans (.of_eq (List.filter_congr fun x _ => ?_)))
    · cases h : key? x == some key <;> simp [h]
    · cases h : key? x == some key
      · simp [h]
      · have hx : key? x = some key := by simpa using h
        simp only [hx, Bool.not_true, Bool.false_and, beq_iff_eq,
          List.any_eq_false, Option.some.injEq]
        exact fun other hother heq => hkey (heq ▸ hother)

theorem owner?_mem_names {lines : List Text} {i : Nat} {name : Text}
    (h : owner? lines i = some name) : name ∈ names lines := by
  unfold owner? at h
  rw [names, List.mem_append]
  cases hlast : (markers (lines.take i)).getLast? with
  | some marker =>
    rw [hlast] at h
    have hmem : marker ∈ markers lines :=
      ((List.take_sublist i lines).filterMap marker?).mem (List.mem_of_getLast? hlast)
    exact .inr (Option.some.inj h ▸ List.mem_map_of_mem hmem)
  | none =>
    rw [hlast] at h
    cases hkeep : keepsLeading lines with
    | false => simp [hkeep] at h
    | true => simp_all

theorem isSome_owner? (lines : List Text) (i : Nat) : (owner? lines i).isSome =
    (keepsLeading lines || !(markers (lines.take i)).isEmpty) := by
  unfold owner?
  cases hlast : (markers (lines.take i)).getLast? with
  | some marker =>
    have hne : markers (lines.take i) ≠ [] := by
      intro hnil
      simp [hnil] at hlast
    simp [hne]
  | none =>
    rw [List.getLast?_eq_none_iff.mp hlast]
    cases keepsLeading lines <;> rfl

theorem perm_linesOf (lines : List Text) :
    ((names lines).eraseDups.flatMap (linesOf lines)).Perm
      (lines.zipIdx.filter fun (line, i) => (marker? line).isNone &&
        (keepsLeading lines || !(markers (lines.take i)).isEmpty)) := by
  -- A marker belongs to no file, though it has an owner by its number.
  let key? : Text × Nat → Option Text := fun (line, i) =>
    if (marker? line).isNone then owner? lines i else none
  have hperm := perm_flatMap_filter key? (nodup_eraseDups (names lines)) lines.zipIdx
  have hlines : linesOf lines = fun name => lines.zipIdx.filter fun x => key? x == some name := by
    funext name
    refine List.filter_congr fun x _ => ?_
    cases h : marker? x.1 <;> simp [key?, h]
  rw [hlines]
  refine hperm.trans (.of_eq (List.filter_congr fun x _ => ?_))
  cases h : marker? x.1 with
  | some marker => simp [key?, h]
  | none =>
    simp only [key?, h, Option.isNone_none, if_true, Bool.true_and, ← isSome_owner?]
    cases howner : owner? lines x.2 with
    | none => simp
    | some name =>
      have hmem := List.mem_eraseDups.mpr (owner?_mem_names howner)
      simpa using hmem

theorem exists_name_of_mem_split {raw folder : Text} {e : Text × SourceFile}
    (h : e ∈ (split raw folder).entries) : ∃ name ∈ names raw.pieces,
      e.1 = filePath folder name ∧
        e.2.code = ((linesOf raw.pieces name).map Prod.fst).flatten := by
  have hmem : e.1 ∈ (split raw folder).keys := List.mem_map_of_mem h
  rw [split_eq_collect, FileSet.keys_collect, List.mem_eraseDups] at hmem
  have hget : (split raw folder).get? e.1 = some e.2 :=
    OrderedMap.find?_of_mem (split raw folder).distinct h
  rw [split_eq_collect, FileSet.get?_collect, if_pos hmem] at hget
  rw [List.map_map, List.mem_map] at hmem
  obtain ⟨part, hpart, hpath⟩ := hmem
  refine ⟨part.1, map_fst_parts raw ▸ List.mem_map_of_mem hpart, hpath.symm, ?_⟩
  rw [← Option.some.inj hget, ← hpath, Function.comp_apply, merged_filePath, merged_parts]

theorem map_fst_linesOf_sublist (lines : List Text) (name : Text) :
    ((linesOf lines name).map Prod.fst).Sublist lines := by
  have h := (List.filter_sublist (l := lines.zipIdx) (p := fun (line, i) =>
    (marker? line).isNone && owner? lines i == some name)).map Prod.fst
  rwa [List.zipIdx_map_fst] at h

theorem pieces_linesOf (raw name : Text) :
    Text.pieces ((linesOf raw.pieces name).map Prod.fst).flatten =
      (linesOf raw.pieces name).map Prod.fst :=
  Text.pieces_flatten_of_sublist (map_fst_linesOf_sublist raw.pieces name)

theorem unmarked_of_mem_split {raw folder : Text} {e : Text × SourceFile}
    (h : e ∈ (split raw folder).entries) : Unmarked e.2.code := by
  obtain ⟨name, -, -, hcode⟩ := exists_name_of_mem_split h
  intro line hline
  rw [hcode, pieces_linesOf, List.mem_map] at hline
  obtain ⟨numbered, hnumbered, rfl⟩ := hline
  have hlines := (List.mem_filter.mp hnumbered).2
  rw [Bool.and_eq_true] at hlines
  exact Option.isNone_iff_eq_none.mp hlines.1

theorem name_of_mem_names {lines : List Text} {name : Text} (h : name ∈ names lines) :
    name ≠ [] ∧ name.all Marker.isPathChar = true := by
  rw [names, List.mem_append] at h
  rcases h with h | h
  · split at h
    · rw [List.mem_singleton.mp h]
      decide
    · cases h
  · obtain ⟨marker, hmarker, rfl⟩ := List.mem_map.mp h
    obtain ⟨line, -, hline⟩ := List.mem_filterMap.mp hmarker
    exact Marker.path_of_parse? hline

/-- The files of a block in the order in which their names come up first, each with its lines as
they stand and skipped when one of its markers says so. -/
theorem split_partition (raw folder : Text) :
    (split raw folder).entries = (names raw.pieces).eraseDups.map (fun name =>
        (filePath folder name, ⟨((linesOf raw.pieces name).map Prod.fst).flatten,
          (markers raw.pieces).any fun marker => marker.path == name && marker.noEmit⟩)) ∧
      ((names raw.pieces).eraseDups.flatMap (linesOf raw.pieces)).Perm
        (raw.pieces.zipIdx.filter fun (line, i) => (marker? line).isNone &&
          (keepsLeading raw.pieces || !(markers (raw.pieces.take i)).isEmpty)) ∧
      raw.CutInto raw.pieces ∧ raw.pieces.flatten = raw := by
  refine ⟨?_, perm_linesOf raw.pieces, Text.cutInto_iff.mpr rfl, Text.flatten_pieces raw⟩
  have hpaths : ((parts raw).map fun part => (filePath folder part.1, part.2)).map Prod.fst =
      (names raw.pieces).map (filePath folder) := by
    rw [← map_fst_parts, List.map_map, List.map_map]
    rfl
  rw [split_eq_collect, FileSet.entries_collect, hpaths,
    eraseDups_map (filePath_injective folder), List.map_map]
  refine List.map_congr_left fun name _ => ?_
  simp only [Function.comp_apply, merged_filePath, merged_parts]

example :
    let raw : Text := "start()\n// file: a.ts\none()\n// file: b.ts noEmit\ntwo()\n" ++
      "// file: a.ts\nthree()"
    raw.pieces = ["start()\n", "// file: a.ts\n", "one()\n", "// file: b.ts noEmit\n", "two()\n",
      "// file: a.ts\n", "three()"] ∧
    split raw "d" = .ofList [("d/index.ts", .shown "start()\n"),
      ("d/a.ts", .shown "one()\nthree()"), ("d/b.ts", .hidden "two()\n")] := by decide

end CodeTabs.Block
