import CodeTabs.Proofs.Files.RoundTrip
import Mathlib.Algebra.Order.BigOperators.Group.List
import Mathlib.Algebra.Order.Ring.Nat

/-!
Splitting neither loses nor makes ink, the characters that are not white: all but that of the marker
lines comes back in the files. So where files that are put together and split again have their ink
back, no line of their code was taken for a marker.
-/

namespace CodeTabs

namespace FileSet

theorem sum_ink_place (path : Text) (file : SourceFile) (entries : List (Text × SourceFile)) :
    ((OrderedMap.place path (added file) entries).map fun e => e.2.code.ink).sum =
      (entries.map fun e => e.2.code.ink).sum + file.code.ink := by
  induction entries with
  | nil => simp [OrderedMap.place, added]
  | cons e rest ih =>
    by_cases h : e.1 = path
    · simp only [OrderedMap.place, h, if_true, List.map_cons, List.sum_cons, added,
        Text.ink_append]
      omega
    · simp only [OrderedMap.place, h, if_false, List.map_cons, List.sum_cons, ih]
      omega

theorem sum_ink_collect (parts : List (Text × SourceFile)) :
    ((collect parts).entries.map fun e => e.2.code.ink).sum =
      (parts.map fun part => part.2.code.ink).sum := by
  induction parts using List.reverseRecOn with
  | nil => rfl
  | append_singleton parts part ih =>
    have hplace := sum_ink_place part.1 part.2 (collect parts).entries
    rw [collect_concat, List.map_append, List.sum_append, ← ih, List.map_singleton,
      List.sum_singleton, ← hplace]
    rfl

theorem sum_ink_emitted_le (files : FileSet) :
    (files.emitted.map fun e => e.2.code.ink).sum ≤
      (files.entries.map fun e => e.2.code.ink).sum := by
  have hsublist : files.emitted.Sublist files.entries := List.filter_sublist
  exact (hsublist.map fun e => e.2.code.ink).sum_le_sum fun _ _ => Nat.zero_le _

end FileSet

namespace Block

open FileSet (markedSection respaced separator)

def codeInk (lines : List Text) : Nat :=
  Text.ink (lines.filter fun line => (marker? line).isNone).flatten

theorem codeInk_append (first second : List Text) :
    codeInk (first ++ second) = codeInk first + codeInk second := by
  rw [codeInk, List.filter_append, List.flatten_append, Text.ink_append]
  rfl

theorem codeInk_cons_marker {line : Text} (h : (marker? line).isSome = true) (rest : List Text) :
    codeInk (line :: rest) = codeInk rest := by
  have hnone : (marker? line).isNone = false := by simpa using h
  rw [codeInk, List.filter_cons, hnone]
  rfl

theorem codeInk_cons_code {line : Text} (h : marker? line = none) (rest : List Text) :
    codeInk (line :: rest) = line.ink + codeInk rest := by
  rw [codeInk, List.filter_cons, h]
  exact Text.ink_append _ _

theorem codeInk_le (lines : List Text) : codeInk lines ≤ Text.ink lines.flatten := by
  induction lines with
  | nil => exact Nat.le_refl 0
  | cons line rest ih =>
    rw [List.flatten_cons, Text.ink_append]
    cases h : marker? line with
    | some marker =>
      rw [codeInk_cons_marker (by rw [h]; rfl)]
      omega
    | none =>
      rw [codeInk_cons_code h]
      omega

theorem codeInk_lt {lines : List Text} {line : Text} (hline : line ∈ lines)
    (hmarker : (marker? line).isSome = true) : codeInk lines < Text.ink lines.flatten := by
  obtain ⟨before, after, rfl⟩ := List.append_of_mem hline
  have hpos : 0 < line.ink := by
    rw [← Text.ink_body]
    exact Marker.ink_pos_of_parse? hmarker
  have hbefore := codeInk_le before
  have hafter := codeInk_le after
  rw [codeInk_append, codeInk_cons_marker hmarker, List.flatten_append, List.flatten_cons,
    Text.ink_append, Text.ink_append]
  omega

theorem codeInk_pieces_le (text : Text) : codeInk text.pieces ≤ text.ink := by
  have h := codeInk_le text.pieces
  rwa [Text.flatten_pieces] at h

theorem codeInk_pieces_lt {text : Text} (h : ¬Unmarked text) : codeInk text.pieces < text.ink := by
  simp only [Unmarked, not_forall, exists_prop] at h
  obtain ⟨line, hline, hmarker⟩ := h
  have hlt := codeInk_lt hline (Option.isSome_iff_ne_none.mpr hmarker)
  rwa [Text.flatten_pieces] at hlt

theorem codeInk_pieces_concat (text : Text) :
    codeInk (Text.pieces (text ++ ['\n'])) = codeInk text.pieces := by
  induction text using Text.lineInduction with
  | nil => decide
  | last line hline hne =>
    rw [Text.pieces_line hline, Text.pieces_last hline hne]
    have hbody : marker? (line ++ ['\n']) = marker? line := by
      rw [marker?, marker?, Text.body_concat]
    have hink : Text.ink (line ++ ['\n']) = line.ink := by
      rw [Text.ink_append]
      rfl
    cases h : marker? line with
    | some marker =>
      rw [codeInk_cons_marker (by rw [hbody, h]; rfl), codeInk_cons_marker (by rw [h]; rfl)]
      rfl
    | none =>
      rw [codeInk_cons_code (hbody.trans h), codeInk_cons_code h, hink]
      rfl
  | cons line rest hline ih =>
    rw [List.append_assoc, List.cons_append, Text.pieces_line hline, Text.pieces_line hline,
      ← List.singleton_append, codeInk_append, ih, ← codeInk_append, List.singleton_append]

theorem codeInk_pieces_append_replicate (text : Text) (n : Nat) :
    codeInk (Text.pieces (text ++ List.replicate n '\n')) = codeInk text.pieces := by
  induction n with
  | zero => rw [List.replicate_zero, List.append_nil]
  | succ n ih => rw [List.replicate_succ', ← List.append_assoc, codeInk_pieces_concat, ih]

theorem ink_regions (lines : List Text) :
    (regions lines).1.ink + ((regions lines).2.map fun region => region.2.ink).sum =
      codeInk lines := by
  induction lines with
  | nil => rfl
  | cons line rest ih =>
    cases h : marker? line with
    | some marker =>
      rw [regions_cons_marker h, codeInk_cons_marker (by rw [h]; rfl), List.map_cons,
        List.sum_cons, ← ih]
      exact Nat.zero_add _
    | none =>
      rw [regions_cons_code h, codeInk_cons_code h, Text.ink_append, ← ih, Nat.add_assoc]

theorem ink_parts (raw : Text) :
    ((parts raw).map fun part => part.2.code.ink).sum = codeInk raw.pieces := by
  have hregions := ink_regions raw.pieces
  rw [regions_fst] at hregions
  rw [parts_eq, List.map_append, List.sum_append, List.map_map, ← hregions]
  cases hkeep : keepsLeading raw.pieces with
  | true => rfl
  | false =>
    have hblank : (leading raw.pieces).isBlank = true := by
      rw [keepsLeading, Bool.or_eq_false_iff, Bool.not_eq_false'] at hkeep
      exact hkeep.2
    rw [Text.ink_of_isBlank hblank]
    rfl

theorem sum_ink_split (raw folder : Text) :
    ((split raw folder).entries.map fun e => e.2.code.ink).sum = codeInk raw.pieces := by
  rw [split_eq_collect, FileSet.sum_ink_collect, List.map_map, ← ink_parts]
  rfl

theorem codeInk_joined {folder : Text} {entries : List (Text × SourceFile)}
    (h : ∀ e ∈ entries, ∃ name, Placed folder name e) :
    codeInk (Text.pieces (Text.joined separator (entries.map (markedSection folder)))) =
      (entries.map fun e => codeInk e.2.code.trim.pieces).sum := by
  rw [pieces_joined h]
  have hopener : ∀ e ∈ entries, (marker? (opener folder e)).isSome = true := by
    intro e he
    obtain ⟨name, hname⟩ := h e he
    rw [hname.marker?_opener]
    rfl
  clear h
  induction entries using FileSet.respaced.induct with
  | case1 => rfl
  | case2 last =>
    have hlast := hopener last (List.mem_singleton_self last)
    rw [respaced, List.flatMap_singleton, List.map_singleton, List.sum_singleton]
    exact codeInk_cons_marker hlast _
  | case3 first next rest ih =>
    rw [List.forall_mem_cons] at hopener
    have hfirst : codeInk (opener folder first ::
        Text.pieces (first.2.code.trim ++ List.replicate 3 '\n')) =
          codeInk first.2.code.trim.pieces :=
      (codeInk_cons_marker hopener.1 _).trans (codeInk_pieces_append_replicate _ 3)
    rw [respaced, List.flatMap_cons, codeInk_append, ih hopener.2]
    exact congrArg (· + _) hfirst

theorem unmarked_of_sum_ink_le {folder : Text} {entries : List (Text × SourceFile)}
    (h : ∀ e ∈ entries, ∃ name, Placed folder name e)
    (hink : (entries.map fun e => e.2.code.ink).sum ≤
      codeInk (Text.pieces (Text.joined separator (entries.map (markedSection folder))))) :
    ∀ e ∈ entries, Unmarked e.2.code.trim := by
  -- A marker in one of the bodies would take some of the ink away.
  by_contra hmarked
  simp only [not_forall] at hmarked
  obtain ⟨e, he, hmarked⟩ := hmarked
  have hlt : (entries.map fun e => codeInk e.2.code.trim.pieces).sum <
      (entries.map fun e => e.2.code.ink).sum := by
    refine List.sum_lt_sum _ _ (fun e _ => ?_) ⟨e, he, ?_⟩
    · rw [← Text.ink_trim]
      exact codeInk_pieces_le _
    · rw [← Text.ink_trim]
      exact codeInk_pieces_lt hmarked
  rw [codeInk_joined h] at hink
  omega

end Block

end CodeTabs
