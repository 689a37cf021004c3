import CodeTabs.Files.Basic
import CodeTabs.Proofs.OrderedMap

/-!
Files that are accumulated one after another stand in the order in which their paths come up first,
and each is made of all the parts at its path.
-/

namespace CodeTabs.FileSet

def collect (parts : List (Text × SourceFile)) : FileSet :=
  parts.foldl (fun files part => files.accumulate part.1 part.2) .empty

def added (file : SourceFile) : Option SourceFile → SourceFile
  | none => file
  | some old => ⟨old.code ++ file.code, old.skip || file.skip⟩

def merged (parts : List (Text × SourceFile)) (path : Text) : SourceFile :=
  let own := parts.filter fun part => part.1 == path
  ⟨own.flatMap fun part => part.2.code, own.any fun part => part.2.skip⟩

variable (parts : List (Text × SourceFile)) (path : Text)

theorem collect_concat (part : Text × SourceFile) :
    collect (parts ++ [part]) = (collect parts).accumulate part.1 part.2 := by
  simp [collect, List.foldl_append]

theorem merged_concat (part : Text × SourceFile) :
    merged (parts ++ [part]) path = if part.1 = path
      then ⟨(merged parts path).code ++ part.2.code, (merged parts path).skip || part.2.skip⟩
      else merged parts path := by
  by_cases h : part.1 = path
  · simp [merged, List.filter_append, h]
  · simp [merged, List.filter_append, h]

theorem merged_of_not_mem {parts : List (Text × SourceFile)} {path : Text}
    (h : path ∉ parts.map Prod.fst) : merged parts path = .empty := by
  have hown : (parts.filter fun part => part.1 == path) = [] := by
    rw [List.filter_eq_nil_iff]
    intro part hpart heq
    exact h (beq_iff_eq.mp heq ▸ List.mem_map_of_mem hpart)
  rw [merged, hown]
  rfl

theorem keys_collect : (collect parts).keys = (parts.map Prod.fst).eraseDups :=
  OrderedMap.keys_foldl_alter added parts

theorem get?_collect : (collect parts).get? path =
    if path ∈ parts.map Prod.fst then some (merged parts path) else none := by
  induction parts using List.reverseRecOn with
  | nil => rfl
  | append_singleton parts part ih =>
    rw [collect_concat, accumulate, OrderedMap.get?_alter, merged_concat]
    by_cases h : part.1 = path
    · subst h
      rw [ih]
      by_cases hmem : part.1 ∈ parts.map Prod.fst
      · simp [hmem]
      · simp [hmem, merged_of_not_mem hmem, SourceFile.empty]
    · have hiff : path ∈ (parts ++ [part]).map Prod.fst ↔ path ∈ parts.map Prod.fst := by
        rw [List.map_append, List.mem_append, List.map_singleton, List.mem_singleton]
        exact or_iff_left (Ne.symm h)
      rw [if_neg h, if_neg h, ih]
      simp only [hiff]

theorem entries_collect : (collect parts).entries =
    (parts.map Prod.fst).eraseDups.map fun path => (path, merged parts path) := by
  rw [← keys_collect]
  apply OrderedMap.entries_eq_map
  intro path hpath
  rw [keys_collect, List.mem_eraseDups] at hpath
  rw [get?_collect, if_pos hpath]

theorem collect_of_nodup {parts : List (Text × SourceFile)} (h : (parts.map Prod.fst).Nodup) :
    (collect parts).entries = parts :=
  (OrderedMap.entries_foldl_alter added h).trans (List.map_id' parts)

end CodeTabs.FileSet
