import CodeTabs.Files.Split
import CodeTabs.Proofs.OrderedMap

/-!
A hidden file leaves no trace in what is shown. Two sets of files that differ only in the code of
their hidden files are put together to the same text.
-/

namespace CodeTabs

def SourceFile.ShownAlike (file other : SourceFile) : Prop :=
  file.skip = other.skip ∧ (file.skip = false → file.code = other.code)

instance (file other : SourceFile) : Decidable (file.ShownAlike other) :=
  inferInstanceAs (Decidable (_ ∧ _))

namespace FileSet

def ShownAlike (files other : FileSet) : Prop :=
  OrderedMap.Related (fun _ => SourceFile.ShownAlike) files other

instance (files other : FileSet) : Decidable (files.ShownAlike other) :=
  inferInstanceAs (Decidable (List.Forall₂
    (fun e e' => e.1 = e'.1 ∧ e.2.ShownAlike e'.2) files.entries other.entries))

def hides (files : FileSet) (path : Text) : Bool := (files.get? path).any (·.skip)

theorem map_fst_emitted (files : FileSet) :
    files.emitted.map Prod.fst = files.keys.filter fun path => !files.hides path := by
  have hskip : ∀ e ∈ files.entries, (!e.2.skip) = !files.hides e.1 := by
    intro e he
    rw [hides, OrderedMap.get?, OrderedMap.find?_of_mem files.distinct he, Option.any_some]
  rw [emitted, List.filter_congr hskip, OrderedMap.keys, List.filter_map]
  rfl

variable {files other : FileSet}

theorem ShownAlike.emitted_eq (h : ShownAlike files other) : files.emitted = other.emitted := by
  unfold ShownAlike OrderedMap.Related at h
  unfold emitted
  generalize files.entries = entries at h ⊢
  generalize other.entries = entries' at h ⊢
  induction h with
  | nil => rfl
  | @cons e e' entries entries' head _ ih =>
    obtain ⟨hpath, hskip, hcode⟩ := head
    rw [List.filter_cons, List.filter_cons, ih, ← hskip]
    cases hhidden : e.2.skip with
    | true => rfl
    | false =>
      have hfile : e.2 = e'.2 := by
        cases hfile : e.2
        cases hfile' : e'.2
        simp_all
      have heq : e = e' := Prod.ext hpath hfile
      simp [heq]

theorem ShownAlike.assemble_eq (h : ShownAlike files other) (folder : Text) :
    files.assemble folder = other.assemble folder := by
  rw [assemble, assemble, h.emitted_eq]

end FileSet

end CodeTabs
