import CodeTabs.Proofs.Files.Hidden
import CodeTabs.Shaping
import Mathlib.Data.List.Nodup

/-!
Two file names become one exactly when one of them is written in TypeScript and the other is its
JavaScript name. Where a block has no such pair the JavaScript tab has all files that were compiled,
and where it has one the tab has fewer.
-/

namespace CodeTabs

namespace JavaScriptNames

def endings : List Text := extensions.flatMap fun e => [e.1, e.2]

theorem fst_mem_endings {e : Text × Text} (he : e ∈ extensions) : e.1 ∈ endings :=
  List.mem_flatMap.mpr ⟨e, he, by simp⟩

theorem snd_mem_endings {e : Text × Text} (he : e ∈ extensions) : e.2 ∈ endings :=
  List.mem_flatMap.mpr ⟨e, he, by simp⟩

theorem ending_unique {s t a b : Text} (ha : a ∈ endings) (hb : b ∈ endings)
    (h : s ++ a = t ++ b) : s = t ∧ a = b := by
  have hsuffix : ∀ a ∈ endings, ∀ b ∈ endings, a <:+ b → a = b := by decide
  have hab : a = b := by
    rcases List.suffix_or_suffix_of_suffix ⟨s, h⟩ ⟨t, rfl⟩ with hab | hba
    · exact hsuffix a ha b hb hab
    · exact (hsuffix b hb a ha hba).symm
  subst hab
  exact ⟨List.append_cancel_right h, rfl⟩

/-- One name written in TypeScript, and the name that it takes in JavaScript. -/
def Twins (p q : Text) : Prop := ∃ stem, ∃ e ∈ extensions, p = stem ++ e.1 ∧ q = stem ++ e.2

theorem path_eq_self_or_twins (p : Text) :
    (path p = p ∧ ∀ e ∈ extensions, ∀ stem, p ≠ stem ++ e.1) ∨ Twins p (path p) := by
  unfold path
  cases hfound : extensions.findSome? fun e => (Text.before? e.1 p).map (· ++ e.2) with
  | none =>
    refine .inl ⟨rfl, fun e he stem hp => ?_⟩
    have hnone := List.findSome?_eq_none_iff.mp hfound e he
    rw [Text.before?_eq_some_iff.mpr hp] at hnone
    cases hnone
  | some q =>
    obtain ⟨e, he, hq⟩ := List.exists_of_findSome?_eq_some hfound
    obtain ⟨stem, hstem, rfl⟩ := Option.map_eq_some_iff.mp hq
    exact .inr ⟨stem, e, he, Text.before?_eq_some_iff.mp hstem, rfl⟩

theorem Twins.path_eq {p q : Text} (h : Twins p q) : path p = q := by
  obtain ⟨stem, e, he, rfl, rfl⟩ := h
  have hfst : ∀ e ∈ extensions, ∀ e' ∈ extensions, e.1 = e'.1 → e = e' := by decide
  rcases path_eq_self_or_twins (stem ++ e.1) with ⟨_, hplain⟩ | ⟨stem', e', he', hp, hpath⟩
  · exact absurd rfl (hplain e he stem)
  · obtain ⟨rfl, hee⟩ := ending_unique (fst_mem_endings he) (fst_mem_endings he') hp
    rw [hpath, hfst e he e' he' hee]

theorem Twins.ne {p q : Text} (h : Twins p q) : p ≠ q := by
  obtain ⟨stem, e, he, rfl, rfl⟩ := h
  have hne : ∀ e ∈ extensions, e.1 ≠ e.2 := by decide
  exact fun heq => hne e he (List.append_cancel_left heq)

theorem Twins.path_right {p q : Text} (h : Twins p q) : path q = q := by
  obtain ⟨stem, e, he, rfl, rfl⟩ := h
  have hmixed : ∀ e ∈ extensions, ∀ e' ∈ extensions, e.2 ≠ e'.1 := by decide
  rcases path_eq_self_or_twins (stem ++ e.2) with ⟨hsame, _⟩ | ⟨stem', e', he', hp, _⟩
  · exact hsame
  · exact absurd (ending_unique (snd_mem_endings he) (fst_mem_endings he') hp).2
      (hmixed e he e' he')

theorem path_eq_path_iff {p q : Text} : path p = path q ↔ p = q ∨ Twins p q ∨ Twins q p := by
  constructor
  · intro h
    have hsnd : ∀ e ∈ extensions, ∀ e' ∈ extensions, e.2 = e'.2 → e = e' := by decide
    rcases path_eq_self_or_twins p with ⟨hp, _⟩ | hp
    · rcases path_eq_self_or_twins q with ⟨hq, _⟩ | hq
      · exact .inl (hp ▸ hq ▸ h)
      · exact .inr (.inr (by rwa [← h, hp] at hq))
    · rcases path_eq_self_or_twins q with ⟨hq, _⟩ | hq
      · exact .inr (.inl (by rwa [h, hq] at hp))
      · obtain ⟨stem, e, he, hpe, hpath⟩ := hp
        obtain ⟨stem', e', he', hqe, hpath'⟩ := hq
        rw [hpath, hpath'] at h
        obtain ⟨rfl, hee⟩ := ending_unique (snd_mem_endings he) (snd_mem_endings he') h
        rw [hsnd e he e' he' hee] at hpe
        exact .inl (hpe.trans hqe.symm)
  · rintro (rfl | h | h)
    · rfl
    · rw [h.path_eq, h.path_right]
    · rw [h.path_eq, h.path_right]

end JavaScriptNames

namespace Shaping

open JavaScriptNames (Twins)

def renamed (e : Text × CompiledFile) : Text × SourceFile :=
  (JavaScriptNames.path e.1, ⟨e.2.code, e.2.skip⟩)

def HasTwins (paths : List Text) : Prop := ∃ p ∈ paths, ∃ q ∈ paths, Twins p q

theorem javaScript_eq (compiled : CompiledSet) :
    javaScript compiled = .ofList (compiled.entries.map renamed) := rfl

theorem map_fst_renamed (compiled : CompiledSet) :
    (compiled.entries.map renamed).map Prod.fst = compiled.keys.map JavaScriptNames.path := by
  rw [OrderedMap.keys, List.map_map, List.map_map]
  rfl

theorem nodup_renamed_iff (compiled : CompiledSet) :
    ((compiled.entries.map renamed).map Prod.fst).Nodup ↔ ¬HasTwins compiled.keys := by
  have hkeys : compiled.keys.Nodup := compiled.distinct
  rw [map_fst_renamed, List.nodup_map_iff_inj_on hkeys]
  constructor
  · intro h htwins
    obtain ⟨p, hp, q, hq, hpq⟩ := htwins
    exact hpq.ne (h p hp q hq (JavaScriptNames.path_eq_path_iff.mpr (.inr (.inl hpq))))
  · intro h p hp q hq heq
    rcases JavaScriptNames.path_eq_path_iff.mp heq with hpq | hpq | hqp
    · exact hpq
    · exact absurd ⟨p, hp, q, hq, hpq⟩ h
    · exact absurd ⟨q, hq, p, hp, hqp⟩ h

theorem size_javaScript (compiled : CompiledSet) :
    (javaScript compiled).size =
      ((compiled.entries.map renamed).map Prod.fst).eraseDups.length := by
  rw [← OrderedMap.keys_ofList, ← javaScript_eq, OrderedMap.keys, List.length_map, OrderedMap.size]

theorem entries_javaScript_iff (compiled : CompiledSet) :
    (javaScript compiled).entries = compiled.entries.map renamed ↔ ¬HasTwins compiled.keys := by
  rw [← nodup_renamed_iff]
  constructor
  · intro h
    rw [← h]
    exact (javaScript compiled).distinct
  · exact OrderedMap.entries_ofList

theorem size_javaScript_lt_iff (compiled : CompiledSet) :
    (javaScript compiled).size < compiled.size ↔ HasTwins compiled.keys := by
  constructor
  · intro h
    by_contra htwins
    have hsize : (javaScript compiled).size = compiled.size := by
      rw [OrderedMap.size, (entries_javaScript_iff compiled).mpr htwins, List.length_map,
        OrderedMap.size]
    exact Nat.lt_irrefl _ (hsize ▸ h)
  · intro htwins
    have hnodup := mt (nodup_renamed_iff compiled).mp (not_not_intro htwins)
    have hlt := length_eraseDups_lt hnodup
    rwa [← size_javaScript, List.length_map, List.length_map] at hlt

section Sources

variable {compiled : CompiledSet} {sources : FileSet}

theorem skip_of_mem_withSkipOf (h : compiled.keys = sources.keys) {e : Text × CompiledFile}
    (he : e ∈ (compiled.withSkipOf sources).entries) : e.2.skip = sources.hides e.1 := by
  obtain ⟨old, hold, rfl⟩ := List.mem_map.mp he
  have hmem : old.1 ∈ sources.keys := h ▸ List.mem_map_of_mem hold
  obtain ⟨source, hsource, hpath⟩ := List.mem_map.mp hmem
  have hget : sources.get? old.1 = some source.2 :=
    hpath ▸ OrderedMap.find?_of_mem sources.distinct hsource
  simp [FileSet.hides, hget]

theorem map_fst_emitted_javaScript (h : compiled.keys = sources.keys)
    (htwins : ¬HasTwins compiled.keys) :
    (javaScript (compiled.withSkipOf sources)).emitted.map Prod.fst =
      (sources.keys.filter fun path => !sources.hides path).map JavaScriptNames.path := by
  have hkeys : (compiled.withSkipOf sources).keys = compiled.keys := OrderedMap.keys_map _ compiled
  have hentries := (entries_javaScript_iff (compiled.withSkipOf sources)).mpr (hkeys ▸ htwins)
  have hskip : ∀ e ∈ (compiled.withSkipOf sources).entries,
      ((fun shown => !shown.2.skip) ∘ renamed) e = !sources.hides e.1 :=
    fun e he => congrArg _ (skip_of_mem_withSkipOf h he)
  rw [FileSet.emitted, hentries, List.filter_map, List.filter_congr hskip, ← h, ← hkeys,
    OrderedMap.keys, List.filter_map, List.map_map, List.map_map]
  rfl

theorem map_fst_emitted_typeScript (sources : FileSet) :
    (typeScript sources).emitted.map (fun e => JavaScriptNames.path e.1) =
      (sources.keys.filter fun path => !sources.hides path).map JavaScriptNames.path := by
  rw [← FileSet.map_fst_emitted, FileSet.emitted, typeScript, OrderedMap.map, List.filter_map,
    List.map_map, List.map_map]
  rfl

end Sources

/-- Only a TypeScript file beside a file of its JavaScript name costs the tab a file. Without such
a pair the files come out one by one, and both tabs show the same ones. -/
theorem javaScript_keeps_files (compiled : CompiledSet) :
    ((javaScript compiled).entries = compiled.entries.map renamed ↔ ¬HasTwins compiled.keys) ∧
      ((javaScript compiled).size < compiled.size ↔ HasTwins compiled.keys) ∧
      ∀ sources : FileSet, compiled.keys = sources.keys → ¬HasTwins compiled.keys →
        (javaScript (compiled.withSkipOf sources)).emitted.map Prod.fst =
          (typeScript sources).emitted.map fun e => JavaScriptNames.path e.1 := by
  refine ⟨entries_javaScript_iff compiled, size_javaScript_lt_iff compiled, ?_⟩
  intro sources hkeys htwins
  rw [map_fst_emitted_javaScript hkeys htwins, map_fst_emitted_typeScript]

def echoed (files : FileSet) : CompiledSet := files.map fun _ file => .clean file.code

def widget : FileSet :=
  .ofList [("d/types.ts", .hidden "t"), ("d/App.tsx", .shown "a"), ("d/page.js", .shown "p")]

theorem javaScript_keeps_widget :
    (echoed widget).keys = widget.keys ∧ ¬HasTwins (echoed widget).keys ∧
      (javaScript ((echoed widget).withSkipOf widget)).emitted.map Prod.fst =
        ([("d/App.jsx" : Text), "d/page.js"] : List Text) := by
  have hkeys : (echoed widget).keys = widget.keys := OrderedMap.keys_map _ widget
  have htwins : ¬HasTwins (echoed widget).keys := by
    rw [← nodup_renamed_iff]
    decide
  refine ⟨hkeys, htwins, ?_⟩
  rw [(javaScript_keeps_files (echoed widget)).2.2 widget hkeys htwins]
  decide

def twins : CompiledSet := .ofList [("d/a.ts", .clean "ts"), ("d/a.js", .clean "js")]

/-- Of twins only one is left, in the place of the first and with the code of the second. -/
theorem javaScript_loses_twin :
    ¬∀ compiled : CompiledSet, (javaScript compiled).entries = compiled.entries.map renamed := by
  intro h
  have hleft : (javaScript twins).entries = [(("d/a.js" : Text), .shown "js")] := by decide
  exact absurd (hleft.symm.trans (h twins)) (by decide)

end Shaping

end CodeTabs
