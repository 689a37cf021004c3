import CodeTabs.Path
import Mathlib.Data.List.Induction

/-!
A path as seen from a folder names the same file. Cleaning keeps a stack of components, and what it
has kept is taken once more without any change; so a cleaned path goes on from a cleaned folder just
as the path itself goes on from the folder. Written out, the components that remain are read back
one for one.
-/

namespace CodeTabs

namespace Text

theorem splitAt_ne_nil (separator : Char) (text : Text) : splitAt separator text ≠ [] := by
  cases text with
  | nil => exact List.cons_ne_nil _ _
  | cons c text =>
    rw [splitAt]
    split
    · exact List.cons_ne_nil _ _
    · split <;> exact List.cons_ne_nil _ _

theorem splitAt_append (separator : Char) (text rest : Text) :
    splitAt separator (text ++ separator :: rest) =
      splitAt separator text ++ splitAt separator rest := by
  induction text with
  | nil => simp [splitAt]
  | cons c text ih =>
    rw [List.cons_append, splitAt, splitAt, ih]
    split
    · rfl
    · cases hparts : splitAt separator text with
      | nil => exact absurd hparts (splitAt_ne_nil separator text)
      | cons part parts => rfl

theorem splitAt_of_not_mem {separator : Char} {text : Text} (h : separator ∉ text) :
    splitAt separator text = [text] := by
  induction text with
  | nil => rfl
  | cons c text ih =>
    rw [List.mem_cons, not_or] at h
    rw [splitAt, if_neg (Ne.symm h.1), ih h.2]

theorem of_mem_joined {separator : Text} {parts : List Text} {c : Char}
    (h : c ∈ joined separator parts) : c ∈ separator ∨ ∃ part ∈ parts, c ∈ part := by
  induction parts with
  | nil => cases h
  | cons part parts ih =>
    cases parts with
    | nil =>
      rw [joined, List.intercalate_singleton] at h
      exact .inr ⟨part, List.mem_singleton_self part, h⟩
    | cons next parts =>
      rw [joined, List.intercalate_cons_cons, List.mem_append, List.mem_append] at h
      rcases h with (hpart | hseparator) | hrest
      · exact .inr ⟨part, List.mem_cons_self, hpart⟩
      · exact .inl hseparator
      · obtain hseparator | ⟨other, hother, hc⟩ := ih hrest
        · exact .inl hseparator
        · exact .inr ⟨other, List.mem_cons_of_mem part hother, hc⟩

theorem of_mem_splitAt {separator : Char} {text part : Text} (h : part ∈ splitAt separator text) :
    separator ∉ part ∧ part ⊆ text := by
  induction text generalizing part with
  | nil =>
    rw [List.mem_singleton.mp h]
    exact ⟨List.not_mem_nil, List.Subset.refl _⟩
  | cons c text ih =>
    rw [splitAt] at h
    split at h
    · rcases List.mem_cons.mp h with rfl | h
      · exact ⟨List.not_mem_nil, List.nil_subset _⟩
      · exact ⟨(ih h).1, List.subset_cons_of_subset c (ih h).2⟩
    · next hc =>
      cases hparts : splitAt separator text with
      | nil => exact absurd hparts (splitAt_ne_nil separator text)
      | cons first parts =>
        rw [hparts] at h ih
        rcases List.mem_cons.mp h with rfl | h
        · obtain ⟨hfirst, hsub⟩ := ih List.mem_cons_self
          refine ⟨?_, List.cons_subset_cons c hsub⟩
          rw [List.mem_cons, not_or]
          exact ⟨Ne.symm hc, hfirst⟩
        · obtain ⟨hpart, hsub⟩ := ih (List.mem_cons_of_mem first h)
          exact ⟨hpart, List.subset_cons_of_subset c hsub⟩

end Text

namespace Path

def Component.IsStep : Component → Prop
  | .up => True
  | .name text => text ≠ [] ∧ '/' ∉ text ∧ text ≠ "." ∧ text ≠ ".."
  | _ => False

theorem steps_append (path rest : Text) :
    steps (path ++ '/' :: rest) = steps path ++ steps rest := by
  rw [steps, Text.splitAt_append, List.filterMap_append]
  rfl

theorem components_append {folder : Text} (h : folder ≠ []) (rest : Text) :
    components (folder ++ '/' :: rest) = components folder ++ steps rest := by
  have habsolute : isAbsolute (folder ++ '/' :: rest) = isAbsolute folder := by
    obtain ⟨c, tail, rfl⟩ := List.exists_cons_of_ne_nil h
    rfl
  rw [components, components, habsolute, steps_append]
  split <;> rfl

theorem of_mem_steps {path : Text} {c : Component} (h : c ∈ steps path) :
    c.IsStep ∧ (c = .up ∨ c.text ⊆ path) := by
  obtain ⟨part, hpart, hc⟩ := List.mem_filterMap.mp h
  obtain ⟨hslash, hsub⟩ := Text.of_mem_splitAt hpart
  split at hc
  · cases hc
  · next hkeep =>
    rw [Bool.or_eq_true, List.isEmpty_iff, decide_eq_true_eq, not_or] at hkeep
    split at hc
    · cases hc
      exact ⟨trivial, .inl rfl⟩
    · next hup =>
      cases hc
      exact ⟨⟨hkeep.1, hslash, hkeep.2, hup⟩, .inr hsub⟩

theorem steps_text {c : Component} (h : c.IsStep) : steps c.text = [c] := by
  cases c with
  | root => cases h
  | here => cases h
  | up => rfl
  | name text =>
    obtain ⟨hne, hslash, hhere, hup⟩ := h
    have hkeep : (text.isEmpty || decide (text = ".")) = false := by
      rw [Bool.or_eq_false_iff, List.isEmpty_eq_false_iff, decide_eq_false_iff_not]
      exact ⟨hne, hhere⟩
    rw [Component.text, steps, Text.splitAt_of_not_mem hslash, List.filterMap_cons]
    simp only [hkeep, Bool.false_eq_true, if_false, if_neg hup, List.filterMap_nil]

theorem render_of_isStep {cs : List Component} (h : ∀ c ∈ cs, c.IsStep) :
    render cs = Text.joined "/" (cs.map Component.text) := by
  unfold render
  split
  · exact absurd (h .root List.mem_cons_self) id
  · rfl

theorem steps_render {cs : List Component} (h : ∀ c ∈ cs, c.IsStep) : steps (render cs) = cs := by
  rw [render_of_isStep h]
  induction cs with
  | nil => rfl
  | cons c cs ih =>
    obtain ⟨hc, hcs⟩ := List.forall_mem_cons.mp h
    cases cs with
    | nil =>
      rw [List.map_singleton, Text.joined, List.intercalate_singleton]
      exact steps_text hc
    | cons next cs =>
      have hjoined : Text.joined "/" ((c :: next :: cs).map Component.text) =
          c.text ++ '/' :: Text.joined "/" ((next :: cs).map Component.text) := by
        simp [Text.joined, List.intercalate_cons_cons]
      rw [hjoined, steps_append, steps_text hc, ih hcs]
      rfl

theorem below?_eq_some_iff {folder path rest : List Component} :
    below? folder path = some rest ↔ path = folder ++ rest := by
  induction folder generalizing path with
  | nil => simp [below?]
  | cons f folder ih =>
    cases path with
    | nil => simp [below?]
    | cons p path =>
      by_cases hp : f = p
      · simp [below?, hp, ih]
      · simp [below?, hp, Ne.symm hp]

theorem push_name (taken : List Component) (text : Text) :
    push taken (.name text) = .name text :: taken := by
  unfold push
  split
  · next h => cases h
  · next h => cases h
  · next h => cases h
  · rfl

/-- A component takes off the name on top, or it changes nothing, or it is put on top itself. -/
theorem push_cases (taken : List Component) (c : Component) :
    (∃ text, taken = .name text :: push taken c) ∨ push taken c = taken ∨
      push taken c = c :: taken ∧ c ≠ .here := by
  unfold push
  split
  · exact .inl ⟨_, rfl⟩
  · exact .inr (.inl rfl)
  · exact .inr (.inl rfl)
  · next hhere _ _ => exact .inr (.inr ⟨rfl, hhere⟩)

def kept (cs : List Component) : List Component := cs.foldl push []

theorem kept_concat (cs : List Component) (c : Component) :
    kept (cs ++ [c]) = push (kept cs) c := by
  rw [kept, List.foldl_append]
  rfl

theorem mem_kept {cs : List Component} {c : Component} (h : c ∈ kept cs) : c ∈ cs ∧ c ≠ .here := by
  induction cs using List.reverseRecOn with
  | nil => cases h
  | append_singleton cs last ih =>
    rw [kept_concat] at h
    rw [List.mem_append]
    rcases push_cases (kept cs) last with ⟨text, htaken⟩ | hsame | ⟨hnew, hlast⟩
    · obtain ⟨hcs, hne⟩ := ih (by rw [htaken]; exact List.mem_cons_of_mem _ h)
      exact ⟨.inl hcs, hne⟩
    · obtain ⟨hcs, hne⟩ := ih (hsame ▸ h)
      exact ⟨.inl hcs, hne⟩
    · rw [hnew, List.mem_cons] at h
      rcases h with rfl | h
      · exact ⟨.inr (List.mem_singleton_self c), hlast⟩
      · exact ⟨.inl (ih h).1, (ih h).2⟩

theorem kept_reverse_kept (cs : List Component) : kept (kept cs).reverse = kept cs := by
  induction cs using List.reverseRecOn with
  | nil => rfl
  | append_singleton cs c ih =>
    rw [kept_concat]
    rcases push_cases (kept cs) c with ⟨text, htaken⟩ | hsame | ⟨hnew, -⟩
    · -- The rest was kept under a name, and a name takes nothing off.
      rw [htaken, List.reverse_cons, kept_concat, push_name] at ih
      exact (List.cons.inj ih).2
    · rw [hsame, ih]
    · rw [hnew, List.reverse_cons, kept_concat, ih, hnew]

theorem clean_cases (cs : List Component) :
    clean cs = [.here] ∧ kept cs = [] ∨ clean cs = (kept cs).reverse ∧ .here ∉ clean cs := by
  unfold clean
  split
  · next h => exact .inl ⟨rfl, List.reverse_eq_nil_iff.mp h⟩
  · exact .inr ⟨rfl, fun h => (mem_kept (List.mem_reverse.mp h)).2 rfl⟩

theorem clean_ne_nil (cs : List Component) : clean cs ≠ [] := by
  unfold clean
  split
  · exact List.cons_ne_nil _ _
  · next h => exact h

theorem mem_clean {cs : List Component} {c : Component} (h : c ∈ clean cs) :
    c = .here ∨ c ∈ cs := by
  rcases clean_cases cs with ⟨hhere, -⟩ | ⟨hkept, -⟩
  · rw [hhere] at h
    exact .inl (List.mem_singleton.mp h)
  · rw [hkept, List.mem_reverse] at h
    exact .inr (mem_kept h).1

theorem clean_append {folder path rest : List Component} (h : clean path = clean folder ++ rest) :
    clean (folder ++ rest) = clean path := by
  obtain ⟨first, others, hfirst⟩ := List.exists_cons_of_ne_nil (clean_ne_nil folder)
  rcases clean_cases path with ⟨hpath, hnone⟩ | ⟨hpath, hplain⟩
  · -- The cleaned folder is the place itself, and nothing is left.
    rw [hpath, hfirst, List.cons_append, List.cons_eq_cons, List.nil_eq_append_iff] at h
    obtain ⟨rfl, rfl, rfl⟩ := h
    rw [List.append_nil, hfirst, hpath]
  · rcases clean_cases folder with ⟨hfolder, -⟩ | ⟨hfolder, -⟩
    · rw [h, hfolder] at hplain
      exact absurd List.mem_cons_self hplain
    · have hkept : kept (folder ++ rest) = kept path :=
        calc kept (folder ++ rest)
            = rest.foldl push (kept folder) := List.foldl_append
          _ = rest.foldl push (kept (kept folder).reverse) := by rw [kept_reverse_kept]
          _ = kept ((kept folder).reverse ++ rest) := List.foldl_append.symm
          _ = kept (kept path).reverse := by rw [← hfolder, ← h, hpath]
          _ = kept path := kept_reverse_kept path
      rw [clean, clean, ← kept, ← kept, hkept]

theorem mem_dropLast_foldl_push {cs taken : List Component} {c : Component}
    (h : c ∈ (cs.foldl push taken).dropLast) : c ∈ cs ∨ c ∈ taken.dropLast := by
  induction cs generalizing taken with
  | nil => exact .inr h
  | cons first cs ih =>
    rcases ih h with hcs | hpush
    · exact .inl (List.mem_cons_of_mem first hcs)
    · rcases push_cases taken first with ⟨text, htaken⟩ | hsame | ⟨hnew, -⟩
      · have hne : push taken first ≠ [] := List.ne_nil_of_mem (List.dropLast_subset _ hpush)
        rw [htaken, List.dropLast_cons_of_ne_nil hne]
        exact .inr (List.mem_cons_of_mem _ hpush)
      · exact .inr (hsame ▸ hpush)
      · rw [hnew] at hpush
        cases taken with
        | nil => cases hpush
        | cons top taken =>
          rw [List.dropLast_cons_of_ne_nil (List.cons_ne_nil _ _), List.mem_cons] at hpush
          rcases hpush with rfl | hpush
          · exact .inl List.mem_cons_self
          · exact .inr hpush

theorem isStep_of_mem_tail_clean {path : Text} {c : Component}
    (h : c ∈ (clean (components path)).tail) : c.IsStep := by
  rcases clean_cases (components path) with ⟨hhere, -⟩ | ⟨hkept, -⟩
  · rw [hhere] at h
    cases h
  · rw [hkept, List.tail_reverse, List.mem_reverse, kept, components] at h
    split at h
    · -- The root lies at the bottom before any step is taken.
      rcases @mem_dropLast_foldl_push (steps path) [.root] c h with hsteps | hroot
      · exact (of_mem_steps hsteps).1
      · cases hroot
    · rcases mem_dropLast_foldl_push h with hsteps | hnil
      · exact (of_mem_steps hsteps).1
      · cases hnil

section Relative

/-- The path lies in the folder, by its text or once both are cleaned. -/
def Inside (folder path : Text) : Prop :=
  (∃ written, path = folder ++ '/' :: written) ∨
    clean (components folder) <+: clean (components path)

theorem relative_written (folder written : Text) :
    relative (folder ++ '/' :: written) folder = written := by
  have hfolder : Text.after? folder (folder ++ '/' :: written) = some ('/' :: written) :=
    Text.after?_eq_some_iff.mpr rfl
  rw [relative, hfolder]
  rfl

theorem plain_of_mem_clean {path : Text} (plain : '\\' ∉ path) {c : Component}
    (h : c ∈ clean (components path)) : '\\' ∉ c.text := by
  rcases mem_clean h with rfl | h
  · decide
  · rw [components] at h
    have hsteps : c = .root ∨ c ∈ steps path := by
      split at h
      · exact List.mem_cons.mp h
      · exact .inr h
    rcases hsteps with rfl | hsteps
    · decide
    · rcases (of_mem_steps hsteps).2 with rfl | hsub
      · decide
      · exact fun hmem => plain (hsub hmem)

theorem plain_render {cs : List Component} (h : ∀ c ∈ cs, '\\' ∉ c.text) : '\\' ∉ render cs := by
  have hjoined {cs : List Component} (h : ∀ c ∈ cs, '\\' ∉ c.text) :
      '\\' ∉ Text.joined "/" (cs.map Component.text) := by
    intro hmem
    obtain hslash | ⟨part, hpart, hmem⟩ := Text.of_mem_joined hmem
    · revert hslash
      decide
    · obtain ⟨c, hc, rfl⟩ := List.mem_map.mp hpart
      exact h c hc hmem
  unfold render
  split
  · rw [List.mem_cons, not_or]
    exact ⟨by decide, hjoined (List.forall_mem_cons.mp h).2⟩
  · exact hjoined h

theorem map_slashes {text : Text} (plain : '\\' ∉ text) :
    (text.map fun c => if c = '\\' then '/' else c) = text := by
  have hsame : ∀ c ∈ text, (if c = '\\' then '/' else c) = c := by
    intro c hc
    have hne : c ≠ '\\' := fun h => plain (h ▸ hc)
    exact if_neg hne
  rw [List.map_congr_left hsame, List.map_id']

variable {path folder : Text}

theorem relative_eq (unwritten : ∀ written, path ≠ folder ++ '/' :: written) :
    relative path folder =
      (render ((below? (clean (components folder)) (clean (components path))).getD
        (clean (components path)))).map fun c => if c = '\\' then '/' else c := by
  have hnone : (Text.after? folder path).bind (Text.after? "/") = none := by
    rw [Option.bind_eq_none_iff]
    intro rest hrest
    rw [Option.eq_none_iff_forall_ne_some]
    intro written hwritten
    apply unwritten written
    rw [Text.after?_eq_some_iff.mp hrest, Text.after?_eq_some_iff.mp hwritten]
    rfl
  rw [relative, hnone]

theorem relative_of_not_inside (plain : '\\' ∉ path) (h : ¬Inside folder path) :
    relative path folder = cleaned path := by
  have hbelow : below? (clean (components folder)) (clean (components path)) = none := by
    rw [Option.eq_none_iff_forall_ne_some]
    intro rest hrest
    exact h (.inr ⟨rest, (below?_eq_some_iff.mp hrest).symm⟩)
  rw [relative_eq fun written hwritten => h (.inl ⟨written, hwritten⟩), hbelow, Option.getD_none]
  exact map_slashes (plain_render fun c hc => plain_of_mem_clean plain hc)

theorem relative_of_below (plain : '\\' ∉ path)
    (unwritten : ∀ written, path ≠ folder ++ '/' :: written) {rest : List Component}
    (h : clean (components path) = clean (components folder) ++ rest) :
    relative path folder = render rest := by
  rw [relative_eq unwritten, below?_eq_some_iff.mpr h, Option.getD_some]
  refine map_slashes (plain_render fun c hc => plain_of_mem_clean plain ?_)
  rw [h]
  exact List.mem_append_right _ hc

theorem steps_render_of_below {rest : List Component}
    (h : clean (components path) = clean (components folder) ++ rest) :
    steps (render rest) = rest := by
  obtain ⟨first, others, hfirst⟩ := List.exists_cons_of_ne_nil (clean_ne_nil (components folder))
  apply steps_render
  intro c hc
  have htail : c ∈ (clean (components path)).tail := by
    rw [h, hfirst]
    exact List.mem_append_right others hc
  exact isStep_of_mem_tail_clean htail

/-- A path without backslashes that is seen from a folder names the same file: a path in the folder
goes on from it by what is seen, and any other path is seen as its cleaned form. What is written
behind the text of the folder is left as it is. -/
theorem relative_same_file (plain : '\\' ∉ path) (named : folder ≠ []) :
    (Inside folder path → cleaned (folder ++ '/' :: relative path folder) = cleaned path) ∧
    (¬Inside folder path → relative path folder = cleaned path) ∧
    ∀ written, path = folder ++ '/' :: written → relative path folder = written := by
  refine ⟨fun hinside => ?_, relative_of_not_inside plain, ?_⟩
  · by_cases hwritten : ∃ written, path = folder ++ '/' :: written
    · obtain ⟨written, rfl⟩ := hwritten
      rw [relative_written]
    · obtain ⟨rest, hrest⟩ := hinside.resolve_left hwritten
      rw [relative_of_below plain (not_exists.mp hwritten) hrest.symm, cleaned,
        components_append named, steps_render_of_below hrest.symm, clean_append hrest.symm]
      rfl
  · rintro written rfl
    exact relative_written folder written

end Relative

def seenFolder : Text := "../docs/./page.mdx/codeBlock_2/"

def seenPath : Text := "..//docs/page.mdx/tmp/../codeBlock_2/lib/../main.ts"

theorem relative_seen : ('\\' ∉ seenPath ∧ seenFolder ≠ []) ∧
    relative seenPath seenFolder = "main.ts" ∧
    cleaned (seenFolder ++ '/' :: "main.ts") = "../docs/page.mdx/codeBlock_2/main.ts" := by
  have hplain : '\\' ∉ seenPath := by decide
  have hnamed : seenFolder ≠ [] := by decide
  have hseen : relative seenPath seenFolder = "main.ts" := by decide
  have hinside : Inside seenFolder seenPath := .inr ⟨[.name "main.ts"], by decide⟩
  have hclean := (relative_same_file hplain hnamed).1 hinside
  rw [hseen] at hclean
  exact ⟨⟨hplain, hnamed⟩, hseen, hclean.trans (by decide)⟩

example : relative "d/../../shared.ts" "d" = "../../shared.ts".toList := by decide

end Path

end CodeTabs
