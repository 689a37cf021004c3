import CodeTabs.Text.Blank
import Mathlib.Data.List.DropRight

/-!
Trimming leaves a text that begins and ends with characters that are not white space, so white
space behind a text makes no difference and trimming again none either. All other characters of a
text are its ink, and trimming takes none of it.
-/

namespace CodeTabs.Text

theorem dropEndWhile_eq_rdropWhile (p : Char → Bool) (text : Text) :
    dropEndWhile p text = List.rdropWhile p text := rfl

theorem dropEndWhile_concat {p : Char → Bool} {c : Char} (h : p c = true) (text : Text) :
    dropEndWhile p (text ++ [c]) = dropEndWhile p text :=
  List.rdropWhile_concat_pos p text c h

theorem trimEnd_trimEnd (text : Text) : trimEnd (trimEnd text) = trimEnd text := by
  simp only [trimEnd, dropEndWhile_eq_rdropWhile, List.rdropWhile_idempotent]

theorem trimEnd_append_blank (text : Text) {space : Text} (h : space.isBlank = true) :
    trimEnd (text ++ space) = trimEnd text := by
  induction space using List.reverseRecOn with
  | nil => rw [List.append_nil]
  | append_singleton space c ih =>
    rw [isBlank, List.all_append, Bool.and_eq_true] at h
    have hc : CodeTabs.isBlank c = true := by simpa using h.2
    rw [← List.append_assoc, trimEnd, dropEndWhile_concat hc]
    exact ih h.1

theorem trim_append_blank (text : Text) {space : Text} (h : space.isBlank = true) :
    trim (text ++ space) = trim text := by
  have hspace : space.dropWhile CodeTabs.isBlank = [] := List.dropWhile_eq_nil_iff.mpr
    (List.all_eq_true.mp h)
  rw [trim, trim, List.dropWhile_append]
  cases hstart : text.dropWhile CodeTabs.isBlank with
  | nil => simp [hspace]
  | cons c rest => exact trimEnd_append_blank (c :: rest) h

theorem trim_trim (text : Text) : trim (trim text) = trim text := by
  have hstart : (trim text).dropWhile CodeTabs.isBlank = trim text := by
    obtain ⟨space, hspace⟩ := List.rdropWhile_prefix CodeTabs.isBlank
      (l := text.dropWhile CodeTabs.isBlank)
    cases h : trim text with
    | nil => rfl
    | cons c rest =>
      have hhead : text.dropWhile CodeTabs.isBlank = c :: (rest ++ space) := by
        rw [← hspace, ← List.cons_append, ← h]
        rfl
      have hc := List.head?_dropWhile_not CodeTabs.isBlank text
      simp only [hhead, List.head?_cons] at hc
      rw [List.dropWhile_cons, hc]
      rfl
  rw [trim, hstart]
  exact trimEnd_trimEnd _

theorem dropEndWhile_append (p : Char → Bool) (first second : Text) :
    dropEndWhile p (first ++ second) = if second.all p
      then dropEndWhile p first else first ++ dropEndWhile p second := by
  have hall : (second.reverse.dropWhile p).isEmpty = second.all p := by
    rw [Bool.eq_iff_iff, List.isEmpty_iff, List.dropWhile_eq_nil_iff, List.all_eq_true]
    simp only [List.mem_reverse]
  rw [dropEndWhile, List.reverse_append, List.dropWhile_append, hall]
  split
  · rfl
  · rw [List.reverse_append, List.reverse_reverse, dropEndWhile]

theorem exists_dropEndWhile (p : Char → Bool) (text : Text) :
    ∃ tail, text = dropEndWhile p text ++ tail ∧ tail.all p = true := by
  refine ⟨(text.reverse.takeWhile p).reverse, ?_, ?_⟩
  · rw [dropEndWhile, ← List.reverse_append, List.takeWhile_append_dropWhile, List.reverse_reverse]
  · rw [List.all_reverse]
    exact List.all_takeWhile

theorem exists_trim (text : Text) :
    ∃ lead tail, text = lead ++ (trim text ++ tail) ∧ lead.isBlank = true ∧
      tail.isBlank = true := by
  obtain ⟨tail, htail, hblank⟩ :=
    exists_dropEndWhile CodeTabs.isBlank (text.dropWhile CodeTabs.isBlank)
  refine ⟨text.takeWhile CodeTabs.isBlank, tail, ?_, List.all_takeWhile, hblank⟩
  rw [trim, trimEnd, ← htail, List.takeWhile_append_dropWhile]

theorem isBlank_append (first second : Text) :
    isBlank (first ++ second) = (isBlank first && isBlank second) := List.all_append

theorem isBlank_of_subset {text part : Text} (h : text.isBlank = true) (hpart : part ⊆ text) :
    part.isBlank = true :=
  List.all_eq_true.mpr fun c hc => List.all_eq_true.mp h c (hpart hc)

/-- How many characters of a text are not white space. -/
def ink (text : Text) : Nat := text.countP fun c => !CodeTabs.isBlank c

theorem ink_append (first second : Text) : ink (first ++ second) = ink first + ink second :=
  List.countP_append

theorem ink_of_isBlank {text : Text} (h : text.isBlank = true) : ink text = 0 := by
  refine List.countP_eq_zero.mpr fun c hc => ?_
  simp [List.all_eq_true.mp h c hc]

theorem ink_trim (text : Text) : ink (trim text) = ink text := by
  obtain ⟨lead, tail, htext, hlead, htail⟩ := exists_trim text
  have h := congrArg ink htext
  rw [ink_append, ink_append, ink_of_isBlank hlead, ink_of_isBlank htail] at h
  omega

end CodeTabs.Text
