import CodeTabs.Text.Word

/-!
A word never stands across a character that is no word character. Such a character parts a text,
and a word stands in the text when it stands in one of the parts. A word ends at a boundary, where
just one of the characters on both sides is a word character.
-/

namespace CodeTabs.Text

variable {word : Text} {c : Char}

/-- Between the two texts a word begins or ends. No character counts as one that is in no word. -/
def WordBoundary (before after : Text) : Prop :=
  before.getLast?.any isWord ≠ after.head?.any isWord

theorem wordEndsAt_iff (hlast : word.getLast?.any isWord = true) (rest : Text) :
    rest.wordEndsAt = true ↔ WordBoundary word rest := by
  cases rest with
  | nil => simp [wordEndsAt, WordBoundary, hlast]
  | cons c rest => simp [wordEndsAt, WordBoundary, hlast]

theorem any_wordEndsAt_append (hword : word.all isWord = true) (hc : isWord c = false)
    (first rest : Text) : (after? word (first ++ c :: rest)).any wordEndsAt =
      (after? word first).any wordEndsAt := by
  induction word generalizing first with
  | nil =>
    cases first with
    | nil => simp [after?, wordEndsAt, hc]
    | cons d first => simp [after?, wordEndsAt]
  | cons w word ih =>
    rw [List.all_cons, Bool.and_eq_true] at hword
    cases first with
    | nil =>
      have hne : w ≠ c := fun heq => by simp [heq, hc] at hword
      simp [after?, hne]
    | cons d first =>
      by_cases heq : w = d
      · simpa [after?, heq] using ih hword.2 first
      · simp [after?, heq]

theorem holdsWordFrom_append_separator (hne : word ≠ []) (hword : word.all isWord = true)
    (hc : isWord c = false) (inside : Bool) (first rest : Text) :
    holdsWordFrom word inside (first ++ c :: rest) =
      (holdsWordFrom word inside first || holdsWord word rest) := by
  induction first generalizing inside with
  | nil =>
    obtain ⟨w, word, rfl⟩ := List.exists_cons_of_ne_nil hne
    have hstart := any_wordEndsAt_append hword hc [] rest
    rw [List.nil_append] at hstart
    simp only [List.nil_append, holdsWordFrom, hstart, hc]
    simp [after?, holdsWord]
  | cons d first ih =>
    have hstart := any_wordEndsAt_append hword hc (d :: first) rest
    rw [List.cons_append] at hstart
    rw [List.cons_append, holdsWordFrom, holdsWordFrom, hstart, ih, Bool.or_assoc]

theorem holdsWord_append_separator (hne : word ≠ []) (hword : word.all isWord = true)
    (hc : isWord c = false) (first rest : Text) :
    holdsWord word (first ++ c :: rest) = (holdsWord word first || holdsWord word rest) :=
  holdsWordFrom_append_separator hne hword hc false first rest

end CodeTabs.Text
