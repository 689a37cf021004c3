import CodeTabs.Proofs.Text.Trim

/-!
The words of a text are what stands in it between white space. `Spaced` says this of a text and a
list of words, without a reader that goes through the text, and there is just one such list.
-/

namespace CodeTabs.Text

/-- The text holds these words in this order, apart by white space, and nothing else but white
space. -/
inductive Spaced : Text → List Text → Prop
  | blank {space : Text} (hspace : space.isBlank = true) : Spaced space []
  | word {space word rest : Text} {others : List Text} (hspace : space.isBlank = true)
      (hne : word ≠ []) (hword : ∀ c ∈ word, CodeTabs.isBlank c = false)
      (hend : ∀ c ∈ rest.head?, CodeTabs.isBlank c = true) (hrest : Spaced rest others) :
      Spaced (space ++ (word ++ rest)) (word :: others)

theorem Spaced.cons {word rest : Text} {others : List Text} (hne : word ≠ [])
    (hword : ∀ c ∈ word, CodeTabs.isBlank c = false)
    (hend : ∀ c ∈ rest.head?, CodeTabs.isBlank c = true) (hrest : Spaced rest others) :
    Spaced (word ++ rest) (word :: others) :=
  @Spaced.word [] word rest others rfl hne hword hend hrest

theorem words_blank_append {space : Text} (h : space.isBlank = true) (text : Text) :
    words (space ++ text) = words text := by
  induction space with
  | nil => rfl
  | cons c space ih =>
    simp only [isBlank, List.all_cons, Bool.and_eq_true] at h
    rw [List.cons_append, words, if_pos h.1]
    exact ih h.2

theorem words_of_isBlank {space : Text} (h : space.isBlank = true) : words space = [] := by
  simpa [words] using words_blank_append h []

theorem words_word_append {word rest : Text} (hne : word ≠ [])
    (hword : ∀ c ∈ word, CodeTabs.isBlank c = false)
    (hend : ∀ c ∈ rest.head?, CodeTabs.isBlank c = true) :
    words (word ++ rest) = word :: words rest := by
  induction word with
  | nil => exact absurd rfl hne
  | cons c word ih =>
    obtain ⟨hc, hword⟩ := List.forall_mem_cons.mp hword
    rw [List.cons_append, words, if_neg (by simp [hc])]
    cases word with
    | nil =>
      have hall : rest.head?.all CodeTabs.isBlank = true := by
        rw [Option.all_eq_true]
        exact hend
      simp [hall]
    | cons d word =>
      have hd : CodeTabs.isBlank d = false := hword d List.mem_cons_self
      rw [ih (List.cons_ne_nil d word) hword]
      simp [hd]

theorem Spaced.words_eq {text : Text} {list : List Text} (h : Spaced text list) :
    words text = list := by
  induction h with
  | blank hspace => exact words_of_isBlank hspace
  | word hspace hne hword hend _ ih =>
    rw [words_blank_append hspace, words_word_append hne hword hend, ih]

theorem Spaced.isBlank {text : Text} (h : Spaced text []) : text.isBlank = true := by
  cases h with
  | blank hspace => exact hspace

theorem Spaced.cons_blank {c : Char} {text : Text} {list : List Text}
    (hc : CodeTabs.isBlank c = true) (h : Spaced text list) : Spaced (c :: text) list := by
  have hcons : ∀ {space : Text}, space.isBlank = true → Text.isBlank (c :: space) = true := by
    intro space hspace
    simpa [Text.isBlank, hc] using hspace
  cases h with
  | blank hspace => exact .blank (hcons hspace)
  | word hspace hne hword hend hrest => exact .word (hcons hspace) hne hword hend hrest

theorem Spaced.cons_word {c d : Char} {text word : Text} {others : List Text}
    (hc : CodeTabs.isBlank c = false) (hd : CodeTabs.isBlank d = false)
    (h : Spaced (d :: text) (word :: others)) :
    Spaced (c :: d :: text) ((c :: word) :: others) := by
  generalize htext : d :: text = whole at h
  generalize hlist : word :: others = list at h
  cases h with
  | blank => cases hlist
  | @word space _ rest _ hspace hne hword hend hrest =>
    obtain ⟨rfl, rfl⟩ := List.cons.inj hlist
    cases space with
    | nil =>
      exact .cons (List.cons_ne_nil c word) (List.forall_mem_cons.mpr ⟨hc, hword⟩) hend hrest
    | cons b space =>
      obtain ⟨rfl, -⟩ := List.cons.inj htext
      simp [Text.isBlank, hd] at hspace

theorem spaced_words (text : Text) : Spaced text (words text) := by
  induction text with
  | nil => exact .blank rfl
  | cons c text ih =>
    rw [words]
    split
    · next hc => exact ih.cons_blank hc
    · next hc =>
      rw [Bool.not_eq_true] at hc
      split
      · next hend =>
        rw [Option.all_eq_true] at hend
        exact .cons (List.cons_ne_nil c []) (by simpa using hc) hend ih
      · next hend =>
        cases text with
        | nil => exact absurd rfl hend
        | cons d text =>
          have hd : CodeTabs.isBlank d = false := by simpa using hend
          cases hlist : words (d :: text) with
          | nil =>
            -- The text goes on with a character that is not white space, so it has a word.
            have hblank := (hlist ▸ ih).isBlank
            simp [Text.isBlank, hd] at hblank
          | cons word others =>
            rw [hlist] at ih
            exact ih.cons_word hc hd

theorem spaced_iff {text : Text} {list : List Text} : Spaced text list ↔ words text = list :=
  ⟨Spaced.words_eq, fun h => h ▸ spaced_words text⟩

theorem words_append_blank (text : Text) {space : Text} (h : space.isBlank = true) :
    words (text ++ space) = words text := by
  have hspaced := spaced_words text
  generalize words text = list at hspaced ⊢
  induction hspaced with
  | blank hspace => exact words_of_isBlank (by rw [isBlank_append, hspace, h]; rfl)
  | @word lead word rest others hlead hne hword hend hrest ih =>
    have hspace := List.all_eq_true.mp h
    have hmore : ∀ c ∈ (rest ++ space).head?, CodeTabs.isBlank c = true := by
      cases rest with
      | nil => exact fun c hc => hspace c (List.mem_of_head? hc)
      | cons d rest => exact hend
    rw [List.append_assoc, List.append_assoc, words_blank_append hlead,
      words_word_append hne hword hmore, ih]

theorem words_flatMap_space {list : List Text}
    (h : ∀ word ∈ list, word ≠ [] ∧ ∀ c ∈ word, CodeTabs.isBlank c = false) :
    words (list.flatMap (' ' :: ·)) = list := by
  apply Spaced.words_eq
  induction list with
  | nil => exact .blank rfl
  | cons word others ih =>
    obtain ⟨⟨hne, hword⟩, hothers⟩ := List.forall_mem_cons.mp h
    have hend : ∀ c ∈ (others.flatMap (' ' :: ·)).head?, CodeTabs.isBlank c = true := by
      cases others with
      | nil => simp
      | cons other others =>
        intro c hc
        obtain rfl : ' ' = c := by simpa using hc
        decide
    have hspace : isBlank [' '] = true := by decide
    exact .word hspace hne hword hend (ih hothers)

end CodeTabs.Text
