import CodeTabs.JavaScriptNames
import Mathlib.Data.List.Forall2
import Mathlib.Data.List.Induction

/-!
What is rewritten in the metadata of a fence: the `t` of every TypeScript extension that ends the
value of a title, and nothing else. The scan carries no more than whether a title is open, and that
can be told from the text before. A title of the rewritten text would have been one of the text, so
none is left.
-/

namespace CodeTabs.JavaScriptNames

/-- A title has been opened by `title=` and a quote, and no other quote has come since. -/
def Opened (start : Text) : Prop :=
  ∃ (lead : Text) (opening : Char) (value : Text), isQuote opening = true ∧
    (∀ c ∈ value, isQuote c = false) ∧ start = lead ++ (titleOpening ++ opening :: value)

def Closes (rest : Text) : Prop :=
  ∃ (closing : Char) (after : Text), isQuote closing = true ∧
    (rest = 's' :: closing :: after ∨ rest = 's' :: 'x' :: closing :: after)

/-- The `t` between the two texts is that of a TypeScript extension that ends a title. -/
def ExtensionAt (start rest : Text) : Prop :=
  ∃ value, Opened value ∧ start = value ++ ['.'] ∧ Closes rest

theorem plain_of_all {text : Text} (h : text.all (!isQuote ·) = true) :
    ∀ c ∈ text, isQuote c = false := by
  simpa only [List.all_eq_true, Bool.not_eq_true'] using h

theorem endsValue_iff (rest : Text) : endsValue rest = true ↔ Closes rest := by
  unfold endsValue
  split
  · next q after =>
    constructor
    · exact fun h => ⟨q, after, h, .inr rfl⟩
    · rintro ⟨closing, others, hclosing, hrest | hrest⟩
      · cases hrest
        exact absurd hclosing (by decide)
      · cases hrest
        exact hclosing
  · next q after hlong =>
    constructor
    · exact fun h => ⟨q, after, h, .inl rfl⟩
    · rintro ⟨closing, others, hclosing, hrest | hrest⟩
      · cases hrest
        exact hclosing
      · cases hrest
        exact absurd rfl (hlong _ _ rfl)
  · next hlong hshort =>
    constructor
    · exact fun h => absurd h Bool.false_ne_true
    · rintro ⟨closing, others, -, rfl | rfl⟩
      · exact absurd rfl (hshort _ _)
      · exact absurd rfl (hlong _ _)

theorem opened_concat_iff (start : Text) (c : Char) : Opened (start ++ [c]) ↔
    if isQuote c then titleOpening <:+ start else Opened start := by
  constructor
  · rintro ⟨lead, opening, value, hopening, hvalue, hstart⟩
    rcases List.eq_nil_or_concat' value with rfl | ⟨value, last, rfl⟩
    · rw [← List.append_assoc] at hstart
      obtain ⟨rfl, hc⟩ := List.append_inj' hstart rfl
      obtain rfl : c = opening := List.singleton_inj.mp hc
      rw [if_pos hopening]
      exact List.suffix_append lead titleOpening
    · rw [← List.cons_append, ← List.append_assoc, ← List.append_assoc] at hstart
      obtain ⟨rfl, hc⟩ := List.append_inj' hstart rfl
      obtain rfl : c = last := List.singleton_inj.mp hc
      rw [List.forall_mem_append] at hvalue
      rw [if_neg (by simp [hvalue.2])]
      exact ⟨lead, opening, value, hopening, hvalue.1, List.append_assoc _ _ _⟩
  · intro h
    split at h
    · next hc =>
      obtain ⟨lead, rfl⟩ := h
      exact ⟨lead, c, [], hc, nofun, List.append_assoc _ _ _⟩
    · next hc =>
      obtain ⟨lead, opening, value, hopening, hvalue, rfl⟩ := h
      refine ⟨lead, opening, value ++ [c], hopening, ?_, by simp⟩
      rw [List.forall_mem_append]
      exact ⟨hvalue, by simpa using hc⟩

/-- Whether a title is open, told from the text before, which is given from its end. -/
def isOpened : Text → Bool
  | [] => false
  | c :: before => if isQuote c then titleOpening.reverse.isPrefixOf before else isOpened before

theorem isOpened_reverse_iff (start : Text) : isOpened start.reverse = true ↔ Opened start := by
  induction start using List.reverseRecOn with
  | nil =>
    constructor
    · exact fun h => absurd h Bool.false_ne_true
    · rintro ⟨lead, opening, value, -, -, hstart⟩
      rw [List.nil_eq_append_iff, List.append_eq_nil_iff] at hstart
      exact absurd hstart.2.2 (List.cons_ne_nil opening value)
  | append_singleton start c ih =>
    rw [List.reverse_append, List.reverse_singleton, List.singleton_append, isOpened,
      opened_concat_iff]
    split
    · rw [List.isPrefixOf_iff_prefix, List.reverse_prefix]
    · exact ih

theorem opened_dot_iff (value : Text) : Opened (value ++ ['.']) ↔ Opened value := by
  rw [opened_concat_iff]
  exact Iff.rfl

theorem due_iff (start rest : Text) (c : Char) :
    (isOpened start.reverse && start.reverse.head? == some '.' && c == 't' && endsValue rest) =
      true ↔ c = 't' ∧ ExtensionAt start rest := by
  simp only [Bool.and_eq_true, beq_iff_eq, isOpened_reverse_iff, endsValue_iff, List.head?_reverse,
    List.getLast?_eq_some_iff]
  constructor
  · rintro ⟨⟨⟨hopened, value, rfl⟩, hc⟩, hcloses⟩
    exact ⟨hc, value, (opened_dot_iff value).mp hopened, rfl, hcloses⟩
  · rintro ⟨hc, value, hopened, rfl, hcloses⟩
    exact ⟨⟨⟨(opened_dot_iff value).mpr hopened, value, rfl⟩, hc⟩, hcloses⟩

theorem getElem?_metadataFrom (before start : Text) (c : Char) (rest : Text) :
    (metadataFrom before (isOpened before) (start ++ c :: rest))[start.length]? =
      some (if isOpened (start.reverse ++ before) && (start.reverse ++ before).head? == some '.' &&
        c == 't' && endsValue rest then 'j' else c) := by
  induction start generalizing before with
  | nil => rfl
  | cons d start ih =>
    rw [List.reverse_cons, List.append_assoc, List.singleton_append]
    exact ih (d :: before)

section Metadata

variable {text start rest : Text} {c : Char}

theorem getElem?_metadata_of_extension (h : ExtensionAt start rest) :
    (metadata (start ++ 't' :: rest))[start.length]? = some 'j' := by
  have hscan := getElem?_metadataFrom [] start 't' rest
  rw [List.append_nil, if_pos ((due_iff start rest 't').mpr ⟨rfl, h⟩)] at hscan
  exact hscan

theorem getElem?_metadata_of_other (h : ¬(c = 't' ∧ ExtensionAt start rest)) :
    (metadata (start ++ c :: rest))[start.length]? = some c := by
  have hscan := getElem?_metadataFrom [] start c rest
  rw [List.append_nil, if_neg (mt (due_iff start rest c).mp h)] at hscan
  exact hscan

theorem length_metadata (text : Text) : (metadata text).length = text.length :=
  length_metadataFrom [] false text

theorem metadata_eq_of_getElem? {other : Text} (hlength : other.length = text.length)
    (h : ∀ start c rest, text = start ++ c :: rest →
      (metadata text)[start.length]? = other[start.length]?) : metadata text = other := by
  apply List.ext_getElem?
  intro i
  by_cases hi : i < text.length
  · have hsplit : text = text.take i ++ text[i] :: text.drop (i + 1) := by
      rw [← List.drop_eq_getElem_cons hi, List.take_append_drop]
    have hplace := h _ _ _ hsplit
    rwa [List.length_take_of_le (Nat.le_of_lt hi)] at hplace
  · rw [List.getElem?_eq_none (by rw [length_metadata]; omega), List.getElem?_eq_none (by omega)]

theorem metadata_eq_self
    (h : ∀ start rest, text = start ++ 't' :: rest → ¬ExtensionAt start rest) :
    metadata text = text := by
  apply metadata_eq_of_getElem? rfl
  rintro start c rest rfl
  have hother : ¬(c = 't' ∧ ExtensionAt start rest) := by
    rintro ⟨rfl, hextension⟩
    exact h start rest rfl hextension
  rw [getElem?_metadata_of_other hother, List.getElem?_append_right (Nat.le_refl _), Nat.sub_self]
  rfl

def Rewritten (old new : Char) : Prop := new = old ∨ old = 't' ∧ new = 'j'

theorem rewritten_metadataFrom (before : Text) (inside : Bool) (text : Text) :
    List.Forall₂ Rewritten text (metadataFrom before inside text) := by
  induction text generalizing before inside with
  | nil => exact .nil
  | cons c rest ih =>
    refine .cons ?_ (ih _ _)
    split
    · next hdue =>
      simp only [Bool.and_eq_true, beq_iff_eq] at hdue
      exact .inr ⟨hdue.1.2, rfl⟩
    · exact .inl rfl

theorem exists_append_of_rewritten {old first second : Text}
    (h : List.Forall₂ Rewritten old (first ++ second)) : ∃ oldFirst oldSecond,
      old = oldFirst ++ oldSecond ∧ List.Forall₂ Rewritten oldFirst first ∧
        List.Forall₂ Rewritten oldSecond second :=
  ⟨_, _, (List.take_append_drop first.length old).symm, List.forall₂_take_append _ _ _ h,
    List.forall₂_drop_append _ _ _ h⟩

theorem eq_of_rewritten {old new : Text} (h : List.Forall₂ Rewritten old new)
    (hnew : 'j' ∉ new) : old = new := by
  induction h with
  | nil => rfl
  | @cons a b old new hchar _ ih =>
    rw [List.mem_cons, not_or] at hnew
    rcases hchar with rfl | ⟨-, rfl⟩
    · rw [ih hnew.2]
    · exact absurd rfl hnew.1

theorem not_quote_of_rewritten {old new : Text} (h : List.Forall₂ Rewritten old new)
    (hnew : ∀ c ∈ new, isQuote c = false) : ∀ c ∈ old, isQuote c = false := by
  induction h with
  | nil => exact nofun
  | @cons a b old new hchar _ ih =>
    rw [List.forall_mem_cons] at hnew ⊢
    refine ⟨?_, ih hnew.2⟩
    rcases hchar with rfl | ⟨rfl, -⟩
    · exact hnew.1
    · rfl

theorem ne_of_isQuote {q : Char} (h : isQuote q = true) : 'j' ≠ q := by
  rintro rfl
  exact absurd h (by decide)

theorem opened_of_rewritten {old new : Text} (h : List.Forall₂ Rewritten old new)
    (hnew : Opened new) : Opened old := by
  obtain ⟨lead, opening, value, hopening, hvalue, rfl⟩ := hnew
  obtain ⟨oldLead, oldTitle, rfl, -, htitle⟩ := exists_append_of_rewritten h
  rw [List.append_cons] at htitle
  obtain ⟨mark, oldValue, rfl, hmark, hold⟩ := exists_append_of_rewritten htitle
  have hplain : 'j' ∉ titleOpening ++ [opening] := by
    rw [List.mem_append, List.mem_singleton, not_or]
    exact ⟨by decide, ne_of_isQuote hopening⟩
  rw [eq_of_rewritten hmark hplain, ← List.append_cons]
  exact ⟨oldLead, opening, oldValue, hopening, not_quote_of_rewritten hold hvalue, rfl⟩

theorem closes_of_rewritten {old new : Text} (h : List.Forall₂ Rewritten old new)
    (hnew : Closes new) : Closes old := by
  obtain ⟨closing, after, hclosing, rfl | rfl⟩ := hnew
  · obtain ⟨mark, oldAfter, rfl, hmark, -⟩ := @exists_append_of_rewritten old ['s', closing] after h
    have hplain : 'j' ∉ ['s', closing] := by simp [ne_of_isQuote hclosing]
    rw [eq_of_rewritten hmark hplain]
    exact ⟨closing, oldAfter, hclosing, .inl rfl⟩
  · obtain ⟨mark, oldAfter, rfl, hmark, -⟩ :=
      @exists_append_of_rewritten old ['s', 'x', closing] after h
    have hplain : 'j' ∉ ['s', 'x', closing] := by simp [ne_of_isQuote hclosing]
    rw [eq_of_rewritten hmark hplain]
    exact ⟨closing, oldAfter, hclosing, .inr rfl⟩

theorem extensionAt_of_rewritten {start' rest' : Text}
    (hstart : List.Forall₂ Rewritten start start') (hrest : List.Forall₂ Rewritten rest rest')
    (h : ExtensionAt start' rest') : ExtensionAt start rest := by
  obtain ⟨value, hopened, rfl, hcloses⟩ := h
  obtain ⟨oldValue, dot, rfl, hvalue, hdot⟩ := exists_append_of_rewritten hstart
  rw [eq_of_rewritten hdot (by decide)]
  exact ⟨oldValue, opened_of_rewritten hvalue hopened, rfl, closes_of_rewritten hrest hcloses⟩

theorem not_extensionAt_metadata (h : metadata text = start ++ 't' :: rest) :
    ¬ExtensionAt start rest := by
  intro hnew
  have hrewritten := rewritten_metadataFrom [] false text
  rw [← metadata, h] at hrewritten
  obtain ⟨oldStart, tail, rfl, hstart, htail⟩ := exists_append_of_rewritten hrewritten
  obtain ⟨c, oldRest, hc, hrest, rfl⟩ := List.forall₂_cons_right_iff.mp htail
  obtain rfl : c = 't' := by
    rcases hc with rfl | ⟨rfl, -⟩
    · rfl
    · rfl
  have hj := getElem?_metadata_of_extension (extensionAt_of_rewritten hstart hrest hnew)
  rw [h, hstart.length_eq, List.getElem?_append_right (Nat.le_refl _), Nat.sub_self] at hj
  cases hj

/-- The metadata keeps its length, and of its characters just those become `j` that are the `t` of a
TypeScript extension at the end of a title. None is left of these, so rewriting again changes
nothing. -/
theorem metadata_rewrites_titles (text : Text) :
    (metadata text).length = text.length ∧
    (∀ start c rest, text = start ++ c :: rest →
      (c = 't' ∧ ExtensionAt start rest → (metadata text)[start.length]? = some 'j') ∧
      (¬(c = 't' ∧ ExtensionAt start rest) → (metadata text)[start.length]? = some c)) ∧
    (∀ start rest, metadata text = start ++ 't' :: rest → ¬ExtensionAt start rest) ∧
    metadata (metadata text) = metadata text := by
  refine ⟨length_metadata text, ?_, fun start rest h => not_extensionAt_metadata h,
    metadata_eq_self fun start rest h => not_extensionAt_metadata h⟩
  rintro start c rest rfl
  refine ⟨?_, getElem?_metadata_of_other⟩
  rintro ⟨rfl, h⟩
  exact getElem?_metadata_of_extension h

def threeTitles : Text := "title=\"it's.ts\"title='a.d.tsx'title=\"b.ts'"

def beforeSecond : Text := "title=\"it's.ts\"title='a.d."

def behindSecond : Text := "sx'title=\"b.ts'"

theorem extensionAt_second : ExtensionAt beforeSecond behindSecond := by
  refine ⟨"title=\"it's.ts\"title='a.d", ⟨"title=\"it's.ts\"", '\'', "a.d", rfl,
    plain_of_all rfl, ?_⟩, ?_, ?_⟩
  · decide
  · decide
  · exact ⟨'\'', "title=\"b.ts'", rfl, .inr (by decide)⟩

theorem metadata_threeTitles : threeTitles = beforeSecond ++ 't' :: behindSecond ∧
    (metadata threeTitles)[beforeSecond.length]? = some 'j' ∧
    metadata threeTitles = "title=\"it's.ts\"title='a.d.jsx'title=\"b.js'" ∧
    metadata (metadata threeTitles) = metadata threeTitles := by
  have hsplit : threeTitles = beforeSecond ++ 't' :: behindSecond := by decide
  obtain ⟨-, hplaces, -, hagain⟩ := metadata_rewrites_titles threeTitles
  exact ⟨hsplit, (hplaces _ _ _ hsplit).1 ⟨rfl, extensionAt_second⟩, by decide, hagain⟩

end Metadata

end CodeTabs.JavaScriptNames
