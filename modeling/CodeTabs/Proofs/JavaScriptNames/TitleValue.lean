import CodeTabs.Proofs.JavaScriptNames.Metadata
import Mathlib.Data.List.Infix
import Mathlib.Data.List.TakeWhile

/-!
What becomes of one title. The scan takes the text up to the first quote for the value of the title,
of whichever kind that quote is, and rewrites the extension it ends with. So a value without quotes
is rewritten as it should be, and one with a quote of the other kind is judged by its first part.
-/

namespace CodeTabs

namespace Text

variable {word first second : Text} {c : Char}

theorem prefix_of_prefix_append_cons (hc : c ∉ word) (h : word <+: first ++ c :: second) :
    word <+: first := by
  rcases Nat.lt_or_ge first.length word.length with hlt | hle
  · have hlong : first ++ [c] <+: word := by
      refine List.prefix_of_prefix_length_le ⟨second, by simp⟩ h ?_
      rw [List.length_append, List.length_singleton]
      exact hlt
    exact absurd (hlong.subset (List.mem_append_right first (List.mem_singleton_self c))) hc
  · exact List.prefix_of_prefix_length_le h (List.prefix_append _ _) hle

theorem suffix_of_suffix_append_cons (hc : c ∉ word) (h : word <:+ first ++ c :: second) :
    word <:+ second := by
  rw [← List.reverse_prefix] at h ⊢
  rw [List.append_cons, List.reverse_append, List.reverse_append, List.reverse_singleton] at h
  exact prefix_of_prefix_append_cons (by rwa [List.mem_reverse]) h

theorem infix_of_infix_append_cons (hc : c ∉ word) (h : word <:+: first ++ c :: second) :
    word <:+: first ∨ word <:+: second := by
  have hstart {tail : Text} (hc : c ∉ tail) (h : tail <+: c :: second) : tail = [] := by
    rcases List.prefix_cons_iff.mp h with hnil | ⟨rest, rfl, -⟩
    · exact hnil
    · exact absurd List.mem_cons_self hc
  rcases List.infix_append_iff.mp h with hfirst | hsecond | ⟨start, tail, rfl, hfirst, htail⟩
  · exact .inl hfirst
  · rcases List.infix_cons_iff.mp hsecond with hprefix | hinfix
    · rw [hstart hc hprefix]
      exact .inl List.nil_infix
    · exact .inr hinfix
  · rw [List.mem_append, not_or] at hc
    rw [hstart hc.2 htail, List.append_nil]
    exact .inl hfirst.isInfix

end Text

namespace JavaScriptNames

/-- The value of a title in the JavaScript tab: a final `.ts` or `.tsx` is replaced. -/
def titleValue (value : Text) : Text :=
  match Text.before? ".ts" value with
  | some stem => stem ++ ".js"
  | none =>
    match Text.before? ".tsx" value with
    | some stem => stem ++ ".jsx"
    | none => value

def IsRest (extension : Text) : Prop := extension = "s" ∨ extension = "sx"

theorem not_mem_of_plain {text : Text} (plain : ∀ c ∈ text, isQuote c = false) {quote : Char}
    (hquote : isQuote quote = true) : quote ∉ text := by
  intro hmem
  rw [plain quote hmem] at hquote
  cases hquote

theorem IsRest.plain {extension : Text} (h : IsRest extension) :
    ∀ c ∈ extension, isQuote c = false := by
  rcases h with rfl | rfl
  · exact plain_of_all rfl
  · exact plain_of_all rfl

theorem IsRest.t_not_mem {extension : Text} (h : IsRest extension) : 't' ∉ extension := by
  rcases h with rfl | rfl <;> decide

theorem before?_eq_none_iff {tail text : Text} :
    Text.before? tail text = none ↔ ∀ stem, text ≠ stem ++ tail := by
  simp only [Option.eq_none_iff_forall_ne_some, ne_eq, Text.before?_eq_some_iff]

theorem titleValue_of_extension {extension : Text} (h : IsRest extension) (stem : Text) :
    titleValue (stem ++ '.' :: 't' :: extension) = stem ++ '.' :: 'j' :: extension := by
  rcases h with rfl | rfl
  · have hts : Text.before? ".ts" (stem ++ '.' :: 't' :: "s".toList) = some stem :=
      Text.before?_eq_some_iff.mpr rfl
    rw [titleValue, hts]
    rfl
  · have htsx : Text.before? ".tsx" (stem ++ '.' :: 't' :: "sx".toList) = some stem :=
      Text.before?_eq_some_iff.mpr rfl
    have hts : Text.before? ".ts" (stem ++ '.' :: 't' :: "sx".toList) = none := by
      rw [before?_eq_none_iff]
      intro other h
      have hlast := congrArg List.getLast? h
      simp at hlast
    rw [titleValue, hts, htsx]
    rfl

theorem titleValue_of_other {value : Text}
    (h : ¬∃ stem extension, value = stem ++ '.' :: 't' :: extension ∧ IsRest extension) :
    titleValue value = value := by
  have hts : Text.before? ".ts" value = none := by
    rw [before?_eq_none_iff]
    exact fun stem hstem => h ⟨stem, "s", hstem, .inl rfl⟩
  have htsx : Text.before? ".tsx" value = none := by
    rw [before?_eq_none_iff]
    exact fun stem hstem => h ⟨stem, "sx", hstem, .inr rfl⟩
  rw [titleValue, hts, htsx]

theorem length_titleValue (value : Text) : (titleValue value).length = value.length := by
  by_cases h : ∃ stem extension, value = stem ++ '.' :: 't' :: extension ∧ IsRest extension
  · obtain ⟨stem, extension, rfl, hextension⟩ := h
    rw [titleValue_of_extension hextension, List.length_append, List.length_append]
    rfl
  · rw [titleValue_of_other h]

theorem titleValue_append_quote {quote : Char} (hquote : isQuote quote = true)
    (first second : Text) :
    titleValue (first ++ quote :: second) = first ++ quote :: titleValue second := by
  by_cases h : ∃ stem extension, second = stem ++ '.' :: 't' :: extension ∧ IsRest extension
  · obtain ⟨stem, extension, rfl, hextension⟩ := h
    have hwhole := titleValue_of_extension hextension (first ++ quote :: stem)
    rwa [List.append_assoc, List.append_assoc, List.cons_append, List.cons_append,
      ← titleValue_of_extension hextension] at hwhole
  · have hwhole : ¬∃ stem extension,
        first ++ quote :: second = stem ++ '.' :: 't' :: extension ∧ IsRest extension := by
      rintro ⟨stem, extension, heq, hextension⟩
      have hplain : ∀ c ∈ '.' :: 't' :: extension, isQuote c = false :=
        List.forall_mem_cons.mpr ⟨rfl, List.forall_mem_cons.mpr ⟨rfl, hextension.plain⟩⟩
      obtain ⟨tail, htail⟩ := Text.suffix_of_suffix_append_cons
        (not_mem_of_plain hplain hquote) ⟨stem, heq.symm⟩
      exact h ⟨tail, extension, htail.symm, hextension⟩
    rw [titleValue_of_other h, titleValue_of_other hwhole]

theorem metadataFrom_outside {before text : Text}
    (h : ∀ start q tail, text = start ++ q :: tail → isQuote q = true →
      ¬titleOpening.reverse <+: start.reverse ++ before) (rest : Text) :
    metadataFrom before false (text ++ rest) =
      text ++ metadataFrom (text.reverse ++ before) false rest := by
  induction text generalizing before with
  | nil => rfl
  | cons c text ih =>
    have hinside :
        (if isQuote c then titleOpening.reverse.isPrefixOf before else false) = false := by
      split
      · next hc =>
        rw [← Bool.not_eq_true, List.isPrefixOf_iff_prefix]
        exact h [] c text rfl hc
      · rfl
    have htail : ∀ start q tail, text = start ++ q :: tail → isQuote q = true →
        ¬titleOpening.reverse <+: start.reverse ++ (c :: before) := by
      rintro start q tail rfl hq
      have hlater := h (c :: start) q tail rfl hq
      rwa [List.reverse_cons, List.append_assoc] at hlater
    rw [List.cons_append, metadataFrom, hinside, ih htail, List.reverse_cons, List.append_assoc]
    rfl

theorem metadataFrom_inside {before text : Text} (plain : ∀ c ∈ text, isQuote c = false)
    {rest : Text} (h : ∀ start tail, text = start ++ 't' :: tail →
      (start.reverse ++ before).head? = some '.' → endsValue (tail ++ rest) = false) :
    metadataFrom before true (text ++ rest) =
      text ++ metadataFrom (text.reverse ++ before) true rest := by
  induction text generalizing before with
  | nil => rfl
  | cons c text ih =>
    rw [List.forall_mem_cons] at plain
    have hdue : (true && before.head? == some '.' && c == 't' && endsValue (text ++ rest)) =
        false := by
      rw [← Bool.not_eq_true]
      simp only [Bool.true_and, Bool.and_eq_true, beq_iff_eq]
      rintro ⟨⟨hdot, rfl⟩, hends⟩
      rw [h [] text rfl hdot] at hends
      cases hends
    have htail : ∀ start tail, text = start ++ 't' :: tail →
        (start.reverse ++ (c :: before)).head? = some '.' → endsValue (tail ++ rest) = false := by
      rintro start tail rfl hdot
      refine h (c :: start) tail rfl ?_
      rwa [List.reverse_cons, List.append_assoc]
    rw [List.cons_append, metadataFrom, hdue, plain.1, List.reverse_cons, List.append_assoc]
    exact congrArg (c :: ·) (ih plain.2 htail)

theorem metadataFrom_quote {quote : Char} (h : isQuote quote = true) (before : Text)
    (inside : Bool) (rest : Text) : metadataFrom before inside (quote :: rest) =
      quote :: metadataFrom (quote :: before) (titleOpening.reverse.isPrefixOf before) rest := by
  have hnot : (quote == 't') = false := by
    rw [beq_eq_false_iff_ne]
    rintro rfl
    exact absurd h (by decide)
  rw [metadataFrom, hnot, h, Bool.and_false, Bool.false_and]
  rfl

def upToQuote (text : Text) : Text := text.takeWhile (!isQuote ·)

theorem upToQuote_of_plain {text : Text} (plain : ∀ c ∈ text, isQuote c = false) :
    upToQuote text = text := by
  rw [upToQuote, List.takeWhile_eq_self_iff]
  intro c hc
  rw [plain c hc]
  rfl

theorem upToQuote_append {text : Text} (plain : ∀ c ∈ text, isQuote c = false) {quote : Char}
    (h : isQuote quote = true) (rest : Text) : upToQuote (text ++ quote :: rest) = text := by
  have htext : ∀ c ∈ text, (!isQuote c) = true := by
    intro c hc
    rw [plain c hc]
    rfl
  rw [upToQuote, List.takeWhile_append_of_pos htext, List.takeWhile_cons, h]
  exact List.append_nil text

theorem plain_or_exists_quote (text : Text) : (∀ c ∈ text, isQuote c = false) ∨
    ∃ (first : Text) (q : Char) (second : Text), (∀ c ∈ first, isQuote c = false) ∧
      isQuote q = true ∧ text = first ++ q :: second := by
  induction text with
  | nil => exact .inl nofun
  | cons c text ih =>
    cases hc : isQuote c with
    | true => exact .inr ⟨[], c, text, nofun, hc, rfl⟩
    | false =>
      rcases ih with hplain | ⟨first, q, second, hfirst, hq, rfl⟩
      · exact .inl (List.forall_mem_cons.mpr ⟨hc, hplain⟩)
      · exact .inr ⟨c :: first, q, second, List.forall_mem_cons.mpr ⟨hc, hfirst⟩, hq, rfl⟩

theorem endsValue_append_quote {text : Text} (plain : ∀ c ∈ text, isQuote c = false)
    {quote : Char} (h : isQuote quote = true) (rest : Text) :
    endsValue (text ++ quote :: rest) = true ↔ IsRest text := by
  rw [endsValue_iff]
  constructor
  · rintro ⟨closing, after, hclosing, hrest⟩
    have htext := upToQuote_append plain h rest
    rcases hrest with hrest | hrest
    · rw [hrest] at htext
      exact .inl (htext.symm.trans (@upToQuote_append ['s'] (plain_of_all rfl) _ hclosing after))
    · rw [hrest] at htext
      exact .inr (htext.symm.trans
        (@upToQuote_append ['s', 'x'] (plain_of_all rfl) _ hclosing after))
  · rintro (rfl | rfl)
    · exact ⟨quote, rest, h, .inl rfl⟩
    · exact ⟨quote, rest, h, .inr rfl⟩

theorem metadataFrom_extension {extension : Text} (hextension : IsRest extension) {quote : Char}
    (h : isQuote quote = true) (before rest : Text) :
    metadataFrom ('.' :: before) true ('t' :: (extension ++ quote :: rest)) =
      'j' :: (extension ++ metadataFrom (extension.reverse ++ 't' :: '.' :: before) true
        (quote :: rest)) := by
  have hends := (endsValue_append_quote hextension.plain h rest).mpr hextension
  have hinside : ∀ start tail, extension = start ++ 't' :: tail →
      (start.reverse ++ 't' :: '.' :: before).head? = some '.' →
        endsValue (tail ++ quote :: rest) = false := by
    rintro start tail rfl
    exact absurd (List.mem_append_right start List.mem_cons_self) hextension.t_not_mem
  rw [metadataFrom, hends, ← metadataFrom_inside hextension.plain hinside]
  rfl

theorem metadataFrom_value {before value : Text} (hdot : before.head? ≠ some '.')
    (plain : ∀ c ∈ value, isQuote c = false) {quote : Char} (h : isQuote quote = true)
    (rest : Text) : metadataFrom before true (value ++ quote :: rest) =
      titleValue value ++ metadataFrom (value.reverse ++ before) true (quote :: rest) := by
  by_cases hvalue : ∃ stem extension, value = stem ++ '.' :: 't' :: extension ∧ IsRest extension
  · obtain ⟨stem, extension, rfl, hextension⟩ := hvalue
    rw [List.append_cons] at plain
    -- Before the dot no extension can end, for the quote is not near enough.
    have hinside : ∀ start tail, stem ++ ['.'] = start ++ 't' :: tail →
        (start.reverse ++ before).head? = some '.' →
          endsValue (tail ++ 't' :: (extension ++ quote :: rest)) = false := by
      intro start tail hstart _
      have htail : ∀ c ∈ tail ++ 't' :: extension, isQuote c = false := by
        intro c hc
        apply plain c
        rw [hstart, List.append_assoc, List.cons_append]
        exact List.mem_append_right start (List.mem_cons_of_mem 't' hc)
      rw [← List.cons_append, ← List.append_assoc, ← Bool.not_eq_true,
        endsValue_append_quote htail h]
      intro hrest
      exact absurd (List.mem_append_right tail List.mem_cons_self) hrest.t_not_mem
    have hstem : ∀ c ∈ stem ++ ['.'], isQuote c = false :=
      fun c hc => plain c (List.mem_append_left _ hc)
    calc metadataFrom before true (stem ++ '.' :: 't' :: extension ++ quote :: rest)
        = metadataFrom before true (stem ++ ['.'] ++ 't' :: (extension ++ quote :: rest)) := by
          simp
      _ = stem ++ ['.'] ++ metadataFrom ('.' :: (stem.reverse ++ before)) true
            ('t' :: (extension ++ quote :: rest)) := by
          rw [metadataFrom_inside hstem hinside, List.reverse_append]
          rfl
      _ = stem ++ '.' :: 'j' :: extension ++
            metadataFrom ((stem ++ '.' :: 't' :: extension).reverse ++ before) true
              (quote :: rest) := by
          rw [metadataFrom_extension hextension h]
          simp
      _ = _ := by rw [titleValue_of_extension hextension]
  · have hinside : ∀ start tail, value = start ++ 't' :: tail →
        (start.reverse ++ before).head? = some '.' → endsValue (tail ++ quote :: rest) = false := by
      rintro start tail rfl hhead
      rw [← Bool.not_eq_true, endsValue_append_quote (fun c hc => plain c (by simp [hc])) h]
      intro hextension
      rcases List.eq_nil_or_concat' start with rfl | ⟨stem, last, rfl⟩
      · exact hdot hhead
      · obtain rfl : last = '.' := by simpa using hhead
        exact hvalue ⟨stem, tail, by simp, hextension⟩
    rw [metadataFrom_inside plain hinside, titleValue_of_other hvalue]

section Title

variable {lead value rest : Text} {quote : Char}

theorem not_mem_titleOpening (hquote : isQuote quote = true) : quote ∉ titleOpening :=
  not_mem_of_plain (plain_of_all rfl) hquote

theorem metadataFrom_plain {before text : Text}
    (hbefore : before = [] ∨ ∃ q earlier, isQuote q = true ∧ before = q :: earlier)
    (htext : ¬titleOpening <:+: text) (rest : Text) :
    metadataFrom before false (text ++ rest) =
      text ++ metadataFrom (text.reverse ++ before) false rest := by
  refine metadataFrom_outside ?_ rest
  rintro start q tail rfl - hopening
  have hstart : titleOpening.reverse <+: start.reverse := by
    rcases hbefore with rfl | ⟨quote, earlier, hquote, rfl⟩
    · rwa [List.append_nil] at hopening
    · refine Text.prefix_of_prefix_append_cons ?_ hopening
      rw [List.mem_reverse]
      exact not_mem_titleOpening hquote
  rw [List.reverse_prefix] at hstart
  exact htext (hstart.isInfix.trans (List.prefix_append start (q :: tail)).isInfix)

theorem metadata_of_value {closing : Char} (hquote : isQuote quote = true)
    (hclosing : isQuote closing = true) (plain : ∀ c ∈ value, isQuote c = false)
    (hlead : ¬titleOpening <:+: lead) (hvalue : ¬titleOpening <:+: value)
    (hrest : ¬titleOpening <:+: rest) :
    metadata (lead ++ (titleOpening ++ quote :: (value ++ closing :: rest))) =
      lead ++ (titleOpening ++ quote :: (titleValue value ++ closing :: rest)) := by
  have hopening (rest : Text) : metadataFrom lead.reverse false (titleOpening ++ rest) =
      titleOpening ++ metadataFrom (titleOpening.reverse ++ lead.reverse) false rest := by
    refine metadataFrom_outside ?_ rest
    intro start q tail htitle hq
    have hmem : q ∈ titleOpening := htitle ▸ List.mem_append_right start List.mem_cons_self
    exact absurd hmem (not_mem_titleOpening hq)
  have hopened : titleOpening.reverse.isPrefixOf (titleOpening.reverse ++ lead.reverse) = true := by
    rw [List.isPrefixOf_iff_prefix]
    exact List.prefix_append _ _
  have hdot : (quote :: (titleOpening.reverse ++ lead.reverse)).head? ≠ some '.' := by
    rintro ⟨⟩
    exact absurd hquote (by decide)
  -- The closing quote opens no title, for none is opened in the value before it.
  have hclosed : titleOpening.reverse.isPrefixOf
      (value.reverse ++ quote :: (titleOpening.reverse ++ lead.reverse)) = false := by
    rw [← Bool.not_eq_true, List.isPrefixOf_iff_prefix]
    intro hprefix
    have hreverse := Text.prefix_of_prefix_append_cons
      (by rw [List.mem_reverse]; exact not_mem_titleOpening hquote) hprefix
    exact hvalue (List.reverse_prefix.mp hreverse).isInfix
  have hbehind := metadataFrom_plain (.inr ⟨closing, value.reverse ++ quote ::
    (titleOpening.reverse ++ lead.reverse), hclosing, rfl⟩) hrest []
  rw [List.append_nil, metadataFrom, List.append_nil] at hbehind
  rw [metadata, metadataFrom_plain (.inl rfl) hlead, List.append_nil, hopening,
    metadataFrom_quote hquote, hopened, metadataFrom_value hdot plain hclosing,
    metadataFrom_quote hclosing, hclosed, hbehind]

theorem titleValue_upToQuote_iff (value : Text) :
    titleValue (upToQuote value) ++ value.drop (upToQuote value).length = titleValue value ↔
      (∀ c ∈ value, isQuote c = false) ∨
        titleValue (upToQuote value) = upToQuote value ∧ titleValue value = value := by
  rcases plain_or_exists_quote value with hplain | ⟨first, q, second, hfirst, hq, rfl⟩
  · rw [upToQuote_of_plain hplain, List.drop_length, List.append_nil]
    exact ⟨fun _ => .inl hplain, fun _ => rfl⟩
  · have hquoted : ¬∀ c ∈ first ++ q :: second, isQuote c = false := fun hplain =>
      not_mem_of_plain hplain hq (List.mem_append_right first List.mem_cons_self)
    rw [upToQuote_append hfirst hq, List.drop_left, titleValue_append_quote hq,
      List.append_cancel_left_eq, List.cons_inj_right]
    constructor
    · intro h
      obtain ⟨hwhole, htail⟩ := List.append_inj h (length_titleValue first)
      exact .inr ⟨hwhole, (List.cons_inj_right q).mp htail.symm⟩
    · rintro (hplain | ⟨hwhole, hsecond⟩)
      · exact absurd hplain hquoted
      · rw [hwhole, hsecond]

/-- A title is judged by its value up to the first quote of either kind. So it is rewritten as its
whole value asks just if the value has no quotes, or if neither its first part nor what follows its
last quote has an extension to rewrite. -/
theorem metadata_title_iff (hquote : isQuote quote = true) (hlead : ¬titleOpening <:+: lead)
    (hvalue : ¬titleOpening <:+: value) (hrest : ¬titleOpening <:+: rest) :
    metadata (lead ++ (titleOpening ++ quote :: (value ++ quote :: rest))) =
      lead ++ (titleOpening ++ quote :: (titleValue (upToQuote value) ++
        (value.drop (upToQuote value).length ++ quote :: rest))) ∧
    (metadata (lead ++ (titleOpening ++ quote :: (value ++ quote :: rest))) =
      lead ++ (titleOpening ++ quote :: (titleValue value ++ quote :: rest)) ↔
        (∀ c ∈ value, isQuote c = false) ∨
          titleValue (upToQuote value) = upToQuote value ∧ titleValue value = value) := by
  have hscan : metadata (lead ++ (titleOpening ++ quote :: (value ++ quote :: rest))) =
      lead ++ (titleOpening ++ quote :: (titleValue (upToQuote value) ++
        (value.drop (upToQuote value).length ++ quote :: rest))) := by
    rcases plain_or_exists_quote value with hplain | ⟨first, q, second, hfirst, hq, rfl⟩
    · rw [upToQuote_of_plain hplain, List.drop_length, List.nil_append]
      exact metadata_of_value hquote hquote hplain hlead hvalue hrest
    · rw [upToQuote_append hfirst hq, List.drop_left, List.append_assoc, List.cons_append]
      refine metadata_of_value hquote hq hfirst hlead ?_ ?_
      · exact fun h => hvalue (h.trans (List.prefix_append first _).isInfix)
      · intro h
        rcases Text.infix_of_infix_append_cons (not_mem_titleOpening hquote) h with h | h
        · exact hvalue (h.trans (List.suffix_append_of_suffix (List.suffix_cons q second)).isInfix)
        · exact hrest h
  refine ⟨hscan, ?_⟩
  rw [hscan, ← titleValue_upToQuote_iff, List.append_cancel_left_eq, List.append_cancel_left_eq,
    List.cons_inj_right, ← List.append_assoc, List.append_cancel_right_eq]

def apostropheTitle : Text := "it's.ts"

theorem metadata_apostropheTitle :
    (isQuote '"' = true ∧ ¬titleOpening <:+: "live ".toList ∧
      ¬titleOpening <:+: apostropheTitle ∧ ¬titleOpening <:+: ([] : Text)) ∧
    metadata ("live ".toList ++ (titleOpening ++ '"' :: (apostropheTitle ++ ['"']))) =
      "live title=\"it's.ts\"".toList ∧
    metadata ("live ".toList ++ (titleOpening ++ '"' :: (apostropheTitle ++ ['"']))) ≠
      "live ".toList ++ (titleOpening ++ '"' :: (titleValue apostropheTitle ++ ['"'])) := by
  have hlead : ¬titleOpening <:+: "live ".toList := by decide
  have hvalue : ¬titleOpening <:+: apostropheTitle := by decide
  have hrest : ¬titleOpening <:+: ([] : Text) := by decide
  have htitle := metadata_title_iff (rfl : isQuote '"' = true) hlead hvalue hrest
  refine ⟨⟨rfl, hlead, hvalue, hrest⟩, htitle.1.trans (by decide), ?_⟩
  rw [ne_eq, htitle.2]
  rintro (hplain | ⟨-, hwhole⟩)
  · exact absurd (hplain '\'' (by decide)) (by decide)
  · exact absurd hwhole (by decide)

theorem metadata_not_whole_value : ¬∀ (lead value rest : Text) (quote : Char),
    isQuote quote = true → quote ∉ value → ¬titleOpening <:+: lead → ¬titleOpening <:+: value →
    ¬titleOpening <:+: rest →
    metadata (lead ++ (titleOpening ++ quote :: (value ++ quote :: rest))) =
      lead ++ (titleOpening ++ quote :: (titleValue value ++ quote :: rest)) := by
  intro h
  have htitle := h [] apostropheTitle [] '"' rfl (by decide) (by decide) (by decide) (by decide)
  revert htitle
  decide

end Title

end JavaScriptNames

end CodeTabs
