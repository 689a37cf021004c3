import CodeTabs.Proofs.Text.Trim
import CodeTabs.Text.Lines

/-!
A text is empty, or one line without a terminator, or a line with its terminator and a text behind
it. The pieces of a text follow these three cases.
-/

namespace CodeTabs.Text

theorem pieces_line {line : Text} (h : '\n' ∉ line) (rest : Text) :
    pieces (line ++ '\n' :: rest) = (line ++ ['\n']) :: pieces rest := by
  induction line with
  | nil => simp [pieces]
  | cons c line ih =>
    rw [List.mem_cons, not_or] at h
    simp [pieces, Ne.symm h.1, ih h.2]

theorem pieces_last {line : Text} (h : '\n' ∉ line) (hne : line ≠ []) : pieces line = [line] := by
  induction line with
  | nil => exact absurd rfl hne
  | cons c line ih =>
    rw [List.mem_cons, not_or] at h
    cases line with
    | nil => simp [pieces, Ne.symm h.1]
    | cons d line =>
      rw [pieces, if_neg (Ne.symm h.1), ih h.2 (List.cons_ne_nil d line)]

theorem lineInduction {motive : Text → Prop} (nil : motive [])
    (last : ∀ line : Text, '\n' ∉ line → line ≠ [] → motive line)
    (cons : ∀ line rest : Text, '\n' ∉ line → motive rest → motive (line ++ '\n' :: rest))
    (text : Text) : motive text := by
  induction h : text.length using Nat.strong_induction_on generalizing text with
  | _ n ih =>
    by_cases hmem : '\n' ∈ text
    · obtain ⟨line, rest, rfl, hline⟩ := List.eq_append_cons_of_mem hmem
      refine cons line rest hline (ih rest.length ?_ rest rfl)
      simp only [List.length_append, List.length_cons] at h
      omega
    · by_cases hne : text = []
      · exact hne ▸ nil
      · exact last text hmem hne

/-- The lines of a text, each with the line feed that ends it. The last one may be without, and then
it is not empty. -/
inductive CutInto : Text → List Text → Prop
  | nil : CutInto [] []
  | last {line : Text} (hline : '\n' ∉ line) (hne : line ≠ []) : CutInto line [line]
  | cons {line rest : Text} {lines : List Text} (hline : '\n' ∉ line)
      (hrest : CutInto rest lines) : CutInto (line ++ '\n' :: rest) ((line ++ ['\n']) :: lines)

theorem cutInto_iff {text : Text} {lines : List Text} :
    text.CutInto lines ↔ pieces text = lines := by
  constructor
  · intro h
    induction h with
    | nil => rfl
    | last hline hne => exact pieces_last hline hne
    | cons hline _ ih => rw [pieces_line hline, ih]
  · rintro rfl
    induction text using lineInduction with
    | nil => exact .nil
    | last line hline hne =>
      rw [pieces_last hline hne]
      exact .last hline hne
    | cons line rest hline ih =>
      rw [pieces_line hline]
      exact .cons hline ih

theorem pieces_append_line (text rest : Text) :
    pieces (text ++ '\n' :: rest) = pieces (text ++ ['\n']) ++ pieces rest := by
  induction text using lineInduction with
  | nil => simp [pieces]
  | last line h _ =>
    rw [pieces_line h, pieces_line h]
    rfl
  | cons line tail h ih =>
    rw [List.append_assoc, List.cons_append, pieces_line h, ih, List.append_assoc,
      List.cons_append, pieces_line h, List.cons_append]

theorem lines_last {line : Text} (h : '\n' ∉ line) (hne : line ≠ []) : lines line = [line] := by
  have hbefore : before? "\n" line = none := by
    apply Option.eq_none_iff_forall_ne_some.mpr
    intro rest hrest
    apply h
    rw [before?_eq_some_iff.mp hrest]
    simp
  rw [lines, pieces_last h hne, List.map_singleton, chomp, hbefore]

theorem lines_line {line : Text} (h : '\n' ∉ line) (rest : Text) :
    lines (line ++ '\n' :: rest) = (before? "\r" line).getD line :: lines rest := by
  have hbefore : before? "\n" (line ++ ['\n']) = some line := before?_eq_some_iff.mpr rfl
  rw [lines, pieces_line h, List.map_cons, chomp, hbefore]
  rfl

theorem line_feed_not_mem_of_mem_lines {text line : Text} (h : line ∈ lines text) :
    '\n' ∉ line := by
  induction text using lineInduction with
  | nil => cases h
  | last only honly hne =>
    rw [lines_last honly hne, List.mem_singleton] at h
    exact h ▸ honly
  | cons first rest hfirst ih =>
    rw [lines_line hfirst, List.mem_cons] at h
    rcases h with rfl | h
    · cases hbefore : before? "\r" first with
      | none => exact hfirst
      | some start =>
        rw [before?_eq_some_iff.mp hbefore] at hfirst
        exact fun hmem => hfirst (List.mem_append_left _ hmem)
    · exact ih h

theorem pieces_flatMap {α : Type} {f : α → Text} {xs : List α}
    (h : ∀ x ∈ xs, ∃ line : Text, '\n' ∉ line ∧ f x = line ++ ['\n']) :
    pieces (xs.flatMap f) = xs.map f := by
  induction xs with
  | nil => rfl
  | cons x xs ih =>
    obtain ⟨⟨line, hline, hx⟩, hxs⟩ := List.forall_mem_cons.mp h
    rw [List.flatMap_cons, hx, List.append_assoc, List.singleton_append, pieces_line hline, ih hxs,
      List.map_cons, hx]

theorem body_concat (line : Text) : body (line ++ ['\n']) = body line :=
  dropEndWhile_concat rfl line

theorem exists_body (piece : Text) : ∃ ending, piece = body piece ++ ending ∧
    ending.isBlank = true := by
  obtain ⟨ending, hpiece, hending⟩ := exists_dropEndWhile (fun c => c == '\n' || c == '\r') piece
  refine ⟨ending, hpiece, List.all_eq_true.mpr fun c hc => ?_⟩
  have hterminator := List.all_eq_true.mp hending c hc
  rw [Bool.or_eq_true, beq_iff_eq, beq_iff_eq] at hterminator
  rcases hterminator with rfl | rfl <;> rfl

theorem ink_body (piece : Text) : ink (body piece) = ink piece := by
  obtain ⟨ending, hpiece, hending⟩ := exists_body piece
  have h := congrArg ink hpiece
  rw [ink_append, ink_of_isBlank hending] at h
  exact h.symm

theorem exists_body_append (piece : Text) {space : Text} (h : space.isBlank = true) :
    ∃ more, body (piece ++ space) = body piece ++ more ∧ more.isBlank = true := by
  obtain ⟨ending, hpiece, hending⟩ := exists_body piece
  obtain ⟨rest, hspace, -⟩ := exists_body space
  have hstart : body space <+: space := ⟨rest, hspace.symm⟩
  have hbody : (body space).isBlank = true := isBlank_of_subset h hstart.subset
  rw [body, dropEndWhile_append]
  split
  · exact ⟨[], (List.append_nil _).symm, rfl⟩
  · refine ⟨ending ++ body space, ?_, by rw [isBlank_append, hending, hbody]; rfl⟩
    rw [← List.append_assoc, ← hpiece]
    rfl

theorem body_of_mem_pieces_concat {text line : Text} (h : line ∈ pieces (text ++ ['\n'])) :
    body line = [] ∨ ∃ old ∈ pieces text, body line = body old := by
  induction text using lineInduction with
  | nil =>
    have hline : line = ['\n'] := by simpa [pieces] using h
    exact .inl (hline ▸ rfl)
  | last old hold hne =>
    rw [pieces_line hold] at h
    have hline : line = old ++ ['\n'] := by simpa [pieces] using h
    refine .inr ⟨old, ?_, hline ▸ body_concat old⟩
    rw [pieces_last hold hne]
    exact List.mem_singleton_self old
  | cons first rest hfirst ih =>
    rw [List.append_assoc, List.cons_append, pieces_line hfirst, List.mem_cons] at h
    rw [pieces_line hfirst]
    rcases h with rfl | h
    · exact .inr ⟨_, List.mem_cons_self, rfl⟩
    · rcases ih h with hbody | ⟨old, hold, hbody⟩
      · exact .inl hbody
      · exact .inr ⟨old, List.mem_cons_of_mem _ hold, hbody⟩

theorem pieces_flatten_of_sublist {lines : List Text} {text : Text}
    (h : lines.Sublist text.pieces) : pieces lines.flatten = lines := by
  induction text using lineInduction generalizing lines with
  | nil =>
    rw [List.sublist_nil.mp h]
    rfl
  | last line hline hne =>
    rw [pieces_last hline hne, List.sublist_singleton] at h
    rcases h with rfl | rfl
    · rfl
    · rw [List.flatten_singleton, pieces_last hline hne]
  | cons line rest hline ih =>
    rw [pieces_line hline] at h
    cases h with
    | cons _ h => exact ih h
    | @cons_cons lines _ _ h =>
      have hflatten : ((line ++ ['\n']) :: lines).flatten = line ++ '\n' :: lines.flatten := by simp
      rw [hflatten, pieces_line hline, ih h]

theorem exists_pieces_append {line : Text} (h : '\n' ∉ line) (hne : line ≠ []) (rest : Text) :
    ∃ more others, pieces (line ++ rest) = (line ++ more) :: others ∧ more <+: rest := by
  induction rest using lineInduction with
  | nil => exact ⟨[], [], by rw [List.append_nil, pieces_last h hne], List.nil_prefix⟩
  | last last hlast _ =>
    have hline : '\n' ∉ line ++ last := by simp [h, hlast]
    exact ⟨last, [], pieces_last hline (by simp [hne]), List.prefix_rfl⟩
  | cons first rest hfirst _ =>
    have hline : '\n' ∉ line ++ first := by simp [h, hfirst]
    refine ⟨first ++ ['\n'], pieces rest, ?_, ⟨rest, by simp⟩⟩
    rw [← List.append_assoc, pieces_line hline, List.append_assoc]

theorem getElem?_pieces_append {text line : Text} {i : Nat} (h : text.pieces[i]? = some line)
    (rest : Text) : ∃ more, (pieces (text ++ rest))[i]? = some (line ++ more) ∧ more <+: rest := by
  induction text using lineInduction generalizing i with
  | nil => simp [pieces] at h
  | last last hlast hne =>
    rw [pieces_last hlast hne, List.getElem?_singleton] at h
    split at h
    · next hi =>
      obtain ⟨more, others, hpieces, hmore⟩ := exists_pieces_append hlast hne rest
      exact ⟨more, by simp [hi, hpieces, ← Option.some.inj h], hmore⟩
    · cases h
  | cons first tail hfirst ih =>
    rw [pieces_line hfirst] at h
    rw [List.append_assoc, List.cons_append, pieces_line hfirst]
    cases i with
    | zero =>
      obtain rfl : first ++ ['\n'] = line := by simpa using h
      exact ⟨[], by simp, List.nil_prefix⟩
    | succ i =>
      obtain ⟨more, hmore, hstart⟩ := ih (by simpa using h)
      exact ⟨more, by simpa using hmore, hstart⟩

theorem tail_pieces_append (text rest : Text) :
    (pieces rest).tail <:+ (pieces (text ++ rest)).tail := by
  induction text with
  | nil => exact List.suffix_rfl
  | cons c text ih =>
    rw [List.cons_append, pieces]
    split
    · exact ih.trans (List.tail_suffix _)
    · cases hpieces : pieces (text ++ rest) with
      | nil => simpa [hpieces] using ih
      | cons piece others => simpa [hpieces] using ih

end CodeTabs.Text
