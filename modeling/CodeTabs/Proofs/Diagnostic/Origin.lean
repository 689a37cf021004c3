import CodeTabs.Proofs.Diagnostic.Report
import CodeTabs.Proofs.Files.Partition

/-!
Where in a block the lines of its files stand. A diagnostic counts the lines of one file, and its
line is added to that of the fence as it is. The line it is about stands further down by as many
lines as there are above it that do not belong to the file.
-/

namespace CodeTabs

namespace Diagnostic

variable {diagnostic : Diagnostic} {n : Nat}

theorem location_remap (h : diagnostic.line = some (n + 1)) (path : Text) (block : Occurrence) :
    (diagnostic.remap path block).location =
      some (block.documentLine (n + 1), diagnostic.column) := by
  rw [remap, location?_of_pos h (Nat.succ_pos n)]
  rfl

end Diagnostic

theorem exists_append_of_getElem?_filter {α : Type} {p : α → Bool} {xs : List α} {n : Nat} {x : α}
    (h : (xs.filter p)[n]? = some x) :
    ∃ before after, xs = before ++ x :: after ∧ p x = true ∧ before.countP p = n := by
  induction xs generalizing n with
  | nil => cases h
  | cons y ys ih =>
    by_cases hy : p y = true
    · rw [List.filter_cons_of_pos hy] at h
      cases n with
      | zero =>
        obtain rfl := Option.some.inj h
        exact ⟨[], ys, rfl, hy, rfl⟩
      | succ n =>
        obtain ⟨before, after, rfl, hx, hcount⟩ := ih h
        exact ⟨y :: before, after, rfl, hx, by rw [List.countP_cons_of_pos hy, hcount]⟩
    · rw [List.filter_cons_of_neg hy] at h
      obtain ⟨before, after, rfl, hx, hcount⟩ := ih h
      exact ⟨y :: before, after, rfl, hx, by rw [List.countP_cons_of_neg hy, hcount]⟩

namespace Block

def belongs (lines : List Text) (name : Text) (line : Text × Nat) : Bool :=
  (marker? line.1).isNone && owner? lines line.2 == some name

/-- The number of lines above the line of number `i` that are no lines of a file: all markers, and
the lines of other files. -/
def strangers (lines : List Text) (name : Text) (i : Nat) : Nat :=
  (lines.zipIdx.take i).countP fun line => !belongs lines name line

theorem getElem?_linesOf {lines : List Text} {name line : Text} {n i : Nat}
    (h : (linesOf lines name)[n]? = some (line, i)) :
    lines[i]? = some line ∧ owner? lines i = some name ∧ i = n + strangers lines name i := by
  obtain ⟨before, after, hlines, hfile, hcount⟩ := exists_append_of_getElem?_filter h
  have hget : lines.zipIdx[before.length]? = some (line, i) := by simp [hlines]
  rw [List.getElem?_zipIdx, Option.map_eq_some_iff] at hget
  obtain ⟨line', hline, hpair⟩ := hget
  obtain ⟨rfl, hi⟩ := Prod.mk.inj hpair
  obtain rfl : before.length = i := by omega
  have htake : lines.zipIdx.take before.length = before := by
    rw [hlines]
    exact List.take_left
  have hlength := List.length_eq_countP_add_countP (belongs lines name) (l := before)
  simp only [decide_not, Bool.decide_eq_true] at hlength
  rw [Bool.and_eq_true, beq_iff_eq] at hfile
  refine ⟨hline, hfile.2, ?_⟩
  rw [strangers, htake, ← hcount]
  exact hlength

theorem owner?_of_markers_eq_nil {lines : List Text} {i j : Nat} (h : markers (lines.take i) = [])
    (hj : j ≤ i) : owner? lines j = owner? lines i := by
  have hsublist : (markers (lines.take j)).Sublist (markers (lines.take i)) :=
    (List.take_sublist_take_left hj).filterMap marker?
  rw [h, List.sublist_nil] at hsublist
  rw [owner?, owner?, h, hsublist]

theorem strangers_eq_zero_iff {lines : List Text} {name : Text} {i : Nat}
    (howner : owner? lines i = some name) :
    strangers lines name i = 0 ↔ markers (lines.take i) = [] := by
  have htake : (lines.zipIdx.take i).map Prod.fst = lines.take i := by
    rw [List.map_take, List.zipIdx_map_fst]
  rw [strangers, List.countP_eq_zero, markers, List.filterMap_eq_nil_iff, ← htake]
  simp only [List.forall_mem_map, Bool.not_eq_true', Bool.not_eq_false]
  constructor
  · intro h line hline
    have hbelongs := h line hline
    rw [belongs, Bool.and_eq_true] at hbelongs
    exact Option.isNone_iff_eq_none.mp hbelongs.1
  · -- Without a marker above, all lines above have the owner of the line itself.
    intro h line hline
    obtain ⟨j, hj, rfl⟩ := List.mem_take_iff_getElem.mp hline
    have hnone := h _ hline
    have hmarkers : markers (lines.take i) = [] := by
      rw [markers, List.filterMap_eq_nil_iff, ← htake]
      simpa only [List.forall_mem_map] using h
    rw [List.getElem_zipIdx] at hnone ⊢
    have hle : 0 + j ≤ i := by omega
    rw [belongs, hnone, owner?_of_markers_eq_nil hmarkers hle, howner]
    exact beq_self_eq_true _

theorem exists_origin {raw folder : Text} {e : Text × SourceFile}
    (he : e ∈ (split raw folder).entries) {n : Nat} {line : Text}
    (hline : e.2.code.pieces[n]? = some line) : ∃ name i, e.1 = filePath folder name ∧
      (linesOf raw.pieces name)[n]? = some (line, i) := by
  obtain ⟨name, -, hpath, hcode⟩ := exists_name_of_mem_split he
  rw [hcode, pieces_linesOf, List.getElem?_map, Option.map_eq_some_iff] at hline
  obtain ⟨⟨_, i⟩, hget, rfl⟩ := hline
  exact ⟨name, i, hpath, hget⟩

/-- A diagnostic at a line of a file is reported above the line of the document that this line is,
by the number of lines between the fence and it that are not of the file; so the report is right
just when no marker stands above the line. The lines of a document are machine words. -/
theorem remap_origin {raw folder : Text} {e : Text × SourceFile}
    (he : e ∈ (split raw folder).entries) {n : Nat} {line : Text}
    (hline : e.2.code.pieces[n]? = some line) {diagnostic : Diagnostic}
    (located : diagnostic.line = some (n + 1)) (block : Occurrence) :
    ∃ name i reported, e.1 = filePath folder name ∧
      (linesOf raw.pieces name)[n]? = some (line, i) ∧ raw.pieces[i]? = some line ∧
      (diagnostic.remap e.1 block).location = some (reported, diagnostic.column) ∧
      (∀ (compiled : CompiledSet) file document,
        compiled.firstDiagnostic? = some (e.1, file, diagnostic) →
          ∃ failure, compiled.check (split raw folder) block document = .error failure ∧
            failure.line = some reported) ∧
      i = n + strangers raw.pieces name i ∧
      (block.startLine + (n + 1) < UInt64.size →
        reported + strangers raw.pieces name i = block.startLine + (i + 1) ∧
        (reported = block.startLine + (i + 1) ↔ markers (raw.pieces.take i) = [])) := by
  obtain ⟨name, i, hpath, hget⟩ := exists_origin he hline
  obtain ⟨horigin, howner, hi⟩ := getElem?_linesOf hget
  refine ⟨name, i, block.documentLine (n + 1), hpath, hget, horigin,
    Diagnostic.location_remap located e.1 block, ?_, hi, fun hword => ?_⟩
  · intro compiled file document hfirst
    refine ⟨_, by rw [CompiledSet.check, hfirst], ?_⟩
    rw [Diagnostic.failure_of_line located (Nat.succ_pos n)]
    rfl
  · rw [← strangers_eq_zero_iff howner, Occurrence.documentLine_eq hword]
    omega

def fourthBlock : Occurrence := ⟨4, 30, 1, [], "docs/codeBlock_4"⟩

/-- Line two of `a.ts` stands on line seven of the block, below three markers, a leading line and
the line of a hidden file. -/
theorem remap_second_region :
    let raw : Text := "start()\n// file: a.ts\none()\n// file: b.ts noEmit\ntwo()\n" ++
      "// file: a.ts\nthree()\n"
    let diagnostic := Diagnostic.located "bad" 2 5
    (("docs/codeBlock_4/a.ts" : Text), SourceFile.shown "one()\nthree()\n") ∈
        (split raw "docs/codeBlock_4").entries ∧
      (diagnostic.remap "docs/codeBlock_4/a.ts" fourthBlock).location = some (32, some 5) ∧
      (linesOf raw.pieces "a.ts")[1]? = some ("three()\n".toList, 6) ∧
      32 + strangers raw.pieces "a.ts" 6 = fourthBlock.startLine + (6 + 1) := by
  intro raw diagnostic
  have he : (("docs/codeBlock_4/a.ts" : Text), SourceFile.shown "one()\nthree()\n") ∈
      (split raw "docs/codeBlock_4").entries := by decide
  have located : diagnostic.line = some (1 + 1) := rfl
  obtain ⟨name, i, reported, hpath, hget, -, hlocation, -, -, hreported⟩ :=
    remap_origin he rfl located fourthBlock
  obtain rfl : name = "a.ts".toList := (filePath_injective "docs/codeBlock_4" hpath).symm
  have hline : (linesOf raw.pieces "a.ts")[1]? = some ("three()\n".toList, 6) := by decide
  have hreport : (diagnostic.remap "docs/codeBlock_4/a.ts" fourthBlock).location =
      some (32, some 5) := by decide
  obtain rfl : i = 6 := (Prod.mk.inj (Option.some.inj (hget.symm.trans hline))).2
  obtain rfl : reported = 32 := (Prod.mk.inj (Option.some.inj (hlocation.symm.trans hreport))).1
  exact ⟨he, hreport, hline, (hreported (by decide)).1⟩

theorem remap_below_marker : ¬∀ (raw folder name : Text) (file : SourceFile) (n i : Nat)
    (line : Text) (diagnostic : Diagnostic) (block : Occurrence),
    (filePath folder name, file) ∈ (split raw folder).entries →
    (linesOf raw.pieces name)[n]? = some (line, i) → diagnostic.line = some (n + 1) →
      (diagnostic.remap (filePath folder name) block).location =
        some (block.startLine + (i + 1), diagnostic.column) := by
  intro h
  have hreport := h "// file: a.ts\nlet a = 1" "docs/codeBlock_4" "a.ts" (.shown "let a = 1") 0 1
    "let a = 1" (.located "bad" 1 1) fourthBlock (by decide) (by decide) rfl
  revert hreport
  decide

end Block

end CodeTabs
