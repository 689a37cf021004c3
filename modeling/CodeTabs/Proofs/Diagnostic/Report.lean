import CodeTabs.Diagnostic.Report
import CodeTabs.Proofs.Diagnostic.Excerpt

/-!
The failure of a block whose compiler has something to say. It is about the first diagnostic of the
first file that has any, and it is fixed by that diagnostic and by the emitted code and the source
of that file; nothing else in the block has a part in it.
-/

namespace CodeTabs

namespace Excerpt

theorem render_ite_isEmpty {line : Nat} (hpos : 0 < line) (code : Text) :
    (if (render code line).isEmpty then none else some (render code line)) =
      if line ≤ code.lines.length then some (render code line) else none := by
  have hempty : (render code line).isEmpty = true ↔ code.lines.length < line := by
    rw [List.isEmpty_iff, render_eq_nil_iff]
    omega
  by_cases h : line ≤ code.lines.length
  · rw [if_pos h, if_neg (by rw [hempty]; omega)]
  · rw [if_neg h, if_pos (by rw [hempty]; omega)]

theorem choose_eq {line : Nat} (hpos : 0 < line) (emitted : Text) (source : Option Text) :
    choose emitted source line =
      if line ≤ emitted.lines.length then some (render emitted line)
      else source.bind fun code =>
        if line ≤ code.lines.length then some (render code line) else none := by
  simp only [choose, List.findSome?, Option.bind_some, render_ite_isEmpty hpos]
  by_cases h : line ≤ emitted.lines.length
  · simp only [if_pos h]
  · simp only [if_neg h]
    cases source with
    | none => rfl
    | some code => by_cases hcode : line ≤ code.lines.length <;> simp [hcode]

end Excerpt

namespace Diagnostic

variable {diagnostic : Diagnostic}

theorem location?_of_pos {line : Nat} (h : diagnostic.line = some line) (hpos : 0 < line) :
    diagnostic.location? = some (line, diagnostic.column) := by
  rw [location?, h]
  exact if_neg (by omega)

theorem location?_of_no_line (h : diagnostic.line = none ∨ diagnostic.line = some 0) :
    diagnostic.location? = none := by
  rcases h with h | h
  · rw [location?, h]
  · rw [location?, h]
    rfl

theorem failure_of_line {line : Nat} (h : diagnostic.line = some line) (hpos : 0 < line)
    (path : Text) (file : CompiledFile) (source : Option SourceFile) (block : Occurrence) :
    diagnostic.failure path file source block =
      { kind := .diagnostic
        message := "TypeScript error in line " ++ Text.decimal line ++ " of " ++ path ++ ":\n" ++
          diagnostic.message
        file := none
        virtualFile := some path
        line := some (block.documentLine line)
        column := diagnostic.column
        context := Excerpt.choose file.code (source.map SourceFile.code) line
        suggestion := none } := by
  rw [failure, remap, location?_of_pos h hpos]
  rfl

theorem failure_of_no_line (h : diagnostic.line = none ∨ diagnostic.line = some 0)
    (path : Text) (file : CompiledFile) (source : Option SourceFile) (block : Occurrence) :
    diagnostic.failure path file source block =
      { kind := .diagnostic
        message := "TypeScript error in " ++ path ++ ":\n" ++ diagnostic.message
        file := none
        virtualFile := some path
        line := some block.startLine
        column := some block.startColumn
        context := none
        suggestion := none } := by
  rw [failure, remap, location?_of_no_line h]
  rfl

theorem subject_failure (diagnostic : Diagnostic) (path : Text) (file : CompiledFile)
    (source : Option SourceFile) (block : Occurrence) :
    (diagnostic.failure path file source block).kind = .diagnostic ∧
      (diagnostic.failure path file source block).virtualFile = some path ∧
      (diagnostic.failure path file source block).suggestion = none := by
  cases h : diagnostic.line with
  | none =>
    rw [failure_of_no_line (.inl h)]
    exact ⟨rfl, rfl, rfl⟩
  | some line =>
    cases line with
    | zero =>
      rw [failure_of_no_line (.inr h)]
      exact ⟨rfl, rfl, rfl⟩
    | succ n =>
      rw [failure_of_line h (Nat.succ_pos n)]
      exact ⟨rfl, rfl, rfl⟩

end Diagnostic

namespace CompiledSet

/-- The first path with diagnostics, the code that was emitted for it and the first of these. -/
def FailsAt (compiled : CompiledSet) (path emitted : Text) (diagnostic : Diagnostic) : Prop :=
  ∃ before others skip after,
    compiled.entries = before ++ (path, ⟨emitted, diagnostic :: others, skip⟩) :: after ∧
      ∀ e ∈ before, e.2.diagnostics = []

variable {compiled : CompiledSet} {path emitted : Text} {diagnostic : Diagnostic}

theorem firstDiagnostic?_eq_none_iff :
    compiled.firstDiagnostic? = none ↔ ∀ e ∈ compiled.entries, e.2.diagnostics = [] := by
  simp [firstDiagnostic?]

theorem failsAt_iff : compiled.FailsAt path emitted diagnostic ↔
    ∃ file, compiled.firstDiagnostic? = some (path, file, diagnostic) ∧ file.code = emitted := by
  simp only [firstDiagnostic?, List.findSome?_eq_some_iff, Option.map_eq_some_iff,
    Option.map_eq_none_iff, List.head?_eq_none_iff, Prod.mk.injEq]
  constructor
  · rintro ⟨before, others, skip, after, hentries, hbefore⟩
    exact ⟨_, ⟨before, _, after, hentries, ⟨diagnostic, rfl, rfl, rfl, rfl⟩, hbefore⟩, rfl⟩
  · rintro ⟨file, ⟨before, e, after, hentries, ⟨first, hhead, rfl, rfl, rfl⟩, hbefore⟩, rfl⟩
    obtain ⟨others, hothers⟩ := List.head?_eq_some_iff.mp hhead
    exact ⟨before, others, e.2.skip, after, by rw [hentries, ← hothers], hbefore⟩

theorem exists_failsAt (h : ∃ e ∈ compiled.entries, e.2.diagnostics ≠ []) :
    ∃ path emitted diagnostic, compiled.FailsAt path emitted diagnostic := by
  cases hfirst : compiled.firstDiagnostic? with
  | none =>
    obtain ⟨e, he, hne⟩ := h
    exact absurd (firstDiagnostic?_eq_none_iff.mp hfirst e he) hne
  | some first => exact ⟨_, _, _, failsAt_iff.mpr ⟨_, hfirst, rfl⟩⟩

theorem FailsAt.check (h : compiled.FailsAt path emitted diagnostic) (sources : FileSet)
    (block : Occurrence) (document : Text) : compiled.check sources block document =
      .error ((diagnostic.failure path (.clean emitted) (sources.get? path) block).withFile
        document) := by
  obtain ⟨file, hfirst, rfl⟩ := failsAt_iff.mp h
  rw [CompiledSet.check, hfirst]
  rfl

theorem check_eq_ok_iff (compiled : CompiledSet) (sources : FileSet) (block : Occurrence)
    (document : Text) : compiled.check sources block document = .ok () ↔
      ∀ e ∈ compiled.entries, e.2.diagnostics = [] := by
  rw [← firstDiagnostic?_eq_none_iff, check]
  cases compiled.firstDiagnostic? with
  | none => simp
  | some first => simp

/-- A block is accepted just when no file has a diagnostic. Otherwise the failure is that of the
first file with a diagnostic and of the first of these. Its line in the document is the sum of two
lines wherever that is a machine word. -/
theorem check_first_diagnostic (compiled : CompiledSet) (sources : FileSet) (block : Occurrence)
    (document : Text) :
    (compiled.check sources block document = .ok () ↔
      ∀ e ∈ compiled.entries, e.2.diagnostics = []) ∧
    ((∃ e ∈ compiled.entries, e.2.diagnostics ≠ []) → ∃ path emitted diagnostic failure,
      compiled.FailsAt path emitted diagnostic ∧
      compiled.check sources block document = .error failure ∧
      failure.kind = .diagnostic ∧ failure.file = some document ∧
      failure.virtualFile = some path ∧ failure.suggestion = none ∧
      (∀ line, 0 < line → diagnostic.line = some line →
        failure.message = "TypeScript error in line " ++ Text.decimal line ++ " of " ++ path ++
          ":\n" ++ diagnostic.message ∧
        (block.startLine + line < UInt64.size → failure.line = some (block.startLine + line)) ∧
        failure.column = diagnostic.column ∧
        failure.context =
          if line ≤ emitted.lines.length then some (Excerpt.render emitted line)
          else (sources.get? path).bind fun source =>
            if line ≤ source.code.lines.length then some (Excerpt.render source.code line)
            else none) ∧
      (diagnostic.line = none ∨ diagnostic.line = some 0 →
        failure.message = "TypeScript error in " ++ path ++ ":\n" ++ diagnostic.message ∧
        failure.line = some block.startLine ∧ failure.column = some block.startColumn ∧
        failure.context = none) ∧
      ∀ (other : CompiledSet) (sources' : FileSet), other.FailsAt path emitted diagnostic →
        sources'.get? path = sources.get? path →
          other.check sources' block document = .error failure) := by
  refine ⟨check_eq_ok_iff compiled sources block document, fun h => ?_⟩
  obtain ⟨path, emitted, diagnostic, hfails⟩ := exists_failsAt h
  obtain ⟨hkind, hfile, hsuggestion⟩ := diagnostic.subject_failure path (.clean emitted)
    (sources.get? path) block
  refine ⟨path, emitted, diagnostic, _, hfails, hfails.check sources block document, hkind, rfl,
    hfile, hsuggestion, ?_, ?_, ?_⟩
  · intro line hpos hline
    rw [Diagnostic.failure_of_line hline hpos]
    refine ⟨rfl, fun hword => congrArg some (Occurrence.documentLine_eq hword), rfl, ?_⟩
    apply (Excerpt.choose_eq hpos emitted _).trans
    rw [Option.bind_map]
    rfl
  · intro hline
    rw [Diagnostic.failure_of_no_line hline]
    exact ⟨rfl, rfl, rfl, rfl⟩
  · intro other sources' hother hsource
    rw [hother.check sources' block document, hsource]

def noted : CompiledSet := .ofList [("d/a.ts", .clean "a()\n"),
  ("d/b.ts", ⟨"b()", [⟨"late", some 2, none⟩, .located "early" 1 1], false⟩),
  ("d/c.ts", ⟨[], [.unlocated "config"], false⟩)]

def notedSources : FileSet := .ofList [("d/b.ts", .shown "b()\nc()\n")]

def notedBlock : Occurrence := ⟨4, 30, 1, [], "d"⟩

theorem check_noted : (∃ e ∈ noted.entries, e.2.diagnostics ≠ []) ∧
    ∃ failure, noted.check notedSources notedBlock "d.mdx" = .error failure ∧
      failure.file = some "d.mdx" ∧ failure.virtualFile = some "d/b.ts" ∧
      failure.line = some 32 ∧ failure.column = none ∧
      failure.context = some "  1 | b()\n> 2 | c()\n" := by
  have hfaulty : ∃ e ∈ noted.entries, e.2.diagnostics ≠ [] := by decide
  obtain ⟨path, emitted, diagnostic, failure, hfails, hcheck, -, hfile, hvirtual, -, hline, -⟩ :=
    (check_first_diagnostic noted notedSources notedBlock "d.mdx").2 hfaulty
  obtain ⟨file, hfirst, rfl⟩ := failsAt_iff.mp hfails
  obtain ⟨rfl, rfl, rfl⟩ : ("d/b.ts".toList = path) ∧
      (⟨"b()", [⟨"late", some 2, none⟩, .located "early" 1 1], false⟩ = file) ∧
      (⟨"late", some 2, none⟩ = diagnostic) := by
    cases hfirst
    exact ⟨rfl, rfl, rfl⟩
  obtain ⟨-, hat, hcolumn, hcontext⟩ := hline 2 (by omega) rfl
  exact ⟨hfaulty, failure, hcheck, hfile, hvirtual, hat (by decide), hcolumn,
    hcontext.trans (by decide)⟩

def outlying : CompiledSet :=
  .ofList [("d/a.ts", ⟨[], [.located "late" (UInt64.size - 1) 1], false⟩)]

theorem check_outlying : ¬∀ (compiled : CompiledSet) (sources : FileSet) (block : Occurrence)
    (document path emitted : Text) (diagnostic : Diagnostic) (line : Nat) (failure : Failure),
    compiled.FailsAt path emitted diagnostic → diagnostic.line = some line → 0 < line →
      block.startLine < UInt64.size → line < UInt64.size →
      compiled.check sources block document = .error failure →
        failure.line = some (block.startLine + line) := by
  intro h
  have hline := h outlying .empty ⟨1, 5, 1, [], "d"⟩ "d.mdx" "d/a.ts" []
    (.located "late" (UInt64.size - 1) 1) (UInt64.size - 1) _ ⟨[], [], false, [], rfl, nofun⟩ rfl
    (by decide) (by decide) (by decide) rfl
  revert hline
  decide

end CompiledSet

end CodeTabs
