import CodeTabs.Proofs.Transpiler.Run

/-!
A transpiler can be made to record what its compiler is given. It then behaves as before, and the
record of a document holds the files of one block after another, up to the last that is processed.
-/

namespace CodeTabs.Transpiler

open CodeTabs.Action

variable {σ : Type}

def recorded (t : Transpiler σ) : Transpiler (σ × List FileSet) where
  compiler := ⟨t.compiler.name, fun files => noting [files] (t.compiler.compile files)⟩
  relocate := t.relocate
  typeScriptHook := fun files document => noting [] (t.typeScriptHook files document)
  javaScriptHook := fun compiled document => noting [] (t.javaScriptHook compiled document)
  assembler := fun input => noting [] (t.assembler input)
  fileExtensions := t.fileExtensions
  tabsImport := t.tabsImport
  tabItemImport := t.tabItemImport

theorem noting_failing {ε α κ : Type} (notes : List κ) (step : Action σ ε α)
    (failure : ε → Failure) :
    noting notes (failing step failure) = failing (noting notes step) failure := rfl

theorem recorded_processBlock (t : Transpiler σ) (document : Text) (block : CodeBlock)
    (occurrence : Occurrence) :
    t.recorded.processBlock document block occurrence =
      noting [sources block occurrence] (t.processBlock document block occurrence) := by
  unfold processBlock
  simp only [noting_bind, noting_failing, noting_liftExcept]
  rfl

section Document

variable {t : Transpiler σ} {document : Text} {s s' : σ}

theorem Succeed.recorded {blocks : List (CodeBlock × Occurrence)} {nodes : List (List Node)}
    (h : t.Succeed document blocks s nodes s') (record : List FileSet) :
    t.recorded.Succeed document blocks (s, record) nodes
      (s', record ++ blocks.map fun b => sources b.1 b.2) := by
  induction h generalizing record with
  | nil s => simpa using .nil (s, record)
  | @cons block occurrence rest nodes others s s₁ s' first later ih =>
    have hfirst : runFrom (t.recorded.processBlock document block occurrence) (s, record) =
        (.ok nodes, (s₁, record ++ [sources block occurrence])) := by
      rw [recorded_processBlock, runFrom_noting, first]
    have hlater := ih (record ++ [sources block occurrence])
    rw [List.append_assoc] at hlater
    exact .cons hfirst hlater

theorem Fails.recorded {block : CodeBlock} {occurrence : Occurrence} {failure : Failure}
    (h : t.Fails document block occurrence s failure s') (record : List FileSet) :
    t.recorded.Fails document block occurrence (s, record) failure
      (s', record ++ [sources block occurrence]) := by
  rw [← processBlock_error_iff, recorded_processBlock, runFrom_noting,
    processBlock_error_iff.mpr h]

theorem recorded_processAll (t : Transpiler σ) (document : Text)
    (blocks : List (CodeBlock × Occurrence)) (s : σ) (record : List FileSet) :
    ∃ given, given <+: blocks.map (fun b => sources b.1 b.2) ∧
      runFrom (t.recorded.processAll document blocks) (s, record) =
        ((runFrom (t.processAll document blocks) s).1,
          ((runFrom (t.processAll document blocks) s).2, record ++ given)) := by
  rcases h : runFrom (t.processAll document blocks) s with ⟨failure | nodes, s'⟩
  · obtain ⟨before, block, occurrence, after, nodes, s₁, rfl, succeed, fails⟩ :=
      processAll_error_iff.mp h
    have hprefix : before ++ [(block, occurrence)] <+: before ++ (block, occurrence) :: after :=
      ⟨after, by simp⟩
    refine ⟨(before ++ [(block, occurrence)]).map fun b => sources b.1 b.2, hprefix.map _, ?_⟩
    refine processAll_error_iff.mpr ⟨before, block, occurrence, after, nodes, _, rfl,
      succeed.recorded record, ?_⟩
    rw [List.map_append, ← List.append_assoc]
    exact fails.recorded _
  · exact ⟨_, List.prefix_refl _, processAll_ok_iff.mpr ((processAll_ok_iff.mp h).recorded record)⟩

theorem recorded_transformFrom (t : Transpiler σ) (tree : Node) (path : Text) (s : σ)
    (record : List FileSet) :
    ∃ given, given <+: (t.pendingIn tree path).map (fun b => sources b.1 b.2) ∧
      t.recorded.transformFrom tree path (s, record) =
        ((t.transformFrom tree path s).1,
          ((t.transformFrom tree path s).2, record ++ given)) := by
  cases accepted : t.accepts path with
  | false =>
    refine ⟨[], List.nil_prefix, ?_⟩
    rw [transformFrom_of_not_accepts accepted, List.append_nil]
    exact transformFrom_of_not_accepts (t := t.recorded) accepted (s, record)
  | true =>
    obtain ⟨given, hgiven, hrun⟩ :=
      recorded_processAll t (t.relocate path) (t.pendingIn tree path) s record
    refine ⟨given, hgiven, ?_⟩
    rw [transformFrom_of_accepts accepted]
    refine (transformFrom_of_accepts (t := t.recorded) accepted (s, record)).trans ?_
    exact congrArg (fun r => (t.conclude tree r.1, r.2)) hrun

end Document

/-- A host that counts the calls of its compiler, which fails at the call of number `failing`. The
nodes of a block say only in which folder its files are. -/
def counting (failing : Nat) : Transpiler Nat where
  compiler := ⟨"counting", fun files => ExceptT.mk fun calls =>
    (if calls + 1 = failing then .error (.internal "out of calls")
      else .ok (files.map fun _ file => .clean file.code), calls + 1)⟩
  relocate := id
  typeScriptHook := fun files _ => pure files
  javaScriptHook := fun compiled _ => pure (Shaping.javaScript compiled)
  assembler := fun input => pure [.text input.folder]
  fileExtensions := Options.defaultFileExtensions
  tabsImport := Options.defaultTabsImport
  tabItemImport := Options.defaultTabItemImport

def nested : Node :=
  .parent "root" [] [.code ⟨"a", some "js", none, none⟩,
    .parent "list" [] [.code ⟨"b", some "ts", none, none⟩,
      .code ⟨"c", some "ts", some "no-transpile", none⟩],
    .code ⟨"d", some "tsx", none, none⟩]

end CodeTabs.Transpiler
