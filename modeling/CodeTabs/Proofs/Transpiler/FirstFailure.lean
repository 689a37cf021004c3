import CodeTabs.Proofs.Transpiler.Recorded

/-!
The first block that fails ends its document. The tree then has its imports and all its blocks, the
compiler has been given no later block, and the failure names the document.
-/

namespace CodeTabs.Transpiler

variable {σ : Type} {t : Transpiler σ} {tree left : Node} {path : Text} {s s' : σ}
  {failure : Failure}

/-- A failed document has a first failing block, at whichever stage it fails. The blocks before it
and the block itself have been compiled, once each and in order. -/
theorem transform_first_failure
    (h : t.transformFrom tree path s = (⟨left, .error failure⟩, s')) :
    left = tree.withChildren
        ((ImportPresence.scan tree).missing t.tabsImport t.tabItemImport ++ tree.children) ∧
      Node.codeBlocksOf left.children = Node.codeBlocksOf tree.children ∧
      failure.file = some (t.relocate path) ∧
      ∃ before block occurrence after nodes s₁,
        t.pendingIn tree path = before ++ (block, occurrence) :: after ∧
        t.Succeed (t.relocate path) before s nodes s₁ ∧
        t.Fails (t.relocate path) block occurrence s₁ failure s' ∧
        ∀ record, t.recorded.transformFrom tree path (s, record) =
          (⟨left, .error failure⟩,
            (s', record ++ (before ++ [(block, occurrence)]).map fun b => sources b.1 b.2)) := by
  obtain ⟨accepted, rfl, hrun⟩ := transformFrom_error_iff.mp h
  obtain ⟨before, block, occurrence, after, nodes, s₁, hpending, succeed, fails⟩ :=
    processAll_error_iff.mp hrun
  refine ⟨injected_fst t tree, codeBlocksOf_injected t tree, fails.file, before, block, occurrence,
    after, nodes, s₁, hpending, succeed, fails, fun record => ?_⟩
  refine transformFrom_error_iff.mpr ⟨accepted, rfl, ?_⟩
  refine processAll_error_iff.mpr ⟨before, block, occurrence, after, nodes,
    (s₁, record ++ before.map fun b => sources b.1 b.2), hpending, succeed.recorded record, ?_⟩
  rw [List.map_append, ← List.append_assoc]
  exact fails.recorded _

def objecting (code : Text) : Transpiler Nat :=
  { counting 0 with
    compiler := ⟨"objecting", fun files => ExceptT.mk fun calls =>
      (.ok (files.map fun _ file =>
        ⟨file.code, if file.code = code then [.located "bad" 1 3] else [], false⟩), calls + 1)⟩ }

theorem transform_nested_first_failure :
    (∃ left failure, (counting 2).transformFrom nested "a.mdx" 0 = (⟨left, .error failure⟩, 2) ∧
      Node.codeBlocksOf left.children = Node.codeBlocksOf nested.children ∧
      failure.file = some "a.mdx" ∧
      ∃ before block occurrence after nodes s₁,
        (counting 2).pendingIn nested "a.mdx" = before ++ (block, occurrence) :: after ∧
        (counting 2).Succeed "a.mdx" before 0 nodes s₁ ∧
        (counting 2).Fails "a.mdx" block occurrence s₁ failure 2) ∧
    ∃ left failure, (objecting "d").transformFrom nested "a.mdx" 0 =
        (⟨left, .error failure⟩, 2) ∧
      failure.kind = .diagnostic ∧ failure.file = some "a.mdx" ∧
      failure.virtualFile = some "a.mdx/codeBlock_4/index.ts" ∧ failure.line = some 2 ∧
      ∃ before block occurrence nodes s₁,
        (objecting "d").Succeed "a.mdx" before 0 nodes s₁ ∧
        (objecting "d").Fails "a.mdx" block occurrence s₁ failure 2 ∧
        (before ++ [(block, occurrence)]).map (fun b => sources b.1 b.2) =
          [.ofList [("a.mdx/codeBlock_2/index.ts", .shown "b")],
            .ofList [("a.mdx/codeBlock_4/index.ts", .shown "d")]] := by
  constructor
  · have h : (counting 2).transformFrom nested "a.mdx" 0 =
        (⟨((counting 2).injected nested).1, .error (((Cause.compiler
          (.internal "out of calls")).failure.withFile "a.mdx").withLocation 1 1)⟩, 2) := rfl
    obtain ⟨_, hblocks, hfile, before, block, occurrence, after, nodes, s₁, hpending, succeed,
      fails, _⟩ := transform_first_failure h
    exact ⟨_, _, h, hblocks, hfile, before, block, occurrence, after, nodes, s₁, hpending, succeed,
      fails⟩
  · have h : (objecting "d").transformFrom nested "a.mdx" 0 =
        (⟨((objecting "d").injected nested).1, .error
          (((Diagnostic.located "bad" 1 3).failure "a.mdx/codeBlock_4/index.ts" (.clean "d")
            (some (.shown "d")) ⟨4, 1, 1, [], "a.mdx/codeBlock_4"⟩).withFile "a.mdx")⟩, 2) := rfl
    have hlog : ((objecting "d").recorded.transformFrom nested "a.mdx" (0, [])).2.2 =
        [.ofList [("a.mdx/codeBlock_2/index.ts", .shown "b")],
          .ofList [("a.mdx/codeBlock_4/index.ts", .shown "d")]] := rfl
    obtain ⟨_, _, hfile, before, block, occurrence, _, nodes, s₁, _, succeed, fails, hrecord⟩ :=
      transform_first_failure h
    rw [hrecord] at hlog
    exact ⟨_, _, h, rfl, hfile, rfl, rfl, before, block, occurrence, nodes, s₁, succeed, fails,
      hlog⟩

end CodeTabs.Transpiler
