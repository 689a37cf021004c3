import CodeTabs.Proofs.Transpiler.Action
import CodeTabs.Transpiler.Basic

/-!
A block is processed in five stages and a document block after block. `Fails` says how one block
fails and `Succeed` that blocks succeed one after another. Either all blocks of a document succeed
or there is a first that fails, and these two say what a transformation comes to.
-/

namespace CodeTabs.Transpiler

open CodeTabs.Action

variable {σ ε α : Type}

theorem runFrom_failing (step : Action σ ε α) (failure : ε → Failure) (s : σ) :
    runFrom (failing step failure) s =
      match runFrom step s with
      | (.ok a, s₁) => (.ok a, s₁)
      | (.error e, s₁) => (.error (failure e), s₁) := by
  change ((runFrom step s).1.mapError failure, (runFrom step s).2) = _
  rcases runFrom step s with ⟨e | a, s₁⟩
  · rfl
  · rfl

theorem runFrom_failing_ok_iff {step : Action σ ε α} {failure : ε → Failure} {s s' : σ} {a : α} :
    runFrom (failing step failure) s = (.ok a, s') ↔ runFrom step s = (.ok a, s') := by
  rw [runFrom_failing]
  rcases runFrom step s with ⟨e | b, s₁⟩
  · simp
  · simp

theorem runFrom_failing_error_iff {step : Action σ ε α} {failure : ε → Failure} {s s' : σ}
    {f : Failure} :
    runFrom (failing step failure) s = (.error f, s') ↔
      ∃ e, runFrom step s = (.error e, s') ∧ failure e = f := by
  rw [runFrom_failing]
  rcases runFrom step s with ⟨e | b, s₁⟩
  · simp only [Prod.mk.injEq, Except.error.injEq]
    constructor
    · intro h
      exact ⟨e, ⟨rfl, h.2⟩, h.1⟩
    · intro h
      obtain ⟨_, ⟨rfl, hs⟩, hf⟩ := h
      exact ⟨hf, hs⟩
  · simp

abbrev sources (block : CodeBlock) (occurrence : Occurrence) : FileSet :=
  Block.split block.value occurrence.folder

inductive Fails (t : Transpiler σ) (document : Text) (block : CodeBlock) (occurrence : Occurrence)
    (s : σ) : Failure → σ → Prop
  | compiler {error : CompilerError} {s' : σ}
      (compile : runFrom (t.compiler.compile (sources block occurrence)) s = (.error error, s')) :
      Fails t document block occurrence s
        (((Cause.compiler error).failure.withFile document).withLocation occurrence.startLine
          occurrence.startColumn) s'
  | diagnostic {compiled : CompiledSet} {failure : Failure} {s' : σ}
      (compile : runFrom (t.compiler.compile (sources block occurrence)) s = (.ok compiled, s'))
      (check : (compiled.withSkipOf (sources block occurrence)).check (sources block occurrence)
        occurrence document = .error failure) :
      Fails t document block occurrence s failure s'
  | typeScript {compiled : CompiledSet} {chain : ErrorChain} {s₁ s' : σ}
      (compile : runFrom (t.compiler.compile (sources block occurrence)) s = (.ok compiled, s₁))
      (check : (compiled.withSkipOf (sources block occurrence)).check (sources block occurrence)
        occurrence document = .ok ())
      (hook : runFrom (t.typeScriptHook (sources block occurrence) document) s₁ =
        (.error chain, s')) :
      Fails t document block occurrence s
        ((Cause.postProcess "TypeScript" chain).failure.withFile document) s'
  | javaScript {compiled : CompiledSet} {chain : ErrorChain} {typeScript : FileSet} {s₁ s₂ s' : σ}
      (compile : runFrom (t.compiler.compile (sources block occurrence)) s = (.ok compiled, s₁))
      (check : (compiled.withSkipOf (sources block occurrence)).check (sources block occurrence)
        occurrence document = .ok ())
      (first : runFrom (t.typeScriptHook (sources block occurrence) document) s₁ =
        (.ok typeScript, s₂))
      (hook : runFrom (t.javaScriptHook (compiled.withSkipOf (sources block occurrence)) document)
        s₂ = (.error chain, s')) :
      Fails t document block occurrence s
        ((Cause.postProcess "JavaScript" chain).failure.withFile document) s'
  | assembly {compiled : CompiledSet} {chain : ErrorChain} {typeScript javaScript : FileSet}
      {s₁ s₂ s₃ s' : σ}
      (compile : runFrom (t.compiler.compile (sources block occurrence)) s = (.ok compiled, s₁))
      (check : (compiled.withSkipOf (sources block occurrence)).check (sources block occurrence)
        occurrence document = .ok ())
      (first : runFrom (t.typeScriptHook (sources block occurrence) document) s₁ =
        (.ok typeScript, s₂))
      (second : runFrom (t.javaScriptHook (compiled.withSkipOf (sources block occurrence))
        document) s₂ = (.ok javaScript, s₃))
      (assemble : runFrom (t.assembler ⟨block, document, occurrence.folder, typeScript,
        javaScript⟩) s₃ = (.error chain, s')) :
      Fails t document block occurrence s
        (((Cause.assembly chain).failure.withFile document).withLocation occurrence.startLine
          occurrence.startColumn) s'

section Block

variable {t : Transpiler σ} {document : Text} {block : CodeBlock} {occurrence : Occurrence}
  {s s' : σ} {failure : Failure}

theorem processBlock_error_iff :
    runFrom (t.processBlock document block occurrence) s = (.error failure, s') ↔
      t.Fails document block occurrence s failure s' := by
  constructor
  · intro h
    rcases runFrom_bind_error_iff.mp h with h | ⟨compiled, s₁, compile, h⟩
    · obtain ⟨error, compile, rfl⟩ := runFrom_failing_error_iff.mp h
      exact .compiler compile
    have compile := runFrom_failing_ok_iff.mp compile
    rcases runFrom_bind_error_iff.mp h with h | ⟨_, s₂, checked, h⟩
    · obtain ⟨check, rfl⟩ := Prod.mk.inj h
      exact .diagnostic compile check
    obtain ⟨check, rfl⟩ := Prod.mk.inj checked
    rcases runFrom_bind_error_iff.mp h with h | ⟨typeScript, s₂, first, h⟩
    · obtain ⟨chain, hook, rfl⟩ := runFrom_failing_error_iff.mp h
      exact .typeScript compile check hook
    have first := runFrom_failing_ok_iff.mp first
    rcases runFrom_bind_error_iff.mp h with h | ⟨javaScript, s₃, second, h⟩
    · obtain ⟨chain, hook, rfl⟩ := runFrom_failing_error_iff.mp h
      exact .javaScript compile check first hook
    have second := runFrom_failing_ok_iff.mp second
    obtain ⟨chain, assemble, rfl⟩ := runFrom_failing_error_iff.mp h
    exact .assembly compile check first second assemble
  · intro h
    cases h with
    | compiler compile =>
      exact runFrom_bind_error_iff.mpr
        (.inl (runFrom_failing_error_iff.mpr ⟨_, compile, rfl⟩))
    | diagnostic compile check =>
      refine runFrom_bind_error_iff.mpr (.inr ⟨_, _, runFrom_failing_ok_iff.mpr compile, ?_⟩)
      exact runFrom_bind_error_iff.mpr (.inl (Prod.ext check rfl))
    | typeScript compile check hook =>
      refine runFrom_bind_error_iff.mpr (.inr ⟨_, _, runFrom_failing_ok_iff.mpr compile, ?_⟩)
      refine runFrom_bind_error_iff.mpr (.inr ⟨_, _, Prod.ext check rfl, ?_⟩)
      exact runFrom_bind_error_iff.mpr (.inl (runFrom_failing_error_iff.mpr ⟨_, hook, rfl⟩))
    | javaScript compile check first hook =>
      refine runFrom_bind_error_iff.mpr (.inr ⟨_, _, runFrom_failing_ok_iff.mpr compile, ?_⟩)
      refine runFrom_bind_error_iff.mpr (.inr ⟨_, _, Prod.ext check rfl, ?_⟩)
      refine runFrom_bind_error_iff.mpr (.inr ⟨_, _, runFrom_failing_ok_iff.mpr first, ?_⟩)
      exact runFrom_bind_error_iff.mpr (.inl (runFrom_failing_error_iff.mpr ⟨_, hook, rfl⟩))
    | assembly compile check first second assemble =>
      refine runFrom_bind_error_iff.mpr (.inr ⟨_, _, runFrom_failing_ok_iff.mpr compile, ?_⟩)
      refine runFrom_bind_error_iff.mpr (.inr ⟨_, _, Prod.ext check rfl, ?_⟩)
      refine runFrom_bind_error_iff.mpr (.inr ⟨_, _, runFrom_failing_ok_iff.mpr first, ?_⟩)
      refine runFrom_bind_error_iff.mpr (.inr ⟨_, _, runFrom_failing_ok_iff.mpr second, ?_⟩)
      exact runFrom_failing_error_iff.mpr ⟨_, assemble, rfl⟩

theorem processBlock_ok {nodes : List Node}
    (h : runFrom (t.processBlock document block occurrence) s = (.ok nodes, s')) :
    ∃ typeScript javaScript s₁, runFrom (t.assembler ⟨block, document, occurrence.folder,
      typeScript, javaScript⟩) s₁ = (.ok nodes, s') := by
  obtain ⟨compiled, s₁, -, h⟩ := runFrom_bind_ok_iff.mp h
  obtain ⟨_, s₂, -, h⟩ := runFrom_bind_ok_iff.mp h
  obtain ⟨typeScript, s₃, -, h⟩ := runFrom_bind_ok_iff.mp h
  obtain ⟨javaScript, s₄, -, h⟩ := runFrom_bind_ok_iff.mp h
  exact ⟨typeScript, javaScript, s₄, runFrom_failing_ok_iff.mp h⟩

theorem Fails.file (h : t.Fails document block occurrence s failure s') :
    failure.file = some document := by
  cases h with
  | compiler => rfl
  | diagnostic _ check =>
    unfold CompiledSet.check at check
    split at check
    · cases check
    · cases check
      rfl
  | typeScript => rfl
  | javaScript => rfl
  | assembly => rfl

end Block

inductive Succeed (t : Transpiler σ) (document : Text) :
    List (CodeBlock × Occurrence) → σ → List (List Node) → σ → Prop
  | nil (s : σ) : Succeed t document [] s [] s
  | cons {block : CodeBlock} {occurrence : Occurrence} {rest : List (CodeBlock × Occurrence)}
      {nodes : List Node} {others : List (List Node)} {s s₁ s' : σ}
      (first : runFrom (t.processBlock document block occurrence) s = (.ok nodes, s₁))
      (later : Succeed t document rest s₁ others s') :
      Succeed t document ((block, occurrence) :: rest) s (nodes :: others) s'

section Blocks

variable {t : Transpiler σ} {document : Text} {s s' : σ}

theorem Succeed.length_eq {blocks : List (CodeBlock × Occurrence)} {nodes : List (List Node)}
    (h : t.Succeed document blocks s nodes s') : nodes.length = blocks.length := by
  induction h with
  | nil => rfl
  | cons _ _ ih => simp [ih]

theorem succeed_append_iff {before after : List (CodeBlock × Occurrence)}
    {nodes : List (List Node)} :
    t.Succeed document (before ++ after) s nodes s' ↔
      ∃ first second s₁, nodes = first ++ second ∧ t.Succeed document before s first s₁ ∧
        t.Succeed document after s₁ second s' := by
  induction before generalizing s nodes with
  | nil =>
    constructor
    · intro h
      exact ⟨[], nodes, _, rfl, .nil _, h⟩
    · intro h
      obtain ⟨first, second, s₁, rfl, hfirst, hsecond⟩ := h
      cases hfirst
      exact hsecond
  | cons b before ih =>
    constructor
    · intro h
      obtain _ | ⟨head, later⟩ := h
      obtain ⟨first, second, s₁, rfl, hfirst, hsecond⟩ := ih.mp later
      exact ⟨_ :: first, second, s₁, rfl, .cons head hfirst, hsecond⟩
    · intro h
      obtain ⟨_, second, s₁, rfl, _ | ⟨head, later⟩, hsecond⟩ := h
      exact .cons head (ih.mpr ⟨_, second, s₁, rfl, later, hsecond⟩)

theorem processAll_ok_iff {blocks : List (CodeBlock × Occurrence)} {nodes : List (List Node)} :
    runFrom (t.processAll document blocks) s = (.ok nodes, s') ↔
      t.Succeed document blocks s nodes s' := by
  induction blocks generalizing s nodes with
  | nil =>
    constructor
    · intro h
      cases h
      exact .nil _
    · intro h
      cases h
      rfl
  | cons b rest ih =>
    constructor
    · intro h
      obtain ⟨made, s₁, first, h⟩ := runFrom_bind_ok_iff.mp h
      obtain ⟨others, s₂, later, h⟩ := runFrom_bind_ok_iff.mp h
      cases h
      exact .cons first (ih.mp later)
    · intro h
      obtain _ | ⟨first, later⟩ := h
      refine runFrom_bind_ok_iff.mpr ⟨_, _, first, ?_⟩
      exact runFrom_bind_ok_iff.mpr ⟨_, _, ih.mpr later, rfl⟩

theorem processAll_error_iff {blocks : List (CodeBlock × Occurrence)} {failure : Failure} :
    runFrom (t.processAll document blocks) s = (.error failure, s') ↔
      ∃ before block occurrence after nodes s₁, blocks = before ++ (block, occurrence) :: after ∧
        t.Succeed document before s nodes s₁ ∧
        t.Fails document block occurrence s₁ failure s' := by
  induction blocks generalizing s with
  | nil =>
    constructor
    · intro h
      cases h
    · intro h
      obtain ⟨before, _, _, _, _, _, hnil, _⟩ := h
      simp at hnil
  | cons b rest ih =>
    constructor
    · intro h
      rcases runFrom_bind_error_iff.mp h with h | ⟨made, s₁, first, h⟩
      · exact ⟨[], b.1, b.2, rest, [], s, rfl, .nil s, processBlock_error_iff.mp h⟩
      rcases runFrom_bind_error_iff.mp h with h | ⟨others, s₂, _, h⟩
      · obtain ⟨before, block, occurrence, after, nodes, s₂, rfl, succeed, fails⟩ := ih.mp h
        exact ⟨b :: before, block, occurrence, after, made :: nodes, s₂, rfl,
          .cons first succeed, fails⟩
      · cases h
    · intro h
      obtain ⟨before, block, occurrence, after, nodes, s₁, hb, succeed, fails⟩ := h
      cases succeed with
      | nil =>
        obtain ⟨rfl, rfl⟩ := List.cons.inj hb
        exact runFrom_bind_error_iff.mpr (.inl (processBlock_error_iff.mpr fails))
      | cons first later =>
        obtain ⟨rfl, rfl⟩ := List.cons.inj hb
        refine runFrom_bind_error_iff.mpr (.inr ⟨_, _, first, ?_⟩)
        exact runFrom_bind_error_iff.mpr
          (.inl (ih.mpr ⟨_, block, occurrence, after, _, s₁, rfl, later, fails⟩))

end Blocks

def injected (t : Transpiler σ) (tree : Node) : Node × Nat :=
  (ImportPresence.scan tree).inject t.tabsImport t.tabItemImport tree

theorem injected_fst (t : Transpiler σ) (tree : Node) :
    (t.injected tree).1 = tree.withChildren
      ((ImportPresence.scan tree).missing t.tabsImport t.tabItemImport ++ tree.children) := by
  cases tree <;> rfl

theorem codeBlocksOf_missing_append (presence : ImportPresence) (tabs tabItem : Text)
    (nodes : List Node) :
    Node.codeBlocksOf (presence.missing tabs tabItem ++ nodes) = Node.codeBlocksOf nodes := by
  rcases presence with ⟨_ | _, _ | _⟩ <;> rfl

theorem codeBlocksOf_injected (t : Transpiler σ) (tree : Node) :
    Node.codeBlocksOf (t.injected tree).1.children = Node.codeBlocksOf tree.children := by
  rw [injected_fst]
  cases tree with
  | parent kind attributes children => exact codeBlocksOf_missing_append _ _ _ children
  | code => rfl
  | esm => rfl
  | leaf => rfl

def pendingIn (t : Transpiler σ) (tree : Node) (path : Text) : List (CodeBlock × Occurrence) :=
  (t.injected tree).1.pending (t.relocate path)

def conclude (t : Transpiler σ) (tree : Node) : Except Failure (List (List Node)) → Outcome
  | .error failure => ⟨(t.injected tree).1, .error failure⟩
  | .ok replacements => ⟨((t.injected tree).1.replace replacements).1,
      .ok ⟨false, (t.injected tree).2,
        (Node.codeBlocksOf (t.injected tree).1.children).length, replacements.length⟩⟩

def transformFrom (t : Transpiler σ) (tree : Node) (path : Text) (s : σ) : Outcome × σ :=
  (t.transform tree path).run s

section Document

variable {t : Transpiler σ} {tree : Node} {path : Text} {s s' : σ}

theorem transformFrom_of_accepts (accepted : t.accepts path = true) (s : σ) :
    t.transformFrom tree path s =
      (t.conclude tree (runFrom (t.processAll (t.relocate path) (t.pendingIn tree path)) s).1,
        (runFrom (t.processAll (t.relocate path) (t.pendingIn tree path)) s).2) := by
  unfold transformFrom transform conclude pendingIn injected
  rw [accepted]
  rcases (ImportPresence.scan tree).inject t.tabsImport t.tabItemImport tree with ⟨tree, added⟩
  simp only [Bool.not_true, Bool.false_eq_true, if_false, StateT.run_bind]
  unfold runFrom
  generalize (t.processAll (t.relocate path) (tree.pending (t.relocate path))).run.run s = result
  rcases result with ⟨e | nodes, s₁⟩
  · rfl
  · rfl

theorem transformFrom_of_not_accepts (refused : t.accepts path = false) (s : σ) :
    t.transformFrom tree path s = (⟨tree, .ok ⟨true, 0, 0, 0⟩⟩, s) := by
  unfold transformFrom transform
  rw [refused]
  rfl

theorem transformFrom_of_succeed {replacements : List (List Node)}
    (accepted : t.accepts path = true)
    (h : t.Succeed (t.relocate path) (t.pendingIn tree path) s replacements s') :
    t.transformFrom tree path s = (t.conclude tree (.ok replacements), s') := by
  rw [transformFrom_of_accepts accepted, processAll_ok_iff.mpr h]

theorem transformFrom_error_iff {left : Node} {failure : Failure} :
    t.transformFrom tree path s = (⟨left, .error failure⟩, s') ↔
      t.accepts path = true ∧ left = (t.injected tree).1 ∧
        runFrom (t.processAll (t.relocate path) (t.pendingIn tree path)) s =
          (.error failure, s') := by
  cases accepted : t.accepts path with
  | false => simp [transformFrom_of_not_accepts accepted]
  | true =>
    rw [transformFrom_of_accepts accepted]
    rcases runFrom (t.processAll (t.relocate path) (t.pendingIn tree path)) s with ⟨e | nodes, s₁⟩
    · simp only [conclude, Prod.mk.injEq, Outcome.mk.injEq, Except.error.injEq, true_and]
      constructor
      · intro h
        exact ⟨h.1.1.symm, h.1.2, h.2⟩
      · intro h
        exact ⟨⟨h.1.symm, h.2.1⟩, h.2.2⟩
    · simp [conclude]

theorem exists_succeed_of_transformFrom {left : Node} {report : TransformReport}
    (accepted : t.accepts path = true)
    (h : t.transformFrom tree path s = (⟨left, .ok report⟩, s')) :
    ∃ replacements, t.Succeed (t.relocate path) (t.pendingIn tree path) s replacements s' ∧
      left = ((t.injected tree).1.replace replacements).1 ∧
      report = ⟨false, (t.injected tree).2, (Node.codeBlocksOf tree.children).length,
        replacements.length⟩ := by
  rw [transformFrom_of_accepts accepted] at h
  rcases hrun : runFrom (t.processAll (t.relocate path) (t.pendingIn tree path)) s with
    ⟨e | replacements, s₁⟩
  · rw [hrun] at h
    cases h
  · rw [hrun] at h
    cases h
    exact ⟨replacements, processAll_ok_iff.mp hrun, rfl, by rw [codeBlocksOf_injected]⟩

end Document

end CodeTabs.Transpiler
