import CodeTabs.Proofs.Diagnostic.Report
import CodeTabs.Proofs.Shaping.Renaming
import CodeTabs.Proofs.Transpiler.Run

/-!
What a block shows does not depend on the code of its hidden files. Of two runs that agree on all
other code, the compiler's answers included, the nodes are the same, and the flags that the
compiler gives to the files of the block have no say in it.
-/

namespace CodeTabs

open CodeTabs.Action

def CompiledFile.ShownAlike (file other : CompiledFile) : Prop :=
  file.skip = other.skip ∧ (file.skip = false → file.code = other.code)

namespace CompiledSet

def ShownAlike (compiled other : CompiledSet) : Prop :=
  OrderedMap.Related (fun _ => CompiledFile.ShownAlike) compiled other

/-- The code may differ at the hidden sources, and the flags at all sources. -/
def AgreeOutside (sources : FileSet) (compiled other : CompiledSet) : Prop :=
  OrderedMap.Related (fun path file other =>
    (sources.hides path = false → file.code = other.code) ∧
      (sources.get? path = none → file.skip = other.skip)) compiled other

instance (sources : FileSet) (compiled other : CompiledSet) :
    Decidable (AgreeOutside sources compiled other) :=
  inferInstanceAs (Decidable (List.Forall₂ (fun e e' => e.1 = e'.1 ∧
    (sources.hides e.1 = false → e.2.code = e'.2.code) ∧
    (sources.get? e.1 = none → e.2.skip = e'.2.skip)) compiled.entries other.entries))

def Clean (compiled : CompiledSet) : Prop := ∀ e ∈ compiled.entries, e.2.diagnostics = []

instance (compiled : CompiledSet) : Decidable compiled.Clean :=
  inferInstanceAs (Decidable (∀ e ∈ compiled.entries, e.2.diagnostics = []))

theorem AgreeOutside.withSkipOf {sources sources' : FileSet} {compiled other : CompiledSet}
    (h : AgreeOutside sources compiled other) (alike : sources.ShownAlike sources') :
    ShownAlike (compiled.withSkipOf sources) (other.withSkipOf sources') := by
  refine OrderedMap.Related.map h ?_
  intro path file other hfile
  obtain ⟨hcode, hskip⟩ := hfile
  have hsource := OrderedMap.Related.get? alike path
  rw [FileSet.hides] at hcode
  generalize sources.get? path = source at hcode hskip hsource ⊢
  generalize sources'.get? path = source' at hsource ⊢
  cases hsource with
  | none => exact ⟨hskip rfl, fun _ => hcode rfl⟩
  | some hsource => exact ⟨hsource.1, hcode⟩

theorem Clean.check {compiled : CompiledSet} (h : compiled.Clean) (sources : FileSet)
    (block : Occurrence) (document : Text) :
    (compiled.withSkipOf sources).check sources block document = .ok () := by
  rw [check_eq_ok_iff]
  intro e he
  obtain ⟨old, hold, rfl⟩ := List.mem_map.mp he
  exact h old hold

end CompiledSet

namespace Shaping

theorem shownAlike_typeScript {files other : FileSet} (h : files.ShownAlike other) :
    (typeScript files).ShownAlike (typeScript other) := by
  refine OrderedMap.Related.map h ?_
  intro _ file other hfile
  obtain ⟨hskip, hcode⟩ := hfile
  exact ⟨hskip, fun hshown => congrArg stripDirectives (hcode hshown)⟩

theorem shownAlike_javaScript {compiled other : CompiledSet} (h : compiled.ShownAlike other) :
    (javaScript compiled).ShownAlike (javaScript other) := by
  -- Where two files come to one name the later one stands for both.
  refine OrderedMap.Related.ofList ?_
  refine List.forall₂_map_left_iff.mpr (List.forall₂_map_right_iff.mpr (h.imp ?_))
  intro e e' he
  obtain ⟨hpath, hskip, hcode⟩ := he
  exact ⟨congrArg JavaScriptNames.path hpath, hskip, hcode⟩

end Shaping

structure CodeBlock.SameFence (block other : CodeBlock) : Prop where
  lang : block.lang = other.lang
  metadata : block.metadata = other.metadata
  span : block.span = other.span

structure Options.Plain {σ : Type} (options : Options σ) : Prop where
  typeScript : options.typeScriptHook = none
  javaScript : options.javaScriptHook = none
  assembler : options.assembler = none

namespace Transpiler

variable {σ : Type} {options : Options σ} {compiler : Compiler σ} {document : Text}
  {block other : CodeBlock} {occurrence : Occurrence} {compiled compiled' : CompiledSet}
  {s s' u u' : σ}

theorem processBlock_of_clean (plain : options.Plain)
    (compile : runFrom (compiler.compile (sources block occurrence)) s = (.ok compiled, s'))
    (clean : compiled.Clean) :
    runFrom ((ofCompiler options compiler).processBlock document block occurrence) s =
      (.ok (Tabs.nodes block occurrence.folder (Shaping.typeScript (sources block occurrence))
        (Shaping.javaScript (compiled.withSkipOf (sources block occurrence)))), s') := by
  have check := clean.check (sources block occurrence) occurrence document
  refine runFrom_bind_ok_iff.mpr ⟨_, _, runFrom_failing_ok_iff.mpr compile, ?_⟩
  refine runFrom_bind_ok_iff.mpr ⟨_, _, Prod.ext check rfl, ?_⟩
  rw [ofCompiler, plain.typeScript, plain.javaScript, plain.assembler]
  rfl

theorem nodes_eq_of_shownAlike {typeScript typeScript' javaScript javaScript' : FileSet}
    (same : block.SameFence other) (first : typeScript.ShownAlike typeScript')
    (second : javaScript.ShownAlike javaScript') (folder : Text) :
    Tabs.nodes block folder typeScript javaScript =
      Tabs.nodes other folder typeScript' javaScript' := by
  unfold Tabs.nodes Tabs.typeScriptBlock Tabs.javaScriptBlock
  rw [first.assemble_eq, second.assemble_eq, same.lang, same.metadata, same.span]

theorem processBlock_hidden_irrelevant (plain : options.Plain) (same : block.SameFence other)
    (alike : (sources block occurrence).ShownAlike (sources other occurrence))
    (compile : runFrom (compiler.compile (sources block occurrence)) s = (.ok compiled, s'))
    (compile' : runFrom (compiler.compile (sources other occurrence)) u = (.ok compiled', u'))
    (clean : compiled.Clean) (clean' : compiled'.Clean)
    (agree : compiled.AgreeOutside (sources block occurrence) compiled') :
    ∃ nodes,
      runFrom ((ofCompiler options compiler).processBlock document block occurrence) s =
        (.ok nodes, s') ∧
      runFrom ((ofCompiler options compiler).processBlock document other occurrence) u =
        (.ok nodes, u') := by
  have hnodes := nodes_eq_of_shownAlike same (Shaping.shownAlike_typeScript alike)
    (Shaping.shownAlike_javaScript (agree.withSkipOf alike)) occurrence.folder
  refine ⟨_, processBlock_of_clean plain compile clean, ?_⟩
  rw [hnodes]
  exact processBlock_of_clean plain compile' clean'

def vault (secret : Text) : CodeBlock :=
  ⟨"// file: key.ts noEmit\n" ++ secret ++ "\n// file: key.js\nopen()\n// file: b.ts\nb()",
    some "ts", none, none⟩

def echoing : Compiler Nat :=
  ⟨"echoing", fun files => ExceptT.mk fun calls => (.ok (Shaping.echoed files), calls + 1)⟩

def vaultPlace : Occurrence := ⟨1, 1, 1, [], "a.mdx/codeBlock_1"⟩

theorem processBlock_vault :
    (sources (vault "1") vaultPlace).ShownAlike (sources (vault "// 2\n3") vaultPlace) ∧
      ∃ nodes,
        runFrom ((ofCompiler .unset echoing).processBlock "a.mdx" (vault "1") vaultPlace) 0 =
          (.ok nodes, 1) ∧
        runFrom ((ofCompiler .unset echoing).processBlock "a.mdx" (vault "// 2\n3") vaultPlace) 4 =
          (.ok nodes, 5) := by
  have alike : (sources (vault "1") vaultPlace).ShownAlike
      (sources (vault "// 2\n3") vaultPlace) := by decide
  refine ⟨alike, ?_⟩
  exact processBlock_hidden_irrelevant ⟨rfl, rfl, rfl⟩ ⟨rfl, rfl, rfl⟩ alike rfl rfl
    (by decide) (by decide) (by decide)

end Transpiler

end CodeTabs
