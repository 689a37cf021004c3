import CodeTabs.CachedCompiler
import CodeTabs.Proofs.OrderedMap
import CodeTabs.Proofs.Transpiler.Action

/-!
Nothing that a cached compiler answers shows its cache. An entry of the cache is always what the
engine makes of the text stored with it, and whether a file is skipped comes from the file that is
asked for; so each set is answered as a compiler would that has never seen another.
-/

namespace CodeTabs

open CodeTabs.Action

variable {δ π : Type} {engine : Engine δ π} {settings : Settings} {path : Text} {file : SourceFile}

namespace Engine

def Compiles (engine : Engine δ π) (settings : Settings) (path : Text) (file : SourceFile)
    (compiled : CompiledFile) : Prop :=
  ∃ dialect, engine.dialect? path = some dialect ∧
    (compiled.code, compiled.diagnostics) = engine.compileText settings dialect path file.code ∧
    compiled.skip = file.skip

theorem compileFile_ok_iff {compiled : CompiledFile} :
    engine.compileFile settings path file = .ok compiled ↔
      engine.Compiles settings path file compiled := by
  unfold compileFile Compiles
  cases engine.dialect? path with
  | none => simp
  | some dialect =>
    rcases compiled with ⟨code, diagnostics, skip⟩
    simp only [Except.ok.injEq, CompiledFile.mk.injEq, Option.some.injEq, exists_eq_left',
      Prod.ext_iff]
    constructor
    · rintro ⟨hcode, hdiagnostics, hskip⟩
      exact ⟨⟨hcode.symm, hdiagnostics.symm⟩, hskip.symm⟩
    · rintro ⟨⟨hcode, hdiagnostics⟩, hskip⟩
      exact ⟨hcode.symm, hdiagnostics.symm, hskip.symm⟩

theorem compileFile_of_unknown (h : engine.dialect? path = none) (file : SourceFile) :
    engine.compileFile settings path file = .error (.invalidSourceType path) := by
  rw [compileFile, h]

theorem Compiles.withSkip {compiled : CompiledFile}
    (h : engine.Compiles settings path file compiled) (skip : Bool) :
    engine.Compiles settings path { file with skip } { compiled with skip } := by
  obtain ⟨dialect, hdialect, hcode, -⟩ := h
  exact ⟨dialect, hdialect, hcode, rfl⟩

def compileEach (engine : Engine δ π) (settings : Settings) :
    List (Text × SourceFile) → Except CompilerError (List (Text × CompiledFile))
  | [] => .ok []
  | (path, file) :: rest =>
    match engine.compileFile settings path file with
    | .error error => .error error
    | .ok compiled =>
      (compileEach engine settings rest).map fun others => (path, compiled) :: others

theorem compileEach_spec (engine : Engine δ π) (settings : Settings)
    (entries : List (Text × SourceFile)) :
    match (entries.map Prod.fst).find? fun path => (engine.dialect? path).isNone with
    | some path => engine.compileEach settings entries = .error (.invalidSourceType path)
    | none => ∃ compiled, engine.compileEach settings entries = .ok compiled ∧
        List.Forall₂ (fun e e' => e.1 = e'.1 ∧ engine.Compiles settings e.1 e.2 e'.2)
          entries compiled := by
  induction entries with
  | nil => exact ⟨[], rfl, .nil⟩
  | cons entry rest ih =>
    obtain ⟨path, file⟩ := entry
    rw [List.map_cons]
    cases hdialect : engine.dialect? path with
    | none =>
      rw [List.find?_cons_of_pos (by simp [hdialect])]
      simp only [compileEach, compileFile_of_unknown hdialect]
    | some dialect =>
      have hfile : engine.Compiles settings path file
          ⟨(engine.compileText settings dialect path file.code).1,
            (engine.compileText settings dialect path file.code).2, file.skip⟩ :=
        ⟨dialect, hdialect, rfl, rfl⟩
      rw [List.find?_cons_of_neg (by simp [hdialect])]
      simp only [compileEach, compileFile_ok_iff.mpr hfile]
      split at ih
      · rw [ih]
        rfl
      · obtain ⟨compiled, hrest, hcompiled⟩ := ih
        exact ⟨_, by rw [hrest]; rfl, .cons ⟨rfl, hfile⟩ hcompiled⟩

end Engine

namespace CachedCompiler

theorem runFrom_compileCached (cache : Cache) :
    runFrom (compileCached engine settings path file) cache =
      match cache.hit? path file.code with
      | some compiled => (.ok { compiled with skip := file.skip }, cache)
      | none =>
        match engine.compileFile settings path file with
        | .ok compiled => (.ok compiled, cache.insert path (file.code, compiled))
        | .error error => (.error error, cache) := by
  have hget : runFrom (get : Action Cache CompilerError Cache) cache = (.ok cache, cache) := rfl
  rw [compileCached, runFrom_bind, hget]
  cases hhit : cache.hit? path file.code with
  | some compiled => simp only [hhit, runFrom_pure]
  | none =>
    simp only [hhit]
    rw [runFrom_bind, runFrom_liftExcept]
    cases engine.compileFile settings path file with
    | ok compiled => rfl
    | error error => rfl

def Cache.Sound (engine : Engine δ π) (settings : Settings) (cache : Cache) : Prop :=
  ∀ path source compiled, cache.get? path = some (source, compiled) →
    ∃ skip, engine.Compiles settings path ⟨source, skip⟩ compiled

theorem Cache.sound_empty (engine : Engine δ π) (settings : Settings) :
    Cache.Sound engine settings .empty :=
  fun _ _ _ h => nomatch h

section Sound

variable {cache : Cache} (sound : cache.Sound engine settings)
include sound

theorem Cache.Sound.compiles_of_hit {compiled : CompiledFile}
    (hit : cache.hit? path file.code = some compiled) :
    engine.Compiles settings path file { compiled with skip := file.skip } := by
  unfold Cache.hit? at hit
  split at hit
  · cases hit
  · next source remembered hget =>
    obtain ⟨hsource, hremembered⟩ := Option.ite_none_right_eq_some.mp hit
    subst hsource
    cases hremembered
    obtain ⟨skip, hcompiles⟩ := sound path _ _ hget
    exact hcompiles.withSkip file.skip

theorem Cache.Sound.insert {compiled : CompiledFile}
    (h : engine.Compiles settings path file compiled) :
    Cache.Sound engine settings (cache.insert path (file.code, compiled)) := by
  intro other source compiled' hget
  rw [OrderedMap.get?_insert] at hget
  split at hget
  · next heq =>
    subst heq
    cases hget
    exact ⟨file.skip, h⟩
  · exact sound other source compiled' hget

theorem Cache.Sound.runFrom_compileCached (path : Text) (file : SourceFile) :
    ∃ cache', Cache.Sound engine settings cache' ∧
      runFrom (compileCached engine settings path file) cache =
        (engine.compileFile settings path file, cache') := by
  rw [CachedCompiler.runFrom_compileCached]
  cases hit : cache.hit? path file.code with
  | some compiled =>
    exact ⟨cache, sound, by rw [Engine.compileFile_ok_iff.mpr (sound.compiles_of_hit hit)]⟩
  | none =>
    cases hfile : engine.compileFile settings path file with
    | error error => exact ⟨cache, sound, rfl⟩
    | ok compiled => exact ⟨_, sound.insert (Engine.compileFile_ok_iff.mp hfile), rfl⟩

theorem Cache.Sound.runFrom_compileEntries (entries : List (Text × SourceFile)) :
    ∃ cache', Cache.Sound engine settings cache' ∧
      runFrom (compileEntries engine settings entries) cache =
        (engine.compileEach settings entries, cache') := by
  induction entries generalizing cache with
  | nil => exact ⟨cache, sound, rfl⟩
  | cons entry rest ih =>
    obtain ⟨path, file⟩ := entry
    obtain ⟨cache₁, sound₁, hfirst⟩ := sound.runFrom_compileCached path file
    rw [compileEntries, runFrom_bind, hfirst, Engine.compileEach]
    cases engine.compileFile settings path file with
    | error error =>
      -- The set ends here, and what was remembered before stays.
      exact ⟨cache₁, sound₁, rfl⟩
    | ok compiled =>
      obtain ⟨cache₂, sound₂, hrest⟩ := ih sound₁
      refine ⟨cache₂, sound₂, ?_⟩
      simp only [runFrom_bind, hrest]
      cases engine.compileEach settings rest with
      | error error => rfl
      | ok others => rfl

theorem Cache.Sound.runFrom_compile (files : FileSet) :
    ∃ cache', Cache.Sound engine settings cache' ∧
      runFrom ((compiler engine settings).compile files) cache =
        ((engine.compileEach settings files.entries).map .ofList, cache') := by
  obtain ⟨cache', sound', hentries⟩ := sound.runFrom_compileEntries files.entries
  refine ⟨cache', sound', ?_⟩
  change runFrom (compileEntries engine settings files.entries >>= fun compiled =>
    pure (OrderedMap.ofList compiled)) cache = _
  rw [runFrom_bind, hentries]
  cases engine.compileEach settings files.entries with
  | error error => rfl
  | ok compiled => rfl

end Sound

def answers (engine : Engine δ π) (settings : Settings) :
    List FileSet → Cache → List (Except CompilerError CompiledSet)
  | [], _ => []
  | files :: rest, cache =>
    let (answer, cache) := runFrom ((compiler engine settings).compile files) cache
    answer :: answers engine settings rest cache

def fresh (engine : Engine δ π) (settings : Settings) (files : FileSet) :
    Except CompilerError CompiledSet :=
  (runFrom ((compiler engine settings).compile files) .empty).1

theorem fresh_eq (files : FileSet) :
    fresh engine settings files = (engine.compileEach settings files.entries).map .ofList := by
  obtain ⟨_, -, hrun⟩ := (Cache.sound_empty engine settings).runFrom_compile files
  rw [fresh, hrun]

theorem Cache.Sound.answers_eq {cache : Cache} (sound : cache.Sound engine settings)
    (sets : List FileSet) :
    answers engine settings sets cache = sets.map (fresh engine settings) := by
  induction sets generalizing cache with
  | nil => rfl
  | cons files rest ih =>
    obtain ⟨cache', sound', hrun⟩ := sound.runFrom_compile files
    rw [answers, hrun, List.map_cons, fresh_eq]
    exact congrArg _ (ih sound')

theorem fresh_spec (engine : Engine δ π) (settings : Settings) (files : FileSet) :
    match files.keys.find? fun path => (engine.dialect? path).isNone with
    | some path => fresh engine settings files = .error (.invalidSourceType path)
    | none => ∃ compiled, fresh engine settings files = .ok compiled ∧
        OrderedMap.Related (engine.Compiles settings) files compiled := by
  have hspec := engine.compileEach_spec settings files.entries
  rw [fresh_eq, OrderedMap.keys]
  split at hspec
  · rw [hspec]
    rfl
  · obtain ⟨compiled, hcompiled, hrelated⟩ := hspec
    have hkeys := OrderedMap.map_fst_eq_of_forall₂ hrelated
    refine ⟨.ofList compiled, by rw [hcompiled]; rfl, ?_⟩
    rw [OrderedMap.Related, OrderedMap.entries_ofList (hkeys ▸ files.distinct)]
    exact hrelated

/-- However many sets a compiler has been given, and whichever of them failed, it answers the next
as if it were the first: with the first path that the engine does not know, or with the same paths
and what the engine makes of each file. -/
theorem answers_eq_fresh (engine : Engine δ π) (settings : Settings) (sets : List FileSet) :
    answers engine settings sets .empty = sets.map (fresh engine settings) ∧
      ∀ files : FileSet, match files.keys.find? fun path => (engine.dialect? path).isNone with
        | some path => fresh engine settings files = .error (.invalidSourceType path)
        | none => ∃ compiled, fresh engine settings files = .ok compiled ∧
            OrderedMap.Related (engine.Compiles settings) files compiled :=
  ⟨(Cache.sound_empty engine settings).answers_eq sets, fresh_spec engine settings⟩

def commenting : Engine Unit Text where
  dialect? path := (Text.before? "ts" path).map fun _ => ()
  parse _ code := ⟨code, [], false⟩
  check _ _ := []
  transform _ _ program := (program, [])
  print program := "//" ++ program

-- The file of the second set is remembered but for its skipping, that of the third has another
-- text, and the fourth set remembers `a.ts` before it fails.
example : answers commenting .standard
    [.ofList [("a.ts", .shown "1")], .ofList [("a.ts", .hidden "1")],
      .ofList [("a.ts", .shown "2"), ("b.ts", .shown "1")],
      .ofList [("a.ts", .shown "1"), ("c.md", .shown "x"), ("b.ts", .shown "2")],
      .ofList [("b.ts", .shown "1"), ("a.ts", .shown "1")]] .empty =
    [.ok (.ofList [("a.ts", ⟨"//1", [], false⟩)]), .ok (.ofList [("a.ts", ⟨"//1", [], true⟩)]),
      .ok (.ofList [("a.ts", ⟨"//2", [], false⟩), ("b.ts", ⟨"//1", [], false⟩)]),
      .error (.invalidSourceType "c.md"),
      .ok (.ofList [("b.ts", ⟨"//1", [], false⟩), ("a.ts", ⟨"//1", [], false⟩)])] := rfl

end CachedCompiler

end CodeTabs
