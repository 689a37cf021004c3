import CodeTabs.Proofs.Registry.Sound
import CodeTabs.Proofs.Text.Decimal

/-!
A registry that knows instances only by their addresses does not confuse them: every step of a
session keeps it what the history says. The first lookup of an instance makes its compiler, and
the entry stays for as long as the instance is live.
-/

namespace CodeTabs.Session

variable {σ : Type} {factory : Nat → Settings → Compiler σ}

namespace Traced

variable {traced : Traced σ} {kept : Nat → Bool} {i : Nat}

theorem compilerOf_afterLookup {j : Nat} (h : j ∈ traced.lookedUp) (i : Nat) :
    (traced.afterLookup i).compilerOf factory j = traced.compilerOf factory j := by
  unfold compilerOf
  rw [lookedUp_afterLookup]
  split
  · rfl
  · rw [List.idxOf_append_of_mem h]
    rfl

namespace Sound

variable (sound : traced.Sound factory kept)
include sound

theorem get?_slots (slot : Text) :
    traced.session.slots.get? slot = (traced.owners.get? slot).map traced.instanceAt := by
  rw [sound.slots_eq, OrderedMap.get?_map]

theorem withOwners (owners : OrderedMap Nat)
    (h : ∀ i ∈ owners.values, i ∈ traced.owners.values) :
    Sound factory { traced with
      session := { traced.session with slots := owners.map fun _ i => traced.instanceAt i }
      owners } kept where
  slots_eq := rfl
  factory_eq := sound.factory_eq
  made_eq := sound.made_eq
  entries_eq := sound.entries_eq
  created := fun i hi => sound.created i (hi.imp_left (h i))
  answered := sound.answered
  kept_of_live := fun i hi hlive => sound.kept_of_live i hi (h i hlive)
  apart := fun i j hi hj => sound.apart i j (hi.imp_left (h i)) (hj.imp_left (h j))

theorem lt_of_referred (h : traced.Referred kept i) : i < traced.instances.length :=
  sound.created i (h.imp_right fun h => (List.mem_filter.mp h).1)

theorem compilerOf_withInstance (h : i ∈ traced.lookedUp) {slot : Text}
    {shared : SharedSettings} :
    (traced.withInstance slot shared).compilerOf factory i = traced.compilerOf factory i := by
  unfold compilerOf
  rw [traced.instanceAt_withInstance (sound.created i (.inr h))]
  rfl

theorem withInstance {shared : SharedSettings}
    (hfree : traced.session.isFree shared.address = true) (slot : Text) :
    (traced.withInstance slot shared).Sound factory kept := by
  have hold : ∀ {i}, i < traced.instances.length →
      (traced.withInstance slot shared).instanceAt i = traced.instanceAt i :=
    fun h => traced.instanceAt_withInstance h slot shared
  have hnew := traced.instanceAt_withInstance_length slot shared
  have howner : ∀ i ∈ (traced.withInstance slot shared).owners.values,
      i = traced.instances.length ∨ i ∈ traced.owners.values :=
    fun i hi => OrderedMap.mem_values_insert hi
  have hreferred : ∀ i, (traced.withInstance slot shared).Referred kept i →
      i = traced.instances.length ∨ traced.Referred kept i := by
    rintro i (hi | hi)
    · exact (howner i hi).imp_right .inl
    · exact .inr (.inr hi)
  refine
    { slots_eq := ?_
      factory_eq := sound.factory_eq
      made_eq := sound.made_eq
      entries_eq := ?_
      created := ?_
      answered := ?_
      kept_of_live := ?_
      apart := ?_ }
  · change traced.session.slots.insert slot shared =
      (traced.owners.insert slot traced.instances.length).map fun _ i =>
        (traced.withInstance slot shared).instanceAt i
    rw [OrderedMap.map_insert, hnew, sound.slots_eq,
      OrderedMap.map_congr fun i hi => hold (sound.created i (.inl hi))]
  · refine sound.entries_eq.trans (List.map_congr_left fun i hi => ?_)
    have hlooked := (List.mem_filter.mp hi).1
    rw [entryOf, entryOf, sound.compilerOf_withInstance hlooked,
      hold (sound.created i (.inr hlooked))]
  · intro i hi
    change i < (traced.instances ++ [shared]).length
    rw [List.length_append]
    rcases hi with hi | hi
    · rcases howner i hi with rfl | hi
      · exact Nat.lt_succ_self _
      · exact Nat.lt_succ_of_lt (sound.created i (.inl hi))
    · exact Nat.lt_succ_of_lt (sound.created i (.inr hi))
  · intro i compiler h
    rw [sound.compilerOf_withInstance (traced.mem_lookedUp.mpr ⟨compiler, h⟩)]
    exact sound.answered i compiler h
  · intro i hi hlive
    rcases howner i hlive with rfl | hlive
    · exact absurd (sound.created _ (.inr hi)) (Nat.lt_irrefl _)
    · exact sound.kept_of_live i hi hlive
  · -- The address is free: nothing that is referred to has it but the new instance.
    have hapart : ∀ i, traced.Referred kept i → (traced.instanceAt i).address ≠ shared.address :=
      sound.isFree_iff.mp hfree
    intro i j hi hj haddress
    rcases hreferred i hi with rfl | hi <;> rcases hreferred j hj with rfl | hj
    · rfl
    · rw [hnew, hold (sound.lt_of_referred hj)] at haddress
      exact absurd haddress.symm (hapart j hj)
    · rw [hnew, hold (sound.lt_of_referred hi)] at haddress
      exact absurd haddress (hapart i hi)
    · rw [hold (sound.lt_of_referred hi), hold (sound.lt_of_referred hj)] at haddress
      exact sound.apart i j hi hj haddress

theorem lookup_of_mem (hi : i ∈ traced.owners.values) (h : i ∈ traced.lookedUp) :
    traced.session.registry.lookup traced.session.isAlive (traced.instanceAt i) =
      (traced.compilerOf factory i, traced.session.registry.prune traced.session.isAlive) := by
  simp only [Registry.lookup, sound.find?_prune hi, if_pos h]

theorem lookup_of_not_mem (hi : i ∈ traced.owners.values) (h : i ∉ traced.lookedUp) :
    traced.session.registry.lookup traced.session.isAlive (traced.instanceAt i) =
      ((traced.afterLookup i).compilerOf factory i,
        ⟨factory, traced.lookedUp.length + 1,
          (traced.session.registry.prune traced.session.isAlive).entries ++
            [(traced.afterLookup i).entryOf factory i]⟩) := by
  have hcompiler : (traced.afterLookup i).compilerOf factory i =
      factory (traced.lookedUp.length + 1) (traced.instanceAt i).settings := by
    rw [compilerOf, lookedUp_afterLookup, if_neg h, List.idxOf_append_of_notMem h,
      List.idxOf_cons_self]
    rfl
  simp only [Registry.lookup, sound.find?_prune hi, if_neg h, entryOf, hcompiler]
  simp only [Registry.prune, sound.factory_eq, sound.made_eq]
  rfl

theorem fst_lookup (hi : i ∈ traced.owners.values) :
    (traced.session.registry.lookup traced.session.isAlive (traced.instanceAt i)).1 =
      (traced.afterLookup i).compilerOf factory i := by
  by_cases h : i ∈ traced.lookedUp
  · rw [sound.lookup_of_mem hi h, compilerOf_afterLookup h]
  · rw [sound.lookup_of_not_mem hi h]

theorem registry_afterLookup (hi : i ∈ traced.owners.values) :
    (traced.afterLookup i).session.registry =
      ⟨factory, (traced.afterLookup i).lookedUp.length,
        ((traced.afterLookup i).lookedUp.filter traced.isLive).map
          ((traced.afterLookup i).entryOf factory)⟩ := by
  have hentries : (traced.session.registry.prune traced.session.isAlive).entries =
      (traced.lookedUp.filter traced.isLive).map ((traced.afterLookup i).entryOf factory) := by
    rw [sound.entries_prune]
    refine List.map_congr_left fun j hj => Prod.ext rfl ?_
    exact (compilerOf_afterLookup (List.mem_filter.mp hj).1 i).symm
  change (traced.session.registry.lookup traced.session.isAlive (traced.instanceAt i)).2 = _
  rw [lookedUp_afterLookup]
  -- The order of first lookups is that of the entries: what is made comes last in both.
  by_cases h : i ∈ traced.lookedUp
  · rw [sound.lookup_of_mem hi h, if_pos h, ← hentries, ← sound.made_eq, ← sound.factory_eq]
    rfl
  · rw [sound.lookup_of_not_mem hi h, if_neg h, hentries, List.length_append, List.filter_append,
      List.map_append, List.filter_singleton, traced.isLive_iff.mpr hi]
    rfl

theorem afterLookup (hi : i ∈ traced.owners.values) :
    (traced.afterLookup i).Sound factory traced.isLive := by
  have hregistry := sound.registry_afterLookup hi
  have hmem : ∀ j ∈ (traced.afterLookup i).lookedUp, j ∈ traced.owners.values ∨
      j ∈ traced.lookedUp := by
    intro j hj
    rw [lookedUp_afterLookup] at hj
    split at hj
    · exact .inr hj
    · rcases List.mem_append.mp hj with hj | hj
      · exact .inr hj
      · exact .inl (List.mem_singleton.mp hj ▸ hi)
  have hreferred : ∀ j, (traced.afterLookup i).Referred traced.isLive j →
      traced.Referred kept j := by
    rintro j (hj | hj)
    · exact .inl hj
    · exact .inl (traced.isLive_iff.mp (List.mem_filter.mp hj).2)
  refine
    { slots_eq := sound.slots_eq
      factory_eq := by rw [hregistry]
      made_eq := by rw [hregistry]
      entries_eq := by rw [hregistry]
      created := fun j hj => sound.created j (hj.elim .inl (hmem j))
      answered := ?_
      kept_of_live := fun j _ hlive => traced.isLive_iff.mpr hlive
      apart := fun j l hj hl => sound.apart j l (hreferred j hj) (hreferred l hl) }
  intro j compiler h
  rcases List.mem_append.mp h with h | h
  · rw [compilerOf_afterLookup (traced.mem_lookedUp.mpr ⟨compiler, h⟩)]
    exact sound.answered j compiler h
  · obtain ⟨rfl, rfl⟩ := Prod.mk.inj (List.mem_singleton.mp h)
    exact sound.fst_lookup hi

theorem step_of_owner {slot : Text} (h : traced.owners.get? slot = some i) {step : Step}
    (hstep : step = .get slot ∨ step = .transpiler slot) :
    (traced.session.step step).1.compiler? = some ((traced.afterLookup i).compilerOf factory i) ∧
      traced.step step = traced.afterLookup i := by
  have hslot : traced.session.slots.get? slot = some (traced.instanceAt i) := by
    rw [sound.get?_slots, h]
    rfl
  rw [← sound.fst_lookup (OrderedMap.mem_values_of_get? h)]
  rcases hstep with rfl | rfl
  · simp only [Traced.step, Session.step, hslot, h]
    exact ⟨rfl, rfl⟩
  · simp only [Traced.step, Session.step, hslot, h, Transpiler.make]
    exact ⟨rfl, rfl⟩

theorem step_of_no_owner {slot : Text} (h : traced.owners.get? slot = none) {step : Step}
    (hstep : step = .get slot ∨ step = .transpiler slot) : traced.step step = traced := by
  have hslot : traced.session.slots.get? slot = none := by
    rw [sound.get?_slots, h]
    rfl
  rcases hstep with rfl | rfl
  · simp only [Traced.step, Session.step, hslot, h]
    rfl
  · simp only [Traced.step, Session.step, hslot, h, Transpiler.make]
    rfl

theorem step_lookup {slot : Text} {step : Step}
    (hstep : step = .get slot ∨ step = .transpiler slot) :
    ∃ kept, (traced.step step).Sound factory kept := by
  cases h : traced.owners.get? slot with
  | none =>
    rw [sound.step_of_no_owner h hstep]
    exact ⟨kept, sound⟩
  | some i =>
    rw [(sound.step_of_owner h hstep).2]
    exact ⟨traced.isLive, sound.afterLookup (OrderedMap.mem_values_of_get? h)⟩

theorem step_share (slot source : Text) :
    (traced.step (.share slot source)).Sound factory kept := by
  cases h : traced.owners.get? source with
  | none =>
    simp only [Traced.step, Session.step, sound.get?_slots, h]
    exact sound
  | some i =>
    have howners := sound.withOwners (traced.owners.insert slot i) fun j hj =>
      (OrderedMap.mem_values_insert hj).elim (· ▸ OrderedMap.mem_values_of_get? h) id
    rw [OrderedMap.map_insert, ← sound.slots_eq] at howners
    simp only [Traced.step, Session.step, sound.get?_slots, h]
    exact howners

theorem step_drop (slot : Text) : (traced.step (.drop slot)).Sound factory kept := by
  have howners := sound.withOwners (traced.owners.filter fun key _ => key != slot)
    fun i hi => OrderedMap.mem_values_filter hi
  rw [OrderedMap.map_filter, ← sound.slots_eq] at howners
  exact howners

theorem step (step : Step) : ∃ kept, (traced.step step).Sound factory kept := by
  cases step with
  | create slot settings address =>
    refine ⟨kept, ?_⟩
    by_cases hfree : traced.session.isFree address = true
    · simp only [Traced.step, Session.step, if_pos hfree]
      exact sound.withInstance hfree slot
    · simp only [Traced.step, Session.step, if_neg hfree]
      exact sound
  | share slot source => exact ⟨kept, sound.step_share slot source⟩
  | drop slot => exact ⟨kept, sound.step_drop slot⟩
  | get slot => exact sound.step_lookup (.inl rfl)
  | transpiler slot => exact sound.step_lookup (.inr rfl)

end Sound

theorem sound_run (factory : Nat → Settings → Compiler σ) (steps : List Step) :
    ∃ kept, (run factory steps).Sound factory kept := by
  induction steps using List.reverseRecOn with
  | nil => exact ⟨fun _ => true, sound_start factory _⟩
  | append_singleton steps step ih =>
    obtain ⟨kept, sound⟩ := ih
    rw [run, List.foldl_append]
    exact sound.step step

end Traced

/-- Two lookups get one compiler just when they are of one instance, whatever addresses come back.
The factory runs once for each instance looked up, and the registry counts the live ones. -/
theorem lookups_by_instance {factory : Nat → Settings → Compiler σ}
    (fresh : ∀ m n a b, factory m a = factory n b → m = n) (steps : List Step) :
    let traced := Traced.run factory steps
    traced.session = steps.foldl (fun session step => (session.step step).2) (start factory) ∧
      traced.session.slots = traced.owners.map (fun _ i => traced.instanceAt i) ∧
      (∀ first ∈ traced.lookups, ∀ second ∈ traced.lookups,
        first.2 = second.2 ↔ first.1 = second.1) ∧
      traced.session.registry.made = traced.lookedUp.length ∧
      traced.session.size = (traced.lookedUp.filter traced.isLive).length ∧
      (traced.session.registry.entries.map Prod.fst).Nodup ∧
      ∀ slot i, traced.owners.get? slot = some i →
        ∀ step, step = .get slot ∨ step = .transpiler slot →
          let next := traced.step step
          ∃ compiler, (traced.session.step step).1.compiler? = some compiler ∧
            next.lookups = traced.lookups ++ [(i, compiler)] ∧
            next.session.registry.made =
              traced.session.registry.made + (if i ∈ traced.lookedUp then 0 else 1) ∧
            List.Forall₂ (fun j entry => (j, entry.2) ∈ next.lookups)
              (next.lookedUp.filter next.isLive) next.session.registry.entries := by
  intro traced
  obtain ⟨kept, sound⟩ := Traced.sound_run factory steps
  refine ⟨Traced.session_run factory steps, sound.slots_eq,
    fun first hfirst second hsecond => sound.compiler_eq_iff fresh hfirst hsecond, sound.made_eq,
    sound.size_eq, sound.nodup_addresses, ?_⟩
  intro slot i h step hstep
  have hlive := OrderedMap.mem_values_of_get? h
  have sound' := sound.afterLookup hlive
  obtain ⟨hanswer, hnext⟩ := sound.step_of_owner h hstep
  refine ⟨_, hanswer, ?_⟩
  rw [hnext]
  refine ⟨congrArg (fun compiler => traced.lookups ++ [(i, compiler)]) (sound.fst_lookup hlive),
    ?_, sound'.entries_of_live⟩
  rw [sound'.made_eq, sound.made_eq, Traced.length_lookedUp_afterLookup]

def numbered (n : Nat) (_ : Settings) : Compiler Unit := ⟨Text.decimal n, fun _ => pure .empty⟩

/-- The address of the first instance is refused while its entry is there, and is taken again by
the third instance once a lookup has removed the entry. -/
def reuse : List Step :=
  [.create "a" .standard 7, .get "a", .drop "a", .create "b" .standard 7, .create "b" .standard 8,
    .transpiler "b", .create "c" .standard 7, .get "c"]

theorem lookups_at_reused_address :
    (∀ m n a b, numbered m a = numbered n b → m = n) ∧
      let traced := Traced.run numbered reuse
      traced.instances = [⟨7, .standard⟩, ⟨8, .standard⟩, ⟨7, .standard⟩] ∧
        traced.lookups.map Prod.fst = [0, 1, 2] ∧
        (∀ first ∈ traced.lookups, ∀ second ∈ traced.lookups,
          first.2 = second.2 ↔ first.1 = second.1) ∧
        traced.session.registry.made = 3 ∧ traced.session.size = 2 ∧
        ∃ compiler, (traced.session.step (.get "b")).1.compiler? = some compiler ∧
          (traced.step (.get "b")).lookups = traced.lookups ++ [(1, compiler)] ∧
          (traced.step (.get "b")).session.registry.made = 3 := by
  have fresh : ∀ m n a b, numbered m a = numbered n b → m = n :=
    fun m n a b h => Text.decimal_injective (congrArg Compiler.name h)
  obtain ⟨-, -, hsame, hmade, hsize, -, hnext⟩ := lookups_by_instance fresh reuse
  obtain ⟨compiler, hanswer, hlookups, hmade', -⟩ := hnext "b" 1 rfl _ (.inl rfl)
  have hlooked : (Traced.run numbered reuse).lookedUp = [0, 1, 2] := by decide
  rw [hlooked] at hmade hsize hmade'
  rw [hmade] at hmade'
  exact ⟨fresh, by decide, by decide, hsame, hmade, hsize.trans (by decide), compiler, hanswer,
    hlookups, hmade'⟩

end CodeTabs.Session
