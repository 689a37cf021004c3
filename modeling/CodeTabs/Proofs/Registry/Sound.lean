import CodeTabs.Proofs.Registry.Traced
import Mathlib.Data.List.Nodup
import Mathlib.Data.List.Perm.Subperm

/-!
What a session is when it and its history agree. An address is handed out again only when neither
a slot nor an entry refers to it, so it stands for one instance among those that are live or still
have an entry, and the registry may go by addresses.
-/

namespace CodeTabs.Session

theorem find?_beq {α : Type} [DecidableEq α] {f : α → Nat} {a : α} {l : List α}
    (h : ∀ b ∈ l, f b = f a → b = a) :
    l.find? (fun b => f b == f a) = if a ∈ l then some a else none := by
  induction l with
  | nil => rfl
  | cons b rest ih =>
    by_cases hb : b = a
    · simp [hb]
    · have hne : f b ≠ f a := fun hf => hb (h b List.mem_cons_self hf)
      simpa [hne, Ne.symm hb] using ih fun c hc => h c (List.mem_cons_of_mem b hc)

variable {σ : Type}

theorem isFree_eq_true_iff {session : Session σ} {address : Nat} :
    session.isFree address = true ↔
      address ∉ session.slots.values.map SharedSettings.address ∧
        address ∉ session.registry.entries.map Prod.fst := by
  simp only [isFree, isAlive, isWatched, Bool.and_eq_true, Bool.not_eq_true', List.any_eq_false,
    beq_iff_eq, List.mem_map, not_exists, not_and]

theorem isFree_freeAddress (session : Session σ) : session.isFree session.freeAddress = true := by
  rw [freeAddress]
  cases h : (List.range (session.slots.size + session.registry.entries.length + 1)).find?
      session.isFree with
  | some address => exact List.find?_some h
  | none =>
    -- Else more addresses were taken than there are slots and entries.
    have htaken : List.range (session.slots.size + session.registry.entries.length + 1) ⊆
        session.slots.values.map SharedSettings.address ++
          session.registry.entries.map Prod.fst := by
      intro address haddress
      have hnot := List.find?_eq_none.mp h address haddress
      rw [isFree_eq_true_iff, not_and_or, not_not, not_not] at hnot
      exact List.mem_append.mpr hnot
    have hlength := (List.nodup_range.subperm htaken).length_le
    simp only [List.length_range, List.length_append, List.length_map, OrderedMap.values,
      OrderedMap.size] at hlength
    omega

variable {factory : Nat → Settings → Compiler σ}

namespace Traced

def compilerOf (factory : Nat → Settings → Compiler σ) (traced : Traced σ) (i : Nat) :
    Compiler σ :=
  factory (traced.lookedUp.idxOf i + 1) (traced.instanceAt i).settings

def entryOf (factory : Nat → Settings → Compiler σ) (traced : Traced σ) (i : Nat) :
    Nat × Compiler σ :=
  ((traced.instanceAt i).address, traced.compilerOf factory i)

def Referred (traced : Traced σ) (kept : Nat → Bool) (i : Nat) : Prop :=
  i ∈ traced.owners.values ∨ i ∈ traced.lookedUp.filter kept

/-- The slots and the registry are what the history says, with entries for the instances kept. -/
structure Sound (factory : Nat → Settings → Compiler σ) (traced : Traced σ)
    (kept : Nat → Bool) : Prop where
  slots_eq : traced.session.slots = traced.owners.map fun _ i => traced.instanceAt i
  factory_eq : traced.session.registry.factory = factory
  made_eq : traced.session.registry.made = traced.lookedUp.length
  entries_eq : traced.session.registry.entries =
    (traced.lookedUp.filter kept).map (traced.entryOf factory)
  created : ∀ i, i ∈ traced.owners.values ∨ i ∈ traced.lookedUp → i < traced.instances.length
  answered : ∀ i compiler, (i, compiler) ∈ traced.lookups → compiler = traced.compilerOf factory i
  kept_of_live : ∀ i ∈ traced.lookedUp, i ∈ traced.owners.values → kept i = true
  apart : ∀ i j, traced.Referred kept i → traced.Referred kept j →
    (traced.instanceAt i).address = (traced.instanceAt j).address → i = j

theorem sound_start (factory : Nat → Settings → Compiler σ) (kept : Nat → Bool) :
    (start factory).Sound factory kept where
  slots_eq := rfl
  factory_eq := rfl
  made_eq := rfl
  entries_eq := rfl
  created := by simp [start, OrderedMap.empty, OrderedMap.values, lookedUp]
  answered := by simp [start]
  kept_of_live := by simp [start, lookedUp]
  apart := by simp [Referred, start, OrderedMap.empty, OrderedMap.values, lookedUp]

variable {traced : Traced σ} {kept : Nat → Bool} {i : Nat}

theorem referred_of_live (h : i ∈ traced.lookedUp.filter traced.isLive) :
    traced.Referred kept i :=
  .inl (traced.isLive_iff.mp (List.mem_filter.mp h).2)

namespace Sound

variable (sound : traced.Sound factory kept)
include sound

theorem isFree_iff {address : Nat} :
    traced.session.isFree address = true ↔
      ∀ i, traced.Referred kept i → (traced.instanceAt i).address ≠ address := by
  rw [isFree_eq_true_iff, sound.slots_eq, sound.entries_eq, OrderedMap.values_map, List.map_map,
    List.map_map, List.mem_map, List.mem_map]
  constructor
  · rintro ⟨hslots, hentries⟩ i (h | h) rfl
    · exact hslots ⟨i, h, rfl⟩
    · exact hentries ⟨i, h, rfl⟩
  · intro h
    exact ⟨fun ⟨i, hi, ha⟩ => h i (.inl hi) ha, fun ⟨i, hi, ha⟩ => h i (.inr hi) ha⟩

theorem exists_owner {address : Nat} :
    traced.session.isAlive address = true ↔
      ∃ i ∈ traced.owners.values, (traced.instanceAt i).address = address := by
  simp [isAlive, sound.slots_eq, OrderedMap.values_map]

theorem isAlive_instanceAt (h : traced.Referred kept i) :
    traced.session.isAlive (traced.instanceAt i).address = traced.isLive i := by
  rw [Bool.eq_iff_iff, sound.exists_owner, isLive_iff]
  constructor
  · rintro ⟨j, hj, haddress⟩
    exact sound.apart j i (.inl hj) h haddress ▸ hj
  · intro hi
    exact ⟨i, hi, rfl⟩

theorem entries_prune :
    (traced.session.registry.prune traced.session.isAlive).entries =
      (traced.lookedUp.filter traced.isLive).map (traced.entryOf factory) := by
  have hlive : ∀ i ∈ traced.lookedUp.filter kept,
      traced.session.isAlive (traced.entryOf factory i).1 = traced.isLive i :=
    fun i hi => sound.isAlive_instanceAt (.inr hi)
  have hkept : ∀ i ∈ traced.lookedUp, (traced.isLive i && kept i) = traced.isLive i := by
    intro i hi
    cases h : traced.isLive i with
    | false => rfl
    | true => exact sound.kept_of_live i hi (traced.isLive_iff.mp h)
  -- What a lookup removes is what was kept only for an instance that is no longer live.
  rw [Registry.prune, sound.entries_eq, List.filter_map]
  exact congrArg _ ((List.filter_congr hlive).trans
    (List.filter_filter.trans (List.filter_congr hkept)))

theorem find?_prune (hi : i ∈ traced.owners.values) :
    (traced.session.registry.prune traced.session.isAlive).find? (traced.instanceAt i).address =
      if i ∈ traced.lookedUp then some (traced.compilerOf factory i) else none := by
  have hlive : i ∈ traced.lookedUp.filter traced.isLive ↔ i ∈ traced.lookedUp := by
    rw [List.mem_filter, isLive_iff, and_iff_left hi]
  have hfind := find?_beq (f := fun j => (traced.instanceAt j).address) fun j hj =>
    sound.apart j i (referred_of_live hj) (.inl hi)
  rw [Registry.find?, sound.entries_prune, List.find?_map, Function.comp_def]
  simp only [entryOf, hfind, hlive]
  split <;> rfl

theorem size_eq :
    traced.session.size = (traced.lookedUp.filter traced.isLive).length := by
  rw [Session.size, Registry.size, sound.entries_prune, List.length_map]

theorem nodup_addresses : (traced.session.registry.entries.map Prod.fst).Nodup := by
  rw [sound.entries_eq, List.map_map]
  refine List.Nodup.map_on ?_ (traced.nodup_lookedUp.filter _)
  intro i hi j hj haddress
  exact sound.apart i j (.inr hi) (.inr hj) haddress

theorem compiler_eq_iff (fresh : ∀ m n a b, factory m a = factory n b → m = n)
    {first second : Nat × Compiler σ} (hfirst : first ∈ traced.lookups)
    (hsecond : second ∈ traced.lookups) : first.2 = second.2 ↔ first.1 = second.1 := by
  rw [sound.answered first.1 first.2 hfirst, sound.answered second.1 second.2 hsecond]
  constructor
  · intro h
    have hindex := Nat.succ.inj (fresh _ _ _ _ h)
    exact (List.idxOf_inj (traced.mem_lookedUp.mpr ⟨first.2, hfirst⟩)).mp hindex
  · intro h
    rw [h]

end Sound

theorem Sound.entries_of_live (sound : traced.Sound factory traced.isLive) :
    List.Forall₂ (fun i entry => (i, entry.2) ∈ traced.lookups)
      (traced.lookedUp.filter traced.isLive) traced.session.registry.entries := by
  rw [sound.entries_eq, List.forall₂_map_right_iff, List.forall₂_same]
  intro i hi
  obtain ⟨compiler, h⟩ := traced.mem_lookedUp.mp (List.mem_filter.mp hi).1
  obtain rfl := sound.answered i compiler h
  exact h

end Traced

end CodeTabs.Session
