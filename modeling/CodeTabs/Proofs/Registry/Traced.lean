import CodeTabs.Proofs.OrderedMap
import CodeTabs.Registry.Session

/-!
A session told with its history: the instances that were created, numbered in that order, which of
them each slot holds, and which compiler each lookup of one of them was answered with. Addresses
come back, numbers do not.
-/

namespace CodeTabs.Session

variable {σ : Type}

def Answer.compiler? : Answer σ → Option (Compiler σ)
  | .compiler made => some made
  | .transpiler (.ok made) => some made.compiler
  | _ => none

structure Traced (σ : Type) where
  session : Session σ
  instances : List SharedSettings
  owners : OrderedMap Nat
  lookups : List (Nat × Compiler σ)

namespace Traced

def start (factory : Nat → Settings → Compiler σ) : Traced σ :=
  ⟨Session.start factory, [], .empty, []⟩

def withLookup (traced : Traced σ) (owner : Option Nat) (answer : Answer σ) : Traced σ :=
  match owner, answer.compiler? with
  | some i, some compiler => { traced with lookups := traced.lookups ++ [(i, compiler)] }
  | _, _ => traced

def step (traced : Traced σ) (step : Step) : Traced σ :=
  let (answer, session) := traced.session.step step
  match step with
  | .create slot settings address =>
    if traced.session.isFree address then
      { traced with
        session
        instances := traced.instances ++ [⟨address, settings⟩]
        owners := traced.owners.insert slot traced.instances.length }
    else { traced with session }
  | .share slot source =>
    match traced.owners.get? source with
    | some i => { traced with session, owners := traced.owners.insert slot i }
    | none => { traced with session }
  | .drop slot =>
    { traced with session, owners := traced.owners.filter fun key _ => key != slot }
  | .get slot => { traced with session }.withLookup (traced.owners.get? slot) answer
  | .transpiler slot => { traced with session }.withLookup (traced.owners.get? slot) answer

def run (factory : Nat → Settings → Compiler σ) (steps : List Step) : Traced σ :=
  steps.foldl step (start factory)

variable (traced : Traced σ)

def instanceAt (i : Nat) : SharedSettings := traced.instances[i]?.getD ⟨0, .standard⟩

def lookedUp : List Nat := (traced.lookups.map Prod.fst).eraseDups

def isLive (i : Nat) : Bool := traced.owners.values.contains i

theorem session_withLookup (owner : Option Nat) (answer : Answer σ) :
    (traced.withLookup owner answer).session = traced.session := by
  unfold withLookup
  split <;> rfl

theorem session_step (step : Step) :
    (traced.step step).session = (traced.session.step step).2 := by
  cases step with
  | create slot settings address =>
    simp only [Traced.step]
    split <;> rfl
  | share slot source =>
    simp only [Traced.step]
    split <;> rfl
  | drop slot => rfl
  | get slot => exact session_withLookup _ _ _
  | transpiler slot => exact session_withLookup _ _ _

theorem session_run (factory : Nat → Settings → Compiler σ) (steps : List Step) :
    (run factory steps).session =
      steps.foldl (fun session step => (session.step step).2) (Session.start factory) := by
  induction steps using List.reverseRecOn with
  | nil => rfl
  | append_singleton steps step ih =>
    rw [run, List.foldl_append, List.foldl_append, ← ih]
    exact session_step _ step

theorem nodup_lookedUp : traced.lookedUp.Nodup := nodup_eraseDups _

theorem mem_lookedUp {i : Nat} :
    i ∈ traced.lookedUp ↔ ∃ compiler, (i, compiler) ∈ traced.lookups := by
  simp [lookedUp]

theorem isLive_iff {i : Nat} : traced.isLive i = true ↔ i ∈ traced.owners.values := by
  simp [isLive]

def withInstance (slot : Text) (shared : SharedSettings) : Traced σ :=
  { traced with
    session := { traced.session with slots := traced.session.slots.insert slot shared }
    instances := traced.instances ++ [shared]
    owners := traced.owners.insert slot traced.instances.length }

theorem instanceAt_withInstance {i : Nat} (h : i < traced.instances.length) (slot : Text)
    (shared : SharedSettings) :
    (traced.withInstance slot shared).instanceAt i = traced.instanceAt i := by
  simp [withInstance, instanceAt, List.getElem?_append_left h]

theorem instanceAt_withInstance_length (slot : Text) (shared : SharedSettings) :
    (traced.withInstance slot shared).instanceAt traced.instances.length = shared := by
  simp [withInstance, instanceAt]

def afterLookup (i : Nat) : Traced σ :=
  let (compiler, registry) :=
    traced.session.registry.lookup traced.session.isAlive (traced.instanceAt i)
  { traced with
    session := { traced.session with registry }
    lookups := traced.lookups ++ [(i, compiler)] }

theorem lookedUp_afterLookup (i : Nat) :
    (traced.afterLookup i).lookedUp =
      if i ∈ traced.lookedUp then traced.lookedUp else traced.lookedUp ++ [i] := by
  unfold lookedUp
  simp only [List.mem_eraseDups, ← eraseDups_concat]
  exact congrArg List.eraseDups List.map_append

theorem length_lookedUp_afterLookup (i : Nat) :
    (traced.afterLookup i).lookedUp.length =
      traced.lookedUp.length + if i ∈ traced.lookedUp then 0 else 1 := by
  rw [lookedUp_afterLookup]
  split <;> simp

end Traced

end CodeTabs.Session
