import CodeTabs.OrderedMap
import CodeTabs.Transpiler.Basic

/-!
A session holds settings instances in named slots and looks their compilers up in one registry.
An instance lives as long as a slot holds it. A new instance may take any address that neither a
slot nor an entry of the registry refers to.
-/

namespace CodeTabs

structure Session (σ : Type) where
  slots : OrderedMap SharedSettings
  registry : Registry (Compiler σ)

namespace Session

variable {σ : Type}

def start (factory : Nat → Settings → Compiler σ) : Session σ := ⟨.empty, .new factory⟩

def isAlive (session : Session σ) (address : Nat) : Bool :=
  session.slots.values.any fun shared => shared.address == address

def isWatched (session : Session σ) (address : Nat) : Bool :=
  session.registry.entries.any fun entry => entry.1 == address

def isFree (session : Session σ) (address : Nat) : Bool :=
  !session.isAlive address && !session.isWatched address

def freeAddress (session : Session σ) : Nat :=
  let taken := session.slots.size + session.registry.entries.length
  ((List.range (taken + 1)).find? session.isFree).getD taken

inductive Step
  | create (slot : Text) (settings : Settings) (address : Nat)
  | share (slot source : Text)
  | drop (slot : Text)
  | get (slot : Text)
  | transpiler (slot : Text)

inductive Answer (σ : Type)
  | nothing
  | noSlot
  | dropped (held : Bool)
  | compiler (compiler : Compiler σ)
  | transpiler (result : Except Failure (Transpiler σ))

/-- Make one step. An instance is not put at an address that is taken. -/
def step (session : Session σ) : Step → Answer σ × Session σ
  | .create slot settings address =>
    if session.isFree address then
      (.nothing, { session with slots := session.slots.insert slot ⟨address, settings⟩ })
    else (.nothing, session)
  | .share slot source =>
    match session.slots.get? source with
    | none => (.noSlot, session)
    | some shared => (.nothing, { session with slots := session.slots.insert slot shared })
  | .drop slot =>
    (.dropped (session.slots.get? slot).isSome,
      { session with slots := session.slots.filter fun key _ => key != slot })
  | .get slot =>
    match session.slots.get? slot with
    | none => (.noSlot, session)
    | some shared =>
      let (compiler, registry) := session.registry.lookup session.isAlive shared
      (.compiler compiler, { session with registry })
  | .transpiler slot =>
    let options : Options σ := { Options.unset with settings := session.slots.get? slot }
    let (result, registry) := Transpiler.make options session.registry session.isAlive
    (.transpiler result, { session with registry })

def size (session : Session σ) : Nat := session.registry.size session.isAlive

def isEmpty (session : Session σ) : Bool := session.registry.isEmpty session.isAlive

end Session

end CodeTabs
