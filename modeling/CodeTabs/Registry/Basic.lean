import CodeTabs.Compiler

/-!
A registry shares one compiler among all who hold the same settings instance. Instances are told
apart by their address, not by their value. An entry outlives the instance it was made for until
the next lookup prunes it, and as long as it is there its address is not handed out again.
-/

namespace CodeTabs

structure SharedSettings where
  address : Nat
  settings : Settings
deriving DecidableEq

/-- The factory makes the compiler for the `n`-th call, counted from one. -/
structure Registry (κ : Type) where
  factory : Nat → Settings → κ
  made : Nat
  entries : List (Nat × κ)

namespace Registry

variable {κ : Type}

def new (factory : Nat → Settings → κ) : Registry κ := ⟨factory, 0, []⟩

def prune (registry : Registry κ) (alive : Nat → Bool) : Registry κ :=
  { registry with entries := registry.entries.filter fun entry => alive entry.1 }

def find? (registry : Registry κ) (address : Nat) : Option κ :=
  (registry.entries.find? fun entry => entry.1 == address).map Prod.snd

def lookup (registry : Registry κ) (alive : Nat → Bool) (shared : SharedSettings) :
    κ × Registry κ :=
  let registry := registry.prune alive
  match registry.find? shared.address with
  | some compiler => (compiler, registry)
  | none =>
    let compiler := registry.factory (registry.made + 1) shared.settings
    (compiler, { registry with
      made := registry.made + 1
      entries := registry.entries ++ [(shared.address, compiler)] })

def size (registry : Registry κ) (alive : Nat → Bool) : Nat :=
  (registry.prune alive).entries.length

def isEmpty (registry : Registry κ) (alive : Nat → Bool) : Bool := registry.size alive == 0

end Registry

end CodeTabs
