import CodeTabs.Compiler

/-!
An action is run from a state. What a sequence of two actions does is said by the runs of the two,
and any action can be run beside a list of notes that it does not look at.
-/

namespace CodeTabs.Action

variable {σ ε α β κ : Type}

def runFrom (action : Action σ ε α) (s : σ) : Except ε α × σ := action.run.run s

theorem ext_runFrom {action other : Action σ ε α} (h : ∀ s, runFrom action s = runFrom other s) :
    action = other :=
  funext h

@[simp] theorem runFrom_pure (a : α) (s : σ) :
    runFrom (pure a : Action σ ε α) s = (.ok a, s) := rfl

@[simp] theorem runFrom_liftExcept (result : Except ε α) (s : σ) :
    runFrom (liftM result : Action σ ε α) s = (result, s) := rfl

theorem runFrom_bind (action : Action σ ε α) (next : α → Action σ ε β) (s : σ) :
    runFrom (action >>= next) s =
      match runFrom action s with
      | (.ok a, s₁) => runFrom (next a) s₁
      | (.error e, s₁) => (.error e, s₁) := by
  change (ExceptT.bind action next).run.run s = _
  simp only [ExceptT.bind, ExceptT.run_mk, StateT.run_bind]
  change ((ExceptT.bindCont next (runFrom action s).1).run (runFrom action s).2 : Id _) = _
  rcases runFrom action s with ⟨e | a, s₁⟩ <;> rfl

theorem runFrom_bind_ok_iff {action : Action σ ε α} {next : α → Action σ ε β} {s s' : σ} {b : β} :
    runFrom (action >>= next) s = (.ok b, s') ↔
      ∃ a s₁, runFrom action s = (.ok a, s₁) ∧ runFrom (next a) s₁ = (.ok b, s') := by
  rw [runFrom_bind]
  rcases runFrom action s with ⟨e | a, s₁⟩
  · simp
  · simp only [Prod.mk.injEq, Except.ok.injEq]
    constructor
    · intro h
      exact ⟨a, s₁, ⟨rfl, rfl⟩, h⟩
    · intro h
      obtain ⟨_, _, ⟨rfl, rfl⟩, h⟩ := h
      exact h

theorem runFrom_bind_error_iff {action : Action σ ε α} {next : α → Action σ ε β} {s s' : σ}
    {e : ε} :
    runFrom (action >>= next) s = (.error e, s') ↔
      runFrom action s = (.error e, s') ∨
        ∃ a s₁, runFrom action s = (.ok a, s₁) ∧ runFrom (next a) s₁ = (.error e, s') := by
  rw [runFrom_bind]
  rcases runFrom action s with ⟨e₁ | a, s₁⟩
  · simp
  · simp only [Prod.mk.injEq, reduceCtorEq, false_and, false_or, Except.ok.injEq]
    constructor
    · intro h
      exact ⟨a, s₁, ⟨rfl, rfl⟩, h⟩
    · intro h
      obtain ⟨_, _, ⟨rfl, rfl⟩, h⟩ := h
      exact h

/-- The action beside a list of notes, to which `notes` are added whether it fails or not. -/
def noting (notes : List κ) (action : Action σ ε α) : Action (σ × List κ) ε α :=
  ExceptT.mk fun (s, noted) =>
    let (result, s') := runFrom action s
    (result, (s', noted ++ notes))

@[simp] theorem runFrom_noting (notes noted : List κ) (action : Action σ ε α) (s : σ) :
    runFrom (noting notes action) (s, noted) =
      ((runFrom action s).1, ((runFrom action s).2, noted ++ notes)) := rfl

theorem noting_liftExcept (result : Except ε α) :
    noting ([] : List κ) (liftM result : Action σ ε α) = liftM result := by
  apply ext_runFrom
  intro state
  obtain ⟨s, noted⟩ := state
  simp

theorem noting_bind (notes : List κ) (action : Action σ ε α) (next : α → Action σ ε β) :
    noting notes (action >>= next) = noting notes action >>= fun a => noting [] (next a) := by
  apply ext_runFrom
  intro state
  obtain ⟨s, noted⟩ := state
  simp only [runFrom_noting, runFrom_bind]
  rcases runFrom action s with ⟨e | a, s₁⟩ <;> simp

end CodeTabs.Action
