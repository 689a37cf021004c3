import CodeTabs.Text.Basic

/-!
A map from texts to values that remembers the order in which its keys came in. No key occurs
twice; giving a key another value leaves the key where it is.
-/

namespace CodeTabs

structure OrderedMap (α : Type) where
  entries : List (Text × α)
  distinct : (entries.map Prod.fst).Nodup

namespace OrderedMap

variable {α β : Type}

@[ext] theorem ext {m n : OrderedMap α} (h : m.entries = n.entries) : m = n := by
  cases m; cases n; cases h; rfl

instance [DecidableEq α] : DecidableEq (OrderedMap α) := fun m n =>
  decidable_of_iff (m.entries = n.entries) ⟨ext, congrArg entries⟩

def empty : OrderedMap α := ⟨[], .nil⟩

def keys (m : OrderedMap α) : List Text := m.entries.map Prod.fst

def values (m : OrderedMap α) : List α := m.entries.map Prod.snd

def size (m : OrderedMap α) : Nat := m.entries.length

def find? (key : Text) : List (Text × α) → Option α
  | [] => none
  | (k, a) :: rest => if k = key then some a else find? key rest

def place (key : Text) (f : Option α → α) : List (Text × α) → List (Text × α)
  | [] => [(key, f none)]
  | (k, a) :: rest => if k = key then (k, f (some a)) :: rest else (k, a) :: place key f rest

theorem mem_keys_place {key q : Text} {f : Option α → α} {entries : List (Text × α)} :
    q ∈ (place key f entries).map Prod.fst ↔ q = key ∨ q ∈ entries.map Prod.fst := by
  induction entries with
  | nil => simp [place]
  | cons e rest ih =>
    by_cases h : e.1 = key
    · simp [place, h]
    · simp only [place, h, if_false, List.map_cons, List.mem_cons, ih]
      exact or_left_comm

theorem nodup_keys_place {key : Text} {f : Option α → α} {entries : List (Text × α)}
    (h : (entries.map Prod.fst).Nodup) : ((place key f entries).map Prod.fst).Nodup := by
  induction entries with
  | nil => simp [place]
  | cons e rest ih =>
    rw [List.map_cons, List.nodup_cons] at h
    by_cases hp : e.1 = key
    · simp only [place, hp, if_true, List.map_cons, List.nodup_cons]
      exact hp ▸ h
    · rw [place, if_neg hp, List.map_cons, List.nodup_cons, mem_keys_place]
      exact ⟨fun hc => hc.elim hp h.1, ih h.2⟩

def get? (m : OrderedMap α) (key : Text) : Option α := find? key m.entries

def alter (m : OrderedMap α) (key : Text) (f : Option α → α) : OrderedMap α :=
  ⟨place key f m.entries, nodup_keys_place m.distinct⟩

def insert (m : OrderedMap α) (key : Text) (a : α) : OrderedMap α := m.alter key fun _ => a

def ofList (entries : List (Text × α)) : OrderedMap α :=
  entries.foldl (fun m e => m.insert e.1 e.2) empty

def map (f : Text → α → β) (m : OrderedMap α) : OrderedMap β :=
  ⟨m.entries.map fun e => (e.1, f e.1 e.2), by simpa [Function.comp_def] using m.distinct⟩

def filter (p : Text → α → Bool) (m : OrderedMap α) : OrderedMap α :=
  ⟨m.entries.filter fun e => p e.1 e.2,
    m.distinct.sublist (List.filter_sublist.map Prod.fst)⟩

@[simp] theorem get?_empty (key : Text) : (empty : OrderedMap α).get? key = none := rfl

theorem find?_place (key q : Text) (f : Option α → α) (entries : List (Text × α)) :
    find? q (place key f entries) =
      if key = q then some (f (find? key entries)) else find? q entries := by
  induction entries with
  | nil => simp [place, find?]
  | cons e rest ih =>
    by_cases hp : e.1 = key <;> by_cases hq : key = q <;> by_cases he : e.1 = q <;>
      simp_all [place, find?]

theorem get?_alter (m : OrderedMap α) (key q : Text) (f : Option α → α) :
    (m.alter key f).get? q = if key = q then some (f (m.get? key)) else m.get? q :=
  find?_place key q f m.entries

theorem get?_insert (m : OrderedMap α) (key q : Text) (a : α) :
    (m.insert key a).get? q = if key = q then some a else m.get? q :=
  get?_alter m key q _

@[simp] theorem keys_map (f : Text → α → β) (m : OrderedMap α) : (m.map f).keys = m.keys := by
  simp [keys, map, Function.comp_def]

end OrderedMap

end CodeTabs
