import CodeTabs.OrderedMap
import Mathlib.Data.List.Forall2
import Mathlib.Data.List.Induction

/-!
An ordered map is its keys in their order together with the value at each of them. Altering a key
keeps the order when the key is there and puts it at the end when it is not, and so do the keys
that remain of a list when later repetitions are dropped.
-/

namespace CodeTabs

theorem eraseDups_concat {α : Type} [BEq α] [LawfulBEq α] (xs : List α) (x : α)
    [Decidable (x ∈ xs)] :
    (xs ++ [x]).eraseDups = if x ∈ xs then xs.eraseDups else xs.eraseDups ++ [x] := by
  rw [List.eraseDups_append]
  by_cases h : x ∈ xs
  · simp [List.removeAll, h]
  · simp [List.removeAll, h, List.eraseDups_cons]

theorem nodup_eraseDups {α : Type} [BEq α] [LawfulBEq α] (xs : List α) : xs.eraseDups.Nodup := by
  classical
  induction xs using List.reverseRecOn with
  | nil => exact .nil
  | append_singleton xs x ih =>
    rw [eraseDups_concat]
    by_cases h : x ∈ xs
    · rwa [if_pos h]
    · rw [if_neg h]
      refine List.nodup_append.mpr ⟨ih, by simp, ?_⟩
      intro a ha b hb hab
      rw [List.mem_singleton.mp hb] at hab
      exact h (List.mem_eraseDups.mp (hab ▸ ha))

theorem length_eraseDups_le {α : Type} [BEq α] [LawfulBEq α] (xs : List α) :
    xs.eraseDups.length ≤ xs.length := by
  classical
  induction xs using List.reverseRecOn with
  | nil => exact Nat.le_refl 0
  | append_singleton xs x ih =>
    rw [eraseDups_concat, List.length_append, List.length_singleton]
    by_cases h : x ∈ xs
    · rw [if_pos h]
      exact Nat.le_succ_of_le ih
    · rw [if_neg h, List.length_append, List.length_singleton]
      exact Nat.succ_le_succ ih

theorem length_eraseDups_lt {α : Type} [BEq α] [LawfulBEq α] {xs : List α} (h : ¬xs.Nodup) :
    xs.eraseDups.length < xs.length := by
  classical
  induction xs using List.reverseRecOn with
  | nil => exact absurd .nil h
  | append_singleton xs x ih =>
    rw [eraseDups_concat, List.length_append, List.length_singleton]
    by_cases hx : x ∈ xs
    · rw [if_pos hx]
      exact Nat.lt_succ_of_le (length_eraseDups_le xs)
    · have hxs : ¬xs.Nodup := by
        intro hnodup
        refine h (List.nodup_append.mpr ⟨hnodup, by simp, ?_⟩)
        intro a ha b hb hab
        rw [List.mem_singleton.mp hb] at hab
        exact hx (hab ▸ ha)
      rw [if_neg hx, List.length_append, List.length_singleton]
      exact Nat.succ_lt_succ (ih hxs)

theorem eraseDups_map {α β : Type} [BEq α] [LawfulBEq α] [BEq β] [LawfulBEq β] {f : α → β}
    (hf : Function.Injective f) (xs : List α) : (xs.map f).eraseDups = xs.eraseDups.map f := by
  classical
  induction xs using List.reverseRecOn with
  | nil => rfl
  | append_singleton xs x ih =>
    rw [List.map_append, List.map_singleton, eraseDups_concat, eraseDups_concat, ih]
    by_cases h : x ∈ xs
    · rw [if_pos h, if_pos (List.mem_map_of_mem h)]
    · have hx : f x ∉ xs.map f := by
        intro hmem
        obtain ⟨y, hy, hxy⟩ := List.mem_map.mp hmem
        exact h (hf hxy ▸ hy)
      rw [if_neg h, if_neg hx, List.map_append, List.map_singleton]

namespace OrderedMap

variable {α β : Type}

theorem find?_of_mem {entries : List (Text × α)} (distinct : (entries.map Prod.fst).Nodup)
    {e : Text × α} (he : e ∈ entries) : find? e.1 entries = some e.2 := by
  induction entries with
  | nil => cases he
  | cons first rest ih =>
    rw [List.map_cons, List.nodup_cons] at distinct
    rcases List.mem_cons.mp he with rfl | he
    · simp [find?]
    · have hne : first.1 ≠ e.1 := fun h => distinct.1 (h ▸ List.mem_map_of_mem he)
      simpa [find?, hne] using ih distinct.2 he

theorem place_of_not_mem {key : Text} {entries : List (Text × α)}
    (h : key ∉ entries.map Prod.fst) (f : Option α → α) :
    place key f entries = entries ++ [(key, f none)] := by
  induction entries with
  | nil => rfl
  | cons first rest ih =>
    rw [List.map_cons, List.mem_cons, not_or] at h
    simpa [place, Ne.symm h.1] using ih h.2

theorem map_fst_place (key : Text) (f : Option α → α) (entries : List (Text × α)) :
    (place key f entries).map Prod.fst = if key ∈ entries.map Prod.fst
      then entries.map Prod.fst else entries.map Prod.fst ++ [key] := by
  induction entries with
  | nil => rfl
  | cons first rest ih =>
    by_cases h : first.1 = key
    · simp [place, h]
    · by_cases hr : key ∈ rest.map Prod.fst
      · simp [place, h, ih, hr]
      · simp [place, h, ih, hr, Ne.symm h]

theorem keys_alter (m : OrderedMap α) (key : Text) (f : Option α → α) :
    (m.alter key f).keys = if key ∈ m.keys then m.keys else m.keys ++ [key] :=
  map_fst_place key f m.entries

theorem entries_alter_of_not_mem {m : OrderedMap α} {key : Text} (h : key ∉ m.keys)
    (f : Option α → α) : (m.alter key f).entries = m.entries ++ [(key, f none)] :=
  place_of_not_mem h f

theorem keys_foldl_alter (f : β → Option α → α) (parts : List (Text × β)) :
    (parts.foldl (fun m part => m.alter part.1 (f part.2)) empty).keys =
      (parts.map Prod.fst).eraseDups := by
  induction parts using List.reverseRecOn with
  | nil => rfl
  | append_singleton parts part ih =>
    rw [List.foldl_append, List.foldl_cons, List.foldl_nil, keys_alter, ih, List.map_append,
      List.map_singleton, eraseDups_concat]
    simp only [List.mem_eraseDups]

theorem entries_foldl_alter (f : β → Option α → α) {parts : List (Text × β)}
    (h : (parts.map Prod.fst).Nodup) :
    (parts.foldl (fun m part => m.alter part.1 (f part.2)) empty).entries =
      parts.map fun part => (part.1, f part.2 none) := by
  induction parts using List.reverseRecOn with
  | nil => rfl
  | append_singleton parts part ih =>
    rw [List.map_append, List.nodup_append] at h
    have hpath : part.1 ∉
        (parts.foldl (fun m part => m.alter part.1 (f part.2)) empty).keys := by
      rw [keys_foldl_alter, List.mem_eraseDups]
      intro hmem
      exact h.2.2 part.1 hmem part.1 (by simp) rfl
    rw [List.foldl_append, List.foldl_cons, List.foldl_nil, entries_alter_of_not_mem hpath, ih h.1,
      List.map_append, List.map_singleton]

theorem keys_ofList (entries : List (Text × α)) :
    (ofList entries).keys = (entries.map Prod.fst).eraseDups :=
  keys_foldl_alter (fun a _ => a) entries

theorem entries_ofList {entries : List (Text × α)} (h : (entries.map Prod.fst).Nodup) :
    (ofList entries).entries = entries :=
  (entries_foldl_alter (fun a _ => a) h).trans (List.map_id' entries)

theorem entries_eq_map {m : OrderedMap α} {g : Text → α}
    (h : ∀ key ∈ m.keys, m.get? key = some (g key)) :
    m.entries = m.keys.map fun key => (key, g key) := by
  have hentry : ∀ e ∈ m.entries, (e.1, g e.1) = e := by
    intro e he
    have hvalue := h e.1 (List.mem_map_of_mem he)
    rw [get?, find?_of_mem m.distinct he] at hvalue
    exact Prod.ext rfl (Option.some.inj hvalue).symm
  rw [keys, List.map_map]
  exact ((List.map_congr_left hentry).trans (List.map_id' _)).symm

section Map

variable {m : OrderedMap α} {key : Text} {a b : α}

theorem mem_values_of_get? (h : m.get? key = some a) : a ∈ m.values := by
  unfold get? at h
  unfold values
  generalize m.entries = entries at h ⊢
  induction entries with
  | nil => cases h
  | cons first rest ih =>
    by_cases hkey : first.1 = key
    · simp only [find?, hkey, if_true, Option.some.injEq] at h
      exact List.mem_cons.mpr (.inl h.symm)
    · simp only [find?, hkey, if_false] at h
      exact List.mem_cons_of_mem _ (ih h)

theorem mem_values_insert (h : b ∈ (m.insert key a).values) : b = a ∨ b ∈ m.values := by
  change b ∈ (place key (fun _ => a) m.entries).map Prod.snd at h
  unfold values
  generalize m.entries = entries at h ⊢
  induction entries with
  | nil => exact .inl (List.mem_singleton.mp h)
  | cons first rest ih =>
    by_cases hkey : first.1 = key
    · simp only [place, hkey, if_true, List.map_cons, List.mem_cons] at h ⊢
      exact h.imp_right .inr
    · simp only [place, hkey, if_false, List.map_cons, List.mem_cons] at h ⊢
      rcases h with h | h
      · exact .inr (.inl h)
      · exact (ih h).imp_right .inr

theorem mem_values_filter {p : Text → α → Bool} (h : b ∈ (m.filter p).values) : b ∈ m.values :=
  (List.filter_sublist.map Prod.snd).mem h

theorem get?_map (m : OrderedMap α) (f : Text → α → β) (key : Text) :
    (m.map f).get? key = (m.get? key).map (f key) := by
  change find? key (m.entries.map fun e => (e.1, f e.1 e.2)) = (find? key m.entries).map (f key)
  generalize m.entries = entries
  induction entries with
  | nil => rfl
  | cons first rest ih =>
    by_cases hkey : first.1 = key
    · simp [find?, hkey]
    · simpa [find?, hkey] using ih

theorem map_insert (m : OrderedMap α) (f : Text → α → β) (key : Text) (a : α) :
    (m.insert key a).map f = (m.map f).insert key (f key a) := by
  apply ext
  change (place key (fun _ => a) m.entries).map (fun e => (e.1, f e.1 e.2)) =
    place key (fun _ => f key a) (m.entries.map fun e => (e.1, f e.1 e.2))
  generalize m.entries = entries
  induction entries with
  | nil => rfl
  | cons first rest ih =>
    by_cases hkey : first.1 = key
    · simp [place, hkey]
    · simpa [place, hkey] using ih

theorem map_filter (m : OrderedMap α) (f : Text → α → β) (p : Text → Bool) :
    (m.filter fun key _ => p key).map f = (m.map f).filter fun key _ => p key := by
  apply ext
  simp [map, filter, List.filter_map, Function.comp_def]

theorem map_congr {f g : α → β} (h : ∀ a ∈ m.values, f a = g a) :
    (m.map fun _ a => f a) = m.map fun _ a => g a := by
  apply ext
  exact List.map_congr_left fun e he => Prod.ext rfl (h e.2 (List.mem_map_of_mem he))

theorem values_map (m : OrderedMap α) (f : α → β) :
    (m.map fun _ a => f a).values = m.values.map f := by
  simp [values, map]

end Map

/-- The maps have the same keys in the same order, and `r` holds of the two values at each. -/
def Related (r : Text → α → β → Prop) (m : OrderedMap α) (n : OrderedMap β) : Prop :=
  List.Forall₂ (fun e e' => e.1 = e'.1 ∧ r e.1 e.2 e'.2) m.entries n.entries

section Related

variable {α' β' : Type} {r : Text → α → β → Prop} {m : OrderedMap α} {n : OrderedMap β}

theorem map_fst_eq_of_forall₂ {entries : List (Text × α)} {entries' : List (Text × β)}
    (h : List.Forall₂ (fun e e' => e.1 = e'.1 ∧ r e.1 e.2 e'.2) entries entries') :
    entries.map Prod.fst = entries'.map Prod.fst := by
  induction h with
  | nil => rfl
  | cons head _ ih => rw [List.map_cons, List.map_cons, head.1, ih]

theorem Related.get? (h : Related r m n) (key : Text) :
    Option.Rel (r key) (m.get? key) (n.get? key) := by
  unfold Related at h
  unfold OrderedMap.get?
  generalize m.entries = entries at h ⊢
  generalize n.entries = entries' at h ⊢
  induction h with
  | nil => exact .none
  | @cons e e' entries entries' head _ ih =>
    obtain ⟨hkey, hvalue⟩ := head
    by_cases he : e.1 = key
    · simp only [find?, ← hkey, he, if_true]
      exact .some (he ▸ hvalue)
    · simpa only [find?, ← hkey, he, if_false] using ih

theorem Related.insert (h : Related r m n) {key : Text} {a : α} {b : β} (hab : r key a b) :
    Related r (m.insert key a) (n.insert key b) := by
  unfold Related at h
  change List.Forall₂ _ (place key (fun _ => a) m.entries) (place key (fun _ => b) n.entries)
  generalize m.entries = entries at h ⊢
  generalize n.entries = entries' at h ⊢
  induction h with
  | nil => exact .cons ⟨rfl, hab⟩ .nil
  | @cons e e' entries entries' head tail ih =>
    obtain ⟨hkey, hvalue⟩ := head
    by_cases he : e.1 = key
    · simp only [place, ← hkey, he, if_true]
      exact .cons ⟨rfl, hab⟩ tail
    · simp only [place, ← hkey, he, if_false]
      exact .cons ⟨rfl, hvalue⟩ ih

theorem Related.ofList {entries : List (Text × α)} {entries' : List (Text × β)}
    (h : List.Forall₂ (fun e e' => e.1 = e'.1 ∧ r e.1 e.2 e'.2) entries entries') :
    Related r (.ofList entries) (.ofList entries') := by
  -- The fold starts from any two related maps.
  suffices hfold : ∀ m n, Related r m n → Related r
      (entries.foldl (fun m e => m.insert e.1 e.2) m)
      (entries'.foldl (fun n e => n.insert e.1 e.2) n) from hfold empty empty .nil
  induction h with
  | nil => exact fun _ _ hmn => hmn
  | @cons e e' entries entries' head _ ih =>
    intro m n hmn
    rw [List.foldl_cons, List.foldl_cons, ← head.1]
    exact ih _ _ (hmn.insert head.2)

theorem Related.map {r' : Text → α' → β' → Prop} {f : Text → α → α'} {g : Text → β → β'}
    (h : Related r m n) (hfg : ∀ key a b, r key a b → r' key (f key a) (g key b)) :
    Related r' (m.map f) (n.map g) := by
  refine List.forall₂_map_left_iff.mpr (List.forall₂_map_right_iff.mpr (h.imp ?_))
  intro e e' he
  obtain ⟨hkey, hvalue⟩ := he
  exact ⟨hkey, hkey ▸ hfg e.1 e.2 e'.2 hvalue⟩

end Related

end OrderedMap

end CodeTabs
