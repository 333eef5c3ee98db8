/-
Ordered maps as sorted association lists.

The entries stand in strictly increasing order of their keys, so the
first entry has the least key and a key occurs once. `upsert` rewrites
the value of a key in its place, or inserts one. Whatever only removes
entries yields a sublist, and a sublist of the entries is a map again
(`restrict`).
-/
import Mathlib.Data.Finset.Card
import Mathlib.Data.Finset.Dedup
import Mathlib.Order.Lattice

variable {κ V : Type*} [LinearOrder κ]

/-- A map with its entries in strictly increasing order of keys. -/
structure OrdMap (κ V : Type*) [LinearOrder κ] where
  entries : List (κ × V)
  sorted : entries.Pairwise fun a b => a.1 < b.1

namespace OrdMap

/-- The map without entries. -/
def empty : OrdMap κ V := ⟨[], List.Pairwise.nil⟩

/-- The entries with the value of `k` rewritten by `f`, or `f none`
inserted in the place of `k`. -/
def upsertList (k : κ) (f : Option V → V) : List (κ × V) → List (κ × V)
  | [] => [(k, f none)]
  | (k', v) :: l =>
      if k < k' then (k, f none) :: (k', v) :: l
      else if k = k' then (k', f (some v)) :: l
      else (k', v) :: upsertList k f l

/-- An entry behind an `upsert` was there, or is the one of its key,
made from nothing or from an entry of that key. -/
theorem mem_upsertList {k k' : κ} {f : Option V → V} {v : V}
    {l : List (κ × V)} (h : (k', v) ∈ upsertList k f l) :
    (k', v) ∈ l
      ∨ k' = k ∧ (v = f none ∨ ∃ v₀, (k, v₀) ∈ l ∧ v = f (some v₀)) := by
  induction l with
  | nil =>
      cases List.mem_singleton.mp h
      exact Or.inr ⟨rfl, Or.inl rfl⟩
  | cons e l ih =>
      obtain ⟨k₁, v₁⟩ := e
      rw [upsertList] at h
      by_cases hlt : k < k₁
      · rw [if_pos hlt] at h
        rcases List.mem_cons.mp h with h | h
        · cases h
          exact Or.inr ⟨rfl, Or.inl rfl⟩
        · exact Or.inl h
      rw [if_neg hlt] at h
      by_cases heq : k = k₁
      · rw [if_pos heq] at h
        rcases List.mem_cons.mp h with h | h
        · cases h
          exact Or.inr ⟨heq.symm, Or.inr ⟨v₁, heq ▸ List.mem_cons_self, rfl⟩⟩
        · exact Or.inl (List.mem_cons_of_mem _ h)
      rw [if_neg heq] at h
      rcases List.mem_cons.mp h with h | h
      · exact Or.inl (h ▸ List.mem_cons_self)
      rcases ih h with hold | ⟨hk, hnew⟩
      · exact Or.inl (List.mem_cons_of_mem _ hold)
      · refine Or.inr ⟨hk, ?_⟩
        rcases hnew with hnone | ⟨v₀, hmem, hv⟩
        · exact Or.inl hnone
        · exact Or.inr ⟨v₀, List.mem_cons_of_mem _ hmem, hv⟩

/-- An entry of another key stays. -/
theorem mem_upsertList_of_ne {k k' : κ} {f : Option V → V} {v : V}
    {l : List (κ × V)} (hne : k' ≠ k) (h : (k', v) ∈ l) :
    (k', v) ∈ upsertList k f l := by
  induction l with
  | nil => cases h
  | cons e l ih =>
      obtain ⟨k₁, v₁⟩ := e
      rw [upsertList]
      by_cases hlt : k < k₁
      · rw [if_pos hlt]
        exact List.mem_cons_of_mem _ h
      rw [if_neg hlt]
      by_cases heq : k = k₁
      · rw [if_pos heq]
        rcases List.mem_cons.mp h with h | h
        · cases h
          exact absurd heq.symm hne
        · exact List.mem_cons_of_mem _ h
      rw [if_neg heq]
      rcases List.mem_cons.mp h with h | h
      · exact h ▸ List.mem_cons_self
      · exact List.mem_cons_of_mem _ (ih h)

/-- The key has an entry, made from nothing or from its old one. -/
theorem exists_mem_upsertList (k : κ) (f : Option V → V)
    (l : List (κ × V)) :
    ∃ o, (k, f o) ∈ upsertList k f l ∧ ∀ v, o = some v → (k, v) ∈ l := by
  induction l with
  | nil => exact ⟨none, List.mem_cons_self, fun _ h => nomatch h⟩
  | cons e l ih =>
      obtain ⟨k₁, v₁⟩ := e
      rw [upsertList]
      by_cases hlt : k < k₁
      · rw [if_pos hlt]
        exact ⟨none, List.mem_cons_self, fun _ h => nomatch h⟩
      rw [if_neg hlt]
      by_cases heq : k = k₁
      · rw [if_pos heq]
        refine ⟨some v₁, heq ▸ List.mem_cons_self, ?_⟩
        rintro v hv
        cases hv
        exact heq ▸ List.mem_cons_self
      rw [if_neg heq]
      obtain ⟨o, hmem, hold⟩ := ih
      exact ⟨o, List.mem_cons_of_mem _ hmem,
        fun v hv => List.mem_cons_of_mem _ (hold v hv)⟩

/-- The entry of the key is rewritten. -/
theorem mem_upsertList_self {k : κ} {f : Option V → V} {v : V}
    {l : List (κ × V)} (hsorted : l.Pairwise fun a b => a.1 < b.1)
    (h : (k, v) ∈ l) : (k, f (some v)) ∈ upsertList k f l := by
  induction l with
  | nil => cases h
  | cons e l ih =>
      obtain ⟨k₁, v₁⟩ := e
      obtain ⟨hhead, htail⟩ := List.pairwise_cons.mp hsorted
      rw [upsertList]
      rcases List.mem_cons.mp h with heq | hmem
      · cases heq
        rw [if_neg (lt_irrefl k), if_pos rfl]
        exact List.mem_cons_self
      · have hlt : k₁ < k := hhead _ hmem
        rw [if_neg hlt.not_gt, if_neg hlt.ne']
        exact List.mem_cons_of_mem _ (ih htail hmem)

/-- What is read off the entries stays, where a rewrite leaves it and an
insertion shows nothing. -/
theorem filterMap_upsertList_of_eq {β : Type*} {g : κ × V → Option β}
    {k : κ} {f : Option V → V} (hnone : g (k, f none) = none)
    (hsome : ∀ v, g (k, f (some v)) = g (k, v)) (l : List (κ × V)) :
    (upsertList k f l).filterMap g = l.filterMap g := by
  induction l with
  | nil => simp [upsertList, hnone]
  | cons e l ih =>
      obtain ⟨k₁, v₁⟩ := e
      rw [upsertList]
      by_cases hlt : k < k₁
      · rw [if_pos hlt, List.filterMap_cons_none hnone]
      rw [if_neg hlt]
      by_cases heq : k = k₁
      · rw [if_pos heq, ← heq, List.filterMap_cons, List.filterMap_cons,
          hsome]
      rw [if_neg heq, List.filterMap_cons, List.filterMap_cons, ih]

/-- A key that showed nothing shows one thing more behind an `upsert`. -/
theorem filterMap_upsertList_perm {β : Type*} {g : κ × V → Option β}
    {k : κ} {f : Option V → V} {x : β} (hnew : ∀ o, g (k, f o) = some x)
    {l : List (κ × V)} (hold : ∀ v, (k, v) ∈ l → g (k, v) = none) :
    ((upsertList k f l).filterMap g).Perm (x :: l.filterMap g) := by
  induction l with
  | nil => simp [upsertList, hnew]
  | cons e l ih =>
      obtain ⟨k₁, v₁⟩ := e
      rw [upsertList]
      by_cases hlt : k < k₁
      · rw [if_pos hlt, List.filterMap_cons_some (hnew none)]
      rw [if_neg hlt]
      by_cases heq : k = k₁
      · rw [if_pos heq, ← heq, List.filterMap_cons_some (hnew _),
          List.filterMap_cons_none (hold v₁ (heq ▸ List.mem_cons_self))]
      rw [if_neg heq]
      have htail := ih fun v hv => hold v (List.mem_cons_of_mem _ hv)
      cases hg : g (k₁, v₁) with
      | none =>
          rw [List.filterMap_cons_none hg, List.filterMap_cons_none hg]
          exact htail
      | some y =>
          rw [List.filterMap_cons_some hg, List.filterMap_cons_some hg]
          exact (htail.cons y).trans (List.Perm.swap x y _)

theorem upsertList_sorted (k : κ) (f : Option V → V) {l : List (κ × V)}
    (h : l.Pairwise fun a b => a.1 < b.1) :
    (upsertList k f l).Pairwise fun a b => a.1 < b.1 := by
  induction l with
  | nil => exact List.pairwise_singleton _ _
  | cons e l ih =>
      obtain ⟨k₁, v₁⟩ := e
      obtain ⟨hhead, htail⟩ := List.pairwise_cons.mp h
      rw [upsertList]
      by_cases hlt : k < k₁
      · rw [if_pos hlt]
        refine List.pairwise_cons.mpr ⟨?_, h⟩
        intro e he
        rcases List.mem_cons.mp he with rfl | he
        · exact hlt
        · exact lt_trans hlt (hhead e he)
      rw [if_neg hlt]
      by_cases heq : k = k₁
      · rw [if_pos heq]
        exact List.pairwise_cons.mpr ⟨hhead, htail⟩
      rw [if_neg heq]
      refine List.pairwise_cons.mpr ⟨?_, ih htail⟩
      rintro ⟨k', v'⟩ he
      rcases mem_upsertList he with hold | ⟨rfl, -⟩
      · exact hhead _ hold
      · exact lt_of_le_of_ne (not_lt.mp hlt) (Ne.symm heq)

/-- The keys behind an `upsert` are the old ones and its own. -/
theorem mem_keys_upsertList {k k' : κ} {f : Option V → V}
    {l : List (κ × V)} :
    k' ∈ (upsertList k f l).map Prod.fst
      ↔ k' = k ∨ k' ∈ l.map Prod.fst := by
  constructor
  · intro h
    obtain ⟨⟨k₁, v⟩, hmem, rfl⟩ := List.mem_map.mp h
    rcases mem_upsertList hmem with hold | ⟨hk, -⟩
    · exact Or.inr (List.mem_map_of_mem hold)
    · exact Or.inl hk
  · intro h
    by_cases hk : k' = k
    · obtain ⟨o, hmem, -⟩ := exists_mem_upsertList k f l
      exact List.mem_map.mpr ⟨_, hmem, hk.symm⟩
    · obtain ⟨⟨k₁, v⟩, hmem, rfl⟩ := List.mem_map.mp (h.resolve_left hk)
      exact List.mem_map.mpr ⟨_, mem_upsertList_of_ne hk hmem, rfl⟩

/-- Rewrite the value of `k`, or insert one. -/
def upsert (k : κ) (f : Option V → V) (m : OrdMap κ V) : OrdMap κ V :=
  ⟨upsertList k f m.entries, upsertList_sorted k f m.sorted⟩

/-- A key occurs once. -/
theorem keys_nodup (m : OrdMap κ V) : (m.entries.map Prod.fst).Nodup :=
  List.pairwise_map.mpr (m.sorted.imp ne_of_lt)

/-- There are as many entries as keys. -/
theorem length_eq_card {m : OrdMap κ V} {ks : Finset κ}
    (h : ∀ k, k ∈ m.entries.map Prod.fst ↔ k ∈ ks) :
    m.entries.length = ks.card := by
  have hsame : (m.entries.map Prod.fst).toFinset = ks := by
    ext k
    rw [List.mem_toFinset]
    exact h k
  rw [← hsame, List.toFinset_card_of_nodup m.keys_nodup, List.length_map]

/-- Keep some of the entries. -/
def restrict (m : OrdMap κ V) (l : List (κ × V))
    (h : l.Sublist m.entries) : OrdMap κ V :=
  ⟨l, m.sorted.sublist h⟩

/-- What every entry keeps under a rewrite of its key, and the inserted
value has, holds behind an `upsert`. -/
theorem upsert_forall {P : κ → V → Prop} {k : κ} {f : Option V → V}
    {m : OrdMap κ V} (h : ∀ e ∈ m.entries, P e.1 e.2) (hnone : P k (f none))
    (hsome : ∀ v, P k v → P k (f (some v))) :
    ∀ e ∈ (m.upsert k f).entries, P e.1 e.2 := by
  rintro ⟨k', v⟩ he
  rcases mem_upsertList he with hold | ⟨rfl, hv⟩
  · exact h _ hold
  rcases hv with rfl | ⟨v₀, hmem, rfl⟩
  · exact hnone
  · exact hsome v₀ (h _ hmem)

end OrdMap
