import CommandShell.Table
import Mathlib.Data.Fintype.EquivFin
import Mathlib.Data.String.Basic

/-! # Keys of a table

What putting a value does to the list of pairs: a new key goes to the end, a known key keeps its place,
and no key stands there twice. What has names that stay apart is strictly ascending once it is sorted by
them (`pairwise_mergeSort_by_lt`). -/

namespace CommandShell

/-! ## Sorting by a name -/

section

variable {α : Type u} (name : α → String) {xs : List α}

/-- What is sorted by a name is ascending. -/
theorem pairwise_mergeSort_by_le (xs : List α) :
    (xs.mergeSort fun a b => decide (name a ≤ name b)).Pairwise fun a b => name a ≤ name b := by
  refine (List.pairwise_mergeSort ?_ ?_ _).imp ?_
  · intro a b c hab hbc
    exact decide_eq_true ((of_decide_eq_true hab).trans (of_decide_eq_true hbc))
  · intro a b
    simpa using le_total (name a) (name b)
  · intro a b h
    exact of_decide_eq_true h

/-- What is sorted by names that are all different is strictly ascending. -/
theorem pairwise_mergeSort_by_lt (h : (xs.map name).Nodup) :
    (xs.mergeSort fun a b => decide (name a ≤ name b)).Pairwise fun a b => name a < name b := by
  have hnodup : ((xs.mergeSort fun a b => decide (name a ≤ name b)).map name).Nodup :=
    ((List.mergeSort_perm xs _).map name).nodup_iff.mpr h
  exact ((pairwise_mergeSort_by_le name xs).and (List.pairwise_map.mp hnodup)).imp
    fun hlt => lt_of_le_of_ne hlt.1 hlt.2

end

namespace Table

variable {κ : Type u} {ν : Type v} [DecidableEq κ]

/-- A pair with a new key is stored behind the others. -/
theorem store_of_not_mem {k : κ} {ps : List (κ × ν)} (h : k ∉ ps.map Prod.fst) (v : ν) :
    store k v ps = ps ++ [(k, v)] := by
  induction ps with
  | nil => rfl
  | cons p ps ih =>
    rw [List.map_cons, List.mem_cons, not_or] at h
    obtain ⟨hhead, htail⟩ := h
    rw [store, if_neg (Ne.symm hhead), ih htail]
    rfl

/-- A key that is new goes to the end. -/
theorem put_of_not_mem {t : Table κ ν} {k : κ} (h : k ∉ t.keys) (v : ν) :
    t.put k v = ⟨t.toList ++ [(k, v)]⟩ := by
  rw [put, store_of_not_mem h]

/-- Storing keeps the keys and their order, and puts a new one behind them. -/
theorem map_fst_store (k : κ) (v : ν) (ps : List (κ × ν)) :
    (store k v ps).map Prod.fst
      = if k ∈ ps.map Prod.fst then ps.map Prod.fst else ps.map Prod.fst ++ [k] := by
  induction ps with
  | nil => rfl
  | cons p ps ih =>
    by_cases hk : p.1 = k
    · rw [store, if_pos hk, if_pos (by simp [hk])]
      simp [hk]
    · rw [store, if_neg hk, List.map_cons, ih, List.map_cons]
      have hmem : k ∈ p.1 :: ps.map Prod.fst ↔ k ∈ ps.map Prod.fst := by
        rw [List.mem_cons, or_iff_right (Ne.symm hk)]
      simp only [hmem]
      split <;> rfl

/-- The keys of a table stay apart. -/
theorem nodup_keys_put {t : Table κ ν} (h : t.keys.Nodup) (k : κ) (v : ν) :
    (t.put k v).keys.Nodup := by
  show ((store k v t.toList).map Prod.fst).Nodup
  rw [map_fst_store]
  split
  · exact h
  · rename_i hk
    exact List.nodup_append.mpr ⟨h, by simp, by
      rintro a ha b hb rfl
      exact hk (List.mem_singleton.mp hb ▸ ha)⟩

/-- Keys stay different when a value is put where none was. -/
theorem nodup_keys_putNew {t : Table κ ν} (h : t.keys.Nodup) (k : κ) (v : ν) :
    (t.putNew k v).keys.Nodup := by
  unfold putNew
  split
  · exact h
  · exact nodup_keys_put h k v

/-- The last value that is put stays. -/
theorem put_put (t : Table κ ν) (k : κ) (u v : ν) : (t.put k u).put k v = t.put k v := by
  have hgo (ps : List (κ × ν)) : store k v (store k u ps) = store k v ps := by
    induction ps with
    | nil => rw [store, store, store, if_pos rfl]
    | cons p ps ih =>
      by_cases hk : p.1 = k
      · rw [store, if_pos hk, store, if_pos rfl, store, if_pos hk]
      · rw [store, if_neg hk, store, if_neg hk, store, if_neg hk, ih]
  rw [put, put, put, hgo]

/-- Putting what is there changes nothing. -/
theorem put_of_get? {t : Table κ ν} {k : κ} {v : ν} (h : t.get? k = some v) : t.put k v = t := by
  have hgo (ps : List (κ × ν)) (hps : lookup k ps = some v) : store k v ps = ps := by
    induction ps with
    | nil => cases hps
    | cons p ps ih =>
      rw [lookup] at hps
      by_cases hk : p.1 = k
      · rw [if_pos hk] at hps
        rw [store, if_pos hk, ← hk, ← Option.some.inj hps]
      · rw [if_neg hk] at hps
        rw [store, if_neg hk, ih hps]
  rw [put, hgo t.toList h]

/-- A value that is put where none was does not replace one that was there. -/
theorem get?_putNew (t : Table κ ν) (k k' : κ) (v : ν) :
    (t.putNew k v).get? k' = (t.get? k').or (if k = k' then some v else none) := by
  unfold putNew contains
  by_cases hk : k = k'
  · subst hk
    cases h : t.get? k <;> simp [h]
  · rw [if_neg hk, Option.or_none]
    split
    · rfl
    · rw [get?_put, if_neg hk]

/-- The pairs after a value was put are this one and earlier ones. -/
theorem mem_put {t : Table κ ν} {k : κ} {v : ν} {p : κ × ν} (h : p ∈ (t.put k v).toList) :
    p = (k, v) ∨ p ∈ t.toList := by
  have hgo : ∀ ps : List (κ × ν), p ∈ store k v ps → p = (k, v) ∨ p ∈ ps := by
    intro ps
    induction ps with
    | nil => exact fun hp => .inl (List.mem_singleton.mp hp)
    | cons q ps ih =>
      intro hp
      rw [store] at hp
      split at hp
      · rcases List.mem_cons.mp hp with hp | hp
        · exact .inl hp
        · exact .inr (List.mem_cons_of_mem _ hp)
      · rcases List.mem_cons.mp hp with hp | hp
        · exact .inr (hp ▸ List.mem_cons_self)
        · exact (ih hp).imp_right (List.mem_cons_of_mem _)
  exact hgo t.toList h

/-- What is found under a key stands in the table. -/
theorem mem_of_get? {t : Table κ ν} {k : κ} {v : ν} (h : t.get? k = some v) :
    (k, v) ∈ t.toList := by
  have hgo : ∀ ps : List (κ × ν), lookup k ps = some v → (k, v) ∈ ps := by
    intro ps
    induction ps with
    | nil => exact fun hp => (by cases hp)
    | cons p ps ih =>
      intro hp
      rw [lookup] at hp
      split at hp
      · rename_i hk
        rw [← Option.some.inj hp, ← hk]
        exact List.mem_cons_self
      · exact List.mem_cons_of_mem _ (ih hp)
  exact hgo t.toList h

/-- A pair of a table in which no key stands twice is what is found under its key. -/
theorem get?_of_mem {t : Table κ ν} (h : t.keys.Nodup) {k : κ} {v : ν} (hmem : (k, v) ∈ t.toList) :
    t.get? k = some v := by
  have hgo : ∀ ps : List (κ × ν), (ps.map Prod.fst).Nodup → (k, v) ∈ ps → lookup k ps = some v := by
    intro ps
    induction ps with
    | nil => exact fun _ hp => absurd hp List.not_mem_nil
    | cons p ps ih =>
      intro hps hp
      rw [List.map_cons, List.nodup_cons] at hps
      rcases List.mem_cons.mp hp with rfl | hp
      · rw [lookup, if_pos rfl]
      · rw [lookup, if_neg, ih hps.2 hp]
        rintro rfl
        exact hps.1 (List.mem_map.mpr ⟨(p.1, v), hp, rfl⟩)
  exact hgo t.toList h hmem

/-- What is kept by its key is found, and nothing else. -/
theorem get?_filter (t : Table κ ν) (test : κ → Bool) (k : κ) :
    (t.filter fun k _ => test k).get? k = if test k = true then t.get? k else none := by
  have hgo : ∀ ps : List (κ × ν), lookup k (ps.filter fun p => test p.1)
      = if test k = true then lookup k ps else none := by
    intro ps
    induction ps with
    | nil => simp [lookup]
    | cons p ps ih =>
      rw [List.filter_cons, lookup]
      by_cases hk : p.1 = k
      · rw [if_pos hk, hk]
        by_cases htest : test k = true
        · rw [if_pos htest, if_pos htest, lookup, if_pos hk]
        · rw [if_neg htest, if_neg htest, ih, if_neg htest]
      · rw [if_neg hk]
        split
        · rw [lookup, if_neg hk, ih]
        · exact ih
  exact hgo t.toList

/-- The keys of a table are those that have a value. -/
theorem mem_keys_iff {t : Table κ ν} {k : κ} : k ∈ t.keys ↔ ∃ v, t.get? k = some v := by
  constructor
  · intro h
    obtain ⟨⟨k', v⟩, hmem, rfl⟩ := List.mem_map.mp h
    have hgo : ∀ ps : List (κ × ν), (k', v) ∈ ps → ∃ v, lookup k' ps = some v := by
      intro ps
      induction ps with
      | nil => exact fun hp => absurd hp List.not_mem_nil
      | cons p ps ih =>
        intro hp
        by_cases hk : p.1 = k'
        · exact ⟨p.2, by rw [lookup, if_pos hk]⟩
        · rcases List.mem_cons.mp hp with rfl | hp
          · exact absurd rfl hk
          · rw [lookup, if_neg hk]
            exact ih hp
    exact hgo t.toList hmem
  · rintro ⟨v, hv⟩
    exact List.mem_map.mpr ⟨(k, v), mem_of_get? hv, rfl⟩

/-- There is always another key. -/
theorem exists_get?_eq_none [Infinite κ] (t : Table κ ν) : ∃ k, t.get? k = none := by
  obtain ⟨k, hk⟩ := Infinite.exists_notMem_finset t.keys.toFinset
  refine ⟨k, ?_⟩
  rw [List.mem_toFinset, mem_keys_iff] at hk
  exact Option.eq_none_iff_forall_ne_some.mpr fun v hv => hk ⟨v, hv⟩

/-- Removing a key adds no pairs. -/
theorem mem_of_mem_remove {t : Table κ ν} {k : κ} {p : κ × ν} (h : p ∈ (t.remove k).toList) :
    p ∈ t.toList :=
  (List.mem_filter.mp h).1

/-- Keys stay different when one is removed. -/
theorem nodup_keys_remove {t : Table κ ν} (h : t.keys.Nodup) (k : κ) : (t.remove k).keys.Nodup :=
  List.Nodup.sublist (List.Sublist.map Prod.fst List.filter_sublist) h

end Table

end CommandShell
