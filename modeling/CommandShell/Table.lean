/-! # Tables that keep the order of insertion

A finite map as the list of its pairs: a new key goes to the end, a known key keeps its place. Each
operation is described by what `get?` answers afterwards (`get?_put`, `get?_remove`). -/

namespace CommandShell

/-- A finite map from `κ` to `ν` whose keys stand in the order in which they were first put. -/
structure Table (κ : Type u) (ν : Type v) where
  /-- The pairs, oldest key first. -/
  toList : List (κ × ν)
deriving Repr, DecidableEq

namespace Table

variable {κ : Type u} {ν : Type v}

/-- The table without pairs. -/
def empty : Table κ ν := ⟨[]⟩

instance : EmptyCollection (Table κ ν) := ⟨empty⟩

instance : Inhabited (Table κ ν) := ⟨empty⟩

/-- The keys, oldest first. -/
def keys (t : Table κ ν) : List κ := t.toList.map Prod.fst

/-- The values, in the order of their keys. -/
def values (t : Table κ ν) : List ν := t.toList.map Prod.snd

/-- How many pairs there are. -/
def size (t : Table κ ν) : Nat := t.toList.length

/-- Drop the pairs that fail the test. -/
def filter (p : κ → ν → Bool) (t : Table κ ν) : Table κ ν := ⟨t.toList.filter fun (k, v) => p k v⟩

/-- Change all values. -/
def mapValues (f : ν → ν) (t : Table κ ν) : Table κ ν := ⟨t.toList.map fun (k, v) => (k, f v)⟩

variable [DecidableEq κ]

/-- The value stored under `k` in a list of pairs. -/
def lookup (k : κ) : List (κ × ν) → Option ν
  | [] => none
  | (k', v) :: rest => if k' = k then some v else lookup k rest

/-- The list of pairs with `v` under `k`: in the place of `k`, or at the end. -/
def store (k : κ) (v : ν) : List (κ × ν) → List (κ × ν)
  | [] => [(k, v)]
  | (k', v') :: rest => if k' = k then (k, v) :: rest else (k', v') :: store k v rest

/-- The value under a key. -/
def get? (t : Table κ ν) (k : κ) : Option ν := lookup k t.toList

/-- Whether a key has a value. -/
def contains (t : Table κ ν) (k : κ) : Bool := (t.get? k).isSome

/-- Put a value under a key: in the key's place, or at the end if the key is new. -/
def put (t : Table κ ν) (k : κ) (v : ν) : Table κ ν := ⟨store k v t.toList⟩

/-- Put a value under a key unless the key has one already. -/
def putNew (t : Table κ ν) (k : κ) (v : ν) : Table κ ν := if t.contains k then t else t.put k v

/-- Remove a key. -/
def remove (t : Table κ ν) (k : κ) : Table κ ν := t.filter fun k' _ => decide (k' ≠ k)

/-- The table of a list of pairs; of two pairs with one key the later value takes the earlier
place. -/
def ofList (pairs : List (κ × ν)) : Table κ ν :=
  pairs.foldl (fun t (k, v) => t.put k v) empty

/-! ## What is found -/

/-- The empty table has no value for any key. -/
@[simp] theorem get?_empty (k : κ) : (empty : Table κ ν).get? k = none := rfl

/-- Storing a value changes what is found under its own key only, wherever that key stood before. -/
theorem lookup_store (k k' : κ) (v : ν) (ps : List (κ × ν)) :
    lookup k' (store k v ps) = if k = k' then some v else lookup k' ps := by
  induction ps with
  | nil => simp [store, lookup]
  | cons p ps ih =>
    obtain ⟨k₀, v₀⟩ := p
    by_cases h : k₀ = k
    · subst h
      by_cases h' : k₀ = k' <;> simp [store, lookup, h']
    · by_cases h' : k₀ = k'
      · subst h'
        simp [store, lookup, h, Ne.symm h]
      · simp [store, lookup, h, h', ih]

/-- After a value is put under a key, it is found there, and every other key keeps its value. -/
theorem get?_put (t : Table κ ν) (k k' : κ) (v : ν) :
    (t.put k v).get? k' = if k = k' then some v else t.get? k' :=
  lookup_store k k' v t.toList

/-- What was put last under a key is found there. -/
@[simp] theorem get?_put_self (t : Table κ ν) (k : κ) (v : ν) : (t.put k v).get? k = some v := by
  simp [get?_put]

/-- Leaving out the pairs of one key loses what was found under this key and nothing else. -/
theorem lookup_filter (k k' : κ) (ps : List (κ × ν)) :
    lookup k' (ps.filter fun p => decide (p.1 ≠ k)) = if k = k' then none else lookup k' ps := by
  induction ps with
  | nil => simp [lookup]
  | cons p ps ih =>
    obtain ⟨k₀, v₀⟩ := p
    by_cases h : k₀ = k
    · subst h
      by_cases h' : k₀ = k' <;> simp_all [lookup]
    · by_cases h' : k₀ = k'
      · subst h'
        simp [lookup, h, Ne.symm h]
      · simp_all [lookup]

/-- After a key is removed nothing is found under it, and every other key keeps its value. -/
theorem get?_remove (t : Table κ ν) (k k' : κ) :
    (t.remove k).get? k' = if k = k' then none else t.get? k' :=
  lookup_filter k k' t.toList

/-- A removed key is not found. -/
@[simp] theorem get?_remove_self (t : Table κ ν) (k : κ) : (t.remove k).get? k = none := by
  simp [get?_remove]

end Table

end CommandShell
