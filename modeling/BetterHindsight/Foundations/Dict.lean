import Mathlib

/-! # Insertion-ordered dictionaries

A finite map as the list of its entries in insertion order, with no key twice. Assigning a present
key keeps its place, assigning an absent key appends it; `filter` is the comprehension that keeps
some entries. Every operation has one lemma about `get?`, and `mem_entries` and `mem_values` lead
from the entry list back to `get?`. -/

namespace BetterHindsight
set_option autoImplicit false

universe u v

structure Dict (κ : Type u) (ν : Type v) where
  entries : List (κ × ν)
  nodup : (entries.map Prod.fst).Nodup

namespace Dict
variable {κ : Type u} {ν : Type v}

instance [DecidableEq κ] [DecidableEq ν] : DecidableEq (Dict κ ν) := fun a b =>
  decidable_of_iff (a.entries = b.entries) (by cases a; cases b; simp)

def empty : Dict κ ν := ⟨[], by simp⟩

def values (d : Dict κ ν) : List ν := d.entries.map Prod.snd

def isEmpty (d : Dict κ ν) : Bool := d.entries.isEmpty

/-- The entries that satisfy `p`, in their order. -/
def filter (d : Dict κ ν) (p : κ → ν → Bool) : Dict κ ν where
  entries := d.entries.filter fun e => p e.1 e.2
  nodup := d.nodup.sublist (List.filter_sublist.map _)

/-- Every value replaced in place. -/
def mapValues (d : Dict κ ν) (f : κ → ν → ν) : Dict κ ν where
  entries := d.entries.map fun e => (e.1, f e.1 e.2)
  nodup := by simpa [Function.comp_def] using d.nodup

variable [DecidableEq κ]

def get? (d : Dict κ ν) (k : κ) : Option ν := (d.entries.find? fun e => e.1 = k).map Prod.snd

def erase (d : Dict κ ν) (k : κ) : Dict κ ν := d.filter fun k' _ => k' ≠ k

theorem get?_eq_none {d : Dict κ ν} {k : κ} : d.get? k = none ↔ k ∉ d.entries.map Prod.fst := by
  simp only [get?, Option.map_eq_none_iff, List.find?_eq_none, decide_eq_true_eq, List.mem_map]
  exact ⟨fun h ⟨e, he, hk⟩ => h e he hk, fun h e he hk => h ⟨e, he, hk⟩⟩

def set (d : Dict κ ν) (k : κ) (v : ν) : Dict κ ν :=
  if h : d.get? k = none then
    { entries := d.entries ++ [(k, v)]
      nodup := by
        rw [List.map_append, List.nodup_append]
        refine ⟨d.nodup, by simp, ?_⟩
        intro a ha b hb hab
        obtain rfl : b = k := by simpa using hb
        exact get?_eq_none.mp h (hab ▸ ha) }
  else d.mapValues fun k' v' => if k' = k then v else v'

@[simp] theorem mem_entries {d : Dict κ ν} {k : κ} {v : ν} :
    (k, v) ∈ d.entries ↔ d.get? k = some v := by
  constructor
  · intro h
    have hs : (d.entries.find? fun e => e.1 = k).isSome := by
      rw [List.find?_isSome]
      exact ⟨_, h, by simp⟩
    obtain ⟨⟨k', v'⟩, he⟩ := Option.isSome_iff_exists.mp hs
    obtain rfl : k' = k := by simpa using List.find?_some he
    have hv : v' = v := by
      have hp := List.inj_on_of_nodup_map d.nodup (List.mem_of_find?_eq_some he) h rfl
      exact congrArg Prod.snd hp
    rw [get?, he, Option.map_some, hv]
  · intro h
    obtain ⟨⟨k', v'⟩, he, rfl⟩ := Option.map_eq_some_iff.mp h
    obtain rfl : k' = k := by simpa using List.find?_some he
    exact List.mem_of_find?_eq_some he

theorem ext_get? {d : Dict κ ν} {k : κ} {o : Option ν}
    (h : ∀ v, (k, v) ∈ d.entries ↔ o = some v) : d.get? k = o := by
  apply Option.ext
  intro v
  rw [← h, mem_entries]

@[simp] theorem get?_empty (k : κ) : (empty : Dict κ ν).get? k = none := rfl

@[simp] theorem get?_filter (d : Dict κ ν) (p : κ → ν → Bool) (k : κ) :
    (d.filter p).get? k = (d.get? k).filter (p k) := by
  apply ext_get?
  intro v
  simp [filter, List.mem_filter, Option.filter_eq_some_iff]

@[simp] theorem get?_erase (d : Dict κ ν) (k k' : κ) :
    (d.erase k').get? k = if k = k' then none else d.get? k := by
  rw [erase, get?_filter]
  by_cases h : k = k' <;> cases d.get? k <;> simp [h]

@[simp] theorem get?_mapValues (d : Dict κ ν) (f : κ → ν → ν) (k : κ) :
    (d.mapValues f).get? k = (d.get? k).map (f k) := by
  apply ext_get?
  intro v
  simp only [mapValues, List.mem_map, Prod.mk.injEq, Prod.exists, Option.map_eq_some_iff]
  constructor
  · rintro ⟨k', v', h, rfl, rfl⟩
    exact ⟨v', mem_entries.mp h, rfl⟩
  · rintro ⟨v', h, rfl⟩
    exact ⟨k, v', mem_entries.mpr h, rfl, rfl⟩

@[simp] theorem get?_set (d : Dict κ ν) (k k' : κ) (v : ν) :
    (d.set k' v).get? k = if k = k' then some v else d.get? k := by
  unfold set
  split
  · rename_i h
    apply ext_get?
    intro w
    by_cases hk : k = k'
    · subst hk
      simp [h, eq_comm]
    · simp [hk]
  · rename_i h
    rw [get?_mapValues]
    by_cases hk : k = k'
    · subst hk
      obtain ⟨w, hw⟩ := Option.ne_none_iff_exists'.mp h
      simp [hw]
    · cases d.get? k <;> simp [hk]

@[simp] theorem mem_values {d : Dict κ ν} {v : ν} : v ∈ d.values ↔ ∃ k, d.get? k = some v := by
  simp [values]

theorem entries_set_of_none {d : Dict κ ν} {k : κ} (h : d.get? k = none) (v : ν) :
    (d.set k v).entries = d.entries ++ [(k, v)] := by
  simp [set, h]

theorem entries_set_of_some {d : Dict κ ν} {k : κ} {w : ν} (h : d.get? k = some w) (v : ν) :
    (d.set k v).entries = d.entries.map fun e => (e.1, if e.1 = k then v else e.2) := by
  simp [set, h, mapValues]

/-- The entry of a key. -/
theorem filter_entries_key (d : Dict κ ν) (k : κ) :
    d.entries.filter (fun e => e.1 = k) = ((d.get? k).map fun v => (k, v)).toList := by
  obtain ⟨entries, hnodup⟩ := d
  simp only [get?]
  induction entries with
  | nil => rfl
  | cons e entries ih =>
    rw [List.map_cons, List.nodup_cons] at hnodup
    by_cases hk : e.1 = k
    · have hrest : entries.filter (fun e => e.1 = k) = [] := by
        rw [List.filter_eq_nil_iff]
        intro e' he' hk'
        exact hnodup.1 (hk.trans (of_decide_eq_true hk').symm ▸ List.mem_map_of_mem he')
      obtain ⟨key, v⟩ := e
      obtain rfl : key = k := hk
      simp [hrest]
    · simpa [hk] using ih hnodup.2

theorem values_set {d : Dict κ ν} {k : κ} (h : d.get? k = none) (v : ν) :
    (d.set k v).values = d.values ++ [v] := by
  simp [set, h, values]

theorem isEmpty_iff {d : Dict κ ν} : d.isEmpty = true ↔ ∀ k, d.get? k = none := by
  rw [isEmpty, List.isEmpty_iff]
  constructor
  · intro h k
    simp [get?, h]
  · intro h
    apply List.eq_nil_iff_forall_not_mem.mpr
    rintro ⟨k, v⟩ he
    rw [mem_entries, h k] at he
    simp at he

/-- `{**d, **other}` -/
def update (d other : Dict κ ν) : Dict κ ν := other.entries.foldl (fun d e => d.set e.1 e.2) d

theorem get?_foldl_set (entries : List (κ × ν)) (hnodup : (entries.map Prod.fst).Nodup)
    (d : Dict κ ν) (k : κ) :
    (entries.foldl (fun d e => d.set e.1 e.2) d).get? k =
      ((entries.find? fun e => e.1 = k).map Prod.snd).or (d.get? k) := by
  induction entries generalizing d with
  | nil => rfl
  | cons e entries ih =>
    rw [List.map_cons, List.nodup_cons] at hnodup
    rw [List.foldl_cons, ih hnodup.2, get?_set]
    by_cases hk : e.1 = k
    · have hrest : entries.find? (fun e => e.1 = k) = none := by
        rw [List.find?_eq_none]
        intro e' he' hk'
        exact hnodup.1 (hk.trans (of_decide_eq_true hk').symm ▸ List.mem_map_of_mem he')
      rw [List.find?_cons_of_pos (by simpa using hk), hrest, if_pos hk.symm]
      rfl
    · rw [List.find?_cons_of_neg (by simpa using hk), if_neg (Ne.symm hk)]

theorem get?_update (d other : Dict κ ν) (k : κ) :
    (d.update other).get? k = (other.get? k).or (d.get? k) :=
  get?_foldl_set other.entries other.nodup d k

/-- The loop that deletes the oldest entry while there are more than `limit`. -/
def deleteOldest (d : Dict κ ν) (limit : ℕ) : Dict κ ν where
  entries := d.entries.drop (d.entries.length - limit)
  nodup := d.nodup.sublist ((List.drop_sublist _ _).map _)

omit [DecidableEq κ] in
theorem deleteOldest_of_le {d : Dict κ ν} {limit : ℕ} (h : d.entries.length ≤ limit) :
    d.deleteOldest limit = d := by
  simp [deleteOldest, Nat.sub_eq_zero_of_le h]

theorem get?_deleteOldest {d : Dict κ ν} {limit : ℕ} {k : κ} {v : ν}
    (h : (d.deleteOldest limit).get? k = some v) : d.get? k = some v := by
  rw [← mem_entries] at h ⊢
  exact List.mem_of_mem_drop h

/-- No more entries than possible keys. -/
theorem length_le_of_keys {d : Dict κ ν} {keys : List κ}
    (h : ∀ k v, d.get? k = some v → k ∈ keys) : d.entries.length ≤ keys.length := by
  have hsubset : d.entries.map Prod.fst ⊆ keys := by
    intro k hk
    obtain ⟨⟨k', v⟩, he, rfl⟩ := List.mem_map.mp hk
    exact h k' v (mem_entries.mp he)
  have hle := (d.nodup.subperm hsubset).length_le
  simpa using hle

theorem length_erase {d : Dict κ ν} {k : κ} {v : ν} (h : d.get? k = some v) :
    (d.erase k).entries.length < d.entries.length := by
  have hmem := mem_entries.mpr h
  exact List.length_filter_lt_length_iff_exists.mpr ⟨_, hmem, by simp⟩

end Dict

end BetterHindsight
