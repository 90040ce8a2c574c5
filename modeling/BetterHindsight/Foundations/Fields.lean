import BetterHindsight.Foundations.JsonDecode

/-! # Objects that are written and read again

A dictionary as the list of its fields, and what is left of it after it was encoded in key order and
decoded.

* `setKey`: assignment to a key, `lookup_setKey`.
* `sorted_sorted`, `Distinct.sorted`: reading back a second time changes nothing more.
* `loads_obj`, `lookup_reload`: the fields that are read back. -/

namespace BetterHindsight.Json
set_option autoImplicit false

universe u

/-! ## Assignment -/

section Fields
variable {α : Type u}

/-- `fields[key] = value` -/
def setKey (fields : List (Text × α)) (key : Text) (value : α) : List (Text × α) :=
  if key ∈ fields.map Prod.fst then
    fields.map fun f => if f.1 = key then (key, value) else f
  else fields ++ [(key, value)]

theorem mem_setKey {fields : List (Text × α)} {key : Text} {value : α} {f : Text × α}
    (h : f ∈ setKey fields key value) : f ∈ fields ∨ f = (key, value) := by
  unfold setKey at h
  split at h
  · obtain ⟨g, hg, rfl⟩ := List.mem_map.mp h
    split
    · exact .inr rfl
    · exact .inl hg
  · rcases List.mem_append.mp h with h | h
    · exact .inl h
    · exact .inr (List.mem_singleton.mp h)

theorem keys_replaced (fields : List (Text × α)) (key : Text) (value : α) :
    (fields.map fun f => if f.1 = key then (key, value) else f).map Prod.fst =
      fields.map Prod.fst := by
  rw [List.map_map]
  apply List.map_congr_left
  intro f _
  rw [Function.comp_apply]
  split
  · rename_i h
    exact h.symm
  · rfl

theorem nodup_setKey {fields : List (Text × α)} (h : (fields.map Prod.fst).Nodup) (key : Text)
    (value : α) : ((setKey fields key value).map Prod.fst).Nodup := by
  unfold setKey
  split
  · rw [keys_replaced]
    exact h
  · rename_i hnew
    rw [List.map_append, List.nodup_append]
    refine ⟨h, by simp, ?_⟩
    intro a ha b hb hab
    obtain rfl : b = key := by simpa using hb
    exact hnew (hab ▸ ha)

theorem lookup_replaced (fields : List (Text × α)) {key other : Text} (value : α)
    (h : key ∈ fields.map Prod.fst) :
    (fields.map fun f => if f.1 = key then (key, value) else f).lookup other =
      if other = key then some value else fields.lookup other := by
  induction fields with
  | nil => cases h
  | cons f fields ih =>
    obtain ⟨k, v⟩ := f
    rw [List.map_cons]
    by_cases hk : k = key
    · subst hk
      by_cases hother : other = k
      · simp [hother]
      · have hrest : (fields.map fun f => if f.1 = k then (k, value) else f).lookup other =
            fields.lookup other := by
          by_cases hmem : k ∈ fields.map Prod.fst
          · rw [ih hmem, if_neg hother]
          · congr 1
            rw [← List.map_id fields, List.map_map]
            apply List.map_congr_left
            intro g hg
            exact if_neg fun hkey : g.1 = k => hmem (hkey ▸ List.mem_map_of_mem hg)
        have hne : (other == k) = false := by simpa using hother
        simp [List.lookup_cons, hne, hother, hrest]
    · have hmem : key ∈ fields.map Prod.fst := by
        rcases List.mem_cons.mp h with h | h
        · exact absurd h.symm hk
        · exact h
      rw [if_neg hk, List.lookup_cons, List.lookup_cons, ih hmem]
      by_cases hother : other = key
      · subst hother
        have hne : (other == k) = false := by simpa using Ne.symm hk
        simp [hne]
      · rw [if_neg hother, if_neg hother]

theorem lookup_eq_none {fields : List (Text × α)} {key : Text} :
    fields.lookup key = none ↔ key ∉ fields.map Prod.fst := by
  induction fields with
  | nil => simp
  | cons f fields ih =>
    rw [List.map_cons, List.mem_cons, not_or, List.lookup_cons]
    by_cases hk : key = f.1
    · simp [hk]
    · have hne : (key == f.1) = false := by simpa using hk
      rw [hne]
      exact ih.trans (and_iff_right hk).symm

theorem lookup_setKey (fields : List (Text × α)) (key other : Text) (value : α) :
    (setKey fields key value).lookup other =
      if other = key then some value else fields.lookup other := by
  unfold setKey
  split
  · rename_i h
    exact lookup_replaced fields value h
  · rename_i h
    rw [List.lookup_append]
    by_cases hother : other = key
    · subst hother
      rw [lookup_eq_none.mpr h]
      simp
    · have hne : (other == key) = false := by simpa using hother
      simp [List.lookup_cons, hne, hother]

end Fields

/-! ## Reading back -/

theorem sortKeys_sortKeys {α : Type u} (fs : List (Text × α)) :
    sortKeys (sortKeys fs) = sortKeys fs := by
  apply sortKeys_of_sorted
  rw [List.pairwise_map]
  exact List.pairwise_insertionSort _ fs

theorem sorted_sorted (v : Json) : v.sorted.sorted = v.sorted := by
  induction v using Json.induct with
  | harr items ih =>
    rw [sorted, sorted, sortedItems_eq_map, sortedItems_eq_map, List.map_map]
    congr 1
    exact List.map_congr_left ih
  | hobj fields ih =>
    rw [sorted, sorted, sortedFields_eq_map, sortedFields_eq_map,
      ← sortKeys_map fun _ v => Json.sorted v, sortKeys_sortKeys, List.map_map]
    congr 2
    apply List.map_congr_left
    intro f hf
    exact congrArg (Prod.mk f.1) (ih f hf)
  | _ => rfl

theorem Distinct.sorted {v : Json} (h : v.Distinct) : v.sorted.Distinct := by
  induction h with
  | arr h ih =>
    rw [Json.sorted, sortedItems_eq_map]
    refine .arr fun v hv => ?_
    obtain ⟨w, hw, rfl⟩ := List.mem_map.mp hv
    exact ih w hw
  | @obj fields nodup h ih =>
    rw [Json.sorted, sortedFields_eq_map]
    refine .obj (nodup_sortKeys ?_) fun f hf => ?_
    · rw [List.map_map]
      exact nodup
    · obtain ⟨g, hg, rfl⟩ := List.mem_map.mp (mem_sortKeys.mp hf)
      exact ih g hg
  | null => exact .null
  | bool b => exact .bool b
  | int n => exact .int n
  | float x => exact .float x
  | str t => exact .str t

/-- The encoding in key order is the plain encoding of the sorted value. -/
theorem dumps_eq_dumpsPlain (quote : Text → Text) (v : Json) :
    dumps quote v = dumpsPlain quote v.sorted := by
  induction v using Json.induct with
  | harr items ih =>
    rw [dumps_arr, sorted, dumpsPlain_arr, sortedItems_eq_map, List.map_map]
    rw [List.map_congr_left ih]
    rfl
  | hobj fields ih =>
    rw [dumps_obj, sorted, dumpsPlain_obj, sortedFields_eq_map,
      sortKeys_map fun _ v => Json.sorted v, List.map_map]
    have hfields : ∀ f ∈ sortKeys fields, quote f.1 ++ ':' :: dumps quote f.2 =
        quote f.1 ++ ':' :: dumpsPlain quote f.2.sorted := by
      intro f hf
      rw [ih f (mem_sortKeys.mp hf)]
    rw [List.map_congr_left hfields]
    rfl
  | hbool b => cases b <;> rfl
  | _ => rfl

/-- Two values have one encoding when they differ in the order of keys alone. -/
theorem dumps_eq_iff {quote : Text → Text} (hq : Quotes quote) {v w : Json} (hv : v.Distinct)
    (hw : w.Distinct) : dumps quote v = dumps quote w ↔ v.sorted = w.sorted := by
  constructor
  · exact dumps_injective hq hv hw
  · intro h
    rw [dumps_eq_dumpsPlain, dumps_eq_dumpsPlain, h]

/-- The fields of an encoded object, as they are read back. -/
def reload (fields : List (Text × Json)) : List (Text × Json) := sortKeys (sortedFields fields)

theorem loads_obj {quote : Text → Text} (hq : Quotes quote) {fields : List (Text × Json)}
    (h : (Json.obj fields).Distinct) : loads (dumps quote (.obj fields)) = some (.obj (reload fields)) :=
  loads_dumps hq h

theorem lookup_map {fields : List (Text × Json)} (f : Json → Json) (key : Text) :
    (fields.map fun field => (field.1, f field.2)).lookup key = (fields.lookup key).map f := by
  induction fields with
  | nil => rfl
  | cons field fields ih =>
    rw [List.map_cons, List.lookup_cons, List.lookup_cons, ih]
    cases key == field.1 <;> rfl

theorem lookup_reload {fields : List (Text × Json)} (h : (fields.map Prod.fst).Nodup) (key : Text) :
    (reload fields).lookup key = (fields.lookup key).map Json.sorted := by
  have hnodup : ((sortedFields fields).map Prod.fst).Nodup := by
    rw [sortedFields_eq_map, List.map_map]
    exact h
  rw [reload, lookup_sortKeys hnodup, sortedFields_eq_map, lookup_map]

/-- Objects that differ in the order of keys alone have the same values up to such an order. -/
theorem lookup_of_sorted {fields others : List (Text × Json)} (hf : (fields.map Prod.fst).Nodup)
    (ho : (others.map Prod.fst).Nodup) (h : (obj fields).sorted = (obj others).sorted)
    (key : Text) : (fields.lookup key).map Json.sorted = (others.lookup key).map Json.sorted := by
  have hreload : reload fields = reload others := Json.obj.inj h
  rw [← lookup_reload hf, ← lookup_reload ho, hreload]

theorem distinct_setKey {fields : List (Text × Json)} {key : Text} {value : Json}
    (h : (Json.obj fields).Distinct) (hvalue : value.Distinct) :
    (Json.obj (setKey fields key value)).Distinct := by
  cases h with
  | obj nodup h =>
    refine .obj (nodup_setKey nodup key value) fun f hf => ?_
    rcases mem_setKey hf with hf | rfl
    · exact h f hf
    · exact hvalue

end BetterHindsight.Json
