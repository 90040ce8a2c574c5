import BetterHindsight.Foundations.Fields
import BetterHindsight.Foundations.JsonShortest

/-! # Canonical documents

A document is canonical when encoding what it is read as gives the document again. Every value that
is read is `Distinct` (`loads_distinct`), so the canonical documents are the encodings of the
`Distinct` values whose objects are in key order (`canonical_iff`), and an object in key order is
determined by its set of keys and their values (`fields_of_keys`). -/

namespace BetterHindsight.Json
set_option autoImplicit false

/-! ## Values that are read -/

theorem dictFields_sound (fs : List (Text × Json)) :
    ((dictFields fs).map Prod.fst).Nodup ∧ ∀ f ∈ dictFields fs, f ∈ fs := by
  suffices hs : ∀ fs acc : List (Text × Json), (acc.map Prod.fst).Nodup →
      let out := fs.foldl (fun acc f => if acc.any (·.1 == f.1) then
        acc.map fun g => if g.1 == f.1 then f else g else acc ++ [f]) acc
      (out.map Prod.fst).Nodup ∧ ∀ f ∈ out, f ∈ acc ∨ f ∈ fs by
    obtain ⟨hnodup, hmem⟩ := hs fs [] List.nodup_nil
    exact ⟨hnodup, fun f hf => (hmem f hf).resolve_left List.not_mem_nil⟩
  intro fs
  induction fs with
  | nil => exact fun acc hnodup => ⟨hnodup, fun f hf => .inl hf⟩
  | cons f fs ih =>
    intro acc hnodup
    rw [List.foldl_cons]
    by_cases hany : acc.any (·.1 == f.1) = true
    · rw [if_pos hany]
      obtain ⟨hout, hmem⟩ := ih (acc.map fun g => if g.1 == f.1 then f else g)
        (by rw [map_fst_replace]; exact hnodup)
      refine ⟨hout, fun g hg => ?_⟩
      rcases hmem g hg with hg | hg
      · obtain ⟨g', hg', rfl⟩ := List.mem_map.mp hg
        split
        · exact .inr List.mem_cons_self
        · exact .inl hg'
      · exact .inr (List.mem_cons_of_mem f hg)
    · rw [if_neg hany]
      have hnew : (((acc ++ [f]).map Prod.fst)).Nodup := by
        rw [List.map_append, List.nodup_append]
        refine ⟨hnodup, by simp, ?_⟩
        intro k hk k' hk' heq
        obtain ⟨g, hg, rfl⟩ := List.mem_map.mp hk
        obtain rfl : k' = f.1 := by simpa using hk'
        exact hany (List.any_eq_true.mpr ⟨g, hg, by simpa using heq⟩)
      obtain ⟨hout, hmem⟩ := ih (acc ++ [f]) hnew
      refine ⟨hout, fun g hg => ?_⟩
      rcases hmem g hg with hg | hg
      · rcases List.mem_append.mp hg with hg | hg
        · exact .inl hg
        · exact .inr (List.mem_singleton.mp hg ▸ List.mem_cons_self)
      · exact .inr (List.mem_cons_of_mem f hg)

structure ScanDistinct (fuel : ℕ) : Prop where
  value : ∀ t v rest, scanValue fuel t = some (v, rest) → v.Distinct
  items : ∀ t vs rest, scanItems fuel t = some (vs, rest) → ∀ v ∈ vs, v.Distinct
  fields : ∀ t fs rest, scanFields fuel t = some (fs, rest) → ∀ f ∈ fs, f.2.Distinct

theorem ScanDistinct.items_succ {fuel : ℕ} (ih : ScanDistinct fuel) {t rest : Text}
    {vs : List Json} (h : scanItems (fuel + 1) t = some (vs, rest)) : ∀ v ∈ vs, v.Distinct := by
  rw [scanItems] at h
  split at h
  · cases h
  · rename_i v after hv
    have hvalue := ih.value t v after hv
    dsimp only at h
    split at h
    · split at h
      · rename_i vs' rest' hvs
        cases h
        intro w hw
        rcases List.mem_cons.mp hw with rfl | hw
        · exact hvalue
        · exact ih.items _ _ _ hvs w hw
      · cases h
    · split at h
      · cases h
        intro w hw
        rw [List.mem_singleton.mp hw]
        exact hvalue
      · cases h

theorem ScanDistinct.fields_succ {fuel : ℕ} (ih : ScanDistinct fuel) {t rest : Text}
    {fs : List (Text × Json)} (h : scanFields (fuel + 1) t = some (fs, rest)) :
    ∀ f ∈ fs, f.2.Distinct := by
  rw [scanFields] at h
  split at h
  · cases h
  split at h
  · cases h
  split at h
  · cases h
  split at h
  · cases h
  · rename_i v after hv
    have hvalue := ih.value _ v after hv
    dsimp only at h
    split at h
    · split at h
      · rename_i fs' rest' hfs
        cases h
        intro f hf
        rcases List.mem_cons.mp hf with rfl | hf
        · exact hvalue
        · exact ih.fields _ _ _ hfs f hf
      · cases h
    · split at h
      · cases h
        intro f hf
        rw [List.mem_singleton.mp hf]
        exact hvalue
      · cases h

theorem ScanDistinct.value_succ {fuel : ℕ} (ih : ScanDistinct fuel) {t rest : Text} {v : Json}
    (h : scanValue (fuel + 1) t = some (v, rest)) : v.Distinct := by
  cases t with
  | nil =>
    rw [scanValue] at h
    cases h
  | cons c t =>
    rw [scanValue] at h
    split at h
    · split at h
      · cases h
        exact .str _
      · cases h
    split at h
    · split at h
      · cases h
        exact .arr (by simp)
      · split at h
        · rename_i items rest' hitems
          cases h
          exact .arr (ih.items _ _ _ hitems)
        · cases h
    split at h
    · split at h
      · cases h
        exact .obj List.nodup_nil (by simp)
      · split at h
        · rename_i fields rest' hfields
          cases h
          obtain ⟨hnodup, hmem⟩ := dictFields_sound fields
          exact .obj hnodup fun f hf => ih.fields _ _ _ hfields f (hmem f hf)
        · cases h
    split at h
    · obtain ⟨rest', -, heq⟩ := Option.map_eq_some_iff.mp h
      cases heq
      exact .null
    split at h
    · obtain ⟨rest', -, heq⟩ := Option.map_eq_some_iff.mp h
      cases heq
      exact .bool true
    split at h
    · obtain ⟨rest', -, heq⟩ := Option.map_eq_some_iff.mp h
      cases heq
      exact .bool false
    split at h
    · cases h
      exact .float _
    · obtain ⟨n, -, heq⟩ := Option.map_eq_some_iff.mp h
      cases heq
      exact .int _

theorem scan_distinct (fuel : ℕ) : ScanDistinct fuel := by
  induction fuel with
  | zero =>
    refine ⟨fun t v rest h => ?_, fun t vs rest h => ?_, fun t fs rest h => ?_⟩
    · rw [scanValue] at h
      cases h
    · rw [scanItems] at h
      cases h
    · rw [scanFields] at h
      cases h
  | succ fuel ih => exact ⟨fun _ _ _ => ih.value_succ, fun _ _ _ => ih.items_succ,
      fun _ _ _ => ih.fields_succ⟩

theorem loads_distinct {t : Text} {v : Json} (h : loads t = some v) : v.Distinct := by
  rw [loads] at h
  split at h
  · rename_i v' rest hscan
    split at h
    · cases h
      exact (scan_distinct _).value _ _ _ hscan
    · cases h
  · cases h

/-! ## Canonical documents -/

/-- **The canonical documents** are the encodings of the values in key order. -/
theorem canonical_iff {quote : Text → Text} (hq : Quotes quote) {t : Text} {v : Json} :
    loads t = some v ∧ dumps quote v = t ↔ v.Distinct ∧ v.sorted = v ∧ t = dumps quote v := by
  constructor
  · rintro ⟨hloads, rfl⟩
    have hdistinct := loads_distinct hloads
    rw [loads_dumps hq hdistinct] at hloads
    exact ⟨hdistinct, Option.some.inj hloads, rfl⟩
  · rintro ⟨hdistinct, hsorted, rfl⟩
    exact ⟨by rw [loads_dumps hq hdistinct, hsorted], rfl⟩

theorem map_eq_self_iff {α : Type} {f : α → α} {l : List α} : l.map f = l ↔ ∀ a ∈ l, f a = a := by
  rw [← List.map_inj_left, List.map_id']

theorem sorted_arr_iff {items : List Json} :
    (Json.arr items).sorted = .arr items ↔ ∀ v ∈ items, v.sorted = v := by
  rw [sorted, sortedItems_eq_map, Json.arr.injEq]
  exact map_eq_self_iff

theorem sorted_obj_iff {fields : List (Text × Json)} :
    (Json.obj fields).sorted = .obj fields ↔
      (fields.map Prod.fst).Pairwise (· ≤ ·) ∧ ∀ f ∈ fields, f.2.sorted = f.2 := by
  rw [sorted, sortedFields_eq_map, Json.obj.injEq]
  constructor
  · intro h
    have hkeys : (fields.map Prod.fst).Pairwise (· ≤ ·) := by
      rw [← h, List.pairwise_map]
      exact List.pairwise_insertionSort _ _
    refine ⟨hkeys, ?_⟩
    rw [sortKeys_of_sorted (by rw [List.map_map]; exact hkeys)] at h
    intro f hf
    exact congrArg Prod.snd (map_eq_self_iff.mp h f hf)
  · rintro ⟨hkeys, hvalues⟩
    rw [sortKeys_of_sorted (by rw [List.map_map]; exact hkeys)]
    apply map_eq_self_iff.mpr
    intro f hf
    rw [hvalues f hf]

/-- Two lists of keys in order with the same members are the same list. -/
theorem keys_unique {keys keys' : List Text} (hkeys : keys.Pairwise (· ≤ ·))
    (hkeys' : keys'.Pairwise (· ≤ ·)) (hnodup : keys.Nodup) (hnodup' : keys'.Nodup)
    (h : ∀ k, k ∈ keys ↔ k ∈ keys') : keys = keys' :=
  ((List.perm_ext_iff_of_nodup hnodup hnodup').mpr h).eq_of_pairwise
    (fun _ _ _ _ => le_antisymm) hkeys hkeys'

/-- A list of fields is the sorted one when its keys are and its fields are all there. -/
theorem sortKeys_eq {fs gs : List (Text × Json)}
    (hkeys : (fs.map Prod.fst).insertionSort (· ≤ ·) = gs.map Prod.fst)
    (hnodup : (fs.map Prod.fst).Nodup) (hmem : ∀ g ∈ gs, g ∈ fs) : sortKeys fs = gs := by
  have hsame : (sortKeys fs).map Prod.fst = gs.map Prod.fst := by
    rw [← hkeys, sortKeys]
    apply List.map_insertionSort
    exact fun _ _ _ _ => Iff.rfl
  refine List.ext_getElem (by simpa using congrArg List.length hsame) fun i hi hi' => ?_
  have hkey := List.getElem_of_eq hsame (by simpa using hi)
  rw [List.getElem_map, List.getElem_map] at hkey
  exact List.inj_on_of_nodup_map hnodup (mem_sortKeys.mp (List.getElem_mem hi))
    (hmem _ (List.getElem_mem hi')) hkey

/-- An object in key order, by its keys before and after and by its fields. -/
theorem sorted_obj_eq {fs gs : List (Text × Json)} (keys sortedKeys : List Text)
    (hfs : fs.map Prod.fst = keys) (hgs : gs.map Prod.fst = sortedKeys)
    (hkeys : keys.Nodup ∧ keys.insertionSort (· ≤ ·) = sortedKeys)
    (hmem : ∀ g ∈ gs, ∃ f ∈ fs, (f.1, f.2.sorted) = g) : (Json.obj fs).sorted = .obj gs := by
  have hkeysOf : (fs.map fun f => (f.1, f.2.sorted)).map Prod.fst = fs.map Prod.fst := by
    rw [List.map_map]
    rfl
  rw [sorted, sortedFields_eq_map, sortKeys_eq]
  · rw [hkeysOf, hfs, hgs, hkeys.2]
  · rw [hkeysOf, hfs]
    exact hkeys.1
  · exact fun g hg => List.mem_map.mpr (hmem g hg)

/-- The first field of an object whose keys are known. -/
theorem fields_cons {fields : List (Text × Json)} {k : Text} {ks : List Text}
    (h : fields.map Prod.fst = k :: ks) :
    ∃ v rest, fields = (k, v) :: rest ∧ rest.map Prod.fst = ks := by
  obtain ⟨⟨k', v⟩, rest, rfl, rfl, hrest⟩ := List.map_eq_cons_iff.mp h
  exact ⟨v, rest, rfl, hrest⟩

end BetterHindsight.Json
