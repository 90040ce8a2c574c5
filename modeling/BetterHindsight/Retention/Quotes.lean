import BetterHindsight.Retention.Paragraphs
import BetterHindsight.Retention.Turns

/-! # What packed records quote

The paragraphs of one record are joined by the separator before each of them. A paragraph that is
dropped because it is blank takes a separator with it.

* `joined`: the text of adjacent paragraphs in one record; `packAll_chunks`.
* `DropsBetween`: a blank paragraph between two others.
* `joined_source`: what the joined paragraphs are in their source.
* `packed_records_quote`: when every record quotes its source. -/

namespace BetterHindsight
set_option autoImplicit false

/-! ## Chunks -/

/-- The paragraphs of one record, without the separator before the first. -/
def joined : List (Text × Text) → Text
  | [] => []
  | (_, paragraph) :: rest => paragraph ++ rest.flatMap fun entry => entry.1 ++ entry.2

theorem joined_append {chunk : List (Text × Text)} (hne : chunk ≠ []) (rest : List (Text × Text)) :
    joined (chunk ++ rest) = joined chunk ++ rest.flatMap fun entry => entry.1 ++ entry.2 := by
  cases chunk with
  | nil => exact absurd rfl hne
  | cons entry chunk => simp [joined]

theorem joined_infix {a chunk b : List (Text × Text)} :
    joined chunk <:+: joined (a ++ chunk ++ b) := by
  cases chunk with
  | nil => exact List.nil_infix
  | cons entry chunk =>
    cases a with
    | nil =>
      rw [List.nil_append, joined_append (List.cons_ne_nil _ _)]
      exact (List.prefix_append _ _).isInfix
    | cons first a =>
      refine ⟨joined (first :: a) ++ entry.1, b.flatMap fun e => e.1 ++ e.2, ?_⟩
      rw [joined_append (by simp), joined_append (List.cons_ne_nil _ _)]
      simp [joined]

namespace PackContext

/-- What is packed is a chunk of paragraphs. -/
structure Holds (p : Packing) (chunk : List (Text × Text)) : Prop where
  text : p.packed.flatten = joined chunk
  empty : p.packed = [] ↔ chunk = []

/-- One round extends the chunk, or writes it to a record and starts the next. -/
theorem pack_chunk {ctx : PackContext} {p p' : Packing} {entry : Text × Text}
    {chunk : List (Text × Text)} (hp : Holds p chunk) (h : ctx.pack p entry = .ok p') :
    (p'.contents = p.contents ∧ Holds p' (chunk ++ [entry])) ∨
      (p'.contents = p.contents ++ [ctx.record (some (joined chunk))] ∧ Holds p' [entry]) := by
  obtain ⟨separator, paragraph⟩ := entry
  simp only [pack] at h
  split at h
  · cases h
  · split at h
    · cases h
    · rename_i q hflush
      unfold flush at hflush
      split at hflush
      · -- the packed chunk becomes a record
        simp only at hflush
        split at hflush
        · cases hflush
        · cases hflush
          cases h
          refine .inr ⟨by rw [hp.text], ⟨by simp [joined], by simp⟩⟩
      · cases hflush
        split at h
        · rename_i hempty
          cases h
          obtain rfl := hp.empty.mp hempty
          exact .inl ⟨rfl, ⟨by simp [joined], by simp⟩⟩
        · rename_i hne
          cases h
          have hchunk : chunk ≠ [] := fun h => hne (hp.empty.mpr h)
          refine .inl ⟨rfl, ⟨?_, by simp⟩⟩
          rw [joined_append hchunk, ← hp.text]
          simp

theorem packAll_chunks {ctx : PackContext} {entries chunk : List (Text × Text)} {p p' : Packing}
    (hp : Holds p chunk) (h : ctx.packAll entries p = .ok p') :
    ∃ (chunks : List (List (Text × Text))) (last : List (Text × Text)),
      chunks.flatten ++ last = chunk ++ entries ∧ Holds p' last ∧
      p'.contents = p.contents ++ chunks.map fun c => ctx.record (some (joined c)) := by
  induction entries generalizing p chunk with
  | nil =>
    cases h
    exact ⟨[], chunk, by simp, hp, by simp⟩
  | cons entry entries ih =>
    rw [packAll] at h
    split at h
    · cases h
    · rename_i q hpack
      rcases pack_chunk hp hpack with ⟨hcontents, hq⟩ | ⟨hcontents, hq⟩
      · obtain ⟨chunks, last, hjoin, hlast, hrecords⟩ := ih hq h
        exact ⟨chunks, last, by simp [hjoin], hlast, by rw [hrecords, hcontents]⟩
      · obtain ⟨chunks, last, hjoin, hlast, hrecords⟩ := ih hq h
        refine ⟨chunk :: chunks, last, by simp [hjoin], hlast, ?_⟩
        rw [hrecords, hcontents]
        simp

/-- The records of a role hold its text, or each a chunk of its paragraphs. -/
theorem roleContents_chunks {ctx : PackContext} {contents contents' : List Text}
    (h : ctx.roleContents contents = .ok contents') :
    contents' = contents ++ [ctx.record (some ctx.role.content)] ∨
      ∃ (chunks : List (List (Text × Text))) (entries : List (Text × Text)),
        semanticParagraphs ctx.role.content = .ok entries ∧ chunks.flatten = entries ∧
        contents' = contents ++ chunks.map fun c => ctx.record (some (joined c)) := by
  unfold roleContents at h
  simp only at h
  split at h
  · obtain ⟨rfl, -⟩ := capContents_eq_ok.mp h
    exact .inl rfl
  · split at h
    · cases h
    · rename_i entries hentries
      split at h
      · cases h
      · rename_i p hpack
        obtain ⟨rfl, -⟩ := capContents_eq_ok.mp h
        have hempty : Holds ⟨contents, [], ctx.overhead⟩ [] := ⟨rfl, by simp⟩
        obtain ⟨chunks, last, hjoin, hlast, hrecords⟩ := packAll_chunks hempty hpack
        refine .inr ⟨chunks ++ [last], entries, hentries, by simpa using hjoin, ?_⟩
        rw [hrecords, hlast.text]
        simp

end PackContext

/-! ## All records -/

/-- What every record of each role holds, every record of the turn holds. -/
theorem rolesContents_bodies {Q : RetainedRole → Text → Prop} {common : List (Text × Json)}
    {maxBytes : ℤ} {limit : Option ℤ} {roles : List RetainedRole} {contents contents' : List Text}
    (hrole : ∀ role ∈ roles, ∀ contents contents' : List Text,
      PackContext.roleContents ⟨common, role, maxBytes, limit⟩ contents = .ok contents' →
        ∃ bodies : List Text,
          contents' = contents ++ bodies.map (fun body => recordOf common [(role, body)]) ∧
          ∀ body ∈ bodies, Q role body)
    (h : rolesContents common maxBytes limit roles contents = .ok contents') :
    ∃ records : List Bodies, contents' = contents ++ records.map (recordOf common) ∧
      ∀ record ∈ records, ∀ b ∈ record, b.1 ∈ roles ∧ Q b.1 b.2 := by
  induction roles generalizing contents with
  | nil =>
    cases h
    exact ⟨[], by simp, by simp⟩
  | cons role roles ih =>
    rw [rolesContents] at h
    split at h
    · cases h
    · rename_i contents₁ hthis
      obtain ⟨bodies, hadd, hq⟩ := hrole role List.mem_cons_self _ _ hthis
      obtain ⟨records, hrecords, hall⟩ :=
        ih (fun r hr => hrole r (List.mem_cons_of_mem _ hr)) h
      refine ⟨bodies.map (fun body => [(role, body)]) ++ records, ?_, ?_⟩
      · rw [hrecords, hadd, List.map_append, List.map_map, List.append_assoc]
        rfl
      · intro record hrecord b hb
        rcases List.mem_append.mp hrecord with hrecord | hrecord
        · obtain ⟨body, hbody, rfl⟩ := List.mem_map.mp hrecord
          obtain rfl := List.mem_singleton.mp hb
          exact ⟨List.mem_cons_self, hq body hbody⟩
        · obtain ⟨hmem, hqb⟩ := hall record hrecord b hb
          exact ⟨List.mem_cons_of_mem _ hmem, hqb⟩

theorem semanticContents_bodies {Q : RetainedRole → Text → Prop} {common : List (Text × Json)}
    {maxBytes : ℤ} {limit : Option ℤ} {roles : List RetainedRole} {contents : List Text}
    (hwhole : ∀ role ∈ roles, Q role role.content)
    (hrole : ∀ role ∈ roles, ∀ contents contents' : List Text,
      PackContext.roleContents ⟨common, role, maxBytes, limit⟩ contents = .ok contents' →
        ∃ bodies : List Text,
          contents' = contents ++ bodies.map (fun body => recordOf common [(role, body)]) ∧
          ∀ body ∈ bodies, Q role body)
    (h : semanticContents common roles maxBytes limit = .ok contents) :
    ∃ records : List Bodies, contents = records.map (recordOf common) ∧
      ∀ record ∈ records, ∀ b ∈ record, b.1 ∈ roles ∧ Q b.1 b.2 := by
  simp only [semanticContents] at h
  split at h
  · split at h
    · cases h
    · cases h
      refine ⟨[roles.map fun role => (role, role.content)], ?_, ?_⟩
      · simp [recordOf, rolePayload_none, Function.comp_def]
      · intro record hrecord b hb
        obtain rfl := List.mem_singleton.mp hrecord
        obtain ⟨role, hmem, rfl⟩ := List.mem_map.mp hb
        exact ⟨hmem, hwhole role hmem⟩
  · split at h
    · cases h
    · rename_i contents' hroles
      split at h
      · cases h
      · cases h
        obtain ⟨records, hrecords, hall⟩ := rolesContents_bodies hrole hroles
        exact ⟨records, by simpa using hrecords, hall⟩

/-! ## The source of the paragraphs -/

/-- The pieces between the separators, blank ones included. -/
def paragraphsOf (text : Text) : List Text :=
  (PARAGRAPH_SEPARATOR_PATTERN.finditer text).1.map Prod.fst ++
    [(PARAGRAPH_SEPARATOR_PATTERN.finditer text).2]

/-- A blank piece before one that is not. -/
def BlankBefore (pieces : List Text) : Prop :=
  ∃ before blank after, pieces = before ++ blank :: after ∧ isBlank blank = true ∧
    ∃ p ∈ after, isBlank p = false

/-- A blank piece between two that are not. -/
def DropsBetween (pieces : List Text) : Prop :=
  ∃ before blank after, pieces = before ++ blank :: after ∧ isBlank blank = true ∧
    (∃ p ∈ before, isBlank p = false) ∧ ∃ p ∈ after, isBlank p = false

theorem blankBefore_cons (p : Text) (pieces : List Text) : BlankBefore (p :: pieces) ↔
    (isBlank p = true ∧ ∃ q ∈ pieces, isBlank q = false) ∨ BlankBefore pieces := by
  constructor
  · rintro ⟨before, blank, after, heq, hblank, hafter⟩
    cases before with
    | nil =>
      obtain ⟨rfl, rfl⟩ := List.cons.inj heq
      exact .inl ⟨hblank, hafter⟩
    | cons first before =>
      obtain ⟨-, rfl⟩ := List.cons.inj heq
      exact .inr ⟨before, blank, after, rfl, hblank, hafter⟩
  · rintro (⟨hblank, hafter⟩ | ⟨before, blank, after, rfl, hblank, hafter⟩)
    · exact ⟨[], p, pieces, rfl, hblank, hafter⟩
    · exact ⟨p :: before, blank, after, rfl, hblank, hafter⟩

theorem dropsBetween_cons (p : Text) (pieces : List Text) : DropsBetween (p :: pieces) ↔
    if isBlank p then DropsBetween pieces else BlankBefore pieces := by
  constructor
  · rintro ⟨before, blank, after, heq, hblank, ⟨q, hq, hnot⟩, hafter⟩
    cases before with
    | nil => simp at hq
    | cons first before =>
      obtain ⟨rfl, rfl⟩ := List.cons.inj heq
      split
      · rename_i hp
        refine ⟨before, blank, after, rfl, hblank, ⟨q, ?_, hnot⟩, hafter⟩
        rcases List.mem_cons.mp hq with rfl | hq
        · rw [hp] at hnot
          cases hnot
        · exact hq
      · exact ⟨before, blank, after, rfl, hblank, hafter⟩
  · intro h
    split at h
    · obtain ⟨before, blank, after, rfl, hblank, ⟨q, hq, hnot⟩, hafter⟩ := h
      exact ⟨p :: before, blank, after, rfl, hblank, ⟨q, List.mem_cons_of_mem p hq, hnot⟩, hafter⟩
    · rename_i hp
      obtain ⟨before, blank, after, rfl, hblank, hafter⟩ := h
      exact ⟨p :: before, blank, after, rfl, hblank, ⟨p, List.mem_cons_self, by simpa using hp⟩,
        hafter⟩

theorem collectParagraphs_blank {gaps : List (Text × Regex.Match)} {tail : Text}
    (h : ¬ ∃ p ∈ gaps.map Prod.fst ++ [tail], isBlank p = false) (separator : Text) :
    collectParagraphs separator gaps tail = [] := by
  induction gaps generalizing separator with
  | nil =>
    have htail : isBlank tail = true := by simpa using h
    simp [collectParagraphs, htail]
  | cons gap gaps ih =>
    obtain ⟨p, m⟩ := gap
    have hp : isBlank p = true := by
      by_contra hnot
      exact h ⟨p, by simp, by simpa using hnot⟩
    simp only [collectParagraphs, hp, if_true]
    refine ih ?_ _
    rintro ⟨q, hq, hnot⟩
    exact h ⟨q, by simpa using .inr (by simpa using hq), hnot⟩

theorem collectParagraphs_ne_nil {gaps : List (Text × Regex.Match)} {tail separator : Text}
    (h : ∃ p ∈ gaps.map Prod.fst ++ [tail], isBlank p = false) :
    collectParagraphs separator gaps tail ≠ [] := by
  induction gaps generalizing separator with
  | nil =>
    have htail : isBlank tail = false := by simpa using h
    simp [collectParagraphs, htail]
  | cons gap gaps ih =>
    obtain ⟨p, m⟩ := gap
    cases hp : isBlank p with
    | false => simp [collectParagraphs, hp]
    | true =>
      simp only [collectParagraphs, hp, if_true]
      refine ih ?_
      obtain ⟨q, hq, hnot⟩ := h
      rcases List.mem_cons.mp hq with rfl | hq
      · rw [hp] at hnot
        cases hnot
      · exact ⟨q, hq, hnot⟩

/-- The text that gaps, matches and the rest make up. -/
def sourceOf (gaps : List (Text × Regex.Match)) (tail : Text) : Text :=
  (gaps.flatMap fun p => p.1 ++ p.2.text) ++ tail

theorem sourceOf_blank {gaps : List (Text × Regex.Match)} {tail : Text}
    (hgaps : ∀ p ∈ gaps, ∀ c ∈ p.2.text, isSpace c = true)
    (h : ¬ ∃ p ∈ gaps.map Prod.fst ++ [tail], isBlank p = false) :
    ∀ c ∈ sourceOf gaps tail, isSpace c = true := by
  have hpiece : ∀ p ∈ gaps.map Prod.fst ++ [tail], ∀ c ∈ p, isSpace c = true := by
    intro p hp
    refine isBlank_iff.mp ?_
    by_contra hnot
    exact h ⟨p, hp, by simpa using hnot⟩
  intro c hc
  rcases List.mem_append.mp hc with hc | hc
  · obtain ⟨gap, hgap, hc⟩ := List.mem_flatMap.mp hc
    rcases List.mem_append.mp hc with hc | hc
    · exact hpiece gap.1 (List.mem_append_left _ (List.mem_map_of_mem hgap)) c hc
    · exact hgaps gap hgap c hc
  · exact hpiece tail (by simp) c hc

/-- After a kept paragraph: what the source has up to the last kept one, and what is joined. -/
theorem source_after {gaps : List (Text × Regex.Match)} {tail separator : Text}
    (hsep : separator ≠ []) (hne : ∀ p ∈ gaps, p.2.text ≠ [])
    (hgaps : ∀ p ∈ gaps, ∀ c ∈ p.2.text, isSpace c = true)
    (h : ∃ p ∈ gaps.map Prod.fst ++ [tail], isBlank p = false) :
    ∃ source kept last rest, separator ++ sourceOf gaps tail = source ++ last ++ rest ∧
      (collectParagraphs separator gaps tail).flatMap (fun e => e.1 ++ e.2) = kept ++ last ∧
      isBlank last = false ∧ (∀ c ∈ rest, isSpace c = true) ∧ kept.Sublist source ∧
      (BlankBefore (gaps.map Prod.fst ++ [tail]) → kept.length < source.length) ∧
      (¬ BlankBefore (gaps.map Prod.fst ++ [tail]) → kept = source) := by
  induction gaps generalizing separator with
  | nil =>
    have htail : isBlank tail = false := by simpa using h
    refine ⟨separator, separator, tail, [], by simp [sourceOf], by simp [collectParagraphs, htail],
      htail, by simp, List.Sublist.refl _, fun hblank => ?_, fun _ => rfl⟩
    rw [List.map_nil, List.nil_append, blankBefore_cons, htail] at hblank
    obtain ⟨before, blank, after, heq, -⟩ := hblank.resolve_left (by simp)
    simp at heq
  | cons gap gaps ih =>
    obtain ⟨p, m⟩ := gap
    have hm : m.text ≠ [] := hne (p, m) List.mem_cons_self
    have hrest := ih hm (fun q hq => hne q (List.mem_cons_of_mem _ hq))
          (fun q hq => hgaps q (List.mem_cons_of_mem _ hq))
    have hsource : sourceOf ((p, m) :: gaps) tail = p ++ (m.text ++ sourceOf gaps tail) := by
      simp [sourceOf]
    rw [hsource, List.map_cons, List.cons_append, blankBefore_cons]
    cases hp : isBlank p with
    | false =>
      simp only [collectParagraphs, hp, Bool.false_eq_true, if_false, List.flatMap_cons, false_and,
        false_or]
      by_cases hmore : ∃ q ∈ gaps.map Prod.fst ++ [tail], isBlank q = false
      · obtain ⟨source, kept, last, rest, hjoin, hkept, hlast, hspace, hsub, hlt, heq⟩ :=
          hrest hmore
        refine ⟨separator ++ p ++ source, separator ++ p ++ kept, last, rest, ?_, ?_, hlast, hspace,
          (List.Sublist.refl _).append hsub, fun hb => ?_, fun hb => ?_⟩
        · rw [hjoin]
          simp
        · rw [hkept]
          simp
        · have hlt' := hlt hb
          simp only [List.length_append]
          omega
        · rw [heq hb]
      · refine ⟨separator, separator, p, m.text ++ sourceOf gaps tail, by simp, ?_, hp, ?_,
          List.Sublist.refl _, fun hb => ?_, fun _ => rfl⟩
        · rw [collectParagraphs_blank hmore]
          simp
        · intro c hc
          rcases List.mem_append.mp hc with hc | hc
          · exact hgaps (p, m) List.mem_cons_self c hc
          · exact sourceOf_blank (fun q hq => hgaps q (List.mem_cons_of_mem _ hq)) hmore c hc
        · obtain ⟨before, blank, after, heq, -, q, hq, hnot⟩ := hb
          exact absurd ⟨q, by rw [heq]; simp [hq], hnot⟩ hmore
    | true =>
      simp only [collectParagraphs, hp, if_true]
      have hmore : ∃ q ∈ gaps.map Prod.fst ++ [tail], isBlank q = false := by
        obtain ⟨q, hq, hnot⟩ := h
        rcases List.mem_cons.mp hq with rfl | hq
        · rw [hp] at hnot
          cases hnot
        · exact ⟨q, hq, hnot⟩
      obtain ⟨source, kept, last, rest, hjoin, hkept, hlast, hspace, hsub, -, -⟩ := hrest hmore
      refine ⟨separator ++ p ++ source, kept, last, rest, ?_, hkept, hlast, hspace,
        hsub.trans (List.sublist_append_right _ _), fun _ => ?_,
        fun hb => absurd (.inl ⟨trivial, hmore⟩) hb⟩
      · rw [hjoin]
        simp
      · have hle := hsub.length_le
        have hpos := List.length_pos_iff.mpr hsep
        simp only [List.length_append]
        omega

/-- What is joined of a whole text: all from its first kept paragraph to its last, or less of what
is between these two. -/
theorem source_joined {gaps : List (Text × Regex.Match)} {tail separator : Text}
    (hne : ∀ p ∈ gaps, p.2.text ≠ [])
    (hgaps : ∀ p ∈ gaps, ∀ c ∈ p.2.text, isSpace c = true)
    (h : ∃ p ∈ gaps.map Prod.fst ++ [tail], isBlank p = false) :
    ∃ lead between rest, sourceOf gaps tail = lead ++ between ++ rest ∧
      (∀ c ∈ lead, isSpace c = true) ∧ (∀ c ∈ rest, isSpace c = true) ∧
      (¬ DropsBetween (gaps.map Prod.fst ++ [tail]) →
        joined (collectParagraphs separator gaps tail) = between) ∧
      (DropsBetween (gaps.map Prod.fst ++ [tail]) → ∃ first last source kept,
        isBlank first = false ∧ isBlank last = false ∧ between = first ++ source ++ last ∧
        joined (collectParagraphs separator gaps tail) = first ++ kept ++ last ∧
        kept.Sublist source ∧ kept.length < source.length) := by
  induction gaps generalizing separator with
  | nil =>
    have htail : isBlank tail = false := by simpa using h
    refine ⟨[], tail, [], by simp [sourceOf], by simp, by simp,
      fun _ => by simp [collectParagraphs, htail, joined], fun hdrops => ?_⟩
    rw [List.map_nil, List.nil_append, dropsBetween_cons, htail] at hdrops
    obtain ⟨before, blank, after, heq, -⟩ := hdrops
    simp at heq
  | cons gap gaps ih =>
    obtain ⟨p, m⟩ := gap
    have hm : m.text ≠ [] := hne (p, m) List.mem_cons_self
    have hne' := fun q hq => hne q (List.mem_cons_of_mem (p, m) hq)
    have hgaps' := fun q hq => hgaps q (List.mem_cons_of_mem (p, m) hq)
    have hsource : sourceOf ((p, m) :: gaps) tail = p ++ (m.text ++ sourceOf gaps tail) := by
      simp [sourceOf]
    rw [hsource, List.map_cons, List.cons_append, dropsBetween_cons]
    cases hp : isBlank p with
    | false =>
      simp only [collectParagraphs, hp, Bool.false_eq_true, if_false, joined]
      by_cases hmore : ∃ q ∈ gaps.map Prod.fst ++ [tail], isBlank q = false
      · obtain ⟨source, kept, last, rest, hjoin, hkept, hlast, hspace, hsub, hlt, heq⟩ :=
          source_after hm hne' hgaps' hmore
        refine ⟨[], p ++ source ++ last, rest, ?_, by simp, hspace, fun hb => ?_, fun hb => ?_⟩
        · rw [hjoin]
          simp
        · rw [hkept, heq hb]
          simp
        · exact ⟨p, last, source, kept, hp, hlast, rfl, by rw [hkept]; simp, hsub, hlt hb⟩
      · refine ⟨[], p, m.text ++ sourceOf gaps tail, by simp, by simp, ?_, fun _ => ?_, fun hb => ?_⟩
        · intro c hc
          rcases List.mem_append.mp hc with hc | hc
          · exact hgaps (p, m) List.mem_cons_self c hc
          · exact sourceOf_blank hgaps' hmore c hc
        · rw [collectParagraphs_blank hmore]
          simp
        · obtain ⟨before, blank, after, heq, -, q, hq, hnot⟩ := hb
          exact absurd ⟨q, by rw [heq]; simp [hq], hnot⟩ hmore
    | true =>
      simp only [collectParagraphs, hp, if_true]
      have hmore : ∃ q ∈ gaps.map Prod.fst ++ [tail], isBlank q = false := by
        obtain ⟨q, hq, hnot⟩ := h
        rcases List.mem_cons.mp hq with rfl | hq
        · rw [hp] at hnot
          cases hnot
        · exact ⟨q, hq, hnot⟩
      obtain ⟨lead, between, rest, hjoin, hlead, hrest, heq, hlt⟩ :=
        @ih m.text hne' hgaps' hmore
      refine ⟨p ++ m.text ++ lead, between, rest, ?_, ?_, hrest, heq, hlt⟩
      · rw [hjoin]
        simp
      · intro c hc
        simp only [List.mem_append] at hc
        rcases hc with (hc | hc) | hc
        · exact isBlank_iff.mp hp c hc
        · exact hgaps (p, m) List.mem_cons_self c hc
        · exact hlead c hc

/-! ## Quoting -/

/-- The whitespace at the start of a text. -/
def leadingSpace (t : Text) : ℕ := (t.takeWhile isSpace).length

theorem leadingSpace_append {x : Text} (hx : ∀ c ∈ x, isSpace c = true) (t : Text) :
    leadingSpace (x ++ t) = x.length + leadingSpace t := by
  rw [leadingSpace, List.takeWhile_append_of_pos hx, List.length_append, leadingSpace]

theorem leadingSpace_of_not_blank {p : Text} (hp : isBlank p = false) (t : Text) :
    leadingSpace (p ++ t) = leadingSpace p := by
  have hlen : (p.takeWhile isSpace).length ≠ p.length := by
    intro heq
    have hall := List.takeWhile_eq_self_iff.mp ((List.takeWhile_prefix _).eq_of_length heq)
    rw [isBlank_iff.mpr fun c hc => by simpa using hall c hc] at hp
    cases hp
  rw [leadingSpace, List.takeWhile_append, if_neg hlen, leadingSpace]

theorem isBlank_reverse (t : Text) : isBlank t.reverse = isBlank t := by
  rw [Bool.eq_iff_iff, isBlank_iff, isBlank_iff]
  simp

/-- Two ways to put whitespace around texts that begin and end alike leave equal lengths between. -/
theorem between_length {x y lead rest first last kept source : Text}
    (hx : ∀ c ∈ x, isSpace c = true) (hy : ∀ c ∈ y, isSpace c = true)
    (hlead : ∀ c ∈ lead, isSpace c = true) (hrest : ∀ c ∈ rest, isSpace c = true)
    (hfirst : isBlank first = false) (hlast : isBlank last = false)
    (h : x ++ (first ++ kept ++ last) ++ y = lead ++ (first ++ source ++ last) ++ rest) :
    kept.length = source.length := by
  have hstart : x.length = lead.length := by
    have hspace := congrArg leadingSpace h
    simp only [List.append_assoc] at hspace
    rw [leadingSpace_append hx, leadingSpace_append hlead, leadingSpace_of_not_blank hfirst,
      leadingSpace_of_not_blank hfirst] at hspace
    omega
  have hend : y.length = rest.length := by
    have hspace := congrArg (fun t => leadingSpace t.reverse) h
    simp only [List.reverse_append, List.append_assoc] at hspace
    rw [leadingSpace_append (fun c hc => hy c (List.mem_reverse.mp hc)),
      leadingSpace_append (fun c hc => hrest c (List.mem_reverse.mp hc)),
      leadingSpace_of_not_blank ((isBlank_reverse last).trans hlast),
      leadingSpace_of_not_blank ((isBlank_reverse last).trans hlast), List.length_reverse,
      List.length_reverse] at hspace
    omega
  have hlen := congrArg List.length h
  simp only [List.length_append] at hlen
  omega

theorem deleteSpace_joined {entries : List (Text × Text)}
    (hsep : ∀ entry ∈ entries, ∀ c ∈ entry.1, isSpace c = true) :
    deleteSpace (joined entries) = deleteSpace (entries.flatMap Prod.snd) := by
  have hrest : ∀ rest : List (Text × Text), (∀ entry ∈ rest, ∀ c ∈ entry.1, isSpace c = true) →
      deleteSpace (rest.flatMap fun e => e.1 ++ e.2) = deleteSpace (rest.flatMap Prod.snd) := by
    intro rest h
    induction rest with
    | nil => rfl
    | cons entry rest ih =>
      have hentry := deleteSpace_eq_nil (h entry List.mem_cons_self)
      have htail := ih fun e he => h e (List.mem_cons_of_mem entry he)
      simp [hentry, htail]
  cases entries with
  | nil => rfl
  | cons entry entries =>
    have htail := hrest entries fun e he => hsep e (List.mem_cons_of_mem entry he)
    simp [joined, htail]

/-- A part of a text that has all its characters but whitespace has only whitespace around it. -/
theorem space_around {x t y : Text} (h : deleteSpace (x ++ t ++ y) = deleteSpace t) :
    (∀ c ∈ x, isSpace c = true) ∧ ∀ c ∈ y, isSpace c = true := by
  have hlen := congrArg List.length h
  simp only [deleteSpace_append, List.length_append] at hlen
  have hnil : ∀ u : Text, (deleteSpace u).length = 0 → ∀ c ∈ u, isSpace c = true := by
    intro u hu c hc
    have hempty := List.filter_eq_nil_iff.mp (List.length_eq_zero_iff.mp hu) c hc
    simpa using hempty
  exact ⟨hnil x (by omega), hnil y (by omega)⟩

/-- The joined paragraphs of a text are a part of it unless a blank one between them is dropped. -/
theorem joined_source {text : Text} {entries : List (Text × Text)}
    (h : semanticParagraphs text = .ok entries) :
    (¬ DropsBetween (paragraphsOf text) → joined entries <:+: text) ∧
      (DropsBetween (paragraphsOf text) → ¬ joined entries <:+: text ∧
        ∃ lead first source last rest kept, text = lead ++ (first ++ source ++ last) ++ rest ∧
          joined entries = first ++ kept ++ last ∧ kept.Sublist source ∧
          kept.length < source.length) := by
  obtain ⟨hne, hsep, htext⟩ := semanticParagraphs_spec h
  simp only [semanticParagraphs] at h
  split at h
  · cases h
  · rename_i hsome
    cases h
    have hjoin := Regex.finditer_join PARAGRAPH_SEPARATOR_PATTERN text
    have hgaps := Regex.finditer_within _ separator_within text
    have hmatches : ∀ p ∈ (PARAGRAPH_SEPARATOR_PATTERN.finditer text).1, p.2.text ≠ [] :=
      Regex.finditer_ne_nil _ text
    have hsome : ∃ p ∈ paragraphsOf text, isBlank p = false := by
      by_contra hno
      exact hsome (collectParagraphs_blank hno [])
    obtain ⟨lead, between, rest, hsource, hlead, hrest, heq, hlt⟩ :=
      @source_joined _ _ [] hmatches hgaps hsome
    rw [sourceOf, hjoin] at hsource
    refine ⟨fun hb => ?_, fun hb => ?_⟩
    · rw [heq hb]
      exact ⟨lead, rest, hsource.symm⟩
    · obtain ⟨first, last, source, kept, hfirst, hlast, hbetween, hkept, hsub, hshort⟩ := hlt hb
      rw [hbetween] at hsource
      refine ⟨?_, lead, first, source, last, rest, kept, hsource, hkept, hsub, hshort⟩
      rintro ⟨x, y, hxy⟩
      have hspace := deleteSpace_joined hsep
      rw [htext] at hspace
      obtain ⟨hx, hy⟩ := space_around (x := x) (y := y) (by rw [hxy, hspace])
      rw [hkept, hsource] at hxy
      exact hshort.ne (between_length hx hy hlead hrest hfirst hlast hxy)

/-! ## All paragraphs in one record -/

theorem escapeRaw_pos (c : Char) : 1 ≤ utf8Len (Json.escapeRaw c) := by
  unfold Json.escapeRaw
  have hsize := Char.utf8Size_pos c
  have hback : Char.utf8Size '\\' = 1 := by decide
  split
  · simp only [utf8Len_cons, hback]
    omega
  · split
    · simp only [Json.unicodeEscape, utf8Len_cons, hback]
      omega
    · simp only [utf8Len_cons, utf8Len_nil]
      omega

theorem escapedLen_sublist {s t : Text} (h : s.Sublist t) :
    Json.escapedLen s + t.length ≤ Json.escapedLen t + s.length := by
  induction h with
  | slnil => simp
  | @cons s t c _ ih =>
    have hpos := escapeRaw_pos c
    have hcons := Json.escapedLen_append [c] t
    simp only [List.singleton_append] at hcons
    have hone : Json.escapedLen [c] = utf8Len (Json.escapeRaw c) := by simp [Json.escapedLen]
    rw [hcons, hone, List.length_cons]
    omega
  | @cons_cons s t c _ ih =>
    have hs := Json.escapedLen_append [c] s
    have ht := Json.escapedLen_append [c] t
    simp only [List.singleton_append] at hs ht
    rw [hs, ht, List.length_cons, List.length_cons]
    omega

namespace PackContext

/-- A round that neither rejects nor starts a record. -/
theorem pack_room {ctx : PackContext} {chunk : List (Text × Text)} {p : Packing}
    {separator paragraph : Text} (hp : Holds p chunk)
    (hbytes : p.packedBytes = ctx.overhead + Json.escapedLen p.packed.flatten)
    (hroom : ((ctx.overhead +
      Json.escapedLen (joined (chunk ++ [(separator, paragraph)])) : ℕ) : ℤ) ≤ ctx.maxBytes) :
    ∃ q, ctx.pack p (separator, paragraph) = .ok q ∧ q.contents = p.contents ∧
      Holds q (chunk ++ [(separator, paragraph)]) ∧
      q.packedBytes = ctx.overhead + Json.escapedLen q.packed.flatten := by
  rw [pack]
  simp only [utf8Len_canonicalJson_str]
  by_cases hempty : p.packed = []
  · obtain rfl := hp.empty.mp hempty
    have hflush : ctx.flush (Json.escapedLen separator) (Json.escapedLen paragraph) p = .ok p :=
      if_neg fun hfull => hfull.1 hempty
    have hpar : joined ([] ++ [(separator, paragraph)]) = paragraph := by simp [joined]
    rw [hpar] at hroom
    rw [hempty, List.flatten_nil, Json.escapedLen_nil] at hbytes
    rw [if_neg (by omega), hflush]
    refine ⟨_, if_pos hempty, rfl, ⟨by simp [joined], by simp⟩, ?_⟩
    simp [hbytes]
  · have hchunk : chunk ≠ [] := fun h => hempty (hp.empty.mpr h)
    have hjoin : joined (chunk ++ [(separator, paragraph)]) =
        p.packed.flatten ++ (separator ++ paragraph) := by
      rw [joined_append hchunk, ← hp.text]
      simp
    rw [hjoin, Json.escapedLen_append, Json.escapedLen_append] at hroom
    have hflush : ctx.flush (Json.escapedLen separator) (Json.escapedLen paragraph) p = .ok p :=
      if_neg fun hfull => by
        have hsize := hfull.2
        omega
    rw [if_neg (by omega), hflush]
    refine ⟨_, if_neg hempty, rfl, ⟨by rw [hjoin]; simp, by simp⟩, ?_⟩
    simp only [List.flatten_append, List.flatten_cons, List.flatten_nil, List.append_nil,
      Json.escapedLen_append]
    omega

/-- Where all paragraphs fit one record, they are packed into one. -/
theorem packAll_one {ctx : PackContext} {entries chunk : List (Text × Text)} {p : Packing}
    (hp : Holds p chunk)
    (hbytes : p.packedBytes = ctx.overhead + Json.escapedLen p.packed.flatten)
    (hroom : ((ctx.overhead + Json.escapedLen (joined (chunk ++ entries)) : ℕ) : ℤ) ≤
      ctx.maxBytes) :
    ∃ p', ctx.packAll entries p = .ok p' ∧ p'.contents = p.contents ∧
      Holds p' (chunk ++ entries) := by
  induction entries generalizing p chunk with
  | nil => exact ⟨p, rfl, rfl, by simpa using hp⟩
  | cons entry entries ih =>
    have hjoin : joined (chunk ++ entry :: entries) = joined (chunk ++ [entry]) ++
        entries.flatMap fun e => e.1 ++ e.2 := by
      rw [← joined_append (by simp)]
      simp
    have hfirst : ((ctx.overhead + Json.escapedLen (joined (chunk ++ [entry])) : ℕ) : ℤ) ≤
        ctx.maxBytes := by
      rw [hjoin, Json.escapedLen_append] at hroom
      omega
    obtain ⟨q, hq, hcontents, hholds, hqbytes⟩ := pack_room hp hbytes hfirst
    obtain ⟨p', hp', hcontents', hholds'⟩ := ih hholds hqbytes (by simpa using hroom)
    refine ⟨p', ?_, hcontents'.trans hcontents, by simpa using hholds'⟩
    rw [packAll, hq]
    exact hp'

/-- A role whose paragraphs fit one record, though its whole text does not. -/
theorem roleContents_one {ctx : PackContext} {entries : List (Text × Text)} {contents : List Text}
    (hsplit : semanticParagraphs ctx.role.content = .ok entries)
    (hlimit : ctx.segmentCountLimit = none)
    (hbig : ctx.maxBytes < utf8Len (ctx.record none))
    (hroom : (utf8Len (ctx.record (some (joined entries))) : ℤ) ≤ ctx.maxBytes) :
    ctx.roleContents contents = .ok (contents ++ [ctx.record (some (joined entries))]) := by
  rw [utf8Len_record] at hroom
  have hempty : Holds ⟨contents, [], ctx.overhead⟩ [] := ⟨rfl, by simp⟩
  obtain ⟨p, hp, hcontents, hholds⟩ := packAll_one hempty (by simp) hroom
  rw [List.nil_append] at hholds
  rw [roleContents]
  simp only [if_neg (Int.not_le.mpr hbig), hsplit, hp, hcontents, hholds.text, hlimit]
  rfl

end PackContext

/-- A record of two roles is longer than one of the second role. -/
theorem utf8Len_eventContent_second (common : List (Text × Json)) (a b : Json) :
    utf8Len (eventContent common [b]) ≤ utf8Len (eventContent common [a, b]) := by
  unfold eventContent canonicalJson
  rw [Json.utf8Len_dumps_obj, Json.utf8Len_dumps_obj]
  simp only [List.map_append, List.map_cons, List.map_nil, List.sum_append, List.sum_cons,
    List.sum_nil, Json.dumps_arr, Json.joinComma, utf8Len_cons, utf8Len_append,
    List.length_append, List.length_cons, List.length_nil]
  omega

/-- A text that both roles say. -/
def saidTwice (text : Text) : List RetainedRole :=
  [⟨"user", text, none⟩, ⟨"assistant", text, none⟩]

/-- The size of the assistant's record with this body. -/
def assistantBytes (common : List (Text × Json)) (text body : Text) : ℕ :=
  utf8Len (recordOf common [(⟨"assistant", text, none⟩, body)])

theorem assistantBytes_eq (common : List (Text × Json)) (text body : Text) :
    assistantBytes common text body = assistantBytes common text [] + Json.escapedLen body :=
  PackContext.utf8Len_record ⟨common, ⟨"assistant", text, none⟩, 0, none⟩ body

theorem assistantBytes_pos (common : List (Text × Json)) (text body : Text) :
    0 < assistantBytes common text body := by
  unfold assistantBytes recordOf
  cases h : eventContent common
      ([((⟨"assistant", text, none⟩, body) : RetainedRole × Text)].map fun b =>
        rolePayload b.1 (some b.2)) with
  | nil => exact absurd h (eventContent_ne_nil _ _)
  | cons c t =>
    have hc := Char.utf8Size_pos c
    rw [utf8Len_cons]
    omega

/-- The user's record is the shorter one. -/
theorem userBytes_le (common : List (Text × Json)) (text body : Text) :
    utf8Len (recordOf common [(⟨"user", text, none⟩, body)]) ≤ assistantBytes common text body := by
  have huser : utf8Len (recordOf common [(⟨"user", text, none⟩, body)]) =
      utf8Len (recordOf common [(⟨"user", text, none⟩, [])]) + Json.escapedLen body :=
    PackContext.utf8Len_record ⟨common, ⟨"user", text, none⟩, 0, none⟩ body
  have hnames : utf8Len (Json.dumps Json.quoteRaw
      (.obj [("role", .str "user".toList), ("content", .str [])])) ≤ utf8Len (Json.dumps
        Json.quoteRaw (.obj [("role", .str "assistant".toList), ("content", .str [])])) := by
    decide
  have hempty : utf8Len (recordOf common [(⟨"user", text, none⟩, [])]) ≤
      assistantBytes common text [] := by
    unfold assistantBytes recordOf eventContent canonicalJson
    rw [Json.utf8Len_dumps_obj, Json.utf8Len_dumps_obj]
    simp only [List.map_append, List.map_cons, List.map_nil, List.sum_append, List.sum_cons,
      List.sum_nil, Json.dumps_arr, Json.joinComma, utf8Len_cons, utf8Len_append,
      List.length_append, List.length_cons, List.length_nil]
    unfold rolePayload
    simp only [Option.getD_some]
    omega
  rw [huser, assistantBytes_eq]
  omega

/-- The limit at which the assistant's paragraphs fit one record and its whole text does not. -/
theorem semanticContents_saidTwice (common : List (Text × Json)) {text : Text}
    {entries : List (Text × Text)} (hentries : semanticParagraphs text = .ok entries)
    (hsize : Json.escapedLen (joined entries) < Json.escapedLen text) :
    ∃ body, semanticContents common (saidTwice text)
      (assistantBytes common text (joined entries)) none =
        .ok ([[(⟨"user", text, none⟩, body)],
          [(⟨"assistant", text, none⟩, joined entries)]].map (recordOf common)) := by
  have hbig : assistantBytes common text (joined entries) < assistantBytes common text text := by
    rw [assistantBytes_eq, assistantBytes_eq common text text]
    omega
  have hassistant : ∀ contents, PackContext.roleContents ⟨common, ⟨"assistant", text, none⟩,
      assistantBytes common text (joined entries), none⟩ contents =
        .ok (contents ++ [recordOf common [(⟨"assistant", text, none⟩, joined entries)]]) :=
    fun contents => PackContext.roleContents_one hentries rfl (Int.ofNat_lt.mpr hbig) le_rfl
  obtain ⟨body, huser⟩ : ∃ body, ∀ contents, PackContext.roleContents
      ⟨common, ⟨"user", text, none⟩, assistantBytes common text (joined entries), none⟩ contents =
        .ok (contents ++ [recordOf common [(⟨"user", text, none⟩, body)]]) := by
    by_cases hfits : utf8Len (recordOf common [(⟨"user", text, none⟩, text)]) ≤
        assistantBytes common text (joined entries)
    · exact ⟨text, fun contents => if_pos (Int.ofNat_le.mpr hfits)⟩
    · exact ⟨joined entries, fun contents => PackContext.roleContents_one hentries rfl
        (Int.ofNat_lt.mpr (Nat.not_le.mp hfits)) (Int.ofNat_le.mpr (userBytes_le _ _ _))⟩
  refine ⟨body, ?_⟩
  have hcomplete : ¬ (utf8Len (eventContent common
      ((saidTwice text).map fun role => rolePayload role none)) : ℤ) ≤
        assistantBytes common text (joined entries) := by
    have htwo : assistantBytes common text text ≤ utf8Len (eventContent common
      ((saidTwice text).map fun role => rolePayload role none)) :=
        utf8Len_eventContent_second common _ _
    omega
  have hroles : rolesContents common (assistantBytes common text (joined entries)) none
      (saidTwice text) [] = .ok ([[(⟨"user", text, none⟩, body)],
        [(⟨"assistant", text, none⟩, joined entries)]].map (recordOf common)) := by
    simp only [saidTwice, rolesContents, huser, hassistant]
    rfl
  rw [semanticContents]
  simp only [if_neg hcomplete, hroles]
  exact if_neg (by simp)

/-- A turn in which both say the same text. -/
def repeatedTurn (raw : Text) (maxBytes : ℤ) : TurnInput where
  sessionId := ['s']
  userContent := raw
  assistantContent := raw
  tags := .canonical .none
  segmentMaxBytes := maxBytes
  segmentCountLimit := none
  assistantContext := none
  modelSelected := true
  eventId := []
  occurredAt := ⟨2026, 1, 2, 3, 4, 5, 6⟩

theorem semanticParagraphs_ok {text : Text} (h : ∃ p ∈ paragraphsOf text, isBlank p = false) :
    ∃ entries, semanticParagraphs text = .ok entries := by
  have hne : collectParagraphs [] (PARAGRAPH_SEPARATOR_PATTERN.finditer text).1
      (PARAGRAPH_SEPARATOR_PATTERN.finditer text).2 ≠ [] := collectParagraphs_ne_nil h
  simp only [semanticParagraphs, if_neg hne]
  exact ⟨_, rfl⟩

theorem repeatedTurn_identity (lib : Stdlib) (raw : Text) : ∃ identity, ∀ maxBytes,
    (repeatedTurn raw maxBytes).identityFields lib (commonFields lib ['s'] []) = .ok identity := by
  refine ⟨[("memory_id", .str (memoryId lib (commonFields lib ['s'] [])
    (saidTwice (redactSensitiveText lib raw)))),
    ("record_schema", .str RETAINED_MODEL_RECORD_SCHEMA)], fun maxBytes => ?_⟩
  exact if_pos rfl

theorem repeatedTurn_acceptable {raw : Text} (hraw : isBlank raw = false) {maxBytes : ℤ}
    (hpos : 0 < maxBytes) : (repeatedTurn raw maxBytes).isAcceptable = true := by
  unfold TurnInput.isAcceptable repeatedTurn
  simp only [hraw, hpos, RetainTags.items]
  rfl

theorem repeatedTurn_built {lib : Stdlib} {raw : Text} (hraw : isBlank raw = false) {maxBytes : ℕ}
    (hpos : 0 < maxBytes) {identity : List (Text × Json)} {contents : List Text}
    (hidentity : (repeatedTurn raw maxBytes).identityFields lib (commonFields lib ['s'] []) =
      .ok identity)
    (hcontents : semanticContents (commonFields lib ['s'] [] ++ identity)
      (saidTwice (redactSensitiveText lib raw)) maxBytes none = .ok contents) :
    buildRetainedSegments lib (repeatedTurn raw maxBytes) = .ok (segmentsOf lib contents) ∧
      PlainFields (commonFields lib ['s'] [] ++ identity) := by
  have hroles : (repeatedTurn raw maxBytes).roles lib = saidTwice (redactSensitiveText lib raw) :=
    rfl
  have htags : canonicalizeRetainTags lib (repeatedTurn raw maxBytes).tags =
      .ok .none := rfl
  rw [← hroles] at hcontents
  exact ⟨build_of_ok (repeatedTurn_acceptable hraw (Int.ofNat_lt.mpr hpos)) htags hidentity
    hcontents, plainFields_common lib (repeatedTurn raw maxBytes) [] hidentity⟩

theorem roleBodies_saidTwice {common : List (Text × Json)} (hcommon : PlainFields common)
    (text user body : Text) : roleBodies ⟨"assistant", text, none⟩
      ([[(⟨"user", text, none⟩, user)], [(⟨"assistant", text, none⟩, body)]].map
        (recordOf common)) = some [body] := by
  have hnames : ((saidTwice text).map fun role => role.name).Nodup := by
    show List.Nodup ["user".toList, "assistant".toList]
    decide
  have hmem : ∀ record ∈ ([[(⟨"user", text, none⟩, user)], [(⟨"assistant", text, none⟩, body)]] :
      List Bodies), ∀ b ∈ record, b.1 ∈ saidTwice text := by
    intro record hrecord b hb
    simp only [List.mem_cons, List.not_mem_nil, or_false] at hrecord
    rcases hrecord with rfl | rfl
    · obtain rfl := List.mem_singleton.mp hb
      exact List.mem_cons_self
    · obtain rfl := List.mem_singleton.mp hb
      exact List.mem_cons_of_mem _ List.mem_cons_self
  exact roleBodies_records hcommon hnames (List.mem_cons_of_mem _ List.mem_cons_self) hmem

/-- Where a blank paragraph is dropped between two others, some build joins these two. -/
theorem exists_unquoted {lib : Stdlib} {raw : Text} (hraw : isBlank raw = false)
    (hdrops : DropsBetween (paragraphsOf (redactSensitiveText lib raw))) :
    ∃ turn segments body, buildRetainedSegments lib turn = .ok segments ∧
      ∃ role ∈ turn.roles lib, role.content = redactSensitiveText lib raw ∧
        roleBodies role (segments.map fun segment => segment.content) = some [body] ∧
        ¬ body <:+: role.content := by
  obtain ⟨entries, hentries⟩ : ∃ entries,
      semanticParagraphs (redactSensitiveText lib raw) = .ok entries := by
    obtain ⟨before, blank, after, hpieces, -, -, q, hq, hnot⟩ := hdrops
    have hsome : ∃ p ∈ paragraphsOf (redactSensitiveText lib raw), isBlank p = false :=
      ⟨q, by rw [hpieces]; simp [hq], hnot⟩
    exact semanticParagraphs_ok hsome
  obtain ⟨hunquoted, lead, first, source, last, rest, kept, hsource, hkept, hsub, hshort⟩ :=
    (joined_source hentries).2 hdrops
  have hsize : Json.escapedLen (joined entries) <
      Json.escapedLen (redactSensitiveText lib raw) := by
    have hlen := escapedLen_sublist hsub
    rw [hkept, hsource]
    simp only [Json.escapedLen_append]
    omega
  obtain ⟨identity, hidentity⟩ := repeatedTurn_identity lib raw
  obtain ⟨body, hcontents⟩ := semanticContents_saidTwice (commonFields lib ['s'] [] ++ identity)
    hentries hsize
  have hpos := assistantBytes_pos (commonFields lib ['s'] [] ++ identity)
    (redactSensitiveText lib raw) (joined entries)
  generalize assistantBytes (commonFields lib ['s'] [] ++ identity)
    (redactSensitiveText lib raw) (joined entries) = maxBytes at hcontents hpos
  obtain ⟨hbuild, hplain⟩ := repeatedTurn_built hraw hpos (hidentity maxBytes) hcontents
  refine ⟨repeatedTurn raw maxBytes, _, joined entries, hbuild,
    ⟨"assistant", redactSensitiveText lib raw, none⟩, List.mem_cons_of_mem _ List.mem_cons_self,
    rfl, ?_, hunquoted⟩
  rw [segmentsOf_content]
  exact roleBodies_saidTwice hplain _ _ _

/-- **Packed records quote the source**, unless a blank paragraph is dropped between two others. -/
theorem packed_records_quote (lib : Stdlib) (raw : Text) (hraw : isBlank raw = false) :
    (∀ turn segments, buildRetainedSegments lib turn = .ok segments →
      ∀ role ∈ turn.roles lib, role.content = redactSensitiveText lib raw →
        ∃ bodies, roleBodies role (segments.map fun segment => segment.content) = some bodies ∧
          ∀ body ∈ bodies, body <:+: role.content) ↔
      ¬ DropsBetween (paragraphsOf (redactSensitiveText lib raw)) := by
  constructor
  · intro h hdrops
    obtain ⟨turn, segments, body, hbuild, role, hrole, hcontent, hbodies, hunquoted⟩ :=
      exists_unquoted hraw hdrops
    obtain ⟨bodies, hread, hquoted⟩ := h turn segments hbuild role hrole hcontent
    rw [hbodies] at hread
    obtain rfl : [body] = bodies := Option.some.inj hread
    exact hunquoted (hquoted body List.mem_cons_self)
  · intro hdrops turn segments hbuild role hrole hcontent
    obtain ⟨-, tags, identity, contents, -, hidentity, hcontents, rfl⟩ := build_ok hbuild
    obtain ⟨records, rfl, hall⟩ := semanticContents_bodies
      (Q := fun r body => r.content = role.content → body <:+: r.content)
      (fun r _ _ => List.infix_rfl) (fun r _ before after hadds => by
        rcases PackContext.roleContents_chunks hadds with hwhole |
          ⟨chunks, entries, hentries, rfl, hrecords⟩
        · exact ⟨[r.content], hwhole, fun body hbody _ => by
            obtain rfl := List.mem_singleton.mp hbody
            exact List.infix_rfl⟩
        · refine ⟨chunks.map joined, by rw [hrecords, List.map_map]; rfl, ?_⟩
          intro body hbody hsame
          obtain ⟨chunk, hchunk, rfl⟩ := List.mem_map.mp hbody
          obtain ⟨a, b, hab⟩ := List.append_of_mem hchunk
          have hpart : joined chunk <:+: joined chunks.flatten := by
            rw [hab, List.flatten_append, List.flatten_cons, ← List.append_assoc]
            exact joined_infix
          refine hpart.trans ((joined_source hentries).1 ?_)
          show ¬ DropsBetween (paragraphsOf r.content)
          rw [hsame, hcontent]
          exact hdrops) hcontents
    have hplain := plainFields_common lib turn tags.tags hidentity
    have hbodies := roleBodies_records hplain (roles_names_nodup lib turn) hrole
      (fun record hrecord b hb => (hall record hrecord b hb).1)
    refine ⟨_, by rw [segmentsOf_content, hbodies], ?_⟩
    intro body hbody
    obtain ⟨b, hb, rfl⟩ := List.mem_map.mp hbody
    rw [List.mem_filter, beq_iff_eq] at hb
    obtain ⟨record, hrecord, hb'⟩ := List.mem_flatten.mp hb.1
    obtain ⟨hmem, hquote⟩ := hall record hrecord b hb'
    have hsame : b.1 = role :=
      List.inj_on_of_nodup_map (roles_names_nodup lib turn) hmem hrole hb.2
    rw [← hsame]
    exact hquote (by rw [hsame])

/-- Between the two paragraphs a line with a vertical tab. -/
def tabbedText : Text := "ab\n\n\u000b\n\ncd"

def tabbedTurn : TurnInput := repeatedTurn tabbedText 295

theorem tabbedTurn_joins : redactSensitiveText splitTurnLib tabbedText = tabbedText ∧
    (buildRetainedSegments splitTurnLib tabbedTurn).toOption.bind (fun segments =>
      roleBodies ⟨"assistant", tabbedText, none⟩ (segments.map fun segment => segment.content)) =
        some ["ab\n\ncd".toList] ∧
    ¬ "ab\n\ncd".toList <:+: tabbedText := by
  decide +kernel

theorem packed_records_quote_plain :
    (∀ turn segments, buildRetainedSegments splitTurnLib turn = .ok segments →
      ∀ role ∈ turn.roles splitTurnLib, role.content = redactSensitiveText splitTurnLib "ab\n\ncd" →
        ∃ bodies, roleBodies role (segments.map fun segment => segment.content) = some bodies ∧
          ∀ body ∈ bodies, body <:+: role.content) ↔
      ¬ DropsBetween (paragraphsOf (redactSensitiveText splitTurnLib "ab\n\ncd")) :=
  packed_records_quote splitTurnLib "ab\n\ncd" (by decide)

end BetterHindsight
