import BetterHindsight.Retention.Builder

/-! # What the records of a turn hold

The cut of a turn into records, seen as the bodies that the records hold. Every body fits the byte
limit although the packing only adds up escaped lengths, and the bodies of a role spell its text up
to whitespace.

* `PackContext.pack_spec`, `PackContext.roleContents_spec`, `semanticContents_spec`: one round of
  the packing, one role, one turn.
* `PackContext.roleContents_limit`, `semanticContents_limit`: the segment cap only rejects. -/

namespace BetterHindsight
set_option autoImplicit false

/-! ## Sizes -/

theorem utf8Len_canonicalJson_str (t : Text) :
    utf8Len (canonicalJson (.str t)) - 2 = Json.escapedLen t := by
  rw [canonicalJson, Json.dumps, Json.utf8Len_quoteRaw]
  omega

/-- The role's own content is one of its contents. -/
theorem rolePayload_none (role : RetainedRole) :
    rolePayload role none = rolePayload role (some role.content) := rfl

theorem utf8Len_rolePayload (role : RetainedRole) (content : Text) :
    utf8Len (canonicalJson (rolePayload role (some content))) =
      utf8Len (canonicalJson (rolePayload role (some []))) + Json.escapedLen content := by
  unfold rolePayload canonicalJson
  rw [Json.utf8Len_dumps_obj, Json.utf8Len_dumps_obj]
  cases role.contextPrefix with
  | none =>
    simp only [List.map_cons, List.map_nil, List.sum_cons, List.sum_nil, Json.dumps,
      Json.utf8Len_quoteRaw, Option.getD_some, Json.escapedLen_nil, List.length_cons]
    omega
  | some p =>
    simp only [List.map_cons, List.map_nil, List.sum_cons, List.sum_nil, Json.dumps,
      Json.utf8Len_quoteRaw, Option.getD_some, Json.escapedLen_append, Json.escapedLen_nil,
      List.length_cons]
    omega

/-- **The packing account is exact**: a record is as long as the same record with an empty content
and the escaped content. -/
theorem PackContext.utf8Len_record (ctx : PackContext) (content : Text) :
    utf8Len (ctx.record (some content)) = ctx.overhead + Json.escapedLen content := by
  have h := utf8Len_rolePayload ctx.role content
  unfold canonicalJson at h
  unfold PackContext.overhead PackContext.record eventContent canonicalJson
  rw [Json.utf8Len_dumps_obj, Json.utf8Len_dumps_obj]
  simp only [List.map_append, List.map_cons, List.map_nil, List.sum_append, List.sum_cons,
    List.sum_nil, Json.dumps_arr, Json.joinComma, utf8Len_cons, utf8Len_append, h,
    List.length_append, List.length_cons, List.length_nil]
  omega

/-! ## Paragraphs -/

theorem lineBreak_within : lineBreak.Within fun c => isSpace c = true := by
  refine ⟨Regex.within_lit (by simp [isSpace]), fun c hc => ?_⟩
  simp only [Bool.or_eq_true, beq_iff_eq] at hc
  rcases hc with rfl | rfl <;> decide

theorem separator_within :
    PARAGRAPH_SEPARATOR_PATTERN.Within fun c => isSpace c = true := by
  have hblank : (Regex.chr isBlankChar).Within fun c => isSpace c = true := by
    intro c hc
    simp only [isBlankChar, Bool.or_eq_true, beq_iff_eq] at hc
    rcases hc with rfl | rfl <;> decide
  exact ⟨lineBreak_within, ⟨⟨hblank, lineBreak_within⟩, trivial⟩, hblank, lineBreak_within⟩

/-- The collected paragraphs keep everything but whitespace, and their separators are whitespace. -/
theorem collectParagraphs_spec (gaps : List (Text × Regex.Match)) (separator tail : Text)
    (hsep : ∀ c ∈ separator, isSpace c = true)
    (hgaps : ∀ p ∈ gaps, ∀ c ∈ p.2.text, isSpace c = true) :
    (∀ entry ∈ collectParagraphs separator gaps tail, ∀ c ∈ entry.1, isSpace c = true) ∧
      deleteSpace ((collectParagraphs separator gaps tail).flatMap Prod.snd) =
        deleteSpace ((gaps.flatMap fun p => p.1 ++ p.2.text) ++ tail) := by
  induction gaps generalizing separator with
  | nil =>
    cases hb : isBlank tail with
    | true => simp [collectParagraphs, hb, deleteSpace_eq_nil (isBlank_iff.mp hb)]
    | false => simpa [collectParagraphs, hb] using hsep
  | cons p gaps ih =>
    obtain ⟨paragraph, m⟩ := p
    have hm : ∀ c ∈ m.text, isSpace c = true := hgaps _ List.mem_cons_self
    obtain ⟨ih1, ih2⟩ := ih m.text hm fun p hp => hgaps p (List.mem_cons_of_mem _ hp)
    rw [deleteSpace_append] at ih2
    cases hb : isBlank paragraph with
    | true =>
      simp only [collectParagraphs, hb, if_true]
      refine ⟨ih1, ?_⟩
      simp [ih2, deleteSpace_eq_nil (isBlank_iff.mp hb), deleteSpace_eq_nil hm]
    | false =>
      simp only [collectParagraphs, hb, Bool.false_eq_true, if_false]
      refine ⟨?_, ?_⟩
      · intro entry hentry
        rcases List.mem_cons.mp hentry with rfl | hentry
        · exact hsep
        · exact ih1 entry hentry
      · simp [ih2, deleteSpace_eq_nil hm]

theorem semanticParagraphs_spec {text : Text} {paragraphs : List (Text × Text)}
    (h : semanticParagraphs text = .ok paragraphs) :
    paragraphs ≠ [] ∧ (∀ entry ∈ paragraphs, ∀ c ∈ entry.1, isSpace c = true) ∧
      deleteSpace (paragraphs.flatMap Prod.snd) = deleteSpace text := by
  simp only [semanticParagraphs] at h
  split at h
  · cases h
  · rename_i hne
    cases h
    obtain ⟨hsep, htext⟩ := collectParagraphs_spec (PARAGRAPH_SEPARATOR_PATTERN.finditer text).1 []
      (PARAGRAPH_SEPARATOR_PATTERN.finditer text).2 (by simp)
      (Regex.finditer_within _ separator_within text)
    refine ⟨hne, hsep, ?_⟩
    rw [htext, Regex.finditer_join]

/-! ## Packing -/

theorem capContents_eq_ok {limit : Option ℤ} {contents contents' : List Text} :
    capContents limit contents = .ok contents' ↔
      contents = contents' ∧ ∀ l, limit = some l → (contents.length : ℤ) ≤ l := by
  cases limit with
  | none => simp [capContents, overLimit]
  | some l =>
    simp only [capContents, overLimit, decide_eq_true_eq, Option.some.injEq, forall_eq']
    split
    · simp
      omega
    · simp
      omega

namespace PackContext

/-- The byte account of the packed paragraphs is exact and within the limit. -/
structure Fits (ctx : PackContext) (p : Packing) : Prop where
  bytes : p.packedBytes = ctx.overhead + Json.escapedLen p.packed.flatten
  le : p.packed ≠ [] → (p.packedBytes : ℤ) ≤ ctx.maxBytes

/-- `bodies` are new records of the role, each within the limit. -/
def Adds (ctx : PackContext) (before after bodies : List Text) : Prop :=
  after = before ++ bodies.map (fun body => ctx.record (some body)) ∧
    ∀ body ∈ bodies, (utf8Len (ctx.record (some body)) : ℤ) ≤ ctx.maxBytes

theorem Adds.nil (ctx : PackContext) (contents : List Text) : ctx.Adds contents contents [] := by
  simp [Adds]

theorem Adds.trans {ctx : PackContext} {a b c bodies bodies' : List Text}
    (h : ctx.Adds a b bodies) (h' : ctx.Adds b c bodies') : ctx.Adds a c (bodies ++ bodies') := by
  refine ⟨?_, ?_⟩
  · rw [h'.1, h.1, List.map_append, List.append_assoc]
  · intro body hbody
    exact (List.mem_append.mp hbody).elim (h.2 body) (h'.2 body)

theorem Fits.adds {ctx : PackContext} {p : Packing} (h : ctx.Fits p) (hne : p.packed ≠ [])
    (contents : List Text) :
    ctx.Adds contents (contents ++ [ctx.record (some p.packed.flatten)]) [p.packed.flatten] := by
  refine ⟨rfl, ?_⟩
  intro body hbody
  obtain rfl := List.mem_singleton.mp hbody
  rw [utf8Len_record, ← h.bytes]
  exact h.le hne

/-- What a flush leaves: the paragraph fits, or nothing is packed. -/
theorem flush_spec {ctx : PackContext} {separator paragraph : Text} {p p' : Packing}
    (hfits : ctx.Fits p)
    (h : ctx.flush (Json.escapedLen separator) (Json.escapedLen paragraph) p = .ok p') :
    ctx.Fits p' ∧ (p'.packed ≠ [] → ((p'.packedBytes + Json.escapedLen separator +
        Json.escapedLen paragraph : ℕ) : ℤ) ≤ ctx.maxBytes) ∧
      ∃ bodies, ctx.Adds p.contents p'.contents bodies ∧
        bodies.flatten ++ p'.packed.flatten = p.packed.flatten := by
  unfold flush at h
  split at h
  · rename_i hfull
    simp only at h
    split at h
    · cases h
    · cases h
      refine ⟨⟨by simp, by simp⟩, by simp, [p.packed.flatten], hfits.adds hfull.1 _, by simp⟩
  · rename_i hroom
    cases h
    refine ⟨hfits, fun hne => ?_, [], Adds.nil ctx _, by simp⟩
    by_contra hgt
    exact hroom ⟨hne, by omega⟩

/-- **One round of the packing.** -/
theorem pack_spec {ctx : PackContext} {p p' : Packing} {entry : Text × Text}
    (hfits : ctx.Fits p) (hsep : ∀ c ∈ entry.1, isSpace c = true)
    (h : ctx.pack p entry = .ok p') :
    ctx.Fits p' ∧ p'.packed ≠ [] ∧ ∃ bodies, ctx.Adds p.contents p'.contents bodies ∧
      deleteSpace (bodies.flatten ++ p'.packed.flatten) =
        deleteSpace (p.packed.flatten ++ entry.2) := by
  obtain ⟨separator, paragraph⟩ := entry
  simp only [pack, utf8Len_canonicalJson_str] at h
  split at h
  · cases h
  · rename_i hpar
    split at h
    · cases h
    · rename_i q hflush
      obtain ⟨hq, hroom, bodies, hadds, hjoin⟩ := flush_spec hfits hflush
      have hbytes := hq.bytes
      split at h
      · rename_i hempty
        cases h
        rw [hempty] at hbytes hjoin
        refine ⟨⟨?_, fun _ => ?_⟩, by simp, bodies, hadds, ?_⟩
        · simpa using hbytes
        · simp only [List.flatten_nil, Json.escapedLen_nil] at hbytes
          simp only
          omega
        · rw [← hjoin]
          simp
      · rename_i hne
        cases h
        refine ⟨⟨?_, fun _ => ?_⟩, by simp, bodies, hadds, ?_⟩
        · simp only [List.flatten_append, List.flatten_cons, List.flatten_nil, List.append_nil,
            Json.escapedLen_append, hbytes]
          omega
        · exact hroom hne
        · rw [← hjoin]
          simp [deleteSpace_eq_nil hsep]

theorem packAll_spec {ctx : PackContext} {entries : List (Text × Text)} {p p' : Packing}
    (hfits : ctx.Fits p) (hsep : ∀ entry ∈ entries, ∀ c ∈ entry.1, isSpace c = true)
    (h : ctx.packAll entries p = .ok p') :
    ctx.Fits p' ∧ (entries ≠ [] → p'.packed ≠ []) ∧
      ∃ bodies, ctx.Adds p.contents p'.contents bodies ∧
        deleteSpace (bodies.flatten ++ p'.packed.flatten) =
          deleteSpace (p.packed.flatten ++ entries.flatMap Prod.snd) := by
  induction entries generalizing p with
  | nil =>
    cases h
    exact ⟨hfits, by simp, [], Adds.nil ctx _, by simp⟩
  | cons entry entries ih =>
    rw [packAll] at h
    split at h
    · cases h
    · rename_i q hpack
      obtain ⟨hq, hne, bodies, hadds, hjoin⟩ := pack_spec hfits (hsep _ List.mem_cons_self) hpack
      obtain ⟨hfits', hne', bodies', hadds', hjoin'⟩ :=
        ih hq (fun e he => hsep e (List.mem_cons_of_mem _ he)) h
      refine ⟨hfits', fun _ => ?_, bodies ++ bodies', hadds.trans hadds', ?_⟩
      · cases entries with
        | nil =>
          cases h
          exact hne
        | cons _ _ => exact hne' (by simp)
      · simp only [deleteSpace_append, List.flatten_append, List.flatMap_cons] at hjoin hjoin' ⊢
        rw [List.append_assoc, hjoin', ← List.append_assoc, hjoin, List.append_assoc]

/-- **One role**: its records hold bodies that fit and spell its text up to whitespace. -/
theorem roleContents_spec {ctx : PackContext} {contents contents' : List Text}
    (h : ctx.roleContents contents = .ok contents') :
    ∃ bodies, bodies ≠ [] ∧ ctx.Adds contents contents' bodies ∧
      deleteSpace bodies.flatten = deleteSpace ctx.role.content := by
  unfold roleContents at h
  simp only at h
  split at h
  · rename_i hle
    obtain ⟨rfl, -⟩ := capContents_eq_ok.mp h
    refine ⟨[ctx.role.content], by simp, ⟨rfl, ?_⟩, by simp⟩
    intro body hbody
    obtain rfl := List.mem_singleton.mp hbody
    exact hle
  · split at h
    · cases h
    · rename_i paragraphs hparagraphs
      obtain ⟨hne, hsep, htext⟩ := semanticParagraphs_spec hparagraphs
      split at h
      · cases h
      · rename_i p hpack
        obtain ⟨hfits, hpacked, bodies, hadds, hjoin⟩ := packAll_spec
          (p := ⟨contents, [], ctx.overhead⟩) ⟨by simp, by simp⟩ hsep hpack
        obtain ⟨rfl, -⟩ := capContents_eq_ok.mp h
        refine ⟨bodies ++ [p.packed.flatten], by simp,
          hadds.trans (hfits.adds (hpacked hne) _), ?_⟩
        rw [← htext]
        simpa using hjoin

end PackContext

/-! ## All roles -/

/-- The roles of a record, each with the body it has there. -/
abbrev Bodies := List (RetainedRole × Text)

def recordOf (common : List (Text × Json)) (bodies : Bodies) : Text :=
  eventContent common (bodies.map fun b => rolePayload b.1 (some b.2))

/-- What the records hold of one role, in order. -/
def spokenBy (name : Text) (records : List Bodies) : Text :=
  (records.flatten.filter fun b => b.1.name == name).flatMap Prod.snd

@[simp] theorem spokenBy_append (name : Text) (r s : List Bodies) :
    spokenBy name (r ++ s) = spokenBy name r ++ spokenBy name s := by
  simp [spokenBy]

@[simp] theorem spokenBy_nil (name : Text) : spokenBy name [] = [] := rfl

/-- Records of one role hold of another name nothing, of their own name all their bodies. -/
theorem spokenBy_bodies (role : RetainedRole) (name : Text) (bodies : List Text) :
    spokenBy name (bodies.map fun body => [(role, body)]) =
      if role.name = name then bodies.flatten else [] := by
  unfold spokenBy
  induction bodies with
  | nil => simp
  | cons body bodies ih =>
    simp only [List.map_cons, List.flatten_cons, List.filter_append, List.flatMap_append, ih]
    by_cases h : role.name = name <;> simp [h]

/-- The records of some roles, as far as the limit and the texts go. -/
structure Spells (common : List (Text × Json)) (maxBytes : ℤ) (roles : List RetainedRole)
    (records : List Bodies) : Prop where
  le : ∀ record ∈ records, (utf8Len (recordOf common record) : ℤ) ≤ maxBytes
  mem : ∀ record ∈ records, ∀ b ∈ record, b.1 ∈ roles
  text : ∀ role ∈ roles, deleteSpace (spokenBy role.name records) = deleteSpace role.content

theorem rolesContents_spec {common : List (Text × Json)} {maxBytes : ℤ} {limit : Option ℤ}
    {roles : List RetainedRole} {contents contents' : List Text}
    (hnames : (roles.map fun role => role.name).Nodup)
    (h : rolesContents common maxBytes limit roles contents = .ok contents') :
    ∃ records, contents' = contents ++ records.map (recordOf common) ∧
      Spells common maxBytes roles records := by
  induction roles generalizing contents with
  | nil =>
    cases h
    exact ⟨[], by simp, ⟨by simp, by simp, by simp⟩⟩
  | cons role roles ih =>
    rw [List.map_cons, List.nodup_cons] at hnames
    rw [rolesContents] at h
    split at h
    · cases h
    · rename_i contents₁ hrole
      obtain ⟨bodies, -, ⟨hadd, hle⟩, htext⟩ := PackContext.roleContents_spec hrole
      obtain ⟨records, hrecords, hspells⟩ := ih hnames.2 h
      have hother : ∀ r ∈ roles, role.name ≠ r.name := fun r hr hn =>
        hnames.1 (hn ▸ List.mem_map_of_mem hr)
      have hsilent : spokenBy role.name records = [] := by
        unfold spokenBy
        rw [List.filter_eq_nil_iff.mpr]
        · rfl
        · intro b hb
          obtain ⟨record, hrecord, hb⟩ := List.mem_flatten.mp hb
          simpa using (hother _ (hspells.mem record hrecord b hb)).symm
      refine ⟨bodies.map (fun body => [(role, body)]) ++ records, ?_, ⟨?_, ?_, ?_⟩⟩
      · rw [hrecords, hadd, List.map_append, List.map_map, List.append_assoc]
        rfl
      · intro record hrecord
        rcases List.mem_append.mp hrecord with hrecord | hrecord
        · obtain ⟨body, hbody, rfl⟩ := List.mem_map.mp hrecord
          exact hle body hbody
        · exact hspells.le record hrecord
      · intro record hrecord b hb
        rcases List.mem_append.mp hrecord with hrecord | hrecord
        · obtain ⟨body, -, rfl⟩ := List.mem_map.mp hrecord
          obtain rfl := List.mem_singleton.mp hb
          exact List.mem_cons_self
        · exact List.mem_cons_of_mem _ (hspells.mem record hrecord b hb)
      · intro r hr
        rw [spokenBy_append, spokenBy_bodies]
        rcases List.mem_cons.mp hr with rfl | hr
        · rw [if_pos rfl, hsilent, List.append_nil, htext]
        · rw [if_neg (hother r hr), List.nil_append, hspells.text r hr]

/-- **One turn**: the records fit the limit and spell the roles' texts up to whitespace. -/
theorem semanticContents_spec {common : List (Text × Json)} {maxBytes : ℤ} {limit : Option ℤ}
    {roles : List RetainedRole} {contents : List Text}
    (hnames : (roles.map fun role => role.name).Nodup)
    (h : semanticContents common roles maxBytes limit = .ok contents) :
    contents ≠ [] ∧ ∃ records, contents = records.map (recordOf common) ∧
      Spells common maxBytes roles records := by
  simp only [semanticContents] at h
  split at h
  · rename_i hle
    split at h
    · cases h
    · cases h
      refine ⟨by simp, [roles.map fun role => (role, role.content)], ?_, ⟨?_, ?_, ?_⟩⟩
      · simp [recordOf, rolePayload_none, Function.comp_def]
      · intro record hrecord
        obtain rfl := List.mem_singleton.mp hrecord
        simpa [recordOf, rolePayload_none, Function.comp_def] using hle
      · intro record hrecord b hb
        obtain rfl := List.mem_singleton.mp hrecord
        obtain ⟨role, hrole, rfl⟩ := List.mem_map.mp hb
        exact hrole
      · intro role hrole
        have hone : (roles.filter fun r => r.name == role.name) = [role] := by
          have hnodup : (roles.filter fun r => r.name == role.name).Nodup :=
            hnames.of_map.sublist List.filter_sublist
          have hmem : role ∈ roles.filter fun r => r.name == role.name := by simp [hrole]
          have hall : ∀ r ∈ roles.filter (fun r => r.name == role.name), r = role := by
            intro r hr
            rw [List.mem_filter, beq_iff_eq] at hr
            exact List.inj_on_of_nodup_map hnames hr.1 hrole hr.2
          match hf : roles.filter fun r => r.name == role.name with
          | [] => simp [hf] at hmem
          | [r] =>
            obtain rfl := hall r (by simp [hf])
            exact hf
          | a :: b :: rest =>
            rw [hf] at hnodup hall
            have hab : a = b := (hall a (by simp)).trans (hall b (by simp)).symm
            simp [hab] at hnodup
        have hspoken : spokenBy role.name [roles.map fun role => (role, role.content)] =
            (roles.filter fun r => r.name == role.name).flatMap fun r => r.content := by
          simp [spokenBy, List.filter_map, List.flatMap_map, Function.comp_def]
        rw [hspoken, hone]
        simp
  · split at h
    · cases h
    · rename_i contents' hroles
      split at h
      · cases h
      · rename_i hne
        cases h
        obtain ⟨records, hrecords, hspells⟩ := rolesContents_spec hnames hroles
        exact ⟨hne, records, by simpa using hrecords, hspells⟩

/-! ## The segment cap -/

/-- A capped computation that only rejects: what it returns is what the uncapped one returns, and
it returns every uncapped result whose length the cap admits. -/
structure OnlyRejects {α : Type} (capped uncapped : Except RetentionError α)
    (admits : α → Prop) : Prop where
  sound : ∀ a, capped = .ok a → uncapped = .ok a
  complete : ∀ a, uncapped = .ok a → admits a → capped = .ok a

theorem OnlyRejects.refl {α : Type} (x : Except RetentionError α) (admits : α → Prop) :
    OnlyRejects x x admits := ⟨fun _ h => h, fun _ h _ => h⟩

namespace PackContext

/-- The same packing with another segment cap. -/
def withLimit (ctx : PackContext) (limit : Option ℤ) : PackContext :=
  { ctx with segmentCountLimit := limit }

@[simp] theorem withLimit_record (ctx : PackContext) (limit : Option ℤ) (content : Option Text) :
    (ctx.withLimit limit).record content = ctx.record content := rfl

@[simp] theorem withLimit_overhead (ctx : PackContext) (limit : Option ℤ) :
    (ctx.withLimit limit).overhead = ctx.overhead := rfl

@[simp] theorem withLimit_maxBytes (ctx : PackContext) (limit : Option ℤ) :
    (ctx.withLimit limit).maxBytes = ctx.maxBytes := rfl

@[simp] theorem withLimit_segmentCountLimit (ctx : PackContext) (limit : Option ℤ) :
    (ctx.withLimit limit).segmentCountLimit = limit := rfl

@[simp] theorem withLimit_role (ctx : PackContext) (limit : Option ℤ) :
    (ctx.withLimit limit).role = ctx.role := rfl

/-- A flush either keeps the packing or appends the packed record, as long as the cap admits it. -/
theorem flush_eq (ctx : PackContext) (s n : ℕ) (p : Packing) :
    (∀ limit, (ctx.withLimit limit).flush s n p = .ok p) ∨
      ∀ limit, (ctx.withLimit limit).flush s n p =
        if overLimit limit fun limit => ((p.contents.length + 1 : ℕ) : ℤ) ≥ limit then
          .error .capacity
        else .ok ⟨p.contents ++ [ctx.record (some p.packed.flatten)], [], ctx.overhead⟩ := by
  by_cases hfull : p.packed ≠ [] ∧ ((p.packedBytes + s + n : ℕ) : ℤ) > ctx.maxBytes
  · refine .inr fun limit => ?_
    rw [flush, if_pos (by exact hfull)]
    simp only [withLimit_record, withLimit_overhead, withLimit_segmentCountLimit,
      List.length_append, List.length_cons, List.length_nil]
  · refine .inl fun limit => ?_
    rw [flush, if_neg (by exact hfull)]

theorem flush_limit (ctx : PackContext) (s n : ℕ) (p : Packing) (limit : ℤ) :
    OnlyRejects ((ctx.withLimit (some limit)).flush s n p) ((ctx.withLimit none).flush s n p)
        (fun p' => (p'.contents.length : ℤ) < limit) ∧
      ∀ p', (ctx.withLimit none).flush s n p = .ok p' →
        p.contents.length ≤ p'.contents.length := by
  rcases ctx.flush_eq s n p with h | h
  · rw [h, h]
    exact ⟨.refl _ _, fun p' hp => by cases hp; exact le_rfl⟩
  · rw [h, h]
    simp only [overLimit, Bool.false_eq_true, if_false, decide_eq_true_eq]
    refine ⟨⟨?_, ?_⟩, ?_⟩
    · intro p' hp
      split at hp
      · cases hp
      · exact hp
    · intro p' hp hlt
      cases hp
      rw [if_neg]
      simpa using hlt
    · intro p' hp
      cases hp
      simp

theorem pack_limit (ctx : PackContext) (entry : Text × Text) (p : Packing) (limit : ℤ) :
    OnlyRejects ((ctx.withLimit (some limit)).pack p entry) ((ctx.withLimit none).pack p entry)
        (fun p' => (p'.contents.length : ℤ) < limit) ∧
      ∀ p', (ctx.withLimit none).pack p entry = .ok p' →
        p.contents.length ≤ p'.contents.length := by
  unfold pack
  simp only [withLimit_overhead, withLimit_maxBytes]
  by_cases hbig : ((ctx.overhead + (utf8Len (canonicalJson (.str entry.2)) - 2) : ℕ) : ℤ) >
      ctx.maxBytes
  · simp only [hbig, if_true]
    exact ⟨.refl _ _, by simp⟩
  · simp only [hbig, if_false]
    obtain ⟨hflush, hlen⟩ := ctx.flush_limit (utf8Len (canonicalJson (.str entry.1)) - 2)
      (utf8Len (canonicalJson (.str entry.2)) - 2) p limit
    generalize (ctx.withLimit (some limit)).flush (utf8Len (canonicalJson (.str entry.1)) - 2)
      (utf8Len (canonicalJson (.str entry.2)) - 2) p = capped at hflush
    generalize (ctx.withLimit none).flush (utf8Len (canonicalJson (.str entry.1)) - 2)
      (utf8Len (canonicalJson (.str entry.2)) - 2) p = uncapped at hflush hlen
    have hsame : ∀ q p' : Packing, (if q.packed = [] then Except.ok ⟨q.contents, [entry.2],
        q.packedBytes + (utf8Len (canonicalJson (.str entry.2)) - 2)⟩
      else Except.ok ⟨q.contents, q.packed ++ [entry.1, entry.2],
        q.packedBytes + (utf8Len (canonicalJson (.str entry.1)) - 2) +
          (utf8Len (canonicalJson (.str entry.2)) - 2)⟩ : Except RetentionError Packing) = .ok p' →
        p'.contents = q.contents := by
      intro q p' h
      split at h <;> cases h <;> rfl
    refine ⟨⟨?_, ?_⟩, ?_⟩
    · intro p' h
      cases capped with
      | error e => cases h
      | ok q => rwa [hflush.sound q rfl]
    · intro p' h hlt
      cases uncapped with
      | error e => cases h
      | ok q => rwa [hflush.complete q rfl (by rwa [hsame q p' h] at hlt)]
    · intro p' h
      cases uncapped with
      | error e => cases h
      | ok q =>
        rw [hsame q p' h]
        exact hlen q rfl

theorem packAll_limit (ctx : PackContext) (entries : List (Text × Text)) (p : Packing)
    (limit : ℤ) :
    OnlyRejects ((ctx.withLimit (some limit)).packAll entries p)
        ((ctx.withLimit none).packAll entries p)
        (fun p' => (p'.contents.length : ℤ) < limit) ∧
      ∀ p', (ctx.withLimit none).packAll entries p = .ok p' →
        p.contents.length ≤ p'.contents.length := by
  induction entries generalizing p with
  | nil => exact ⟨.refl _ _, fun p' h => by cases h; exact le_rfl⟩
  | cons entry entries ih =>
    obtain ⟨hpack, hlen⟩ := ctx.pack_limit entry p limit
    unfold packAll
    generalize (ctx.withLimit (some limit)).pack p entry = capped at hpack
    generalize (ctx.withLimit none).pack p entry = uncapped at hpack hlen
    refine ⟨⟨?_, ?_⟩, ?_⟩
    · intro p' h
      cases capped with
      | error e => cases h
      | ok q =>
        rw [hpack.sound q rfl]
        exact (ih q).1.sound p' h
    · intro p' h hlt
      cases uncapped with
      | error e => cases h
      | ok q =>
        have hq := (ih q).2 p' h
        rw [hpack.complete q rfl (by omega)]
        exact (ih q).1.complete p' h hlt
    · intro p' h
      cases uncapped with
      | error e => cases h
      | ok q => exact (hlen q rfl).trans ((ih q).2 p' h)

theorem roleContents_limit (ctx : PackContext) (contents : List Text) (limit : ℤ) :
    OnlyRejects ((ctx.withLimit (some limit)).roleContents contents)
        ((ctx.withLimit none).roleContents contents)
        (fun contents' => (contents'.length : ℤ) ≤ limit) ∧
      (∀ contents', (ctx.withLimit none).roleContents contents = .ok contents' →
        contents.length ≤ contents'.length) ∧
      ∀ contents', (ctx.withLimit (some limit)).roleContents contents = .ok contents' →
        (contents'.length : ℤ) ≤ limit := by
  have hcap : ∀ c : List Text, OnlyRejects (capContents (some limit) c) (capContents none c)
      (fun c' => (c'.length : ℤ) ≤ limit) ∧ (∀ c', capContents none c = .ok c' → c' = c) ∧
        ∀ c', capContents (some limit) c = .ok c' → (c'.length : ℤ) ≤ limit := by
    intro c
    simp only [capContents_eq_ok]
    refine ⟨⟨?_, ?_⟩, ?_, ?_⟩
    · intro c' h
      exact capContents_eq_ok.mpr ⟨(capContents_eq_ok.mp h).1, by simp⟩
    · intro c' h hle
      obtain ⟨rfl, -⟩ := capContents_eq_ok.mp h
      exact capContents_eq_ok.mpr ⟨rfl, by simpa using hle⟩
    · rintro c' ⟨rfl, -⟩
      rfl
    · rintro c' ⟨rfl, h⟩
      exact h limit rfl
  have hunfold : ∀ l, (ctx.withLimit l).roleContents contents =
      if (utf8Len (ctx.record none) : ℤ) ≤ ctx.maxBytes then
        capContents l (contents ++ [ctx.record none])
      else
        (semanticParagraphs ctx.role.content).bind fun paragraphs =>
          ((ctx.withLimit l).packAll paragraphs ⟨contents, [], ctx.overhead⟩).bind fun p =>
            capContents l (p.contents ++ [ctx.record (some p.packed.flatten)]) := by
    intro l
    simp only [roleContents, withLimit_record, withLimit_overhead, withLimit_maxBytes,
      withLimit_segmentCountLimit, withLimit_role]
    cases semanticParagraphs ctx.role.content with
    | error e => rfl
    | ok paragraphs =>
      cases h : (ctx.withLimit l).packAll paragraphs ⟨contents, [], ctx.overhead⟩ <;>
        simp only [h, Except.bind]
  rw [hunfold, hunfold]
  by_cases hle : (utf8Len (ctx.record none) : ℤ) ≤ ctx.maxBytes
  · simp only [if_pos hle]
    obtain ⟨honly, hsame, hlimit⟩ := hcap (contents ++ [ctx.record none])
    refine ⟨honly, fun c h => ?_, hlimit⟩
    rw [hsame c h]
    simp
  · simp only [if_neg hle]
    cases semanticParagraphs ctx.role.content with
    | error e => exact ⟨.refl _ _, nofun, nofun⟩
    | ok paragraphs =>
      obtain ⟨hpack, hlen⟩ := ctx.packAll_limit paragraphs ⟨contents, [], ctx.overhead⟩ limit
      simp only [Except.bind]
      generalize (ctx.withLimit (some limit)).packAll paragraphs ⟨contents, [], ctx.overhead⟩ =
        capped at hpack
      generalize (ctx.withLimit none).packAll paragraphs ⟨contents, [], ctx.overhead⟩ =
        uncapped at hpack hlen
      refine ⟨⟨?_, ?_⟩, ?_, ?_⟩
      · intro c h
        cases capped with
        | error e => cases h
        | ok q =>
          rw [hpack.sound q rfl]
          exact (hcap _).1.sound c h
      · intro c h hlt
        cases uncapped with
        | error e => cases h
        | ok q =>
          have hc := (hcap _).2.1 c h
          rw [hc] at hlt
          simp only [List.length_append, List.length_cons, List.length_nil] at hlt
          rw [hpack.complete q rfl (by omega)]
          refine (hcap _).1.complete c h ?_
          rw [hc]
          simp only [List.length_append, List.length_cons, List.length_nil]
          omega
      · intro c h
        cases uncapped with
        | error e => cases h
        | ok q =>
          have := hlen q rfl
          rw [(hcap _).2.1 c h]
          simp only [List.length_append, List.length_cons, List.length_nil] at this ⊢
          omega
      · intro c h
        cases capped with
        | error e => cases h
        | ok q => exact (hcap _).2.2 c h

end PackContext

theorem rolesContents_limit (common : List (Text × Json)) (maxBytes : ℤ)
    (roles : List RetainedRole) (contents : List Text) (limit : ℤ) :
    OnlyRejects (rolesContents common maxBytes (some limit) roles contents)
        (rolesContents common maxBytes none roles contents)
        (fun contents' => (contents'.length : ℤ) ≤ limit) ∧
      (∀ contents', rolesContents common maxBytes none roles contents = .ok contents' →
        contents.length ≤ contents'.length) ∧
      ∀ contents', roles ≠ [] →
        rolesContents common maxBytes (some limit) roles contents = .ok contents' →
        (contents'.length : ℤ) ≤ limit := by
  induction roles generalizing contents with
  | nil => exact ⟨.refl _ _, fun c h => by cases h; exact le_rfl, by simp⟩
  | cons role roles ih =>
    obtain ⟨hrole, hlen, hcap⟩ :=
      PackContext.roleContents_limit ⟨common, role, maxBytes, none⟩ contents limit
    simp only [PackContext.withLimit] at hrole hlen hcap
    unfold rolesContents
    generalize PackContext.roleContents ⟨common, role, maxBytes, some limit⟩ contents = capped
      at hrole hcap
    generalize PackContext.roleContents ⟨common, role, maxBytes, none⟩ contents = uncapped
      at hrole hlen
    refine ⟨⟨?_, ?_⟩, ?_, ?_⟩
    · intro c h
      cases capped with
      | error e => cases h
      | ok q =>
        rw [hrole.sound q rfl]
        exact (ih q).1.sound c h
    · intro c h hle
      cases uncapped with
      | error e => cases h
      | ok q =>
        have hq := (ih q).2.1 c h
        rw [hrole.complete q rfl (by omega)]
        exact (ih q).1.complete c h hle
    · intro c h
      cases uncapped with
      | error e => cases h
      | ok q => exact (hlen q rfl).trans ((ih q).2.1 c h)
    · intro c _ h
      cases capped with
      | error e => cases h
      | ok q =>
        cases roles with
        | nil =>
          cases h
          exact hcap _ rfl
        | cons _ _ => exact (ih q).2.2 c (by simp) h

/-- **The segment cap only rejects**, and rejects exactly the turns of more records. -/
theorem semanticContents_limit (common : List (Text × Json)) {roles : List RetainedRole}
    (hroles : roles ≠ []) (maxBytes limit : ℤ) (contents : List Text) :
    semanticContents common roles maxBytes (some limit) = .ok contents ↔
      semanticContents common roles maxBytes none = .ok contents ∧
        (contents.length : ℤ) ≤ limit := by
  obtain ⟨honly, -, hcap⟩ := rolesContents_limit common maxBytes roles [] limit
  simp only [semanticContents, overLimit, Bool.false_eq_true, if_false, decide_eq_true_eq]
  split
  · constructor
    · intro h
      split at h
      · cases h
      · rename_i hone
        cases h
        exact ⟨rfl, by simpa using not_lt.mp hone⟩
    · rintro ⟨h, hle⟩
      cases h
      rw [if_neg]
      simpa using hle
  · generalize rolesContents common maxBytes (some limit) roles [] = capped at honly hcap
    generalize rolesContents common maxBytes none roles [] = uncapped at honly
    constructor
    · intro h
      cases capped with
      | error e => cases h
      | ok q =>
        rw [honly.sound q rfl]
        refine ⟨h, ?_⟩
        simp only at h
        split at h
        · cases h
        · cases h
          exact hcap _ hroles rfl
    · rintro ⟨h, hle⟩
      cases uncapped with
      | error e => cases h
      | ok q =>
        have hq : q = contents := by
          simp only at h
          split at h
          · cases h
          · cases h
            rfl
        rw [honly.complete q rfl (hq ▸ hle)]
        exact h

end BetterHindsight
