import BetterHindsight.Foundations.JsonEscape

/-! # The strings of an encoded document

A document as `json.dumps` writes it with `ensure_ascii=False`: its strings between quotes, and
characters around them that are ASCII and no underscore.

* `strings`: the strings of a value, keys included.
* `Woven`: a text that is made of quoted bodies and such characters; `woven_dumpsPlain`.
* `occurrences_dumpsPlain`, `mem_dumpsPlain`: what occurs in the document occurs in its strings. -/

namespace BetterHindsight.Json
set_option autoImplicit false

mutual

/-- Every string of the value, the keys of its objects included. -/
def strings : Json → List Text
  | .str t => [t]
  | .arr items => stringsItems items
  | .obj fields => stringsFields fields
  | _ => []

def stringsItems : List Json → List Text
  | [] => []
  | v :: vs => strings v ++ stringsItems vs

def stringsFields : List (Text × Json) → List Text
  | [] => []
  | (k, v) :: fs => k :: strings v ++ stringsFields fs

end

theorem strings_arr (items : List Json) : strings (.arr items) = items.flatMap strings := by
  rw [strings]
  induction items with
  | nil => rfl
  | cons v vs ih => rw [stringsItems, ih, List.flatMap_cons]

theorem strings_obj (fields : List (Text × Json)) :
    strings (.obj fields) = fields.flatMap fun f => f.1 :: strings f.2 := by
  rw [strings]
  induction fields with
  | nil => rfl
  | cons f fs ih => rw [stringsFields, ih, List.flatMap_cons]

/-! ## Texts around quoted bodies -/

/-- A character of a document outside its strings. -/
def Structural (c : Char) : Prop := 0x20 ≤ c.toNat ∧ c.toNat < 0x80 ∧ c ≠ '_' ∧ c ≠ '"'

instance (c : Char) : Decidable (Structural c) :=
  inferInstanceAs (Decidable (0x20 ≤ c.toNat ∧ c.toNat < 0x80 ∧ c ≠ '_' ∧ c ≠ '"'))

/-- The text is made of the bodies, each in quotes, and of structural characters. -/
inductive Woven : List Text → Text → Prop
  | nil : Woven [] []
  | char {bodies : List Text} {t : Text} {c : Char} (hc : Structural c) (h : Woven bodies t) :
      Woven bodies (c :: t)
  | quote {bodies : List Text} {t : Text} (body : Text) (h : Woven bodies t) :
      Woven (body :: bodies) ('"' :: (body ++ '"' :: t))

theorem Woven.append {bodies bodies' : List Text} {t t' : Text} (h : Woven bodies t)
    (h' : Woven bodies' t') : Woven (bodies ++ bodies') (t ++ t') := by
  induction h with
  | nil => exact h'
  | char hc _ ih => exact .char hc ih
  | quote body _ ih =>
    have hquote := Woven.quote body ih
    simpa using hquote

theorem woven_structural {t : Text} (h : ∀ c ∈ t, Structural c) : Woven [] t := by
  induction t with
  | nil => exact .nil
  | cons c t ih =>
    exact .char (h c List.mem_cons_self) (ih fun d hd => h d (List.mem_cons_of_mem c hd))

theorem woven_word {t : Text} (h : (t.all fun c => decide (Structural c)) = true) : Woven [] t :=
  woven_structural fun c hc => of_decide_eq_true (List.all_eq_true.mp h c hc)

theorem woven_quoteRaw (t : Text) : Woven [t.flatMap escapeRaw] (quoteRaw t) :=
  .quote _ .nil

theorem Woven.joinComma {α : Type} {bodies : α → List Text} {text : α → Text} {parts : List α}
    (h : ∀ p ∈ parts, Woven (bodies p) (text p)) :
    Woven (parts.flatMap bodies) (joinComma (parts.map text)) := by
  have hcomma : Structural ',' := by decide
  induction parts with
  | nil => exact .nil
  | cons p parts ih =>
    have hp := h p List.mem_cons_self
    have hrest := ih fun q hq => h q (List.mem_cons_of_mem p hq)
    cases parts with
    | nil => simpa [Json.joinComma] using hp
    | cons q parts => exact hp.append (.char hcomma hrest)

theorem NumberChar.structural {c : Char} (h : NumberChar c) : Structural c := by
  rcases h with h | h
  · rw [Char.isDigit_iff_toNat] at h
    have hzero : '0'.toNat = 48 := rfl
    have hnine : '9'.toNat = 57 := rfl
    refine ⟨by omega, by omega, ?_, ?_⟩ <;> rintro rfl <;> revert h <;> decide
  · simp only [List.mem_cons, List.not_mem_nil, or_false] at h
    rcases h with rfl | rfl | rfl | rfl | rfl <;> decide

theorem woven_dumpsPlain (v : Json) :
    Woven ((strings v).map fun t => t.flatMap escapeRaw) (dumpsPlain quoteRaw v) := by
  induction v using induct with
  | hnull => exact woven_word (by decide : (['n', 'u', 'l', 'l'].all _) = true)
  | hbool b =>
    cases b with
    | true => exact woven_word (by decide : (['t', 'r', 'u', 'e'].all _) = true)
    | false => exact woven_word (by decide : (['f', 'a', 'l', 's', 'e'].all _) = true)
  | hint n => exact woven_structural fun c hc => (numberChar_encodeInt n c hc).structural
  | hfloat x => exact woven_structural fun c hc => (numberChar_float x c hc).structural
  | hstr t => exact woven_quoteRaw t
  | harr items ih =>
    have hbracket : Structural '[' ∧ Structural ']' := by decide
    have hclose : Woven [] [']'] := .char hbracket.2 .nil
    have hitems := (Woven.joinComma ih).append hclose
    rw [List.append_nil] at hitems
    rw [dumpsPlain_arr, strings_arr, List.map_flatMap]
    exact .char hbracket.1 hitems
  | hobj fields ih =>
    have hbrace : Structural '{' ∧ Structural '}' ∧ Structural ':' := by decide
    have hfield : ∀ f ∈ fields,
        Woven ((f.1 :: strings f.2).map fun t => t.flatMap escapeRaw)
          (quoteRaw f.1 ++ ':' :: dumpsPlain quoteRaw f.2) := by
      intro f hf
      exact (woven_quoteRaw f.1).append (.char hbrace.2.2 (ih f hf))
    have hclose : Woven [] ['}'] := .char hbrace.2.1 .nil
    have hfields := (Woven.joinComma hfield).append hclose
    rw [List.append_nil] at hfields
    rw [dumpsPlain_obj, strings_obj, List.map_flatMap]
    exact .char hbrace.1 hfields

/-! ## What occurs in such a text -/

theorem Woven.prefix_structural {bodies : List Text} {t m : Text} (h : Woven bodies t)
    (hm : '"' ∉ m) (hp : m <+: t) : ∀ c ∈ m, Structural c := by
  induction h generalizing m with
  | nil =>
    rw [List.prefix_nil.mp hp]
    exact nofun
  | @char bodies t c hc _ ih =>
    cases m with
    | nil => exact nofun
    | cons d m =>
      obtain ⟨rfl, hrest⟩ := List.cons_prefix_cons.mp hp
      rw [List.mem_cons, not_or] at hm
      exact List.forall_mem_cons.mpr ⟨hc, ih hm.2 hrest⟩
  | quote body _ _ =>
    cases m with
    | nil => exact nofun
    | cons d m =>
      obtain ⟨rfl, -⟩ := List.cons_prefix_cons.mp hp
      exact absurd List.mem_cons_self hm

/-- A text without quotes that is not structural occurs inside the bodies only. -/
theorem Woven.occurrences {bodies : List Text} {t m : Text} (h : Woven bodies t) (hm : '"' ∉ m)
    (hinner : ∃ c ∈ m, ¬ Structural c) :
    occurrences m t = (bodies.map (occurrences m)).sum := by
  obtain ⟨c, hc, hcs⟩ := hinner
  have hne : m ≠ [] := List.ne_nil_of_mem hc
  induction h with
  | nil => rfl
  | @char bodies t d hd h ih =>
    have hnot : ¬ m <+: d :: t := fun hp => hcs ((Woven.char hd h).prefix_structural hm hp c hc)
    rw [BetterHindsight.occurrences, if_neg hnot, ih, Nat.zero_add]
  | @quote bodies t body h ih =>
    have hopen := occurrences_append_cons hm hne [] (body ++ '"' :: t)
    have hclose := occurrences_append_cons hm hne body t
    rw [List.nil_append, hclose, ih] at hopen
    rw [hopen, List.map_cons, List.sum_cons, BetterHindsight.occurrences, Nat.zero_add]

theorem Woven.mem {bodies : List Text} {t : Text} {c : Char} (h : Woven bodies t)
    (hc : ¬ Structural c) (hquote : c ≠ '"') : c ∈ t ↔ ∃ body ∈ bodies, c ∈ body := by
  induction h with
  | nil => simp
  | @char bodies t d hd _ ih =>
    have hne : c ≠ d := by
      rintro rfl
      exact hc hd
    rw [List.mem_cons, ih, or_iff_right hne]
  | quote body _ ih =>
    rw [List.mem_cons, List.mem_append, List.mem_cons, ih, List.exists_mem_cons_iff,
      or_iff_right hquote, or_iff_right hquote]

/-! ## What occurs in a string -/

/-- A character either stays or becomes an escape. -/
theorem escapeRaw_cases (c : Char) :
    escapeRaw c = [c] ∨
      ∃ more, escapeRaw c = '\\' :: more ∧ ∀ d ∈ more, d.toNat < 0x80 ∧ d ≠ '[' := by
  unfold escapeRaw
  split
  · rename_i e he
    refine .inr ⟨[e], rfl, fun d hd => ?_⟩
    rw [List.mem_singleton.mp hd]
    unfold shortEscape at he
    split_ifs at he <;> rw [← Option.some.inj he] <;> decide
  · split
    · refine .inr ⟨_, rfl, fun d hd => ?_⟩
      exact plain_unicodeEscape (List.mem_cons_of_mem _ hd)
    · exact .inl rfl

theorem prefix_flatMap_escapeRaw {m : Text} (hm : ∀ c ∈ m, escapeRaw c = [c]) (t : Text) :
    m <+: t.flatMap escapeRaw ↔ m <+: t := by
  have hback : escapeRaw '\\' ≠ ['\\'] := by decide
  induction m generalizing t with
  | nil => simp
  | cons d m ih =>
    obtain ⟨hd, hrest⟩ := List.forall_mem_cons.mp hm
    cases t with
    | nil => rfl
    | cons c t =>
      rw [List.flatMap_cons, List.cons_prefix_cons]
      rcases escapeRaw_cases c with hc | ⟨more, hc, -⟩
      · have hiff := ih hrest t
        rw [hc, List.singleton_append, List.cons_prefix_cons]
        exact and_congr_right fun _ => hiff
      · rw [hc, List.cons_append, List.cons_prefix_cons]
        refine iff_of_false ?_ ?_
        · rintro ⟨rfl, -⟩
          exact hback hd
        · rintro ⟨rfl, -⟩
          rw [hd] at hc
          cases hc
          exact hback hd

/-- A text that needs no escapes and begins with a bracket occurs in the encoding of a string as
often as in the string. -/
theorem occurrences_flatMap_escapeRaw {m : Text} (hm : ∀ c ∈ '[' :: m, escapeRaw c = [c])
    (t : Text) :
    occurrences ('[' :: m) (t.flatMap escapeRaw) = occurrences ('[' :: m) t := by
  induction t with
  | nil => rfl
  | cons c t ih =>
    have hbegins := prefix_flatMap_escapeRaw hm (c :: t)
    rw [List.flatMap_cons] at hbegins ⊢
    rw [occurrences]
    rcases escapeRaw_cases c with hc | ⟨more, hc, hmore⟩
    · rw [hc, List.singleton_append] at hbegins ⊢
      rw [occurrences, ih]
      simp only [hbegins]
    · have hskip : ∀ s : Text, (∀ d ∈ s, d ≠ '[') →
          occurrences ('[' :: m) (s ++ t.flatMap escapeRaw) =
            occurrences ('[' :: m) (t.flatMap escapeRaw) := by
        intro s hs
        induction s with
        | nil => rfl
        | cons d s ihs =>
          obtain ⟨hd, hs⟩ := List.forall_mem_cons.mp hs
          have hnot : ¬ '[' :: m <+: d :: (s ++ t.flatMap escapeRaw) :=
            fun hp => hd (List.cons_prefix_cons.mp hp).1.symm
          rw [List.cons_append, occurrences, if_neg hnot, ihs hs, Nat.zero_add]
      have hnot : ¬ '[' :: m <+: c :: t := by
        intro hp
        have heq := (List.cons_prefix_cons.mp hp).1
        have hlit := hm '[' List.mem_cons_self
        rw [heq, hc] at hlit
        cases hlit
        exact absurd heq (by decide)
      rw [hc, hskip, ih, if_neg hnot, Nat.zero_add]
      exact List.forall_mem_cons.mpr ⟨by decide, fun d hd => (hmore d hd).2⟩

/-- A character that is not ASCII. -/
theorem mem_flatMap_escapeRaw {c : Char} (hc : 0x80 ≤ c.toNat) (t : Text) :
    c ∈ t.flatMap escapeRaw ↔ c ∈ t := by
  induction t with
  | nil => rfl
  | cons d t ih =>
    rw [List.flatMap_cons, List.mem_append, ih, List.mem_cons]
    rcases escapeRaw_cases d with hd | ⟨more, hd, hmore⟩
    · rw [hd, List.mem_singleton]
    · have hescape : c ∉ escapeRaw d := by
        rw [hd, List.mem_cons, not_or]
        refine ⟨?_, fun hmem => ?_⟩
        · rintro rfl
          revert hc
          decide
        · have hsmall := (hmore c hmem).1
          omega
      have hne : c ≠ d := by
        rintro rfl
        have hlit : escapeRaw c = [c] := by
          have hshort : shortEscape c = none := by
            have hq : c ≠ '"' := fun heq => absurd (heq ▸ hc) (by decide)
            have hb : c ≠ '\\' := fun heq => absurd (heq ▸ hc) (by decide)
            unfold shortEscape
            rw [if_neg hq, if_neg hb]
            split_ifs <;> first | rfl | omega
          have hlarge : ¬ c.toNat < 0x20 := by omega
          simp only [escapeRaw, hshort, if_neg hlarge]
        rw [hlit] at hescape
        exact hescape List.mem_cons_self
      rw [or_iff_right hescape, or_iff_right hne]

/-- A marker occurs in a document as often as in its strings. -/
theorem occurrences_dumpsPlain {m : Text} (hm : ∀ c ∈ '[' :: m, escapeRaw c = [c])
    (hunderscore : '_' ∈ m) (v : Json) :
    occurrences ('[' :: m) (dumpsPlain quoteRaw v) =
      ((strings v).map (occurrences ('[' :: m))).sum := by
  have hquote : '"' ∉ '[' :: m := fun hmem => absurd (hm _ hmem) (by decide)
  have hinner : ∃ c ∈ '[' :: m, ¬ Structural c :=
    ⟨'_', List.mem_cons_of_mem _ hunderscore, by decide⟩
  rw [(woven_dumpsPlain v).occurrences hquote hinner, List.map_map]
  congr 1
  apply List.map_congr_left
  intro t _
  exact occurrences_flatMap_escapeRaw hm t

/-- A character that is not ASCII is in a document if one of its strings has it. -/
theorem mem_dumpsPlain {c : Char} (hc : 0x80 ≤ c.toNat) (v : Json) :
    c ∈ dumpsPlain quoteRaw v ↔ ∃ t ∈ strings v, c ∈ t := by
  have hstructural : ¬ Structural c := fun h => absurd h.2.1 (Nat.not_lt.mpr hc)
  have hquote : c ≠ '"' := by
    rintro rfl
    revert hc
    decide
  rw [(woven_dumpsPlain v).mem hstructural hquote]
  simp only [List.mem_map, exists_exists_and_eq_and, mem_flatMap_escapeRaw hc]

/-- A document has no control characters. -/
theorem printable_dumpsPlain (v : Json) : ∀ c ∈ dumpsPlain quoteRaw v, Printable c := by
  have hwoven := woven_dumpsPlain v
  intro c hc
  by_cases hstructural : Structural c
  · exact hstructural.1
  by_cases hquote : c = '"'
  · rw [hquote]
    exact (by decide : 0x20 ≤ '"'.toNat)
  obtain ⟨body, hbody, hc⟩ := (hwoven.mem hstructural hquote).mp hc
  obtain ⟨t, -, rfl⟩ := List.mem_map.mp hbody
  obtain ⟨d, -, hd⟩ := List.mem_flatMap.mp hc
  exact printable_escapeRaw hd

end BetterHindsight.Json
