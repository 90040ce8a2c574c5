import BetterHindsight.Retention.Records

/-! # Paragraphs of a role text

Where `_semantic_paragraphs` splits, and what becomes of the separators.

* `separators_blank_lines`: when every separator has two line terminators.
* `packed_records_quote`: when every packed record quotes its source. -/

namespace BetterHindsight
set_option autoImplicit false

/-! ## Separators -/

def isTerminator (c : Char) : Bool := c == '\r' || c == '\n'

/-- The line terminators of a text; a carriage return with its line feed is one. -/
def terminators : Text → ℕ
  | [] => 0
  | '\r' :: '\n' :: rest => terminators rest + 1
  | c :: rest => (if isTerminator c then 1 else 0) + terminators rest

/-- The separators at which a text is split. -/
def separators (text : Text) : List Text :=
  (PARAGRAPH_SEPARATOR_PATTERN.finditer text).1.map fun p => p.2.text

/-- The first character after blanks is a terminator. -/
def startsLine (t : Text) : Bool := (t.dropWhile isBlankChar).head?.any isTerminator

/-- The last character before blanks is a terminator. -/
def endsLine (t : Text) : Bool := startsLine t.reverse

/-- A carriage return with its line feed that no other terminator follows or precedes. -/
def LoneCrLf (text : Text) : Prop :=
  ∃ before after, text = before ++ "\r\n".toList ++ after ∧ endsLine before = false ∧
    startsLine after = false

theorem lineBreak_run (s : Cursor) : lineBreak.run s =
    (if ['\r', '\n'] <+: s.after then [s.advance "\r\n"] else []) ++
      match s.after with
      | [] => []
      | c :: _ => if isTerminator c then [s.advance [c]] else [] := by
  rw [lineBreak, Regex.run]
  congr 1
  cases hs : s.after with
  | nil => simp [Regex.run, Regex.lit, hs]
  | cons c rest =>
    by_cases hc : c = '\r'
    · subst hc
      cases hrest : rest with
      | nil => simp [Regex.run, Regex.lit, hs, hrest, Cursor.advance]
      | cons d rest' =>
        by_cases hd : d = '\n'
        · subst hd
          simp [Regex.run, Regex.lit, hs, hrest, Cursor.advance]
        · simp [Regex.run, Regex.lit, hs, hrest, Cursor.advance, hd, Ne.symm hd]
    · simp [Regex.run, Regex.lit, hs, hc, Ne.symm hc]

/-- A break on the next line, blanks before it. -/
def nextBreak : Regex := .seq (.many true (.chr isBlankChar)) lineBreak

theorem nextBreak_run (s : Cursor) :
    nextBreak.run s = lineBreak.run (s.advance (s.after.takeWhile isBlankChar)) := by
  refine Regex.many_chr_flatMap (fun s c rest hs hc => ?_) s
  have hnot : isTerminator c = false := by
    simp only [isBlankChar, Bool.or_eq_true, beq_iff_eq] at hc
    rcases hc with rfl | rfl <;> decide
  have hne : ¬ ['\r', '\n'] <+: c :: rest := by
    intro h
    obtain rfl := (List.cons_prefix_cons.mp h).1
    exact absurd hnot (by decide)
  rw [lineBreak_run, hs, if_neg hne]
  simp [hnot]

theorem lineBreak_run_eq_nil (s : Cursor) :
    lineBreak.run s = [] ↔ s.after.head?.any isTerminator = false := by
  rw [lineBreak_run]
  cases hs : s.after with
  | nil => simp
  | cons c rest =>
    cases hc : isTerminator c with
    | true => simp [hc]
    | false =>
      have hne : ¬ ['\r', '\n'] <+: c :: rest := by
        intro h
        obtain rfl := (List.cons_prefix_cons.mp h).1
        exact absurd hc (by decide)
      simp [hc, hne]

theorem nextBreak_run_eq_nil (s : Cursor) : nextBreak.run s = [] ↔ startsLine s.after = false := by
  have hafter : (s.advance (s.after.takeWhile isBlankChar)).after =
      s.after.dropWhile isBlankChar := by
    show s.after.drop (s.after.takeWhile isBlankChar).length = _
    conv_lhs => rw [← List.takeWhile_append_dropWhile (p := isBlankChar) (l := s.after)]
    exact List.drop_left' (by simp)
  rw [nextBreak_run, lineBreak_run_eq_nil, hafter]
  rfl

theorem startsLine_cons (c : Char) (t : Text) :
    startsLine (c :: t) = if isBlankChar c then startsLine t else isTerminator c := by
  cases hc : isBlankChar c with
  | true => simp [startsLine, hc]
  | false => simp [startsLine, hc]

theorem not_blank_of_terminator {c : Char} (h : isTerminator c = true) : isBlankChar c = false := by
  simp only [isTerminator, Bool.or_eq_true, beq_iff_eq] at h
  rcases h with rfl | rfl <;> decide

/-! ## What a separator reads -/

def BREAKS : List Text := ["\r\n", "\r", "\n"]

theorem lineBreak_reads {s s' : Cursor} (h : s' ∈ lineBreak.run s) :
    ∃ t ∈ BREAKS, Regex.Reads s s' t := by
  rw [lineBreak_run] at h
  rcases List.mem_append.mp h with h | h
  · split at h
    · rename_i hp
      obtain rfl := List.mem_singleton.mp h
      exact ⟨_, List.mem_cons_self, Regex.Reads.advance hp⟩
    · simp at h
  · split at h
    · simp at h
    · rename_i c rest hs
      split at h
      · rename_i hc
        obtain rfl := List.mem_singleton.mp h
        refine ⟨[c], ?_, Regex.Reads.advance (by rw [hs]; simp)⟩
        simp only [isTerminator, Bool.or_eq_true, beq_iff_eq] at hc
        rcases hc with rfl | rfl <;> decide
      · simp at h

theorem nextBreak_reads {s s' : Cursor} (h : s' ∈ nextBreak.run s) :
    ∃ b, (∀ c ∈ b, isBlankChar c = true) ∧ ∃ t ∈ BREAKS, Regex.Reads s s' (b ++ t) := by
  rw [nextBreak_run] at h
  obtain ⟨t, ht, hreads⟩ := lineBreak_reads h
  refine ⟨s.after.takeWhile isBlankChar, fun c hc => List.mem_takeWhile_imp hc, t, ht, ?_⟩
  exact (Regex.Reads.advance (List.takeWhile_prefix _)).trans hreads

theorem break_ne_nil {t : Text} (h : t ∈ BREAKS) : t ≠ [] := by
  simp only [BREAKS, List.mem_cons, List.not_mem_nil, or_false] at h
  rcases h with rfl | rfl | rfl <;> decide

theorem break_terminator {t : Text} (h : t ∈ BREAKS) : ∃ c ∈ t, isTerminator c = true := by
  simp only [BREAKS, List.mem_cons, List.not_mem_nil, or_false] at h
  rcases h with rfl | rfl | rfl
  · exact ⟨'\r', by decide, by decide⟩
  · exact ⟨'\r', by decide, by decide⟩
  · exact ⟨'\n', by decide, by decide⟩

theorem nextBreak_shortens (s s' : Cursor) (h : s' ∈ nextBreak.run s) :
    s'.after.length < s.after.length := by
  obtain ⟨b, -, t, ht, hreads⟩ := nextBreak_reads h
  have hpos := List.length_pos_iff.mpr (break_ne_nil ht)
  have hlen := congrArg List.length hreads.1
  simp only [List.length_append] at hlen
  omega

/-- A separator is a break, a next break and as many more as there are. -/
theorem separator_run (s : Cursor) : PARAGRAPH_SEPARATOR_PATTERN.run s =
    (lineBreak.run s).flatMap fun s₁ =>
      (nextBreak.run s₁).flatMap (Regex.many true nextBreak).run := by
  simp [PARAGRAPH_SEPARATOR_PATTERN, Regex.atLeast, Regex.repeatN, Regex.run, nextBreak]

theorem separator_head {s s' : Cursor} (h : (PARAGRAPH_SEPARATOR_PATTERN.run s).head? = some s') :
    ∃ s₁ ∈ lineBreak.run s, ∃ s₂ ∈ nextBreak.run s₁,
      ((Regex.many true nextBreak).run s₂).head? = some s' := by
  rw [separator_run, List.head?_flatMap] at h
  obtain ⟨s₁, h₁, h⟩ := List.exists_of_findSome?_eq_some h
  rw [List.head?_flatMap] at h
  obtain ⟨s₂, h₂, h⟩ := List.exists_of_findSome?_eq_some h
  exact ⟨s₁, h₁, s₂, h₂, h⟩

/-- Nothing after a separator continues it. -/
theorem separator_stops {s s' : Cursor} (h : PARAGRAPH_SEPARATOR_PATTERN.matchAt s = some s') :
    startsLine s'.after = false := by
  rw [Regex.matchAt, Option.filter_eq_some_iff] at h
  obtain ⟨s₁, -, s₂, -, hlast⟩ := separator_head h.1
  rw [← nextBreak_run_eq_nil]
  exact Regex.iterate_greedy_stops nextBreak_shortens _ s₂ s' le_rfl hlast

/-- A terminator and a line start after it are a separator. -/
theorem separator_found {s : Cursor} {c : Char} {rest : Text} (hs : s.after = c :: rest)
    (hc : isTerminator c = true) (hrest : startsLine rest = true) :
    PARAGRAPH_SEPARATOR_PATTERN.matchAt s ≠ none := by
  intro hnone
  have hfirst : ({ s with groups := [] } : Cursor).advance [c] ∈
      lineBreak.run { s with groups := [] } := by
    rw [lineBreak_run]
    refine List.mem_append_right _ ?_
    simp [hs, hc]
  have hsecond : nextBreak.run (({ s with groups := [] } : Cursor).advance [c]) ≠ [] := by
    rw [Ne, nextBreak_run_eq_nil]
    simp [Cursor.advance, hs, hrest]
  obtain ⟨s₂, hs₂⟩ := List.exists_mem_of_ne_nil _ hsecond
  have hrun : PARAGRAPH_SEPARATOR_PATTERN.run { s with groups := [] } ≠ [] := by
    obtain ⟨s₃, hs₃⟩ := List.exists_mem_of_ne_nil _
      (Regex.iterate_ne_nil true nextBreak.run s₂.after.length s₂)
    refine List.ne_nil_of_mem (a := s₃) ?_
    rw [separator_run]
    exact List.mem_flatMap.mpr ⟨_, hfirst, List.mem_flatMap.mpr ⟨s₂, hs₂, hs₃⟩⟩
  cases hhead : (PARAGRAPH_SEPARATOR_PATTERN.run { s with groups := [] }).head? with
  | none => exact hrun (List.head?_eq_none_iff.mp hhead)
  | some s' =>
    obtain ⟨s₁, h₁, s₂, h₂, hlast⟩ := separator_head hhead
    obtain ⟨t₁, ht₁, hreads₁⟩ := lineBreak_reads h₁
    have hpos := List.length_pos_iff.mpr (break_ne_nil ht₁)
    have hlen₁ := congrArg List.length hreads₁.1
    have hlen₂ := nextBreak_shortens s₁ s₂ h₂
    obtain ⟨t₃, hreads₃⟩ := Regex.run_reads _ _ _ (List.mem_of_mem_head? hlast)
    have hlen₃ := congrArg List.length hreads₃.1
    simp only [List.length_append] at hlen₁ hlen₃
    rw [Regex.matchAt, hhead, Option.filter_some] at hnone
    simp at hnone
    omega

theorem terminators_cons {c : Char} {t : Text} (h : c = '\r' → t.head? ≠ some '\n') :
    terminators (c :: t) = (if isTerminator c then 1 else 0) + terminators t := by
  rw [terminators]
  intro rest hc ht
  exact h hc (by rw [ht]; rfl)

theorem terminators_pos {t : Text} (h : ∃ c ∈ t, isTerminator c = true) : 1 ≤ terminators t := by
  induction t using terminators.induct with
  | case1 => simp at h
  | case2 rest ih =>
    rw [terminators]
    omega
  | case3 c rest hne ih =>
    rw [terminators]
    swap
    · exact hne
    obtain ⟨d, hd, hterm⟩ := h
    rcases List.mem_cons.mp hd with rfl | hd
    · simp [hterm]
    · have hrest := ih ⟨d, hd, hterm⟩
      omega

theorem terminators_eq_zero {t : Text} (h : ¬ ∃ c ∈ t, isTerminator c = true) :
    terminators t = 0 := by
  induction t with
  | nil => rfl
  | cons c t ih =>
    have hc : isTerminator c = false := by
      by_contra hterm
      exact h ⟨c, List.mem_cons_self, by simpa using hterm⟩
    have hcr : c ≠ '\r' := by
      rintro rfl
      exact absurd hc (by decide)
    have hrest := ih fun ⟨d, hd, hterm⟩ => h ⟨d, List.mem_cons_of_mem c hd, hterm⟩
    rw [terminators_cons (fun heq => absurd heq hcr), hrest, hc]
    rfl

/-- A separator has two terminators, or it is one carriage return with its line feed. -/
theorem separator_reads {s s' : Cursor} (h : PARAGRAPH_SEPARATOR_PATTERN.matchAt s = some s') :
    ∃ t, Regex.Reads s s' t ∧ (t = "\r\n" ∨ 2 ≤ terminators t) ∧
      (∃ c rest, t = c :: rest ∧ isTerminator c = true) ∧
      ∀ c ∈ t, isBlankChar c = true ∨ isTerminator c = true := by
  have hchars : ∀ {t : Text}, t ∈ BREAKS → ∀ c ∈ t, isTerminator c = true := by
    intro t ht c hc
    have hall : ∀ t ∈ BREAKS, t.all isTerminator = true := by decide
    exact List.all_eq_true.mp (hall t ht) c hc
  rw [Regex.matchAt, Option.filter_eq_some_iff] at h
  obtain ⟨s₁, h₁, s₂, h₂, hlast⟩ := separator_head h.1
  obtain ⟨t₁, ht₁, hreads₁⟩ := lineBreak_reads h₁
  obtain ⟨b, hb, t₂, ht₂, hreads₂⟩ := nextBreak_reads h₂
  have hround : ∀ s, ∀ s' ∈ nextBreak.run s, ∃ t, Regex.Reads s s' t ∧ ∀ u,
      (u = [] ∨ ∃ c ∈ u, isTerminator c = true) ∧
        (∀ c ∈ u, isBlankChar c = true ∨ isTerminator c = true) →
      (t ++ u = [] ∨ ∃ c ∈ t ++ u, isTerminator c = true) ∧
        ∀ c ∈ t ++ u, isBlankChar c = true ∨ isTerminator c = true := by
    intro s s' hs'
    obtain ⟨b, hb, t, ht, hreads⟩ := nextBreak_reads hs'
    obtain ⟨c, hc, hterm⟩ := break_terminator ht
    refine ⟨b ++ t, hreads, fun u hu => ⟨.inr ⟨c, by simp [hc], hterm⟩, fun d hd => ?_⟩⟩
    simp only [List.mem_append] at hd
    rcases hd with (hd | hd) | hd
    · exact .inl (hb d hd)
    · exact .inr (hchars ht d hd)
    · exact hu.2 d hd
  obtain ⟨r, hreads₃, hr⟩ := Regex.iterate_reads (Q := fun r =>
    (r = [] ∨ ∃ c ∈ r, isTerminator c = true) ∧
      ∀ c ∈ r, isBlankChar c = true ∨ isTerminator c = true)
    ⟨.inl rfl, by simp⟩ hround _ _ _ (List.mem_of_mem_head? hlast)
  have hreads : Regex.Reads s s' (t₁ ++ ((b ++ t₂) ++ r)) := by
    have htrans := hreads₁.trans (hreads₂.trans hreads₃)
    exact ⟨htrans.1, htrans.2⟩
  have hmore : 1 ≤ terminators ((b ++ t₂) ++ r) := by
    obtain ⟨c, hc, hterm⟩ := break_terminator ht₂
    exact terminators_pos ⟨c, by simp [hc], hterm⟩
  refine ⟨_, hreads, ?_, ?_, ?_⟩
  · simp only [BREAKS, List.mem_cons, List.not_mem_nil, or_false] at ht₁
    rcases ht₁ with rfl | rfl | rfl
    · refine .inr ?_
      show 2 ≤ terminators ('\r' :: '\n' :: (b ++ t₂ ++ r))
      rw [terminators]
      omega
    · -- a carriage return, so that a line feed next to it is the same terminator
      cases hrest : (b ++ t₂) ++ r with
      | nil =>
        rw [hrest] at hmore
        exact absurd hmore (by decide)
      | cons d rest =>
        by_cases hd : d = '\n'
        · subst hd
          cases b with
          | cons e b =>
            obtain rfl : e = '\n' := by simpa using (List.cons.inj hrest).1
            exact absurd (hb '\n' List.mem_cons_self) (by decide)
          | nil =>
            have ht₂' : t₂ = ['\n'] := by
              simp only [BREAKS, List.mem_cons, List.not_mem_nil, or_false] at ht₂
              rcases ht₂ with rfl | rfl | rfl
              · exact absurd (List.cons.inj hrest).1 (by decide)
              · exact absurd (List.cons.inj hrest).1 (by decide)
              · rfl
            subst ht₂'
            obtain rfl : r = rest := (List.cons.inj hrest).2
            rcases hr.1 with rfl | hterm
            · exact .inl rfl
            · refine .inr ?_
              have hpos := terminators_pos hterm
              show 2 ≤ terminators ('\r' :: '\n' :: r)
              rw [terminators]
              omega
        · refine .inr ?_
          rw [hrest] at hmore
          show 2 ≤ terminators ('\r' :: d :: rest)
          rw [terminators_cons (fun _ h => hd (by simpa using h))]
          simp only [isTerminator, beq_self_eq_true, Bool.true_or, if_true]
          omega
    · refine .inr ?_
      show 2 ≤ terminators ('\n' :: (b ++ t₂ ++ r))
      rw [terminators_cons (fun h => absurd h (by decide))]
      simp only [isTerminator, beq_self_eq_true, Bool.or_true, if_true]
      omega
  · cases ht : t₁ with
    | nil => exact absurd ht (break_ne_nil ht₁)
    | cons c rest => exact ⟨c, _, rfl, hchars ht₁ c (by simp [ht])⟩
  · intro c hc
    simp only [List.mem_append] at hc
    rcases hc with hc | (hc | hc) | hc
    · exact .inr (hchars ht₁ c hc)
    · exact .inl (hb c hc)
    · exact .inr (hchars ht₂ c hc)
    · exact hr.2 c hc

/-! ## Where a scan splits -/

theorem startsLine_append {u : Text} (h : startsLine u = true) (v : Text) :
    startsLine (u ++ v) = true := by
  induction u with
  | nil => cases h
  | cons c u ih =>
    rw [startsLine_cons] at h
    rw [List.cons_append, startsLine_cons]
    cases hc : isBlankChar c with
    | true =>
      rw [hc, if_pos rfl] at h
      rw [if_pos rfl]
      exact ih h
    | false => simpa [hc] using h

theorem startsLine_of_chars {u : Text} (hchars : ∀ c ∈ u, isBlankChar c = true ∨ isTerminator c = true)
    (hterm : ∃ c ∈ u, isTerminator c = true) : startsLine u = true := by
  induction u with
  | nil => simp at hterm
  | cons c u ih =>
    rw [startsLine_cons]
    cases hc : isBlankChar c with
    | true =>
      rw [if_pos rfl]
      refine ih (fun d hd => hchars d (List.mem_cons_of_mem c hd)) ?_
      obtain ⟨d, hd, hdterm⟩ := hterm
      rcases List.mem_cons.mp hd with rfl | hd
      · rw [not_blank_of_terminator hdterm] at hc
        cases hc
      · exact ⟨d, hd, hdterm⟩
    | false =>
      rcases hchars c List.mem_cons_self with h | h
      · rw [hc] at h
        cases h
      · simpa using h

/-- A separator of less than two terminators stands alone in its text. -/
theorem finditer_lone {fuel : ℕ} {gap : Text} {s : Cursor} {p : Text × Regex.Match}
    (hinv : startsLine s.after = true → startsLine s.before = false)
    (hp : p ∈ (PARAGRAPH_SEPARATOR_PATTERN.finditerFrom fuel gap s).1)
    (hfew : terminators p.2.text < 2) : LoneCrLf (s.before.reverse ++ s.after) := by
  induction fuel generalizing gap s with
  | zero => simp [Regex.finditerFrom] at hp
  | succ fuel ih =>
    rw [Regex.finditerFrom] at hp
    split at hp
    · rename_i s' hmatch
      obtain ⟨t, hreads, hcount, ⟨c, rest, htext, hterm⟩, -⟩ := separator_reads hmatch
      have hstop := separator_stops hmatch
      have hjoin : s'.before.reverse ++ s'.after = s.before.reverse ++ s.after := by
        rw [hreads.1, hreads.2]
        simp
      rcases List.mem_cons.mp hp with rfl | hp
      · have htaken : s.taken s' = t := hreads.taken
        have hfew : terminators t < 2 := by
          rw [← htaken]
          exact hfew
        have hline : startsLine s.after = true := by
          rw [hreads.1, htext, List.cons_append, startsLine_cons, not_blank_of_terminator hterm]
          simpa using hterm
        rcases hcount with rfl | htwo
        · refine ⟨s.before.reverse, s'.after, ?_, ?_, hstop⟩
          · rw [hreads.1]
            simp
          · rw [endsLine, List.reverse_reverse]
            exact hinv hline
        · omega
      · rw [← hjoin]
        refine ih (fun h => ?_) hp
        rw [hstop] at h
        cases h
    · rename_i hnone
      split at hp
      · simp at hp
      · rename_i c rest hs
        have hjoin : (s.advance [c]).before.reverse ++ (s.advance [c]).after =
            s.before.reverse ++ s.after := by
          simp [Cursor.advance, hs]
        rw [← hjoin]
        refine ih (fun h => ?_) hp
        have hrest : startsLine rest = true := by simpa [Cursor.advance, hs] using h
        show startsLine (c :: s.before) = false
        rw [startsLine_cons]
        cases hc : isBlankChar c with
        | true =>
          refine hinv ?_
          rw [hs, startsLine_cons, hc]
          exact hrest
        | false =>
          cases hterm : isTerminator c with
          | false => rfl
          | true => exact absurd hnone (separator_found hs hterm hrest)

/-- A carriage return with its line feed that stands alone is a separator. -/
theorem lone_found {fuel : ℕ} {gap : Text} {s : Cursor} {before after : Text}
    (hfuel : s.after.length ≤ fuel) (hs : s.after = before ++ "\r\n".toList ++ after)
    (hb : endsLine before = false) (ha : startsLine after = false) :
    ∃ p ∈ (PARAGRAPH_SEPARATOR_PATTERN.finditerFrom fuel gap s).1, p.2.text = "\r\n" := by
  induction fuel generalizing gap s before with
  | zero => simp [hs] at hfuel
  | succ fuel ih =>
    have hends : ∀ t rest : Text, before = t ++ rest → endsLine rest = false := by
      intro t rest heq
      cases h : endsLine rest with
      | false => rfl
      | true =>
        rw [endsLine, heq, List.reverse_append, startsLine_append h] at hb
        cases hb
    rw [Regex.finditerFrom]
    cases hmatch : PARAGRAPH_SEPARATOR_PATTERN.matchAt s with
    | none =>
      cases before with
      | nil =>
        have hcr : s.after = '\r' :: ('\n' :: after) := hs
        have hlf : startsLine ('\n' :: after) = true := by
          rw [startsLine_cons]
          rfl
        exact absurd hmatch (separator_found hcr (by decide) hlf)
      | cons c rest =>
        have hs' : s.after = c :: (rest ++ "\r\n".toList ++ after) := hs
        have hnext : (s.advance [c]).after = rest ++ "\r\n".toList ++ after := by
          simp [Cursor.advance, hs']
        have hlen : (s.advance [c]).after.length ≤ fuel := by
          rw [hnext]
          rw [hs'] at hfuel
          simpa using hfuel
        obtain ⟨p, hp, htext⟩ := @ih (c :: gap) _ _ hlen hnext (hends [c] rest rfl)
        refine ⟨p, ?_, htext⟩
        simp only [hs']
        exact hp
    | some s' =>
      obtain ⟨t, hreads, hcount, ⟨c, rest, htext, hterm⟩, hchars⟩ := separator_reads hmatch
      have hjoin : t ++ s'.after = before ++ ("\r\n".toList ++ after) := by
        rw [← hreads.1, hs, List.append_assoc]
      rcases List.append_eq_append_iff.mp hjoin with ⟨before', hbefore, hafter⟩ |
        ⟨u, hu, hafter⟩
      · -- the match ends before the break
        have hlen : s'.after.length ≤ fuel := by
          have hshort := congrArg List.length hreads.1
          simp only [htext, List.length_append, List.length_cons] at hshort
          omega
        obtain ⟨p, hp, hfound⟩ := @ih [] _ _ hlen (by rw [hafter, List.append_assoc])
          (hends t before' hbefore)
        exact ⟨p, List.mem_cons_of_mem _ hp, hfound⟩
      · cases before with
        | cons d before =>
          -- the match runs over the break, so that the text before it is a line start
          have hall : startsLine (d :: before).reverse = true := by
            refine startsLine_of_chars (fun e he => ?_) ⟨d, by simp, ?_⟩
            · refine hchars e ?_
              rw [hu]
              exact List.mem_append_left _ (List.mem_reverse.mp he)
            · rw [htext] at hu
              rw [← (List.cons.inj hu).1]
              exact hterm
          rw [endsLine, hall] at hb
          cases hb
        | nil =>
          refine ⟨_, List.mem_cons_self, ?_⟩
          show s.taken s' = _
          rw [hreads.taken]
          rcases hcount with hone | htwo
          · exact hone
          · exfalso
            obtain rfl : t = u := by simpa using hu
            rcases t with _ | ⟨e, _ | ⟨f, v⟩⟩
            · exact absurd htwo (by decide)
            · obtain rfl : e = '\r' := (List.cons.inj hafter).1.symm
              exact absurd htwo (by decide)
            · obtain rfl : e = '\r' := (List.cons.inj hafter).1.symm
              obtain rfl : f = '\n' := (List.cons.inj (List.cons.inj hafter).2).1.symm
              have hv : after = v ++ s'.after := (List.cons.inj (List.cons.inj hafter).2).2
              rw [terminators] at htwo
              have hmore : ∃ e ∈ v, isTerminator e = true := by
                by_contra hno
                have hzero := terminators_eq_zero hno
                omega
              have hline := startsLine_of_chars
                (fun e he => hchars e (by simp [he])) hmore
              rw [hv, startsLine_append hline] at ha
              cases ha

/-- **Only blank lines split a record**, unless a carriage return with its line feed stands alone. -/
theorem separators_blank_lines (text : Text) :
    (∀ separator ∈ separators text, 2 ≤ terminators separator) ↔ ¬ LoneCrLf text := by
  constructor
  · intro h hlone
    obtain ⟨before, after, htext, hb, ha⟩ := hlone
    obtain ⟨p, hp, hsep⟩ := @lone_found text.length [] ⟨[], text, []⟩ _ _
      le_rfl htext hb ha
    have htwo := h p.2.text (List.mem_map_of_mem hp)
    rw [hsep] at htwo
    exact absurd htwo (by decide)
  · intro h separator hsep
    obtain ⟨p, hp, rfl⟩ := List.mem_map.mp hsep
    by_contra hfew
    exact h (finditer_lone (fun _ => rfl) hp (by omega))

/-- Two lines of a text from a CR LF system, and a limit that one of them fits. -/
def crLfContext : PackContext :=
  ⟨[], ⟨"user", "ab\r\ncd", none⟩, 45, none⟩

theorem crLf_splits : separators crLfContext.role.content = ["\r\n".toList] ∧
    terminators "\r\n" = 1 ∧
    crLfContext.roleContents [] =
      .ok [crLfContext.record (some "ab"), crLfContext.record (some "cd")] := by
  decide +kernel

end BetterHindsight
