import BetterHindsight.Foundations.Regex
import BetterHindsight.Foundations.Substrings

/-! # What a substitution writes

Rules about `Regex.sub` for replacements that are known match by match.

* `Accepts`: the pattern reads this text at some place; the parts of a sequence.
* `Match.Of`: a match that a scan can find, `finditer_of`.
* `weigh`, `Gains`: a sum over the characters of a text, and what every text that the pattern reads
  has of it; `weigh_sub`: a substitution that weighs no more match by match weighs no more at all.
* `Marks`: a replacement that writes a mark for a part of the match; `infix_sub`: what is read in
  the result around the marks is read in the text. `infix_replace` is the same for `replace`. -/

namespace BetterHindsight
set_option autoImplicit false

namespace Regex

/-! ## Groups -/

/-- The groups that a match of the pattern can set. -/
def names : Regex → List ℕ
  | seq a b => a.names ++ b.names
  | alt a b => a.names ++ b.names
  | many _ a => a.names
  | group name a => name :: a.names
  | _ => []

theorem iterate_lookup {greedy : Bool} {body : Cursor → List Cursor} {k : ℕ}
    (hbody : ∀ s, ∀ s' ∈ body s, s'.groups.lookup k = s.groups.lookup k) :
    ∀ (fuel : ℕ) (s : Cursor), ∀ s' ∈ iterate greedy body fuel s,
      s'.groups.lookup k = s.groups.lookup k
  | 0, s, s', h => by
      obtain rfl : s' = s := by simpa [iterate] using h
      rfl
  | fuel + 1, s, s', h => by
      have hcases : s' = s ∨ s' ∈ (body s).flatMap fun s₁ =>
          if s₁.after.length < s.after.length then iterate greedy body fuel s₁ else [] := by
        cases greedy <;> simp only [iterate] at h <;> simpa [or_comm] using h
      rcases hcases with rfl | hm
      · rfl
      · obtain ⟨s₁, hs₁, hm⟩ := List.mem_flatMap.mp hm
        split at hm
        · rw [iterate_lookup hbody fuel s₁ s' hm, hbody s s₁ hs₁]
        · simp at hm

/-- A pattern leaves the groups of other names alone. -/
theorem run_lookup {k : ℕ} (r : Regex) (hk : k ∉ r.names) :
    ∀ s, ∀ s' ∈ r.run s, s'.groups.lookup k = s.groups.lookup k := by
  induction r with
  | eps =>
    intro s s' h
    obtain rfl : s' = s := by simpa [run] using h
    rfl
  | chr p =>
    intro s s' h
    rw [run] at h
    split at h
    · simp at h
    · split at h
      · obtain rfl := List.mem_singleton.mp h
        rfl
      · simp at h
  | seq a b iha ihb =>
    rw [names, List.mem_append, not_or] at hk
    intro s s' h
    obtain ⟨s₁, h₁, h₂⟩ := List.mem_flatMap.mp h
    rw [ihb hk.2 s₁ s' h₂, iha hk.1 s s₁ h₁]
  | alt a b iha ihb =>
    rw [names, List.mem_append, not_or] at hk
    intro s s' h
    rcases List.mem_append.mp h with h | h
    · exact iha hk.1 s s' h
    · exact ihb hk.2 s s' h
  | many g a ih =>
    intro s
    exact iterate_lookup (ih hk) _ s
  | group n a ih =>
    rw [names, List.mem_cons, not_or] at hk
    intro s s' h
    obtain ⟨s₁, h₁, rfl⟩ := List.mem_map.mp h
    have hne : (k == n) = false := by simpa using hk.1
    rw [List.lookup_cons, hne]
    exact ih hk.2 s s₁ h₁
  | backref n =>
    intro s s' h
    rw [run] at h
    split at h
    · simp at h
    · split at h
      · obtain rfl := List.mem_singleton.mp h
        rfl
      · simp at h
  | look p =>
    intro s s' h
    rw [run] at h
    split at h
    · obtain rfl := List.mem_singleton.mp h
      rfl
    · simp at h

/-! ## Texts that a pattern reads -/

/-- The pattern reads the text at some place, after some groups. -/
def Accepts (r : Regex) (t : Text) : Prop := ∃ s, ∃ s' ∈ r.run s, Reads s s' t

theorem accepts_of_run {r : Regex} {s s' : Cursor} (h : s' ∈ r.run s) :
    r.Accepts (s.taken s') := by
  obtain ⟨t, ht⟩ := run_reads r s s' h
  have htaken : s.taken s' = t := ht.taken
  rw [htaken]
  exact ⟨s, s', h, ht⟩

theorem Accepts.seq {a b : Regex} {t : Text} (h : (seq a b).Accepts t) :
    ∃ u v, t = u ++ v ∧ a.Accepts u ∧ b.Accepts v := by
  obtain ⟨s, s', h, ht⟩ := h
  obtain ⟨s₁, h₁, h₂⟩ := List.mem_flatMap.mp h
  obtain ⟨u, hu⟩ := run_reads a s s₁ h₁
  obtain ⟨v, hv⟩ := run_reads b s₁ s' h₂
  refine ⟨u, v, ?_, ⟨s, s₁, h₁, hu⟩, ⟨s₁, s', h₂, hv⟩⟩
  have hsame : u ++ v ++ s'.after = t ++ s'.after := by
    rw [← (hu.trans hv).1, ht.1]
  exact (List.append_cancel_right hsame).symm

theorem Accepts.group {name : ℕ} {a : Regex} {t : Text} (h : (group name a).Accepts t) :
    a.Accepts t := by
  obtain ⟨s, s', h, ht⟩ := h
  obtain ⟨s₁, h₁, rfl⟩ := List.mem_map.mp h
  exact ⟨s, s₁, h₁, ht⟩

theorem Accepts.alt {a b : Regex} {t : Text} (h : (alt a b).Accepts t) :
    a.Accepts t ∨ b.Accepts t := by
  obtain ⟨s, s', h, ht⟩ := h
  rcases List.mem_append.mp h with h | h
  · exact .inl ⟨s, s', h, ht⟩
  · exact .inr ⟨s, s', h, ht⟩

theorem Accepts.chr {p : Char → Bool} {t : Text} (h : (chr p).Accepts t) :
    ∃ c, t = [c] ∧ p c = true := by
  obtain ⟨s, s', h, ht⟩ := h
  rw [run] at h
  split at h
  · simp at h
  · rename_i c rest hs
    split at h
    · rename_i hp
      obtain rfl := List.mem_singleton.mp h
      have hread : Reads s (s.advance [c]) [c] := Reads.advance (by rw [hs]; simp)
      have hsame := hread.taken.symm.trans ht.taken
      exact ⟨c, hsame.symm, hp⟩
    · simp at h

theorem Accepts.eps {t : Text} (h : Regex.eps.Accepts t) : t = [] := by
  obtain ⟨s, s', h, ht⟩ := h
  obtain rfl : s' = s := by simpa [run] using h
  exact List.append_left_eq_self.mp ht.1.symm

theorem Accepts.lit {u t : Text} (h : (lit u).Accepts t) : t = u := by
  induction u generalizing t with
  | nil => exact h.eps
  | cons c u ih =>
    obtain ⟨_, v, rfl, hc, hv⟩ := h.seq
    obtain ⟨d, rfl, hd⟩ := hc.chr
    obtain rfl : d = c := by simpa using hd
    rw [ih hv]
    rfl

theorem Accepts.minLen {r : Regex} {t : Text} (h : r.Accepts t) : r.minLen ≤ t.length := by
  obtain ⟨s, s', h, ht⟩ := h
  have hlen := run_length r s s' h
  rw [ht.1, List.length_append] at hlen
  omega

theorem minLen_lit (t : Text) : (lit t).minLen = t.length := by
  induction t with
  | nil => rfl
  | cons c t ih =>
    rw [lit, Regex.minLen, ih, List.length_cons, Regex.minLen, Nat.add_comm]

/-! ## Matches -/

/-- `m` is what a scan can find as a match of `r`. -/
def Match.Of (r : Regex) (m : Match) : Prop :=
  ∃ s s', r.matchAt s = some s' ∧ m = ⟨s.taken s', s'.groups⟩

theorem Match.Of.accepts {r : Regex} {m : Match} (h : Match.Of r m) : r.Accepts m.text := by
  obtain ⟨s, s', hm, rfl⟩ := h
  exact @accepts_of_run r { s with groups := [] } s' (matchAt_run hm).1

theorem finditerFrom_of (r : Regex) : ∀ (fuel : ℕ) (gap : Text) (s : Cursor),
    ∀ p ∈ (r.finditerFrom fuel gap s).1, Match.Of r p.2
  | 0, gap, s => by simp [finditerFrom]
  | fuel + 1, gap, s => by
      rw [finditerFrom]
      split
      · rename_i s' hm
        intro p hp
        rcases List.mem_cons.mp hp with rfl | hp
        · exact ⟨s, s', hm, rfl⟩
        · exact finditerFrom_of r fuel [] s' p hp
      · split
        · simp
        · exact finditerFrom_of r fuel _ _

theorem finditer_of (r : Regex) (t : Text) : ∀ p ∈ (r.finditer t).1, Match.Of r p.2 :=
  finditerFrom_of r _ _ _

/-- A group at the head of a sequence holds what it read, unless the rest sets it again. -/
theorem run_group_seq {k : ℕ} {a b : Regex} (hk : k ∉ b.names) {s s' : Cursor}
    (h : s' ∈ (seq (group k a) b).run s) :
    ∃ t s₁, a.Accepts t ∧ Reads s s₁ t ∧ s₁.groups.lookup k = some t ∧ s' ∈ b.run s₁ ∧
      s'.groups.lookup k = some t := by
  obtain ⟨s₁, h₁, h₂⟩ := List.mem_flatMap.mp h
  obtain ⟨s₀, h₀, rfl⟩ := List.mem_map.mp h₁
  obtain ⟨t, ht⟩ := run_reads a s s₀ h₀
  have htaken : s.taken s₀ = t := ht.taken
  let s₁ : Cursor := { s₀ with groups := (k, s.taken s₀) :: s₀.groups }
  have hset : s₁.groups.lookup k = some t := by simp [s₁, htaken]
  refine ⟨t, s₁, ⟨s, s₀, h₀, ht⟩, ht, hset, h₂, ?_⟩
  rw [run_lookup b hk _ s' h₂, hset]

theorem Match.group_eq {m : Match} {k : ℕ} {t : Text} (h : m.groups.lookup k = some t) :
    m.group k = t := by
  simp [Match.group, h]

/-- A match of a pattern that begins with a group. -/
theorem Match.Of.group_seq {k : ℕ} {a b : Regex} (hk : k ∉ b.names) {m : Match}
    (h : Match.Of (seq (Regex.group k a) b) m) :
    ∃ u v, m.text = u ++ v ∧ m.group k = u ∧ a.Accepts u ∧ b.Accepts v := by
  obtain ⟨s, s', hm, rfl⟩ := h
  obtain ⟨u, s₁, hu, hread, -, hrest, hlookup⟩ := run_group_seq hk (matchAt_run hm).1
  obtain ⟨v, hv⟩ := run_reads b s₁ s' hrest
  have hall : Reads s s' (u ++ v) := Reads.trans ⟨hread.1, hread.2⟩ hv
  exact ⟨u, v, hall.taken, Match.group_eq hlookup, hu, ⟨s₁, s', hrest, hv⟩⟩

/-- A match of a pattern that begins with two groups and ends with what the second one read. -/
theorem Match.Of.quoted {k j : ℕ} {a q x : Regex} (hkj : k ≠ j) (hk : k ∉ q.names ++ x.names)
    (hj : j ∉ x.names) {m : Match}
    (h : Match.Of (seq (Regex.group k a) (seq (Regex.group j q) (seq x (backref j)))) m) :
    ∃ u v w, m.text = u ++ v ++ w ++ v ∧ m.group k = u ∧ m.group j = v ∧ a.Accepts u ∧
      q.Accepts v ∧ x.Accepts w := by
  obtain ⟨s, s', hm, rfl⟩ := h
  have hkrest : k ∉ (seq (Regex.group j q) (seq x (backref j))).names := by
    simpa [names, hkj] using hk
  obtain ⟨u, s₁, hu, hread, -, hrest, hlookup⟩ := run_group_seq hkrest (matchAt_run hm).1
  have hjrest : j ∉ (seq x (backref j)).names := by simpa [names] using hj
  obtain ⟨v, s₂, hv, hread', hset, hrest', hlookup'⟩ := run_group_seq hjrest hrest
  obtain ⟨s₃, h₃, hback⟩ := List.mem_flatMap.mp hrest'
  obtain ⟨w, hw⟩ := run_reads x s₂ s₃ h₃
  have hlast : Reads s₃ s' v := by
    rw [run, run_lookup x hj _ s₃ h₃, hset] at hback
    simp only at hback
    split at hback
    · rename_i hp
      obtain rfl := List.mem_singleton.mp hback
      exact Reads.advance hp
    · simp at hback
  have hfirst : Reads s s₁ u := ⟨hread.1, hread.2⟩
  have hall := ((hfirst.trans hread').trans hw).trans hlast
  exact ⟨u, v, w, hall.taken, Match.group_eq hlookup, Match.group_eq hlookup', hu, hv,
    ⟨s₂, s₃, h₃, hw⟩⟩

/-! ## Weights -/

end Regex

/-- The sum of a weight over the characters of a text. -/
def weigh (w : Char → ℕ) (t : Text) : ℕ := (t.map w).sum

@[simp] theorem weigh_nil (w : Char → ℕ) : weigh w [] = 0 := rfl

@[simp] theorem weigh_cons (w : Char → ℕ) (c : Char) (t : Text) :
    weigh w (c :: t) = w c + weigh w t := by
  simp [weigh]

@[simp] theorem weigh_append (w : Char → ℕ) (s t : Text) :
    weigh w (s ++ t) = weigh w s + weigh w t := by
  simp [weigh]

theorem weigh_mono {v w : Char → ℕ} (h : ∀ c, v c ≤ w c) (t : Text) : weigh v t ≤ weigh w t :=
  List.sum_le_sum fun c _ => h c

theorem weigh_add (v w : Char → ℕ) (t : Text) :
    weigh (fun c => v c + w c) t = weigh v t + weigh w t := by
  simp [weigh]

theorem length_le_weigh {w : Char → ℕ} (h : ∀ c, 1 ≤ w c) (t : Text) : t.length ≤ weigh w t := by
  have hsum := weigh_mono h t
  simpa [weigh] using hsum

theorem weigh_le {w : Char → ℕ} {n : ℕ} (h : ∀ c, w c ≤ n) (t : Text) :
    weigh w t ≤ n * t.length := by
  have hsum := weigh_mono h t
  simpa [weigh, Nat.mul_comm] using hsum

namespace Regex

/-- Every text that the pattern reads weighs at least this much. -/
inductive Gains (g : Char → ℕ) : Regex → ℕ → Prop where
  | nothing (r : Regex) : Gains g r 0
  | chr {p : Char → Bool} {n : ℕ} (h : ∀ c, p c = true → n ≤ g c) : Gains g (chr p) n
  | seq {a b : Regex} {m n : ℕ} (ha : Gains g a m) (hb : Gains g b n) : Gains g (seq a b) (m + n)
  | group {name : ℕ} {a : Regex} {n : ℕ} (ha : Gains g a n) : Gains g (group name a) n

theorem Gains.weigh {g : Char → ℕ} {r : Regex} {n : ℕ} (h : Gains g r n) {t : Text}
    (ht : r.Accepts t) : n ≤ weigh g t := by
  induction h generalizing t with
  | nothing r => exact Nat.zero_le _
  | chr h =>
    obtain ⟨c, rfl, hc⟩ := ht.chr
    simpa using h c hc
  | seq ha hb iha ihb =>
    obtain ⟨u, v, rfl, hu, hv⟩ := ht.seq
    rw [weigh_append]
    exact Nat.add_le_add (iha hu) (ihb hv)
  | group ha ih => exact ih ht.group

theorem Gains.lit (g : Char → ℕ) (t : Text) : Gains g (lit t) (BetterHindsight.weigh g t) := by
  induction t with
  | nil => exact .nothing _
  | cons c t ih =>
    rw [weigh_cons]
    refine .seq (.chr fun d hd => ?_) ih
    obtain rfl : d = c := by simpa using hd
    exact Nat.le_refl _

/-- The weights of a text cut into gaps and matches. -/
theorem weigh_pieces (w : Char → ℕ) {V : Char → ℕ} (f : Match → Text) (hVw : ∀ c, V c ≤ w c)
    (ms : List (Text × Match)) (hf : ∀ p ∈ ms, weigh V (f p.2) ≤ weigh w p.2.text) :
    weigh V (ms.flatMap fun p => p.1 ++ f p.2) ≤ weigh w (ms.flatMap fun p => p.1 ++ p.2.text) := by
  induction ms with
  | nil => simp
  | cons p ms ih =>
    have hgap := weigh_mono hVw p.1
    have hmatch := hf p List.mem_cons_self
    have hrest := ih fun q hq => hf q (List.mem_cons_of_mem p hq)
    simp only [List.flatMap_cons, weigh_append]
    omega

/-- A substitution that weighs no more match by match weighs no more. -/
theorem weigh_sub {r : Regex} {f : Match → Text} {V w : Char → ℕ} (hVw : ∀ c, V c ≤ w c)
    (hf : ∀ m, Match.Of r m → weigh V (f m) ≤ weigh w m.text) (t : Text) :
    weigh V (r.sub f t) ≤ weigh w t := by
  have hpieces := weigh_pieces w f hVw (r.finditer t).1 fun p hp => hf p.2 (finditer_of r t p hp)
  have htail := weigh_mono hVw (r.finditer t).2
  have hjoin := congrArg (weigh w) (finditer_join r t)
  rw [weigh_append] at hjoin
  rw [sub, weigh_append]
  omega

/-! ## Marks -/

end Regex

theorem infix_append_cons {m : Text} {c : Char} (hc : c ∉ m) {s t : Text} :
    m <:+: s ++ c :: t → m <:+: s ∨ m <:+: t := by
  intro h
  induction s with
  | nil =>
    rcases List.infix_cons_iff.mp h with h | h
    · have hnil := (prefix_append_cons hc [] t).mp h
      exact .inl hnil.isInfix
    · exact .inr h
  | cons d s ih =>
    rcases List.infix_cons_iff.mp h with h | h
    · exact .inl ((prefix_append_cons hc (d :: s) t).mp h).isInfix
    · rcases ih h with h | h
      · exact .inl (h.trans (List.suffix_cons d s).isInfix)
      · exact .inr h

/-- What is read over a mark between two characters that it does not have is read on one side of
the mark or inside of it. -/
theorem infix_mark {m mid : Text} {o c : Char} (ho : o ∉ m) (hc : c ∉ m) {s t : Text}
    (h : m <:+: s ++ (o :: mid ++ [c]) ++ t) : m <:+: s ∨ m <:+: mid ∨ m <:+: t := by
  have hopen : s ++ (o :: mid ++ [c]) ++ t = s ++ o :: (mid ++ c :: t) := by simp
  rw [hopen] at h
  rcases infix_append_cons ho h with h | h
  · exact .inl h
  · exact .inr (infix_append_cons hc h)

namespace Regex

/-- `out` is the match with a part of it replaced by the mark. -/
def Marks (mark : Text) (m : Match) (out : Text) : Prop :=
  ∃ head old tail, m.text = head ++ old ++ tail ∧ out = head ++ mark ++ tail

/-- What is read in the pieces around the marks, after some text, is read in the matched text or
inside of a mark. -/
theorem infix_pieces {secret mid : Text} {o c : Char} (ho : o ∉ secret) (hc : c ∉ secret)
    {f : Match → Text} (rest : Text) (ms : List (Text × Match))
    (hf : ∀ p ∈ ms, Marks (o :: mid ++ [c]) p.2 (f p.2)) (before : Text)
    (h : secret <:+: before ++ ((ms.flatMap fun p => p.1 ++ f p.2) ++ rest)) :
    secret <:+: before ++ ((ms.flatMap fun p => p.1 ++ p.2.text) ++ rest) ∨ secret <:+: mid := by
  induction ms generalizing before with
  | nil => exact .inl h
  | cons p ms ih =>
    obtain ⟨head, old, tail, hold, hnew⟩ := hf p List.mem_cons_self
    have hsplit : before ++ (((p :: ms).flatMap fun p => p.1 ++ f p.2) ++ rest) =
        (before ++ p.1 ++ head) ++ (o :: mid ++ [c]) ++
          (tail ++ ((ms.flatMap fun p => p.1 ++ f p.2) ++ rest)) := by
      simp [hnew]
    have htext : before ++ (((p :: ms).flatMap fun p => p.1 ++ p.2.text) ++ rest) =
        (before ++ p.1 ++ head) ++ (old ++
          (tail ++ ((ms.flatMap fun p => p.1 ++ p.2.text) ++ rest))) := by
      simp [hold]
    rw [hsplit] at h
    rw [htext]
    rcases infix_mark ho hc h with h | h | h
    · exact .inl (h.trans (List.prefix_append _ _).isInfix)
    · exact .inr h
    · rcases ih (fun q hq => hf q (List.mem_cons_of_mem p hq)) tail h with h | h
      · refine .inl (h.trans ?_)
        rw [← List.append_assoc _ old]
        exact (List.suffix_append _ _).isInfix
      · exact .inr h

/-- A substitution that writes marks brings no text together that was apart. -/
theorem infix_sub {r : Regex} {f : Match → Text} {secret mid : Text} {o c : Char}
    (ho : o ∉ secret) (hc : c ∉ secret)
    (hf : ∀ m, Match.Of r m → Marks (o :: mid ++ [c]) m (f m)) {t : Text}
    (h : secret <:+: r.sub f t) : secret <:+: t ∨ secret <:+: mid := by
  have hpieces := infix_pieces ho hc (r.finditer t).2 (r.finditer t).1
    (fun p hp => hf p.2 (finditer_of r t p hp)) [] h
  rwa [List.nil_append, finditer_join] at hpieces

end Regex

/-! ## Literal replacement -/

theorem replace_cons {old new : Text} {c : Char} {t : Text} (h : ¬ old <+: c :: t) :
    replace old new (c :: t) = c :: replace old new t := by
  rw [replace, replaceFrom, if_neg h]
  rfl

theorem replace_append {old : Text} (hne : old ≠ []) (new t : Text) :
    replace old new (old ++ t) = new ++ replace old new t := by
  obtain ⟨c, old, rfl⟩ := List.exists_cons_of_ne_nil hne
  rw [replace, List.cons_append, replaceFrom,
    if_pos (by rw [← List.cons_append]; exact List.prefix_append _ _), List.length_cons,
    Nat.add_sub_cancel, replaceFrom_skip]
  rfl

/-- Replacing by a mark brings no text together that was apart. -/
theorem infix_replaced {old secret mid : Text} {o c : Char} (hne : old ≠ []) (ho : o ∉ secret)
    (hc : c ∉ secret) (before t : Text)
    (h : secret <:+: before ++ replace old (o :: mid ++ [c]) t) :
    secret <:+: before ++ t ∨ secret <:+: mid := by
  generalize hlen : t.length = n
  induction n using Nat.strong_induction_on generalizing before t with
  | _ n ih =>
    by_cases hp : old <+: t
    · obtain ⟨rest, rfl⟩ := hp
      have hshort : rest.length < n := by
        have hpos := List.length_pos_of_ne_nil hne
        rw [List.length_append] at hlen
        omega
      rw [replace_append hne, ← List.append_assoc] at h
      rcases infix_mark ho hc h with h | h | h
      · exact .inl (h.trans (List.prefix_append _ _).isInfix)
      · exact .inr h
      · rcases ih rest.length hshort [] rest h rfl with h | h
        · refine .inl (h.trans ?_)
          rw [List.nil_append, ← List.append_assoc]
          exact (List.suffix_append _ _).isInfix
        · exact .inr h
    · cases t with
      | nil => exact .inl h
      | cons d t =>
        rw [replace_cons hp, List.append_cons] at h
        rw [List.append_cons]
        exact ih t.length (by rw [← hlen, List.length_cons]; omega) (before ++ [d]) t h rfl

/-- No occurrence is left, not even one that begins before the replaced text. -/
theorem not_infix_replaced {old mid : Text} {o c : Char} (ho : o ∉ old) (hc : c ∉ old)
    (hmid : ¬ old <:+: mid) (before t : Text)
    (hstart : ∀ u v, before = u ++ v → v ≠ [] → ¬ old <+: v ++ t) :
    ¬ old <:+: before ++ replace old (o :: mid ++ [c]) t := by
  have hne : old ≠ [] := fun h => hmid (h ▸ List.nil_infix)
  have hbefore : ∀ b t : Text, (∀ u v, b = u ++ v → v ≠ [] → ¬ old <+: v ++ t) →
      ¬ old <:+: b := by
    rintro b t hb ⟨u, w, rfl⟩
    refine hb u (old ++ w) (List.append_assoc _ _ _) (by simp [hne]) ?_
    rw [List.append_assoc]
    exact List.prefix_append _ _
  generalize hlen : t.length = n
  induction n using Nat.strong_induction_on generalizing before t with
  | _ n ih =>
    by_cases hp : old <+: t
    · obtain ⟨rest, rfl⟩ := hp
      have hshort : rest.length < n := by
        have hpos := List.length_pos_of_ne_nil hne
        rw [List.length_append] at hlen
        omega
      rw [replace_append hne, ← List.append_assoc]
      intro h
      rcases infix_mark ho hc h with h | h | h
      · exact hbefore before _ hstart h
      · exact hmid h
      · refine ih rest.length hshort [] rest ?_ rfl h
        intro u v huv hv
        exact absurd (List.append_eq_nil_iff.mp huv.symm).2 hv
    · cases t with
      | nil => simpa [replace, replaceFrom] using hbefore before [] hstart
      | cons d t =>
        rw [replace_cons hp, List.append_cons]
        refine ih t.length (by rw [← hlen, List.length_cons]; omega) (before ++ [d]) t ?_ rfl
        intro u v huv hv
        -- an occurrence begins at `d` or before it
        obtain ⟨w, e, rfl⟩ := List.eq_nil_or_concat v |>.resolve_left hv
        obtain ⟨hb, rfl⟩ : before = u ++ w ∧ d = e := by
          have hconcat : before ++ [d] = (u ++ w) ++ [e] := by simpa using huv
          have hinj := List.append_inj' hconcat rfl
          exact ⟨hinj.1, by simpa using hinj.2⟩
        rw [List.concat_eq_append, List.append_assoc]
        by_cases hw : w = []
        · subst hw
          exact hp
        · exact hstart u w hb hw

/-- `replace` leaves no occurrence of the replaced text. -/
theorem not_infix_replace {old mid : Text} {o c : Char} (ho : o ∉ old) (hc : c ∉ old)
    (hmid : ¬ old <:+: mid) (t : Text) : ¬ old <:+: replace old (o :: mid ++ [c]) t := by
  have h := not_infix_replaced ho hc hmid [] t fun u v huv hv =>
    absurd (List.append_eq_nil_iff.mp huv.symm).2 hv
  rwa [List.nil_append] at h

/-- `replace` by a mark brings no text together that was apart. -/
theorem infix_replace {old secret mid : Text} {o c : Char} (hne : old ≠ []) (ho : o ∉ secret)
    (hc : c ∉ secret) {t : Text} (h : secret <:+: replace old (o :: mid ++ [c]) t) :
    secret <:+: t ∨ secret <:+: mid := by
  have hreplaced := infix_replaced hne ho hc [] t h
  rwa [List.nil_append] at hreplaced

end BetterHindsight
