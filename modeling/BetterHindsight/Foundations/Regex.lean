import BetterHindsight.Foundations.Text

/-! # Backtracking regular expressions

The matcher of Python's `re`, for the operators this development needs. `Regex.run` lists every way
to match at a cursor in the order in which the backtracking engine tries them, so the head of the
list is the match `re` finds. `finditer` cuts a text into the gaps and matches of a left-to-right
scan, and `sub` replaces the matches.

The scan steps over a position where only the empty text matches; `re` would report an empty match
there. No pattern used here matches the empty text.

* `run_reads`: a match reads a prefix of what is after the cursor.
* `Regex.minLen`: what is shorter has no match; `sub_of_short`.
* `Regex.Within P`: every character the pattern can read satisfies `P`; `run_within`.
* `finditer_join`: gaps and matches, joined in order, are the scanned text. -/

namespace BetterHindsight
set_option autoImplicit false

inductive Regex where
  | eps
  | chr (p : Char → Bool)
  | seq (a b : Regex)
  | alt (a b : Regex)
  | many (greedy : Bool) (a : Regex)
  | group (name : ℕ) (a : Regex)
  | backref (name : ℕ)
  | look (p : Option Char → Option Char → Bool)

/-- A position in a text: what precedes it (nearest character first), what follows it, and the
groups captured so far (latest first). -/
structure Cursor where
  before : Text
  after : Text
  groups : List (ℕ × Text)

/-- What was read on the way from the first cursor to the second. -/
def Cursor.taken (s s' : Cursor) : Text := s.after.take (s.after.length - s'.after.length)

def Cursor.advance (s : Cursor) (t : Text) : Cursor :=
  { s with before := t.reverse ++ s.before, after := s.after.drop t.length }

namespace Regex

/-- Repeats `body` while it reads something. `fuel` bounds the number of rounds. -/
def iterate (greedy : Bool) (body : Cursor → List Cursor) : ℕ → Cursor → List Cursor
  | 0, s => [s]
  | fuel + 1, s =>
    let more := (body s).flatMap fun s' =>
      if s'.after.length < s.after.length then iterate greedy body fuel s' else []
    if greedy then more ++ [s] else s :: more

def run : Regex → Cursor → List Cursor
  | eps, s => [s]
  | chr p, s =>
    match s.after with
    | [] => []
    | c :: _ => if p c then [s.advance [c]] else []
  | seq a b, s => (a.run s).flatMap b.run
  | alt a b, s => a.run s ++ b.run s
  -- a round reads at least one character, so this many rounds are enough
  | many greedy a, s => iterate greedy a.run s.after.length s
  | group name a, s =>
    (a.run s).map fun s' => { s' with groups := (name, s.taken s') :: s'.groups }
  | backref name, s =>
    match s.groups.lookup name with
    | none => []
    | some t => if t <+: s.after then [s.advance t] else []
  | look p, s => if p s.before.head? s.after.head? then [s] else []

/-! ## Derived forms -/

def lit : Text → Regex
  | [] => eps
  | c :: t => seq (chr (· == c)) (lit t)

def opt (a : Regex) : Regex := alt a eps

def repeatN : ℕ → Regex → Regex
  | 0, _ => eps
  | n + 1, a => seq a (repeatN n a)

/-- `a{n,}` -/
def atLeast (n : ℕ) (a : Regex) : Regex := seq (repeatN n a) (many true a)

/-! ## Scanning -/

structure Match where
  text : Text
  groups : List (ℕ × Text)

/-- `match.group(name)`, the empty text for a group that took no part. -/
def Match.group (m : Match) (name : ℕ) : Text := (m.groups.lookup name).getD []

/-- The match at a cursor, as long as it reads something. -/
def matchAt (r : Regex) (s : Cursor) : Option Cursor :=
  (r.run { s with groups := [] }).head?.filter fun s' => s'.after.length < s.after.length

/-- The matches after a cursor, each with the gap before it, and the gap after the last one;
`gap` is the gap read so far, nearest character first. -/
def finditerFrom (r : Regex) : ℕ → Text → Cursor → List (Text × Match) × Text
  | 0, gap, s => ([], gap.reverse ++ s.after)
  | fuel + 1, gap, s =>
    match r.matchAt s with
    | some s' =>
      let (ms, tail) := finditerFrom r fuel [] s'
      ((gap.reverse, ⟨s.taken s', s'.groups⟩) :: ms, tail)
    | none =>
      match s.after with
      | [] => ([], gap.reverse)
      | c :: _ => finditerFrom r fuel (c :: gap) (s.advance [c])

/-- `re.finditer`: every step reads a character, so the text's length is enough fuel. -/
def finditer (r : Regex) (t : Text) : List (Text × Match) × Text :=
  r.finditerFrom t.length [] ⟨[], t, []⟩

/-- `re.sub` with a function for the replacement. -/
def sub (r : Regex) (f : Match → Text) (t : Text) : Text :=
  ((r.finditer t).1.flatMap fun p => p.1 ++ f p.2) ++ (r.finditer t).2

/-! ## What a match reads -/

/-- `s'` is `s` moved over the text `t`. -/
def Reads (s s' : Cursor) (t : Text) : Prop :=
  s.after = t ++ s'.after ∧ s'.before = t.reverse ++ s.before

theorem Reads.refl (s : Cursor) : Reads s s [] := ⟨rfl, rfl⟩

theorem Reads.trans {s s' s'' : Cursor} {t t' : Text} (h : Reads s s' t) (h' : Reads s' s'' t') :
    Reads s s'' (t ++ t') := by
  constructor
  · rw [h.1, h'.1, List.append_assoc]
  · rw [h'.2, h.2, List.reverse_append, List.append_assoc]

theorem Reads.advance {s : Cursor} {t : Text} (h : t <+: s.after) : Reads s (s.advance t) t := by
  obtain ⟨rest, hrest⟩ := h
  refine ⟨?_, rfl⟩
  simp [Cursor.advance, ← hrest]

theorem Reads.taken {s s' : Cursor} {t : Text} (h : Reads s s' t) : s.taken s' = t := by
  have hlen : s.after.length - s'.after.length = t.length := by
    rw [h.1, List.length_append, Nat.add_sub_cancel]
  rw [Cursor.taken, hlen, h.1, List.take_left']
  rfl

/-- Every character that the pattern can read satisfies `P`. What a back reference reads is not
known from the pattern, so it needs that every character does. -/
def Within (P : Char → Prop) : Regex → Prop
  | eps => True
  | chr p => ∀ c, p c = true → P c
  | seq a b => a.Within P ∧ b.Within P
  | alt a b => a.Within P ∧ b.Within P
  | many _ a => a.Within P
  | group _ a => a.Within P
  | backref _ => ∀ c, P c
  | look _ => True

theorem within_true (r : Regex) : r.Within fun _ => True := by
  induction r with
  | seq _ _ iha ihb => exact ⟨iha, ihb⟩
  | alt _ _ iha ihb => exact ⟨iha, ihb⟩
  | many _ _ ih => exact ih
  | group _ _ ih => exact ih
  | _ => simp [Within]

theorem within_lit {P : Char → Prop} {t : Text} (h : ∀ c ∈ t, P c) : (lit t).Within P := by
  induction t with
  | nil => trivial
  | cons c t ih =>
    refine ⟨fun d hd => ?_, ih fun c hc => h c (List.mem_cons_of_mem _ hc)⟩
    obtain rfl : d = c := by simpa using hd
    exact h d List.mem_cons_self

theorem iterate_within {greedy : Bool} {body : Cursor → List Cursor} {P : Char → Prop}
    (hbody : ∀ s, ∀ s' ∈ body s, ∃ t, Reads s s' t ∧ ∀ c ∈ t, P c) :
    ∀ (fuel : ℕ) (s : Cursor), ∀ s' ∈ iterate greedy body fuel s,
      ∃ t, Reads s s' t ∧ ∀ c ∈ t, P c
  | 0, s, s', h => by
      obtain rfl : s' = s := by simpa [iterate] using h
      exact ⟨[], Reads.refl _, by simp⟩
  | fuel + 1, s, s', h => by
      have hcases : s' = s ∨ s' ∈ (body s).flatMap fun s₁ =>
          if s₁.after.length < s.after.length then iterate greedy body fuel s₁ else [] := by
        cases greedy <;> simp only [iterate] at h <;> simpa [or_comm] using h
      rcases hcases with rfl | hm
      · exact ⟨[], Reads.refl _, by simp⟩
      · obtain ⟨s₁, hs₁, hm⟩ := List.mem_flatMap.mp hm
        split at hm
        · obtain ⟨t₁, hr₁, hp₁⟩ := hbody s s₁ hs₁
          obtain ⟨t₂, hr₂, hp₂⟩ := iterate_within hbody fuel s₁ s' hm
          refine ⟨t₁ ++ t₂, hr₁.trans hr₂, ?_⟩
          intro c hc
          exact (List.mem_append.mp hc).elim (hp₁ c) (hp₂ c)
        · simp at hm

theorem run_within {P : Char → Prop} (r : Regex) (hP : r.Within P) :
    ∀ s, ∀ s' ∈ r.run s, ∃ t, Reads s s' t ∧ ∀ c ∈ t, P c := by
  induction r with
  | eps =>
    intro s s' h
    obtain rfl : s' = s := by simpa [run] using h
    exact ⟨[], Reads.refl _, by simp⟩
  | chr p =>
    intro s s' h
    rw [run] at h
    split at h
    · simp at h
    · rename_i c rest hs
      split at h
      · rename_i hp
        obtain rfl : s' = s.advance [c] := by simpa using h
        exact ⟨[c], Reads.advance (by rw [hs]; simp), by simpa using hP c hp⟩
      · simp at h
  | seq a b iha ihb =>
    intro s s' h
    obtain ⟨s₁, h₁, h₂⟩ := List.mem_flatMap.mp h
    obtain ⟨t₁, hr₁, hp₁⟩ := iha hP.1 s s₁ h₁
    obtain ⟨t₂, hr₂, hp₂⟩ := ihb hP.2 s₁ s' h₂
    refine ⟨_, hr₁.trans hr₂, ?_⟩
    intro c hc
    exact (List.mem_append.mp hc).elim (hp₁ c) (hp₂ c)
  | alt a b iha ihb =>
    intro s s' h
    rcases List.mem_append.mp h with h | h
    · exact iha hP.1 s s' h
    · exact ihb hP.2 s s' h
  | many g a ih =>
    intro s
    exact iterate_within (ih hP) _ s
  | group n a ih =>
    intro s s' h
    obtain ⟨s₁, h₁, rfl⟩ := List.mem_map.mp h
    obtain ⟨t, ht, hp⟩ := ih hP s s₁ h₁
    exact ⟨t, ht, hp⟩
  | backref n =>
    intro s s' h
    rw [run] at h
    split at h
    · simp at h
    · rename_i t _
      split at h
      · rename_i hp
        obtain rfl : s' = s.advance t := by simpa using h
        exact ⟨t, Reads.advance hp, fun c _ => hP c⟩
      · simp at h
  | look p =>
    intro s s' h
    rw [run] at h
    split at h
    · obtain rfl : s' = s := by simpa using h
      exact ⟨[], Reads.refl _, by simp⟩
    · simp at h

theorem run_reads (r : Regex) (s : Cursor) : ∀ s' ∈ r.run s, ∃ t, Reads s s' t := by
  intro s' h
  obtain ⟨t, ht, -⟩ := run_within r (within_true r) s s' h
  exact ⟨t, ht⟩

/-! ## Short texts -/

/-- A number of characters that every match reads. -/
def minLen : Regex → ℕ
  | eps => 0
  | chr _ => 1
  | seq a b => a.minLen + b.minLen
  | alt a b => min a.minLen b.minLen
  | many _ _ => 0
  | group _ a => a.minLen
  | backref _ => 0
  | look _ => 0

theorem run_length (r : Regex) :
    ∀ s, ∀ s' ∈ r.run s, s'.after.length + r.minLen ≤ s.after.length := by
  have hshrink : ∀ (a : Regex) (s : Cursor), ∀ s' ∈ a.run s, s'.after.length ≤ s.after.length := by
    intro a s s' h
    obtain ⟨t, ht, -⟩ := run_reads a s s' h
    rw [ht, List.length_append]
    omega
  induction r with
  | chr p =>
    intro s s' h
    rw [run] at h
    split at h
    · simp at h
    · rename_i c rest hs
      split at h
      · obtain rfl : s' = s.advance [c] := by simpa using h
        simp [Cursor.advance, minLen, hs]
      · simp at h
  | seq a b iha ihb =>
    intro s s' h
    obtain ⟨s₁, h₁, h₂⟩ := List.mem_flatMap.mp h
    have hfirst := iha s s₁ h₁
    have hsecond := ihb s₁ s' h₂
    rw [minLen]
    omega
  | alt a b iha ihb =>
    intro s s' h
    rw [minLen]
    rcases List.mem_append.mp h with h | h
    · have hleft := iha s s' h
      omega
    · have hright := ihb s s' h
      omega
  | group n a ih =>
    intro s s' h
    obtain ⟨s₁, h₁, rfl⟩ := List.mem_map.mp h
    exact ih s s₁ h₁
  | eps => exact hshrink _
  | many g a ih => exact hshrink _
  | backref n => exact hshrink _
  | look p => exact hshrink _

/-! ## Repetition -/

theorem advance_advance (s : Cursor) (t u : Text) :
    (s.advance t).advance u = s.advance (t ++ u) := by
  simp [Cursor.advance]

/-- What holds of the empty text and of one more round holds of what a repetition reads. -/
theorem iterate_reads {Q : Text → Prop} {body : Cursor → List Cursor} {greedy : Bool}
    (hnil : Q []) (hstep : ∀ s, ∀ s' ∈ body s, ∃ t, Reads s s' t ∧ ∀ u, Q u → Q (t ++ u)) :
    ∀ (fuel : ℕ) (s : Cursor), ∀ s' ∈ iterate greedy body fuel s, ∃ t, Reads s s' t ∧ Q t
  | 0, s, s', h => by
      obtain rfl : s' = s := by simpa [iterate] using h
      exact ⟨[], Reads.refl _, hnil⟩
  | fuel + 1, s, s', h => by
      have hcases : s' = s ∨ s' ∈ (body s).flatMap fun s₁ =>
          if s₁.after.length < s.after.length then iterate greedy body fuel s₁ else [] := by
        cases greedy <;> simp only [iterate] at h <;> simpa [or_comm] using h
      rcases hcases with rfl | hm
      · exact ⟨[], Reads.refl _, hnil⟩
      · obtain ⟨s₁, hs₁, hm⟩ := List.mem_flatMap.mp hm
        split at hm
        · obtain ⟨t₁, hr₁, hq₁⟩ := hstep s s₁ hs₁
          obtain ⟨t₂, hr₂, hq₂⟩ := iterate_reads hnil hstep fuel s₁ s' hm
          exact ⟨t₁ ++ t₂, hr₁.trans hr₂, hq₁ t₂ hq₂⟩
        · simp at hm

theorem iterate_ne_nil (greedy : Bool) (body : Cursor → List Cursor) (fuel : ℕ) (s : Cursor) :
    iterate greedy body fuel s ≠ [] := by
  cases fuel with
  | zero => simp [iterate]
  | succ fuel => cases greedy <;> simp [iterate]

/-- A greedy repetition first tries to end where no further round is possible. -/
theorem iterate_greedy_stops {body : Cursor → List Cursor}
    (hreads : ∀ s, ∀ s' ∈ body s, s'.after.length < s.after.length) :
    ∀ (fuel : ℕ) (s s' : Cursor), s.after.length ≤ fuel →
      (iterate true body fuel s).head? = some s' → body s' = []
  | 0, s, s', hfuel, h => by
      obtain rfl : s = s' := by simpa [iterate] using h
      by_contra hne
      obtain ⟨s₁, hs₁⟩ := List.exists_mem_of_ne_nil _ hne
      have hlt := hreads s s₁ hs₁
      omega
  | fuel + 1, s, s', hfuel, h => by
      cases hb : body s with
      | nil =>
        obtain rfl : s = s' := by simpa [iterate, hb] using h
        exact hb
      | cons s₁ rest =>
        have hlt := hreads s s₁ (by simp [hb])
        have hhead : (iterate true body fuel s₁).head? = some s' := by
          rw [← h, iterate, hb, if_pos rfl, List.flatMap_cons, if_pos hlt, List.append_assoc,
            List.head?_append_of_ne_nil _ (iterate_ne_nil _ _ _ _)]
        exact iterate_greedy_stops hreads fuel s₁ s' (by omega) hhead

/-- A greedy run over characters, before what cannot start with one of them. -/
theorem many_chr_flatMap {p : Char → Bool} {g : Cursor → List Cursor}
    (hg : ∀ (s : Cursor) (c : Char) (rest : Text), s.after = c :: rest → p c = true → g s = [])
    (s : Cursor) :
    ((many true (chr p)).run s).flatMap g = g (s.advance (s.after.takeWhile p)) := by
  rw [run]
  generalize hfuel : s.after.length = fuel
  induction fuel generalizing s with
  | zero =>
    have hnil : s.after = [] := List.length_eq_zero_iff.mp hfuel
    simp [iterate, hnil, Cursor.advance]
    rw [← hnil]
  | succ fuel ih =>
    obtain ⟨c, rest, hs⟩ := List.exists_cons_of_length_eq_add_one hfuel
    have hrest : rest.length = fuel := by simpa [hs] using hfuel
    cases hp : p c with
    | false =>
      have hbody : (chr p).run s = [] := by simp [run, hs, hp]
      simp [iterate, hbody, hs, hp, Cursor.advance]
      rw [← hs]
    | true =>
      have hbody : (chr p).run s = [s.advance [c]] := by simp [run, hs, hp]
      have hnext : (s.advance [c]).after = rest := by simp [Cursor.advance, hs]
      have hih := ih (s.advance [c]) (by rw [hnext, hrest])
      rw [hnext, advance_advance] at hih
      have hend := hg s c rest hs hp
      simp [iterate, hbody, hnext, hs, hp, hend, hih]

/-! ## What a scan finds -/

theorem matchAt_run {r : Regex} {s s' : Cursor} (h : r.matchAt s = some s') :
    s' ∈ r.run { s with groups := [] } ∧ s'.after.length < s.after.length := by
  rw [matchAt, Option.filter_eq_some_iff] at h
  exact ⟨List.mem_of_mem_head? h.1, by simpa using h.2⟩

theorem finditerFrom_join (r : Regex) : ∀ (fuel : ℕ) (gap : Text) (s : Cursor),
    ((r.finditerFrom fuel gap s).1.flatMap fun p => p.1 ++ p.2.text) ++
      (r.finditerFrom fuel gap s).2 = gap.reverse ++ s.after
  | 0, gap, s => by simp [finditerFrom]
  | fuel + 1, gap, s => by
      rw [finditerFrom]
      split
      · rename_i s' hm
        obtain ⟨t, ht⟩ := run_reads r _ _ (matchAt_run hm).1
        have ih := finditerFrom_join r fuel [] s'
        have htaken : s.taken s' = t := ht.taken
        simp only [List.reverse_nil, List.nil_append] at ih
        simp only [List.flatMap_cons, List.append_assoc, ih, htaken]
        rw [← ht.1]
      · split
        · rename_i hs
          simp [hs]
        · rename_i c rest hs
          rw [finditerFrom_join r fuel]
          simp [Cursor.advance, hs]

theorem finditerFrom_of_short {r : Regex} : ∀ (fuel : ℕ) (gap : Text) (s : Cursor),
    s.after.length < r.minLen → r.finditerFrom fuel gap s = ([], gap.reverse ++ s.after)
  | 0, gap, s, h => rfl
  | fuel + 1, gap, s, h => by
      have hnone : r.matchAt s = none := by
        by_contra hsome
        obtain ⟨s', hs'⟩ := Option.ne_none_iff_exists'.mp hsome
        have hlen := run_length r _ _ (matchAt_run hs').1
        simp only at hlen
        omega
      rw [finditerFrom, hnone]
      cases hs : s.after with
      | nil => simp
      | cons c rest =>
        have hnext : (s.advance [c]).after = rest := by simp [Cursor.advance, hs]
        have hrest : rest.length < r.minLen := by
          rw [hs, List.length_cons] at h
          omega
        simp only
        rw [finditerFrom_of_short fuel _ _ (by rwa [hnext]), hnext]
        simp

/-- A text that is too short for a match stays as it is. -/
theorem sub_of_short {r : Regex} {t : Text} (f : Match → Text) (h : t.length < r.minLen) :
    r.sub f t = t := by
  rw [sub, finditer, finditerFrom_of_short _ _ _ h]
  simp

/-- The gaps and the matches of a scan, joined in order, are the scanned text. -/
theorem finditer_join (r : Regex) (t : Text) :
    ((r.finditer t).1.flatMap fun p => p.1 ++ p.2.text) ++ (r.finditer t).2 = t := by
  simpa [finditer] using finditerFrom_join r t.length [] ⟨[], t, []⟩

theorem finditerFrom_within {P : Char → Prop} (r : Regex) (hP : r.Within P) :
    ∀ (fuel : ℕ) (gap : Text) (s : Cursor),
      ∀ p ∈ (r.finditerFrom fuel gap s).1, ∀ c ∈ p.2.text, P c
  | 0, gap, s => by simp [finditerFrom]
  | fuel + 1, gap, s => by
      rw [finditerFrom]
      split
      · rename_i s' hm
        obtain ⟨t, ht, hp⟩ := run_within r hP _ _ (matchAt_run hm).1
        have htaken : s.taken s' = t := ht.taken
        intro p hp'
        rcases List.mem_cons.mp hp' with rfl | hp'
        · rw [htaken]
          exact hp
        · exact finditerFrom_within r hP fuel [] s' p hp'
      · split
        · simp
        · exact finditerFrom_within r hP fuel _ _

/-- No match is empty. -/
theorem finditerFrom_ne_nil (r : Regex) : ∀ (fuel : ℕ) (gap : Text) (s : Cursor),
    ∀ p ∈ (r.finditerFrom fuel gap s).1, p.2.text ≠ []
  | 0, gap, s => by simp [finditerFrom]
  | fuel + 1, gap, s => by
      rw [finditerFrom]
      split
      · rename_i s' hm
        obtain ⟨hrun, hlt⟩ := matchAt_run hm
        obtain ⟨t, ht⟩ := run_reads r _ _ hrun
        intro p hp
        rcases List.mem_cons.mp hp with rfl | hp
        · show s.taken s' ≠ []
          have htaken : s.taken s' = t := ht.taken
          have hlen := congrArg List.length ht.1
          rw [htaken]
          rintro rfl
          simp at hlen
          omega
        · exact finditerFrom_ne_nil r fuel [] s' p hp
      · split
        · simp
        · exact finditerFrom_ne_nil r fuel _ _

theorem finditer_ne_nil (r : Regex) (t : Text) : ∀ p ∈ (r.finditer t).1, p.2.text ≠ [] :=
  finditerFrom_ne_nil r _ _ _

theorem finditer_within {P : Char → Prop} (r : Regex) (hP : r.Within P) (t : Text) :
    ∀ p ∈ (r.finditer t).1, ∀ c ∈ p.2.text, P c :=
  finditerFrom_within r hP _ _ _

end Regex

end BetterHindsight
