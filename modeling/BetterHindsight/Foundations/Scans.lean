import BetterHindsight.Foundations.Regex
import BetterHindsight.Foundations.Substrings

/-! # Scans as judgments

What a substitution writes, told from the positions of a text without the fuel and the gap of
`finditerFrom`.

* `Writes r f before after out`: the scan of `after`, which `before` precedes, writes `out`.
* `writes_sub`, `Writes.unique`, `sub_eq_of_writes`: it is what `Regex.sub` writes.
* `Writes.skip_append`: a stretch without a match is kept.
* `run_lit`, `matchAt_between`: a literal, and the nearest closing literal after an opening one. -/

namespace BetterHindsight
set_option autoImplicit false

namespace Regex

/-- The scan of `after` writes `out`; `before` is what precedes it, nearest character first. -/
inductive Writes (r : Regex) (f : Match → Text) : Text → Text → Text → Prop
  | done {before : Text} : Writes r f before [] []
  | skip {before rest out : Text} {c : Char} (hnone : r.matchAt ⟨before, c :: rest, []⟩ = none)
      (hrest : Writes r f (c :: before) rest out) : Writes r f before (c :: rest) (c :: out)
  | replace {before t rest out : Text} {groups : List (ℕ × Text)}
      (hmatch : r.matchAt ⟨before, t ++ rest, []⟩ = some ⟨t.reverse ++ before, rest, groups⟩)
      (hrest : Writes r f (t.reverse ++ before) rest out) :
      Writes r f before (t ++ rest) (f ⟨t, groups⟩ ++ out)

section Rules
variable {r : Regex} {f : Match → Text}

theorem matchAt_groups (r : Regex) (s : Cursor) :
    r.matchAt s = r.matchAt ⟨s.before, s.after, []⟩ := rfl

theorem matchAt_reads {s s' : Cursor} (h : r.matchAt s = some s') :
    ∃ t, Reads s s' t ∧ t ≠ [] := by
  obtain ⟨hrun, hlt⟩ := matchAt_run h
  obtain ⟨t, ht⟩ := run_reads r _ _ hrun
  refine ⟨t, ht, ?_⟩
  rintro rfl
  have hafter : s.after = s'.after := ht.1
  rw [hafter] at hlt
  exact Nat.lt_irrefl _ hlt

theorem matchAt_nil (r : Regex) (before : Text) : r.matchAt ⟨before, [], []⟩ = none := by
  by_contra hsome
  obtain ⟨s', hs'⟩ := Option.ne_none_iff_exists'.mp hsome
  have hlt := (matchAt_run hs').2
  exact Nat.not_lt_zero _ hlt

theorem writes_finditerFrom (r : Regex) (f : Match → Text) :
    ∀ (fuel : ℕ) (gap : Text) (s : Cursor), s.after.length ≤ fuel →
      ∃ out, Writes r f s.before s.after out ∧
        ((r.finditerFrom fuel gap s).1.flatMap fun p => p.1 ++ f p.2) ++
          (r.finditerFrom fuel gap s).2 = gap.reverse ++ out
  | 0, gap, s, hfuel => by
      have hnil : s.after = [] := List.length_eq_zero_iff.mp (Nat.le_zero.mp hfuel)
      refine ⟨[], ?_, ?_⟩
      · rw [hnil]
        exact .done
      · simp [finditerFrom, hnil]
  | fuel + 1, gap, s, hfuel => by
      rw [finditerFrom]
      cases hm : r.matchAt s with
      | some s' =>
        obtain ⟨t, ht, hne⟩ := matchAt_reads hm
        have hlt := (matchAt_run hm).2
        obtain ⟨out, hout, heq⟩ := writes_finditerFrom r f fuel [] s' (by omega)
        refine ⟨f ⟨t, s'.groups⟩ ++ out, ?_, ?_⟩
        · rw [ht.1]
          rw [ht.2] at hout
          refine .replace ?_ hout
          rw [matchAt_groups, ht.1] at hm
          rw [hm, ← ht.2]
        · simp only [List.reverse_nil, List.nil_append] at heq
          simp only [List.flatMap_cons, List.append_assoc, heq, ht.taken]
      | none =>
        cases hs : s.after with
        | nil => exact ⟨[], .done, by simp⟩
        | cons c rest =>
          have hnext : (s.advance [c]).after = rest := by simp [Cursor.advance, hs]
          have hbefore : (s.advance [c]).before = c :: s.before := rfl
          have hlength : rest.length ≤ fuel := by
            rw [hs, List.length_cons] at hfuel
            omega
          obtain ⟨out, hout, heq⟩ := writes_finditerFrom r f fuel (c :: gap) (s.advance [c])
            (by rw [hnext]; exact hlength)
          rw [hnext, hbefore] at hout
          refine ⟨c :: out, .skip ?_ hout, ?_⟩
          · rw [matchAt_groups, hs] at hm
            exact hm
          · rw [heq]
            simp

theorem writes_sub (r : Regex) (f : Match → Text) (t : Text) : Writes r f [] t (r.sub f t) := by
  obtain ⟨out, hout, heq⟩ := writes_finditerFrom r f t.length [] ⟨[], t, []⟩ (Nat.le_refl _)
  have hsub : r.sub f t = out := heq
  rw [hsub]
  exact hout

theorem Writes.unique {before after out out' : Text} (h : Writes r f before after out)
    (h' : Writes r f before after out') : out = out' := by
  induction h generalizing out' with
  | done =>
    generalize hafter : ([] : Text) = after at h'
    cases h' with
    | done => rfl
    | skip => cases hafter
    | replace hmatch =>
      obtain ⟨t', ht', hne⟩ := matchAt_reads hmatch
      have hnil := List.append_eq_nil_iff.mp (ht'.1.symm.trans hafter.symm)
      exact absurd hnil.1 hne
  | @skip before rest out c hnone hrest ih =>
    generalize hafter : c :: rest = after at h'
    cases h' with
    | done => cases hafter
    | skip hnone' hrest' =>
      cases hafter
      rw [ih hrest']
    | replace hmatch =>
      rw [← hafter, hnone] at hmatch
      cases hmatch
  | @replace before t rest out groups hmatch hrest ih =>
    generalize hafter : t ++ rest = after at h'
    cases h' with
    | done =>
      rw [hafter, matchAt_nil] at hmatch
      cases hmatch
    | skip hnone =>
      rw [hafter, hnone] at hmatch
      cases hmatch
    | @replace _ t' rest' out' groups' hmatch' hrest' =>
      rw [← hafter, hmatch] at hmatch'
      have hsame := Option.some.inj hmatch'
      obtain ⟨hbefore, hrest, hgroups⟩ := Cursor.mk.inj hsame
      obtain rfl : t = t' := by
        have hreverse := List.append_cancel_right hbefore
        exact List.reverse_injective hreverse
      subst hrest hgroups
      rw [ih hrest']

theorem sub_eq_of_writes {t out : Text} (h : Writes r f [] t out) : r.sub f t = out :=
  (writes_sub r f t).unique h

/-- A stretch in which no match begins is kept. -/
theorem Writes.skip_append {gap before rest out : Text}
    (hnone : ∀ u v, gap = u ++ v → v ≠ [] →
      r.matchAt ⟨u.reverse ++ before, v ++ rest, []⟩ = none)
    (h : Writes r f (gap.reverse ++ before) rest out) :
    Writes r f before (gap ++ rest) (gap ++ out) := by
  induction gap generalizing before with
  | nil => exact h
  | cons c gap ih =>
    refine .skip (hnone [] (c :: gap) rfl (List.cons_ne_nil _ _)) (ih ?_ ?_)
    · intro u v huv hv
      have hstep := hnone (c :: u) v (by rw [huv]; rfl) hv
      simpa using hstep
    · simpa using h

/-- A text in which no match begins stays as it is. -/
theorem sub_eq_self {t : Text}
    (hnone : ∀ u v, t = u ++ v → v ≠ [] → r.matchAt ⟨u.reverse, v, []⟩ = none) :
    r.sub f t = t := by
  have h : Writes r f [] (t ++ []) (t ++ []) :=
    .skip_append (fun u v huv hv => by simpa using hnone u v huv hv) .done
  rw [List.append_nil] at h
  exact sub_eq_of_writes h

/-- Without matches a substitution changes nothing. -/
theorem sub_of_finditer_nil {t : Text} (h : (r.finditer t).1 = []) : r.sub f t = t := by
  have hjoin := finditer_join r t
  rw [h] at hjoin
  rw [sub, h]
  exact hjoin

end Rules

/-! ## Literals -/

theorem run_lit (t : Text) (s : Cursor) :
    (lit t).run s = if t <+: s.after then [s.advance t] else [] := by
  induction t generalizing s with
  | nil => simp [lit, run, Cursor.advance]
  | cons c t ih =>
    rw [lit, run, run]
    cases hs : s.after with
    | nil => simp
    | cons d rest =>
      have hnext : (s.advance [d]).after = rest := by simp [Cursor.advance, hs]
      by_cases hd : d = c
      · subst hd
        simp only [beq_self_eq_true, if_true, List.flatMap_cons, List.flatMap_nil, List.append_nil,
          ih, hnext, List.cons_prefix_cons, true_and, advance_advance]
        rfl
      · have hc : ¬ c = d := fun h => hd h.symm
        simp [hd, hc]

/-- Any text, as little as possible first. -/
theorem run_lazy (s : Cursor) : (many false (chr fun _ => true)).run s =
    (List.range (s.after.length + 1)).map fun n => s.advance (s.after.take n) := by
  rw [run]
  generalize hfuel : s.after.length = fuel
  induction fuel generalizing s with
  | zero =>
    have hnil : s.after = [] := List.length_eq_zero_iff.mp hfuel
    simp [iterate, hnil, Cursor.advance]
    rw [← hnil]
  | succ fuel ih =>
    obtain ⟨c, rest, hs⟩ := List.exists_cons_of_length_eq_add_one hfuel
    have hrest : rest.length = fuel := by simpa [hs] using hfuel
    have hbody : (chr fun _ => true).run s = [s.advance [c]] := by simp [run, hs]
    have hnext : (s.advance [c]).after = rest := by simp [Cursor.advance, hs]
    have hih := ih (s.advance [c]) (by rw [hnext, hrest])
    rw [hnext] at hih
    have hself : s.advance [] = s := by simp [Cursor.advance]
    rw [List.range_succ_eq_map, List.map_cons, List.map_map, iterate, hbody]
    simp only [Bool.false_eq_true, if_false, List.flatMap_cons, List.flatMap_nil, List.append_nil,
      hnext, hs, List.length_cons, Nat.lt_add_one, if_true, List.take_zero, hself, hih,
      advance_advance]
    congr 1

/-- The opening literal is not at the cursor. -/
theorem matchAt_lit_none {o : Text} {a : Regex} {before after : Text} (h : ¬ o <+: after) :
    (seq (lit o) a).matchAt ⟨before, after, []⟩ = none := by
  rw [matchAt, run, run_lit]
  simp only
  rw [if_neg h]
  rfl

/-- From an opening literal to the nearest closing one. -/
theorem matchAt_between {o c body rest before : Text} (ho : o ≠ [])
    (hnear : ∀ n < body.length, ¬ c <+: (body ++ (c ++ rest)).drop n) :
    (seq (lit o) (seq (many false (chr fun _ => true)) (lit c))).matchAt
        ⟨before, o ++ body ++ c ++ rest, []⟩ =
      some ⟨(o ++ body ++ c).reverse ++ before, rest, []⟩ := by
  have hafter : o ++ body ++ c ++ rest = o ++ (body ++ (c ++ rest)) := by simp
  have hopen : o <+: o ++ (body ++ (c ++ rest)) := List.prefix_append _ _
  rw [hafter, matchAt, run, run_lit]
  simp only
  rw [if_pos hopen, List.flatMap_cons, List.flatMap_nil, List.append_nil, run, run_lazy]
  have hadvance : ((⟨before, o ++ (body ++ (c ++ rest)), []⟩ : Cursor).advance o) =
      ⟨o.reverse ++ before, body ++ (c ++ rest), []⟩ := by
    simp [Cursor.advance]
  rw [hadvance]
  simp only
  have hlength : (body ++ (c ++ rest)).length + 1 = body.length + ((c ++ rest).length + 1) := by
    rw [List.length_append, Nat.add_assoc]
  rw [hlength, List.range_add, List.map_append, List.flatMap_append]
  have hfirst : ((List.range body.length).map fun n =>
      (⟨o.reverse ++ before, body ++ (c ++ rest), []⟩ : Cursor).advance
        ((body ++ (c ++ rest)).take n)).flatMap (lit c).run = [] := by
    rw [List.flatMap_eq_nil_iff]
    intro s hs
    obtain ⟨n, hn, rfl⟩ := List.mem_map.mp hs
    have hlt := List.mem_range.mp hn
    have hrun := run_lit c ((⟨o.reverse ++ before, body ++ (c ++ rest), []⟩ : Cursor).advance
      ((body ++ (c ++ rest)).take n))
    have hdrop : ((⟨o.reverse ++ before, body ++ (c ++ rest), []⟩ : Cursor).advance
        ((body ++ (c ++ rest)).take n)).after = (body ++ (c ++ rest)).drop n := by
      simp only [Cursor.advance, List.length_take]
      rw [Nat.min_eq_left]
      rw [List.length_append]
      omega
    rw [hrun, hdrop, if_neg (hnear n hlt)]
  rw [hfirst, List.nil_append, List.range_succ_eq_map, List.map_cons, List.map_cons,
    List.flatMap_cons, Nat.add_zero, List.take_left]
  have hclose : (lit c).run
      ((⟨o.reverse ++ before, body ++ (c ++ rest), []⟩ : Cursor).advance body) =
        [⟨(o ++ body ++ c).reverse ++ before, rest, []⟩] := by
    have hbody : ((⟨o.reverse ++ before, body ++ (c ++ rest), []⟩ : Cursor).advance body) =
        ⟨body.reverse ++ (o.reverse ++ before), c ++ rest, []⟩ := by
      simp [Cursor.advance]
    rw [hbody, run_lit]
    simp only
    rw [if_pos (List.prefix_append _ _)]
    simp [Cursor.advance]
  rw [hclose]
  have hpos := List.length_pos_of_ne_nil ho
  have hshorter : rest.length < (o ++ (body ++ (c ++ rest))).length := by
    simp only [List.length_append]
    omega
  simp only [List.cons_append, List.head?_cons, Option.filter_some]
  rw [if_pos (by simpa using hshorter)]

end Regex

end BetterHindsight
