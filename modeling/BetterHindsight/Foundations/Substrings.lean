import BetterHindsight.Foundations.Text

/-! # Substrings and lines

* `replace`: `str.replace` of a text that is not empty.
* `occurrences`: at how many places a text occurs in another.
* `splitlines`: `str.splitlines`, `joinLines` the text of lines. -/

namespace BetterHindsight
set_option autoImplicit false

/-! ## Replacing -/

/-- What is left to replace after `skip` characters of an occurrence. -/
def replaceFrom (old new : Text) : ℕ → Text → Text
  | _, [] => []
  | skip + 1, _ :: rest => replaceFrom old new skip rest
  | 0, c :: rest =>
    if old <+: c :: rest then new ++ replaceFrom old new (old.length - 1) rest
    else c :: replaceFrom old new 0 rest

/-- `text.replace(old, new)` -/
def replace (old new text : Text) : Text := replaceFrom old new 0 text

theorem replaceFrom_skip (old new s t : Text) :
    replaceFrom old new s.length (s ++ t) = replaceFrom old new 0 t := by
  induction s with
  | nil => rfl
  | cons c s ih =>
    rw [List.cons_append, List.length_cons, replaceFrom, ih]

/-- Every character is replaced by what it and the rest of the text tell. -/
def mapWithRest (f : Char → Text → Text) : Text → Text
  | [] => []
  | c :: rest => f c rest ++ mapWithRest f rest

/-- A prefix whose characters stay stays. -/
theorem mapWithRest_append {f : Char → Text → Text} {s t : Text}
    (h : ∀ c ∈ s, ∀ rest, f c rest = [c]) : mapWithRest f (s ++ t) = s ++ mapWithRest f t := by
  induction s with
  | nil => rfl
  | cons c s ih =>
    have hc := h c List.mem_cons_self (s ++ t)
    have hs := ih fun d hd => h d (List.mem_cons_of_mem c hd)
    rw [List.cons_append, mapWithRest, hc, hs]
    rfl

/-- Replacing the first character of every occurrence of a text that begins like no other part of
itself. -/
theorem replace_head {x : Char} {tail : Text} (hx : x ∉ tail) (new t : Text) :
    replace (x :: tail) (new ++ tail) t =
      mapWithRest (fun c rest => if c = x ∧ tail <+: rest then new else [c]) t := by
  generalize hlen : t.length = n
  induction n using Nat.strong_induction_on generalizing t with
  | _ n ih =>
    cases t with
    | nil => rfl
    | cons c t =>
      rw [replace, replaceFrom, mapWithRest]
      simp only [List.cons_prefix_cons, eq_comm (a := x)]
      by_cases h : c = x ∧ tail <+: t
      · obtain ⟨rest, rfl⟩ := h.2
        have hrest := ih rest.length (by simp at hlen; omega) rest rfl
        have hskip := replaceFrom_skip (x :: tail) (new ++ tail) tail rest
        rw [if_pos h, if_pos h, List.length_cons, Nat.add_sub_cancel, hskip,
          ← replace, hrest, mapWithRest_append, List.append_assoc]
        intro d hd rest'
        have hne : d ≠ x := fun heq => hx (heq ▸ hd)
        simp [hne]
      · have hrest := ih t.length (by simp at hlen; omega) t rfl
        rw [if_neg h, if_neg h, ← replace, hrest]
        rfl

/-! ## Occurrences -/

/-- At how many places `m` occurs in the text. -/
def occurrences (m : Text) : Text → ℕ
  | [] => 0
  | c :: rest => (if m <+: c :: rest then 1 else 0) + occurrences m rest

theorem prefix_append_cons {m : Text} {c : Char} (hc : c ∉ m) (s t : Text) :
    m <+: s ++ c :: t ↔ m <+: s := by
  induction m generalizing s with
  | nil => simp
  | cons d m ih =>
    rw [List.mem_cons, not_or] at hc
    cases s with
    | nil => simp [List.cons_prefix_cons, Ne.symm hc.1]
    | cons e s => rw [List.cons_append, List.cons_prefix_cons, List.cons_prefix_cons, ih hc.2]

theorem occurrences_append_cons {m : Text} {c : Char} (hc : c ∉ m) (hm : m ≠ []) (s t : Text) :
    occurrences m (s ++ c :: t) = occurrences m s + occurrences m t := by
  induction s with
  | nil =>
    have hnot : ¬ m <+: c :: t := by
      have h := prefix_append_cons hc [] t
      rw [List.nil_append, List.prefix_nil] at h
      exact fun hp => hm (h.mp hp)
    rw [List.nil_append]
    simp only [occurrences, if_neg hnot]
  | cons d s ih =>
    have hiff := prefix_append_cons hc (d :: s) t
    rw [List.cons_append] at hiff ⊢
    rw [occurrences, occurrences, ih]
    simp only [hiff]
    omega

theorem occurrences_eq_zero {m : Text} (hm : m ≠ []) {t : Text} :
    occurrences m t = 0 ↔ ¬ m <:+: t := by
  induction t with
  | nil => simp [occurrences, hm]
  | cons c t ih =>
    rw [occurrences, List.infix_cons_iff, not_or, ← ih]
    split <;> simp_all

/-! ## Lines -/

/-- The line boundaries of `str.splitlines`. -/
def isLineBreak (c : Char) : Bool :=
  (0x0A ≤ c.toNat && c.toNat ≤ 0x0D) || (0x1C ≤ c.toNat && c.toNat ≤ 0x1E) || c.toNat == 0x85 ||
  c.toNat == 0x2028 || c.toNat == 0x2029

/-- The rest of the lines after `line`, the line so far. -/
def splitlinesFrom (line : Text) : Text → List Text
  | [] => if line = [] then [] else [line]
  | '\r' :: '\n' :: rest => line :: splitlinesFrom [] rest
  | c :: rest =>
    if isLineBreak c then line :: splitlinesFrom [] rest else splitlinesFrom (line ++ [c]) rest

/-- `text.splitlines()` -/
def splitlines (t : Text) : List Text := splitlinesFrom [] t

theorem splitlinesFrom_append {s : Text} (hs : ∀ c ∈ s, isLineBreak c = false) (line t : Text) :
    splitlinesFrom line (s ++ t) = splitlinesFrom (line ++ s) t := by
  induction s generalizing line with
  | nil => simp
  | cons c s ih =>
    have hc := hs c List.mem_cons_self
    have hr : c ≠ '\r' := by
      rintro rfl
      exact absurd hc (by decide)
    rw [List.cons_append, splitlinesFrom, if_neg (by simp [hc]),
      ih fun d hd => hs d (List.mem_cons_of_mem c hd), List.append_assoc]
    · rfl
    · exact fun _ h => absurd h hr

/-- A line that ends at a line boundary other than a carriage return. -/
theorem splitlines_break {s : Text} (hs : ∀ c ∈ s, isLineBreak c = false) {c : Char}
    (hc : isLineBreak c = true) (hr : c ≠ '\r') (t : Text) :
    splitlines (s ++ c :: t) = s :: splitlines t := by
  rw [splitlines, splitlinesFrom_append hs, splitlinesFrom, if_pos hc]
  · rfl
  · exact fun _ h => absurd h hr

/-- A line that ends with a line feed. -/
theorem splitlines_line {s : Text} (hs : ∀ c ∈ s, isLineBreak c = false) (t : Text) :
    splitlines (s ++ '\n' :: t) = s :: splitlines t :=
  splitlines_break hs (by decide) (by decide) t

theorem splitlines_last {s : Text} (hs : ∀ c ∈ s, isLineBreak c = false) (hne : s ≠ []) :
    splitlines s = [s] := by
  have h := splitlinesFrom_append hs [] []
  rw [List.append_nil, List.nil_append] at h
  rw [splitlines, h, splitlinesFrom, if_neg hne]

/-- `"\n".join(lines)` -/
def joinLines : List Text → Text
  | [] => []
  | [line] => line
  | line :: lines => line ++ '\n' :: joinLines lines

theorem joinLines_append {lines : List Text} (hne : lines ≠ []) (t : Text) :
    joinLines lines ++ '\n' :: t = lines.flatMap (· ++ ['\n']) ++ t := by
  induction lines with
  | nil => exact absurd rfl hne
  | cons line lines ih =>
    cases lines with
    | nil => simp [joinLines]
    | cons next lines =>
      have hrest := ih (by simp)
      rw [joinLines, List.append_assoc, List.cons_append, hrest]
      · simp
      · simp

theorem splitlines_lines {lines : List Text} (h : ∀ line ∈ lines, ∀ c ∈ line,
    isLineBreak c = false) (t : Text) :
    splitlines (lines.flatMap (· ++ ['\n']) ++ t) = lines ++ splitlines t := by
  induction lines with
  | nil => rfl
  | cons line lines ih =>
    have hline := splitlines_line (h line List.mem_cons_self) (lines.flatMap (· ++ ['\n']) ++ t)
    have hrest := ih fun l hl => h l (List.mem_cons_of_mem line hl)
    rw [hrest] at hline
    simpa using hline

theorem occurrences_lines {m : Text} (hbreak : '\n' ∉ m) (hm : m ≠ []) (lines : List Text)
    (t : Text) : occurrences m (lines.flatMap (· ++ ['\n']) ++ t) =
      (lines.map (occurrences m)).sum + occurrences m t := by
  induction lines with
  | nil => simp
  | cons line lines ih =>
    have hline := occurrences_append_cons hbreak hm line (lines.flatMap (· ++ ['\n']) ++ t)
    rw [ih] at hline
    simpa [Nat.add_assoc] using hline

theorem utf8Len_joinLines (lines : List Text) :
    utf8Len (joinLines lines) = (lines.map utf8Len).sum + (lines.length - 1) := by
  have hbreak : Char.utf8Size '\n' = 1 := by decide
  match lines with
  | [] => rfl
  | [line] => simp [joinLines]
  | line :: next :: lines =>
    have ih := utf8Len_joinLines (next :: lines)
    simp only [joinLines, utf8Len_append, utf8Len_cons, hbreak, ih, List.map_cons, List.sum_cons,
      List.length_cons]
    omega

end BetterHindsight
