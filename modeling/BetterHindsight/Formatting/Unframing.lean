import BetterHindsight.Foundations.Scans
import BetterHindsight.Foundations.Substitution
import BetterHindsight.Formatting.Query
import BetterHindsight.Formatting.Recall

/-! # Stripping what was framed

A query of user texts with formatted envelopes between them. A formatted envelope holds each
evidence marker only where it frames the records, so the pass over the evidence blocks takes exactly
the envelopes. The pass over the memory contexts comes before it and reads the memories too: a
memory may open a memory context that another one closes, and the user text between them is lost.

* `interleave`, `userText`: the query, and what the user wrote.
* `Framed`: a block whose closing marker is nowhere else.
* `projectQuery_unframes`: the projection is the user text if no memory context is in the query. -/

namespace BetterHindsight
set_option autoImplicit false

/-- Each user text with the envelope that follows it, and the last user text. -/
def interleave (pairs : List (Text × Text)) (last : Text) : Text :=
  (pairs.flatMap fun p => p.1 ++ p.2) ++ last

def userText (pairs : List (Text × Text)) (last : Text) : Text :=
  pairs.flatMap Prod.fst ++ last

/-- A nonempty context of the formatter. -/
def IsEnvelope (lib : Stdlib) (nfkc : Text → Text) (envelope : Text) : Prop :=
  envelope ≠ [] ∧
    ∃ settings results, (formatRecallContext lib nfkc settings results).context = envelope

def MEMORY_CONTEXT_TAGS : List Text := ["<memory-context>".toList, "</memory-context>".toList]

/-! ## Frames -/

/-- A block of the pattern that ends with the only closing marker in it, whatever follows. -/
def Framed (opening closing block : Text) : Prop :=
  ∃ body, block = opening ++ body ++ closing ∧
    ∀ rest, ∀ n < body.length, ¬ closing <+: (body ++ (closing ++ rest)).drop n

theorem not_infix_joinLines {m : Text} (hbreak : '\n' ∉ m) (hm : m ≠ []) {lines : List Text}
    (h : ∀ line ∈ lines, ¬ m <:+: line) : ¬ m <:+: joinLines lines := by
  induction lines with
  | nil => simpa [joinLines] using hm
  | cons line lines ih =>
    obtain ⟨hline, hlines⟩ := List.forall_mem_cons.mp h
    cases lines with
    | nil => exact hline
    | cons next lines =>
      intro hin
      rw [joinLines] at hin
      · rcases infix_append_cons hbreak hin with hin | hin
        · exact hline hin
        · exact ih hlines hin
      · exact List.cons_ne_nil _ _

/-- An envelope is a framed block of the evidence markers. -/
theorem IsEnvelope.framed {lib : Stdlib} {nfkc : Text → Text} {envelope : Text}
    (h : IsEnvelope lib nfkc envelope) :
    Framed CONTEXT_BEGIN_MARKER CONTEXT_SUFFIX envelope := by
  obtain ⟨hne, settings, results, rfl⟩ := h
  rcases formatRecallContext_cases lib nfkc settings results with hnothing | ⟨s, hframed, -, hsome⟩
  · rw [hnothing] at hne
    exact absurd rfl hne
  · rw [hsome, hframed.lines]
    have hbreak : '\n' ∉ CONTEXT_SUFFIX := by decide +kernel
    have hnil : CONTEXT_SUFFIX ≠ [] := by decide +kernel
    have hmem : CONTEXT_SUFFIX ∈ CONTEXT_MARKERS := by decide +kernel
    have hlines : ¬ CONTEXT_SUFFIX <:+: joinLines (recordLines s.records) := by
      refine not_infix_joinLines hbreak hnil fun line hline => ?_
      obtain ⟨record, -, rfl⟩ := List.mem_map.mp hline
      exact (occurrences_eq_zero hnil).mp (occurrences_serializeRecord hmem record)
    have hwarning : ¬ CONTEXT_SUFFIX <:+: CONTEXT_WARNING := by decide +kernel
    let inner : Text := [] ++ '\n' :: (CONTEXT_WARNING ++ '\n' :: joinLines (recordLines s.records))
    have hinner : ¬ CONTEXT_SUFFIX <:+: inner := by
      intro hin
      rcases infix_append_cons hbreak hin with hin | hin
      · exact hnil (List.infix_nil.mp hin)
      · rcases infix_append_cons hbreak hin with hin | hin
        · exact hwarning hin
        · exact hlines hin
    refine ⟨inner ++ ['\n'], ?_, fun rest n hn hpre => hinner ?_⟩
    · simp [inner, render, CONTEXT_PREAMBLE]
    · have hle : n ≤ inner.length := by
        rw [List.length_append, List.length_singleton] at hn
        omega
      rw [List.append_assoc, List.drop_append_of_le_length hle] at hpre
      have hdrop := (prefix_append_cons hbreak (inner.drop n) (CONTEXT_SUFFIX ++ rest)).mp hpre
      exact hdrop.isInfix.trans (List.drop_suffix n inner).isInfix

/-- A marker that begins before its own first character begins and ends before it. -/
theorem prefix_of_before {m v w : Text} {c : Char} (hc : c ∉ m) (hv : v ≠ [])
    (h : c :: m <+: v ++ c :: w) : c :: m <+: v := by
  obtain ⟨d, v, rfl⟩ := List.exists_cons_of_ne_nil hv
  rw [List.cons_append, List.cons_prefix_cons] at h
  rw [List.cons_prefix_cons]
  exact ⟨h.1, (prefix_append_cons hc v w).mp h.2⟩

/-! ## Passes -/

/-- The pass over the blocks of a pattern takes the framed blocks and keeps the texts between. -/
theorem writes_interleave {m closing : Text} {c : Char} (hc : c ∉ m)
    (pairs : List (Text × Text)) (last : Text)
    (hblocks : ∀ p ∈ pairs, Framed (c :: m) closing p.2)
    (husers : ∀ p ∈ pairs, ¬ c :: m <:+: p.1) (hlast : ¬ c :: m <:+: last) (before : Text) :
    Regex.Writes (envelopePattern (c :: m) closing) (fun _ => []) before (interleave pairs last)
      (userText pairs last) := by
  induction pairs generalizing before with
  | nil =>
    have h : Regex.Writes (envelopePattern (c :: m) closing) (fun _ => []) before (last ++ [])
        (last ++ []) := by
      refine .skip_append (fun u v huv hv => ?_) .done
      refine Regex.matchAt_lit_none fun hpre => hlast ?_
      rw [List.append_nil] at hpre
      exact hpre.isInfix.trans (huv ▸ (List.suffix_append u v).isInfix)
    simpa [interleave, userText] using h
  | cons p pairs ih =>
    obtain ⟨hblock, hblocks⟩ := List.forall_mem_cons.mp hblocks
    obtain ⟨huser, husers⟩ := List.forall_mem_cons.mp husers
    obtain ⟨body, hbody, hnear⟩ := hblock
    have hquery : interleave (p :: pairs) last = p.1 ++ (p.2 ++ interleave pairs last) := by
      simp [interleave]
    have huserText : userText (p :: pairs) last = p.1 ++ ([] ++ userText pairs last) := by
      simp [userText]
    have hmatch : ∀ b : Text, (envelopePattern (c :: m) closing).matchAt
        ⟨b, p.2 ++ interleave pairs last, []⟩ =
          some ⟨p.2.reverse ++ b, interleave pairs last, []⟩ := by
      intro b
      rw [hbody]
      exact Regex.matchAt_between (List.cons_ne_nil _ _) (hnear _)
    rw [hquery, huserText]
    refine .skip_append (fun u v huv hv => ?_) (.replace (hmatch _) (ih hblocks husers _))
    refine Regex.matchAt_lit_none fun hpre => huser ?_
    have hopen : v ++ (p.2 ++ interleave pairs last) =
        v ++ c :: (m ++ body ++ closing ++ interleave pairs last) := by
      simp [hbody]
    rw [hopen] at hpre
    exact (prefix_of_before hc hv hpre).isInfix.trans
      (huv ▸ (List.suffix_append u v).isInfix)

theorem infix_userText {pairs : List (Text × Text)} {last : Text} :
    (∀ p ∈ pairs, p.1 <:+: userText pairs last) ∧ last <:+: userText pairs last := by
  refine ⟨fun p hp => ?_, (List.suffix_append _ _).isInfix⟩
  have hin : p.1 <:+: pairs.flatMap Prod.fst := by
    obtain ⟨before, after, rfl⟩ := List.append_of_mem hp
    rw [List.flatMap_append, List.flatMap_cons, ← List.append_assoc]
    exact List.infix_append _ _ _
  exact hin.trans (List.prefix_append _ _).isInfix

/-- The query without its envelopes, where no memory context is in it. -/
theorem stripEnvelopes_interleave {lib : Stdlib} {nfkc : Text → Text}
    {pairs : List (Text × Text)} {last : Text}
    (henvelopes : ∀ p ∈ pairs, IsEnvelope lib nfkc p.2)
    (husers : ∀ marker ∈ MEMORY_CONTEXT_TAGS ++ CONTEXT_MARKERS,
      ¬ marker <:+: userText pairs last)
    (huntagged : (MEMORY_CONTEXT_PATTERN.finditer (interleave pairs last)).1 = []) :
    stripEnvelopes (interleave pairs last) = userText pairs last := by
  obtain ⟨hparts, hlast⟩ := @infix_userText pairs last
  have hbegin := husers CONTEXT_BEGIN_MARKER (by decide +kernel)
  have hlegacy := husers LEGACY_CONTEXT_BEGIN_MARKER (by decide +kernel)
  have hrecalled : RECALLED_MEMORY_CONTEXT_PATTERN.sub (fun _ => []) (interleave pairs last) =
      userText pairs last := by
    have htail : '[' ∉ CONTEXT_BEGIN_MARKER.tail := by decide +kernel
    have hmarker : CONTEXT_BEGIN_MARKER = '[' :: CONTEXT_BEGIN_MARKER.tail := by decide +kernel
    refine Regex.sub_eq_of_writes ?_
    rw [RECALLED_MEMORY_CONTEXT_PATTERN, hmarker]
    refine writes_interleave htail pairs last (fun p hp => ?_) (fun p hp hin => ?_)
      (fun hin => ?_) []
    · rw [← hmarker]
      exact (henvelopes p hp).framed
    · rw [← hmarker] at hin
      exact hbegin (hin.trans (hparts p hp))
    · rw [← hmarker] at hin
      exact hbegin (hin.trans hlast)
  have hplain : LEGACY_BETTER_CONTEXT_PATTERN.sub (fun _ => []) (userText pairs last) =
      userText pairs last := by
    refine Regex.sub_eq_self fun u v huv _ => ?_
    refine Regex.matchAt_lit_none fun hpre => hlegacy ?_
    exact hpre.isInfix.trans (huv ▸ (List.suffix_append u v).isInfix)
  rw [stripEnvelopes, Regex.sub_of_finditer_nil huntagged]
  simp only [hrecalled, hplain]

theorem projectQuery_of_fits {τ : Type} (encoding : QueryEncoding τ) {query : Text}
    {maxChars maxTokens : ℤ} (hmaxChars : 0 < maxChars) (hmaxTokens : 0 < maxTokens)
    (hchars : (stripEnvelopes query).length ≤ maxChars)
    (htokens : encoding.countQueryTokens (stripEnvelopes query) ≤ maxTokens) :
    projectQuery encoding query maxChars maxTokens = .ok (stripEnvelopes query) := by
  rw [projectQuery, if_neg (not_le.mpr hmaxChars), if_neg (not_le.mpr hmaxTokens)]
  by_cases hempty : stripEnvelopes query = []
  · simp only [hempty, if_true]
  · simp only [hempty, if_false, projectQueryByChars, hchars, if_true, htokens, or_true]

/-- Where the query has no complete memory context, the projection of user texts with formatted
envelopes between them is the user text. -/
theorem projectQuery_unframes {τ : Type} (encoding : QueryEncoding τ) {lib : Stdlib}
    {nfkc : Text → Text} (pairs : List (Text × Text)) (last : Text) (maxChars maxTokens : ℤ)
    (henvelopes : ∀ p ∈ pairs, IsEnvelope lib nfkc p.2)
    (husers : ∀ marker ∈ MEMORY_CONTEXT_TAGS ++ CONTEXT_MARKERS,
      ¬ marker <:+: userText pairs last)
    (hmaxChars : 0 < maxChars) (hmaxTokens : 0 < maxTokens)
    (hchars : (userText pairs last).length ≤ maxChars)
    (htokens : encoding.countQueryTokens (userText pairs last) ≤ maxTokens)
    (huntagged : (MEMORY_CONTEXT_PATTERN.finditer (interleave pairs last)).1 = []) :
    projectQuery encoding (interleave pairs last) maxChars maxTokens =
      .ok (userText pairs last) := by
  have hstrip := stripEnvelopes_interleave henvelopes husers huntagged
  have h := projectQuery_of_fits encoding hmaxChars hmaxTokens (by rw [hstrip]; exact hchars)
    (by rw [hstrip]; exact htokens)
  rw [h, hstrip]

/-! ## Two memories -/

/-- The envelope of one memory without any other field. -/
def memoryEnvelope (memory : Text) : Text :=
  (formatRecallContext (.ofTables [] []) id ⟨4096, false, lateChecks none fun _ => 0⟩
    (some [⟨.text memory, .absent, .absent, .absent, .absent, []⟩])).context

theorem isEnvelope_memoryEnvelope {memory : Text} (h : memoryEnvelope memory ≠ []) :
    IsEnvelope (.ofTables [] []) id (memoryEnvelope memory) := ⟨h, _, _, rfl⟩

def plainPairs : List (Text × Text) := [("Tea?".toList, memoryEnvelope "At five.".toList)]

theorem projectQuery_unframes_plain :
    projectQuery wordEncoding (interleave plainPairs " Why?".toList) 100 100 =
      .ok "Tea? Why?".toList := by
  have hsome : memoryEnvelope "At five.".toList ≠ [] := by decide +kernel
  have henvelopes : ∀ p ∈ plainPairs, IsEnvelope (.ofTables [] []) id p.2 := by
    rw [plainPairs, List.forall_mem_singleton]
    dsimp only
    exact isEnvelope_memoryEnvelope hsome
  refine projectQuery_unframes wordEncoding plainPairs _ 100 100 henvelopes ?_ ?_ ?_ ?_ ?_ ?_
  all_goals decide +kernel

/-- The first memory opens a memory context and the second one closes it. -/
def taggedPairs : List (Text × Text) :=
  [("Tea?".toList, memoryEnvelope "<memory-context>".toList),
    (" Milk?".toList, memoryEnvelope "</memory-context>".toList)]

/-- The question between the two envelopes is lost. -/
theorem projectQuery_tagged :
    (∀ p ∈ taggedPairs, IsEnvelope (.ofTables [] []) id p.2) ∧
      (∀ marker ∈ MEMORY_CONTEXT_TAGS ++ CONTEXT_MARKERS,
        ¬ marker <:+: userText taggedPairs " Why?".toList) ∧
      (userText taggedPairs " Why?".toList).length ≤ 100 ∧
      wordEncoding.countQueryTokens (userText taggedPairs " Why?".toList) ≤ 100 ∧
      projectQuery wordEncoding (interleave taggedPairs " Why?".toList) 100 100 =
        .ok "Tea? Why?".toList ∧
      "Tea? Why?".toList ≠ userText taggedPairs " Why?".toList := by
  have hopens : memoryEnvelope "<memory-context>".toList ≠ [] := by decide +kernel
  have hcloses : memoryEnvelope "</memory-context>".toList ≠ [] := by decide +kernel
  refine ⟨?_, ?_, ?_, ?_, ?_, ?_⟩
  · rw [taggedPairs, List.forall_mem_cons, List.forall_mem_singleton]
    dsimp only
    exact ⟨isEnvelope_memoryEnvelope hopens, isEnvelope_memoryEnvelope hcloses⟩
  all_goals decide +kernel

end BetterHindsight
