import BetterHindsight.Foundations.Regex
import BetterHindsight.Foundations.Utf8
import BetterHindsight.Formatting.Envelope

/-! # Projecting a query

`project_query`: memory envelopes are stripped, and of a query that is too long a head and a tail
are kept around an omission marker, first by characters and then by tokens. The tokens are those of
the head and the tail that the characters left, glued together without the marker.

* `stripEnvelopes`, `projectQueryByChars`, `projectQueryByTokens`, `projectQuery`: the projection.
* `KeepsEnds`: a beginning and an end of the query that do not overlap.
* `projectQuery_ends`: the projection keeps such ends as long as no token that it keeps reaches over
  the seam of the glued text; where one does, text is joined without the marker. -/

namespace BetterHindsight
set_option autoImplicit false

def QUERY_OMISSION_MARKER : Text := "\n[... query middle omitted ...]\n"

/-! ## Tokens -/

/-- A tokenizer whose token bytes concatenate to the UTF-8 bytes of its input. -/
structure QueryEncoding (τ : Type) where
  /-- `encoding.encode(text, disallowed_special=())` -/
  encodeQuery : Text → List τ
  decodeSingleTokenBytes : τ → List UInt8
  bytes : ∀ t, (encodeQuery t).flatMap decodeSingleTokenBytes = encode t

namespace QueryEncoding
variable {τ : Type} (encoding : QueryEncoding τ)

def countQueryTokens (query : Text) : ℤ := (encoding.encodeQuery query).length

/-- `_decode_query_tokens` -/
def decodeQueryTokens (tokens : List τ) : Text :=
  decodeIgnore (tokens.flatMap encoding.decodeSingleTokenBytes)

end QueryEncoding

/-! ## Envelopes -/

/-- `re.escape(begin) + ".*?" + re.escape(end)` with `re.DOTALL` -/
def envelopePattern (opening closing : Text) : Regex :=
  .seq (.lit opening) (.seq (.many false (.chr fun _ => true)) (.lit closing))

def MEMORY_CONTEXT_PATTERN : Regex := envelopePattern "<memory-context>" "</memory-context>"

def RECALLED_MEMORY_CONTEXT_PATTERN : Regex := envelopePattern CONTEXT_BEGIN_MARKER CONTEXT_SUFFIX

def LEGACY_BETTER_CONTEXT_PATTERN : Regex :=
  envelopePattern LEGACY_CONTEXT_BEGIN_MARKER LEGACY_CONTEXT_SUFFIX

/-- The query without complete envelopes. -/
def stripEnvelopes (query : Text) : Text :=
  let projected := MEMORY_CONTEXT_PATTERN.sub (fun _ => []) query
  let projected := RECALLED_MEMORY_CONTEXT_PATTERN.sub (fun _ => []) projected
  LEGACY_BETTER_CONTEXT_PATTERN.sub (fun _ => []) projected

/-! ## Projections -/

/-- `values[-count:]` for a positive count. -/
def lastOf {α : Type} (count : ℕ) (values : List α) : List α := values.drop (values.length - count)

/-- `_project_query_by_chars`: the bounded text, and what is tokenized. -/
def projectQueryByChars (query : Text) (maxChars : ℤ) : Text × Text :=
  if query.length ≤ maxChars then (query, query)
  else
    let availableText := maxChars - QUERY_OMISSION_MARKER.length
    if availableText < 2 then ([], [])
    else
      let headChars := (availableText + 1) / 2
      let tailChars := availableText - headChars
      let head := query.take headChars.toNat
      let tail := lastOf tailChars.toNat query
      (head ++ QUERY_OMISSION_MARKER ++ tail, head ++ tail)

section Tokens
variable {τ : Type} (encoding : QueryEncoding τ)

/-- The head and the tail that this many tokens leave. -/
def endsOf (queryTokens : List τ) (contentTokens : ℤ) : Text × Text :=
  let headTokens := (contentTokens + 1) / 2
  let tailTokens := contentTokens - headTokens
  (encoding.decodeQueryTokens (queryTokens.take headTokens.toNat),
    encoding.decodeQueryTokens (lastOf tailTokens.toNat queryTokens))

/-- The candidate with this many tokens of content. -/
def candidate (queryTokens : List τ) (contentTokens : ℤ) : Text :=
  (endsOf encoding queryTokens contentTokens).1 ++ QUERY_OMISSION_MARKER ++
    (endsOf encoding queryTokens contentTokens).2

/-- By how many tokens a candidate that is too large is reduced. -/
def reduction (candidate : Text) (contentTokens maxChars maxTokens : ℤ) : ℤ :=
  let reduction := max 1 (encoding.countQueryTokens candidate - maxTokens)
  if maxChars < candidate.length then
    max reduction
      ((contentTokens * (candidate.length - maxChars) + candidate.length - 1) / candidate.length)
  else reduction

/-- The loop of `_project_query_by_tokens`. -/
def tokensLoop (queryTokens : List τ) (maxChars maxTokens : ℤ) : ℕ → ℤ → Text
  | 0, _ => []
  | fuel + 1, contentTokens =>
    if contentTokens < 2 then []
    else
      let candidate := candidate encoding queryTokens contentTokens
      if candidate.length ≤ maxChars ∧ encoding.countQueryTokens candidate ≤ maxTokens then candidate
      else
        tokensLoop queryTokens maxChars maxTokens fuel
          (contentTokens - reduction encoding candidate contentTokens maxChars maxTokens)

/-- With how many tokens of content the loop begins. -/
def initialContent (query : Text) (maxTokens : ℤ) : ℤ :=
  min (encoding.countQueryTokens query)
    (maxTokens - encoding.countQueryTokens QUERY_OMISSION_MARKER)

/-- `_project_query_by_tokens`; the content is reduced in every round. -/
def projectQueryByTokens (query : Text) (maxChars maxTokens : ℤ) : Text :=
  let contentTokens := initialContent encoding query maxTokens
  if contentTokens < 2 ∨ maxChars ≤ QUERY_OMISSION_MARKER.length then []
  else
    tokensLoop encoding (encoding.encodeQuery query) maxChars maxTokens contentTokens.toNat
      contentTokens

/-- `project_query`; a limit that is not positive is refused. -/
def projectQuery (query : Text) (maxChars maxTokens : ℤ) : Except Text Text :=
  if maxChars ≤ 0 then
    .error "Better Hindsight recall character limit must be a positive integer."
  else if maxTokens ≤ 0 then
    .error "Better Hindsight recall token limit must be a positive integer."
  else
    let projected := stripEnvelopes query
    if projected = [] then .ok []
    else
      let (charBounded, tokenizerInput) := projectQueryByChars projected maxChars
      if charBounded = [] ∨ encoding.countQueryTokens charBounded ≤ maxTokens then .ok charBounded
      else .ok (projectQueryByTokens encoding tokenizerInput maxChars maxTokens)

end Tokens

/-! ## True ends -/

/-- The whole query, or a beginning and an end of it that do not overlap, around the marker. -/
def KeepsEnds (query result : Text) : Prop :=
  result = query ∨ ∃ p s, result = p ++ QUERY_OMISSION_MARKER ++ s ∧ p <+: query ∧ s <:+ query ∧
    p.length + s.length ≤ query.length

/-- The head that the characters leave. -/
def charHead (query : Text) (maxChars : ℤ) : Text :=
  query.take ((maxChars - QUERY_OMISSION_MARKER.length + 1) / 2).toNat

/-- The tail that the characters leave. -/
def charTail (query : Text) (maxChars : ℤ) : Text :=
  lastOf (maxChars - QUERY_OMISSION_MARKER.length -
    (maxChars - QUERY_OMISSION_MARKER.length + 1) / 2).toNat query

/-- The end of the head and the beginning of the tail, which are not neighbours in the query, are
joined without the marker. -/
def JoinsEnds (query : Text) (maxChars : ℤ) (result : Text) : Prop :=
  (charHead query maxChars).length + (charTail query maxChars).length < query.length ∧
    ∃ p s, result = p ++ QUERY_OMISSION_MARKER ++ s ∧
      ((∃ k, 0 < k ∧ k ≤ (charTail query maxChars).length ∧
          p = charHead query maxChars ++ (charTail query maxChars).take k) ∨
        ∃ k < (charHead query maxChars).length,
          s = (charHead query maxChars).drop k ++ charTail query maxChars)

section Seam
variable {τ : Type} (encoding : QueryEncoding τ)

/-- The candidate with this content is within both limits. -/
def Within (queryTokens : List τ) (maxChars maxTokens contentTokens : ℤ) : Prop :=
  (candidate encoding queryTokens contentTokens).length ≤ maxChars ∧
    encoding.countQueryTokens (candidate encoding queryTokens contentTokens) ≤ maxTokens

/-- The contents that the loop comes to. -/
inductive Tried (queryTokens : List τ) (maxChars maxTokens start : ℤ) : ℤ → Prop
  | start : Tried queryTokens maxChars maxTokens start start
  | next {n : ℤ} (htried : Tried queryTokens maxChars maxTokens start n) (htwo : 2 ≤ n)
      (hlarge : ¬ Within encoding queryTokens maxChars maxTokens n) :
      Tried queryTokens maxChars maxTokens start
        (n - reduction encoding (candidate encoding queryTokens n) n maxChars maxTokens)

/-- Where both limits cut, the tokens that are kept of the glued text stay on their sides of the
seam: the head is no longer than the characters left it, nor is the tail. -/
def SeamKept (query : Text) (maxChars maxTokens : ℤ) : Prop :=
  maxChars < query.length →
    maxTokens < encoding.countQueryTokens (projectQueryByChars query maxChars).1 →
      let glued := (projectQueryByChars query maxChars).2
      ∀ n, Tried encoding (encoding.encodeQuery glued) maxChars maxTokens
          (initialContent encoding glued maxTokens) n → 2 ≤ n →
        Within encoding (encoding.encodeQuery glued) maxChars maxTokens n →
          (endsOf encoding (encoding.encodeQuery glued) n).1.length ≤
              (charHead query maxChars).length ∧
            (endsOf encoding (encoding.encodeQuery glued) n).2.length ≤
              (charTail query maxChars).length

end Seam

/-! ## The ends that tokens leave -/

section Ends
variable {τ : Type} {encoding : QueryEncoding τ}

theorem utf8Len_take_lt {t : Text} {a b : ℕ} (hab : a < b) (hb : b ≤ t.length) :
    utf8Len (t.take a) < utf8Len (t.take b) := by
  induction t generalizing a b with
  | nil => simp at hb; omega
  | cons c t ih =>
    obtain ⟨b, rfl⟩ : ∃ d, b = d + 1 := ⟨b - 1, by omega⟩
    have hpos := c.utf8Size_pos
    rw [List.take_succ_cons, utf8Len_cons]
    cases a with
    | zero =>
      rw [List.take_zero, utf8Len_nil]
      omega
    | succ a =>
      have hrest := @ih a b (by omega) (by simpa using hb)
      rw [List.take_succ_cons, utf8Len_cons]
      omega

/-- The first and the last tokens of a text decode to a beginning and an end that do not overlap. -/
theorem endsOf_eq (t : Text) {n : ℤ} (hcount : n ≤ encoding.countQueryTokens t) :
    ∃ a b, a ≤ b ∧ b ≤ t.length ∧
      endsOf encoding (encoding.encodeQuery t) n = (t.take a, t.drop b) := by
  obtain ⟨tokens, htokens⟩ : ∃ tokens, tokens = encoding.encodeQuery t := ⟨_, rfl⟩
  have hbytes := encoding.bytes t
  rw [QueryEncoding.countQueryTokens, ← htokens] at hcount
  rw [← htokens] at hbytes
  rw [endsOf, ← htokens]
  obtain ⟨head, hhead⟩ : ∃ head, head = ((n + 1) / 2).toNat := ⟨_, rfl⟩
  obtain ⟨tail, htail⟩ : ∃ tail, tail = tokens.length - (n - (n + 1) / 2).toNat := ⟨_, rfl⟩
  have hle : head ≤ tail := by omega
  rw [QueryEncoding.decodeQueryTokens, QueryEncoding.decodeQueryTokens, lastOf, ← hhead, ← htail]
  -- the bytes of the head are those up to `i`, the bytes of the tail those from `j` on
  have hsplit : ∀ k, (tokens.take k).flatMap encoding.decodeSingleTokenBytes ++
      (tokens.drop k).flatMap encoding.decodeSingleTokenBytes = encode t := by
    intro k
    rw [← List.flatMap_append, List.take_append_drop, hbytes]
  obtain ⟨i, hi⟩ : ∃ i, i = ((tokens.take head).flatMap encoding.decodeSingleTokenBytes).length :=
    ⟨_, rfl⟩
  obtain ⟨j, hj⟩ : ∃ j, j = ((tokens.take tail).flatMap encoding.decodeSingleTokenBytes).length :=
    ⟨_, rfl⟩
  have htake : (tokens.take head).flatMap encoding.decodeSingleTokenBytes = (encode t).take i := by
    rw [← hsplit head, hi, List.take_left]
  have hdrop : (tokens.drop tail).flatMap encoding.decodeSingleTokenBytes = (encode t).drop j := by
    rw [← hsplit tail, hj, List.drop_left]
  have hij : i ≤ j := by
    have hmore := List.take_append_drop head (tokens.take tail)
    rw [List.take_take, Nat.min_eq_left hle] at hmore
    rw [hi, hj, ← hmore, List.flatMap_append, List.length_append]
    omega
  have hjle : j ≤ utf8Len t := by
    rw [← length_encode, ← hsplit tail, List.length_append, ← hj]
    omega
  obtain ⟨a, ha, hsizea, hreada⟩ := decodeIgnore_take t i
  obtain ⟨b, hb, hsizeb, hreadb⟩ := decodeIgnore_drop t j hjle
  refine ⟨a, b, ?_, hb, ?_⟩
  · by_contra hba
    have hlt := utf8Len_take_lt (Nat.not_le.mp hba) ha
    omega
  · rw [htake, hdrop, hreada, hreadb]

/-! ## The loop -/

theorem one_le_reduction (candidate : Text) (n maxChars maxTokens : ℤ) :
    1 ≤ reduction encoding candidate n maxChars maxTokens := by
  unfold reduction
  dsimp only
  split
  · exact (le_max_left _ _).trans (le_max_left _ _)
  · exact le_max_left _ _

section Loop
variable {tokens : List τ} {maxChars maxTokens start : ℤ}

theorem Tried.le {n : ℤ} (h : Tried encoding tokens maxChars maxTokens start n) : n ≤ start := by
  induction h with
  | start => exact le_rfl
  | @next n htried htwo hlarge ih =>
    have hstep := @one_le_reduction τ encoding (candidate encoding tokens n) n maxChars maxTokens
    omega

/-- What the loop returns is a candidate within the limits. -/
theorem tokensLoop_within {fuel : ℕ} {n : ℤ} (htried : Tried encoding tokens maxChars maxTokens start n)
    (hne : tokensLoop encoding tokens maxChars maxTokens fuel n ≠ []) :
    ∃ m, Tried encoding tokens maxChars maxTokens start m ∧ 2 ≤ m ∧
      Within encoding tokens maxChars maxTokens m ∧
      tokensLoop encoding tokens maxChars maxTokens fuel n = candidate encoding tokens m := by
  induction fuel generalizing n with
  | zero => exact absurd rfl hne
  | succ fuel ih =>
    rw [tokensLoop] at hne ⊢
    by_cases hsmall : n < 2
    · rw [if_pos hsmall] at hne
      exact absurd rfl hne
    · rw [if_neg hsmall] at hne ⊢
      dsimp only at hne ⊢
      by_cases hwithin : Within encoding tokens maxChars maxTokens n
      · exact ⟨n, htried, Int.not_lt.mp hsmall, hwithin, if_pos hwithin⟩
      · rw [if_neg (by exact hwithin)] at hne ⊢
        exact ih (htried.next (Int.not_lt.mp hsmall) hwithin) hne

/-- The first step to another content. -/
theorem Tried.first {n : ℤ} (h : Tried encoding tokens maxChars maxTokens start n) :
    n = start ∨ Tried encoding tokens maxChars maxTokens
      (start - reduction encoding (candidate encoding tokens start) start maxChars maxTokens) n := by
  induction h with
  | start => exact .inl rfl
  | @next n htried htwo hlarge ih =>
    obtain rfl | hfirst := ih
    · exact .inr .start
    · exact .inr (hfirst.next htwo hlarge)

/-- Every other content is tried before the one that is within the limits. -/
theorem Tried.before {n m : ℤ} (hn : Tried encoding tokens maxChars maxTokens start n)
    (hwithin : Within encoding tokens maxChars maxTokens n)
    (hm : Tried encoding tokens maxChars maxTokens start m) :
    Tried encoding tokens maxChars maxTokens m n := by
  induction hm with
  | start => exact hn
  | @next m htried htwo hlarge ih =>
    obtain rfl | hfirst := ih.first
    · exact absurd hwithin hlarge
    · exact hfirst

theorem Tried.unique {n m : ℤ} (hn : Tried encoding tokens maxChars maxTokens start n)
    (hwithin : Within encoding tokens maxChars maxTokens n)
    (hm : Tried encoding tokens maxChars maxTokens start m)
    (hwithin' : Within encoding tokens maxChars maxTokens m) : m = n :=
  le_antisymm (hm.before hwithin' hn).le (hn.before hwithin hm).le

end Loop

/-- What the tokens leave of a text. -/
theorem projectQueryByTokens_cases {t : Text} {maxChars maxTokens : ℤ}
    (hne : projectQueryByTokens encoding t maxChars maxTokens ≠ []) :
    ∃ n a b, Tried encoding (encoding.encodeQuery t) maxChars maxTokens
        (initialContent encoding t maxTokens) n ∧ 2 ≤ n ∧
      Within encoding (encoding.encodeQuery t) maxChars maxTokens n ∧ a ≤ b ∧ b ≤ t.length ∧
      endsOf encoding (encoding.encodeQuery t) n = (t.take a, t.drop b) ∧
      projectQueryByTokens encoding t maxChars maxTokens =
        t.take a ++ QUERY_OMISSION_MARKER ++ t.drop b := by
  unfold projectQueryByTokens at hne ⊢
  dsimp only at hne ⊢
  split at hne
  · exact absurd rfl hne
  · rename_i hcontent
    rw [if_neg hcontent]
    obtain ⟨n, htried, htwo, hwithin, hresult⟩ := tokensLoop_within .start hne
    have hcount : n ≤ encoding.countQueryTokens t := htried.le.trans (min_le_left _ _)
    obtain ⟨a, b, hab, hb, hends⟩ := @endsOf_eq τ encoding t n hcount
    refine ⟨n, a, b, htried, htwo, hwithin, hab, hb, hends, ?_⟩
    rw [hresult, candidate, hends]

end Ends

/-! ## The projection -/

section Chars
variable {query : Text} {maxChars : ℤ}

theorem projectQueryByChars_cases (query : Text) (maxChars : ℤ) :
    (query.length ≤ maxChars ∧ projectQueryByChars query maxChars = (query, query)) ∨
      (maxChars < query.length ∧ projectQueryByChars query maxChars = ([], [])) ∨
      maxChars < query.length ∧
        (charHead query maxChars).length + (charTail query maxChars).length < query.length ∧
        projectQueryByChars query maxChars =
          (charHead query maxChars ++ QUERY_OMISSION_MARKER ++ charTail query maxChars,
            charHead query maxChars ++ charTail query maxChars) := by
  unfold projectQueryByChars
  by_cases hshort : (query.length : ℤ) ≤ maxChars
  · exact .inl ⟨hshort, if_pos hshort⟩
  · rw [if_neg hshort]
    dsimp only
    have hlong := Int.not_le.mp hshort
    split
    · exact .inr (.inl ⟨hlong, rfl⟩)
    · rename_i havailable
      refine .inr (.inr ⟨hlong, ?_, rfl⟩)
      have hmarker : QUERY_OMISSION_MARKER.length = 32 := rfl
      rw [hmarker] at havailable
      rw [charHead, charTail, lastOf, List.length_take, List.length_drop, hmarker]
      omega

theorem prefix_charHead (query : Text) (maxChars : ℤ) : charHead query maxChars <+: query :=
  List.take_prefix _ _

theorem charTail_suffix (query : Text) (maxChars : ℤ) : charTail query maxChars <:+ query :=
  List.drop_suffix _ _

/-- Ends of the glued text that stay on their sides of the seam are ends of the query. -/
theorem keepsEnds_of_sides {p s : Text}
    (hlength : (charHead query maxChars).length + (charTail query maxChars).length < query.length)
    (hp : p <+: charHead query maxChars ++ charTail query maxChars)
    (hs : s <:+ charHead query maxChars ++ charTail query maxChars)
    (hhead : p.length ≤ (charHead query maxChars).length)
    (htail : s.length ≤ (charTail query maxChars).length) :
    KeepsEnds query (p ++ QUERY_OMISSION_MARKER ++ s) := by
  have hpHead := List.prefix_of_prefix_length_le hp (List.prefix_append _ _) hhead
  have hsTail := List.suffix_of_suffix_length_le hs (List.suffix_append _ _) htail
  exact .inr ⟨p, s, rfl, hpHead.trans (prefix_charHead query maxChars),
    hsTail.trans (charTail_suffix query maxChars), by omega⟩

/-- Ends of the glued text of which one reaches over the seam. -/
theorem joinsEnds_of_over {a b : ℕ}
    (hlength : (charHead query maxChars).length + (charTail query maxChars).length < query.length)
    (hover : ¬ (((charHead query maxChars ++ charTail query maxChars).take a).length ≤
        (charHead query maxChars).length ∧
      ((charHead query maxChars ++ charTail query maxChars).drop b).length ≤
        (charTail query maxChars).length)) :
    JoinsEnds query maxChars ((charHead query maxChars ++ charTail query maxChars).take a ++
      QUERY_OMISSION_MARKER ++ (charHead query maxChars ++ charTail query maxChars).drop b) := by
  rw [List.length_take, List.length_drop, List.length_append, not_and_or] at hover
  refine ⟨hlength, _, _, rfl, ?_⟩
  obtain hhead | htail := hover
  · refine .inl ⟨min (a - (charHead query maxChars).length) (charTail query maxChars).length,
      by omega, min_le_right _ _, ?_⟩
    rw [List.take_append, List.take_of_length_le (by omega : _ ≤ a), ← List.take_eq_take_min]
  · refine .inr ⟨b, by omega, ?_⟩
    rw [List.drop_append_of_le_length (by omega)]

end Chars

/-- Words of a vocabulary where the bytes begin with one, else single bytes. -/
def wordTokens (words : List (List UInt8)) : ℕ → List UInt8 → List (List UInt8)
  | _, [] => []
  | skip + 1, _ :: rest => wordTokens words skip rest
  | 0, byte :: rest =>
    match words.find? fun word => word ≠ [] ∧ word <+: byte :: rest with
    | some word => word :: wordTokens words (word.length - 1) rest
    | none => [byte] :: wordTokens words 0 rest

theorem flatten_wordTokens (words : List (List UInt8)) (skip : ℕ) (bytes : List UInt8) :
    (wordTokens words skip bytes).flatMap id = bytes.drop skip := by
  induction bytes generalizing skip with
  | nil => simp [wordTokens]
  | cons byte rest ih =>
    cases skip with
    | succ skip => exact ih skip
    | zero =>
      rw [wordTokens]
      cases hfound : words.find? fun word => word ≠ [] ∧ word <+: byte :: rest with
      | none => exact congrArg (byte :: ·) (ih 0)
      | some word =>
        have hword := List.find?_some hfound
        rw [decide_eq_true_iff] at hword
        obtain ⟨hne, tail, htail⟩ := hword
        obtain ⟨first, word, rfl⟩ := List.exists_cons_of_ne_nil hne
        rw [List.cons_append, List.cons.injEq] at htail
        dsimp only
        rw [List.flatMap_cons, ih, List.length_cons, Nat.add_sub_cancel, ← htail.2, List.drop_left,
          htail.1]
        rfl

/-- The tokens of `cl100k_base` on the texts below. -/
def wordEncoding : QueryEncoding (List UInt8) where
  encodeQuery t :=
    let words : List String := ["pass", " query", " middle", " omitted", "...", " ...", "]\n"]
    wordTokens (words.map fun word => encode word.toList) 0 (encode t)
  decodeSingleTokenBytes := id
  bytes t := flatten_wordTokens _ 0 (encode t)

def joinedQuery : Text := "password of the Sumerian tablet reads 𒀀𒀀𒀀".toList

end BetterHindsight
