import BetterHindsight.Foundations.Text

/-! # Reading cut UTF-8

`bytes.decode("utf-8", errors="ignore")` on bytes that begin or end inside a character: what is
read is a text without the characters that are cut.

* `decodeIgnore`: the decoder. A byte at which no character begins is dropped; a lead byte whose
  character is not complete is dropped with the bytes after it, one by one.
* `decodeIgnore_take`, `decodeIgnore_drop`: the text up to a byte, and from a byte on. -/

namespace BetterHindsight
set_option autoImplicit false

/-- The character whose encoding the bytes begin with. -/
def decodeChar? (bytes : List UInt8) : Option Char := bytes.toByteArray.utf8DecodeChar? 0

/-- What is left to decode after `skip` bytes of a character. -/
def decodeFrom : ℕ → List UInt8 → Text
  | _, [] => []
  | skip + 1, _ :: rest => decodeFrom skip rest
  | 0, byte :: rest =>
    match decodeChar? (byte :: rest) with
    | some c => c :: decodeFrom (c.utf8Size - 1) rest
    | none => decodeFrom 0 rest

/-- `bytes.decode("utf-8", errors="ignore")` -/
def decodeIgnore (bytes : List UInt8) : Text := decodeFrom 0 bytes

/-! ## One character -/

theorem decodeChar?_append (c : Char) (rest : List UInt8) :
    decodeChar? (String.utf8EncodeChar c ++ rest) = some c := by
  rw [decodeChar?, List.toByteArray_append]
  exact ByteArray.utf8DecodeChar?_utf8EncodeChar_append

theorem prefix_of_decodeChar? {bytes : List UInt8} {c : Char} (h : decodeChar? bytes = some c) :
    String.utf8EncodeChar c <+: bytes := by
  obtain ⟨rest, hrest⟩ := ByteArray.exists_of_utf8DecodeChar?_eq_some h
  refine ⟨rest.data.toList, ?_⟩
  have hdata := congrArg (fun b : ByteArray => b.data.toList) hrest
  simpa using hdata.symm

/-- A lead byte, and bytes that lead no character. -/
theorem encodeChar_lead (c : Char) :
    ∃ lead rest, String.utf8EncodeChar c = lead :: rest ∧ lead.IsUTF8FirstByte ∧
      ∀ byte ∈ rest, ¬ byte.IsUTF8FirstByte := by
  obtain ⟨lead, rest, hencode⟩ := List.exists_cons_of_ne_nil (@String.utf8EncodeChar_ne_nil c)
  have hfirst : ∀ i (hi : i < (lead :: rest).length),
      (lead :: rest)[i].IsUTF8FirstByte ↔ i = 0 := by
    intro i hi
    simp only [← hencode]
    exact UInt8.isUTF8FirstByte_getElem_utf8EncodeChar
  refine ⟨lead, rest, hencode, (hfirst 0 (Nat.succ_pos _)).mpr rfl, fun byte hbyte hlead => ?_⟩
  obtain ⟨i, hi, rfl⟩ := List.mem_iff_getElem.mp hbyte
  exact absurd ((hfirst (i + 1) (Nat.succ_lt_succ hi)).mp hlead) (Nat.succ_ne_zero i)

theorem decodeChar?_continuation {byte : UInt8} (hbyte : ¬ byte.IsUTF8FirstByte)
    (rest : List UInt8) : decodeChar? (byte :: rest) = none := by
  rw [Option.eq_none_iff_forall_not_mem]
  intro c hc
  obtain ⟨lead, tail, hencode, hlead, -⟩ := encodeChar_lead c
  have hbegins := prefix_of_decodeChar? hc
  rw [hencode, List.cons_prefix_cons] at hbegins
  exact hbyte (hbegins.1 ▸ hlead)

/-- A beginning of an encoding is no encoding. -/
theorem decodeChar?_partial {c : Char} {part : List UInt8} (h : part <+: String.utf8EncodeChar c)
    (hshort : part.length < c.utf8Size) : decodeChar? part = none := by
  rw [Option.eq_none_iff_forall_not_mem]
  intro d hd
  obtain ⟨rest, hrest⟩ := (prefix_of_decodeChar? hd).trans h
  have hread := decodeChar?_append d rest
  rw [hrest, ← List.append_nil (String.utf8EncodeChar c), decodeChar?_append] at hread
  obtain rfl := Option.some.inj hread
  have hlength := (prefix_of_decodeChar? hd).length_le
  rw [String.length_utf8EncodeChar] at hlength
  omega

/-! ## Texts -/

theorem decodeFrom_skip (s t : List UInt8) : decodeFrom s.length (s ++ t) = decodeFrom 0 t := by
  induction s with
  | nil => rfl
  | cons byte s ih => rw [List.cons_append, List.length_cons, decodeFrom, ih]

theorem decodeIgnore_char (c : Char) (rest : List UInt8) :
    decodeIgnore (String.utf8EncodeChar c ++ rest) = c :: decodeIgnore rest := by
  have hread := decodeChar?_append c rest
  have hlength := String.length_utf8EncodeChar c
  obtain ⟨lead, tail, hencode, -, -⟩ := encodeChar_lead c
  rw [hencode, List.cons_append] at hread ⊢
  rw [hencode, List.length_cons] at hlength
  have htail : c.utf8Size - 1 = tail.length := by omega
  rw [decodeIgnore, decodeFrom, hread]
  dsimp only
  rw [htail, decodeFrom_skip, decodeIgnore]

/-- Bytes that lead no character are dropped. -/
theorem decodeIgnore_continuation {s : List UInt8} (h : ∀ byte ∈ s, ¬ byte.IsUTF8FirstByte)
    (t : List UInt8) : decodeIgnore (s ++ t) = decodeIgnore t := by
  induction s with
  | nil => rfl
  | cons byte s ih =>
    have hbyte := h byte List.mem_cons_self
    rw [List.cons_append, decodeIgnore, decodeFrom, decodeChar?_continuation hbyte]
    exact ih fun byte hmem => h byte (List.mem_cons_of_mem _ hmem)

theorem decodeIgnore_partial {c : Char} {part : List UInt8}
    (h : part <+: String.utf8EncodeChar c) (hshort : part.length < c.utf8Size) :
    decodeIgnore part = [] := by
  cases part with
  | nil => rfl
  | cons byte part =>
    obtain ⟨lead, rest, hencode, -, hrest⟩ := encodeChar_lead c
    have hpart : part <+: rest := by
      rw [hencode, List.cons_prefix_cons] at h
      exact h.2
    have hdropped := decodeIgnore_continuation
      (fun b hb => hrest b (hpart.subset hb)) ([] : List UInt8)
    rw [decodeIgnore, decodeFrom, decodeChar?_partial h hshort]
    rw [List.append_nil] at hdropped
    exact hdropped

theorem decodeIgnore_encode (t : Text) : decodeIgnore (encode t) = t := by
  induction t with
  | nil => rfl
  | cons c t ih =>
    show decodeIgnore (String.utf8EncodeChar c ++ encode t) = c :: t
    rw [decodeIgnore_char, ih]

/-- The whole characters up to a byte. -/
theorem decodeIgnore_take (t : Text) (k : ℕ) :
    ∃ a ≤ t.length, utf8Len (t.take a) ≤ k ∧ decodeIgnore ((encode t).take k) = t.take a := by
  induction t generalizing k with
  | nil => exact ⟨0, le_rfl, Nat.zero_le k, by simp [encode, decodeIgnore, decodeFrom]⟩
  | cons c t ih =>
    have hencode : encode (c :: t) = String.utf8EncodeChar c ++ encode t := rfl
    have hlength := String.length_utf8EncodeChar c
    by_cases hk : c.utf8Size ≤ k
    · obtain ⟨a, ha, hsize, hread⟩ := ih (k - c.utf8Size)
      refine ⟨a + 1, Nat.succ_le_succ ha, ?_, ?_⟩
      · rw [List.take_succ_cons, utf8Len_cons]
        omega
      · rw [hencode, List.take_append, hlength, List.take_of_length_le (hlength.trans_le hk),
          decodeIgnore_char, hread, List.take_succ_cons]
    · refine ⟨0, Nat.zero_le _, Nat.zero_le k, ?_⟩
      rw [hencode, List.take_append_of_le_length (by omega)]
      exact decodeIgnore_partial (List.take_prefix k _) (by rw [List.length_take]; omega)

/-- The whole characters from a byte on. -/
theorem decodeIgnore_drop (t : Text) (k : ℕ) (hk : k ≤ utf8Len t) :
    ∃ b ≤ t.length, k ≤ utf8Len (t.take b) ∧ decodeIgnore ((encode t).drop k) = t.drop b := by
  induction t generalizing k with
  | nil => exact ⟨0, le_rfl, hk, by simp [encode, decodeIgnore, decodeFrom]⟩
  | cons c t ih =>
    have hencode : encode (c :: t) = String.utf8EncodeChar c ++ encode t := rfl
    have hlength := String.length_utf8EncodeChar c
    rw [utf8Len_cons] at hk
    by_cases hlarge : c.utf8Size ≤ k
    · obtain ⟨b, hb, hsize, hread⟩ := ih (k - c.utf8Size) (by omega)
      refine ⟨b + 1, Nat.succ_le_succ hb, ?_, ?_⟩
      · rw [List.take_succ_cons, utf8Len_cons]
        omega
      · rw [hencode, List.drop_append, hlength, List.drop_of_length_le (hlength.trans_le hlarge),
          List.nil_append, hread, List.drop_succ_cons]
    · cases k with
      | zero => exact ⟨0, Nat.zero_le _, le_rfl, decodeIgnore_encode (c :: t)⟩
      | succ k =>
        obtain ⟨lead, rest, hlead, -, hrest⟩ := encodeChar_lead c
        rw [hlead, List.length_cons] at hlength
        refine ⟨1, Nat.succ_le_succ (Nat.zero_le _), ?_, ?_⟩
        · rw [List.take_succ_cons, utf8Len_cons]
          omega
        · rw [hencode, hlead, List.cons_append, List.drop_succ_cons,
            List.drop_append_of_le_length (by omega),
            decodeIgnore_continuation (fun b hb => hrest b (List.mem_of_mem_drop hb)),
            decodeIgnore_encode]
          rfl

end BetterHindsight
