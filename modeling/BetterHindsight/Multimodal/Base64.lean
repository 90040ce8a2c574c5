import BetterHindsight.Multimodal

/-! # Base64 read back

`b64decode` inverts `b64encode`, group by group. -/

namespace BetterHindsight
set_option autoImplicit false

theorem base64Value_digit (n : ℕ) : base64Value (base64Digit n) = some (n % 64) := by
  have h : ∀ m < 64, base64Value (base64Alphabet.getD m 'A') = some m := by decide +kernel
  exact h _ (Nat.mod_lt _ (by decide))

theorem base64Digit_ne (n : ℕ) : base64Digit n ≠ '=' := by
  have h : ∀ m < 64, base64Alphabet.getD m 'A' ≠ '=' := by decide +kernel
  exact h _ (Nat.mod_lt _ (by decide))

theorem ofNat_eq {n : ℕ} {a : UInt8} (h : n % 256 = a.toNat) : UInt8.ofNat n = a := by
  rw [← UInt8.toNat_inj, UInt8.toNat_ofNat', ← h]

/-- Three bytes come back from the four digits of their group. -/
theorem group_bytes (a b c : UInt8) :
    let n := a.toNat * 65536 + b.toNat * 256 + c.toNat
    let digits := ((n / 262144 % 64 * 64 + n / 4096 % 64) * 64 + n / 64 % 64) * 64 + n % 64
    UInt8.ofNat (digits / 65536) = a ∧ UInt8.ofNat (digits / 256) = b ∧ UInt8.ofNat digits = c := by
  have ha := a.toNat_lt
  have hb := b.toNat_lt
  have hc := c.toNat_lt
  refine ⟨ofNat_eq ?_, ofNat_eq ?_, ofNat_eq ?_⟩ <;> omega

theorem b64decode_group (a b c : UInt8) (rest : Text) :
    let n := a.toNat * 65536 + b.toNat * 256 + c.toNat
    b64decode (base64Digit (n / 262144) :: base64Digit (n / 4096) :: base64Digit (n / 64) ::
      base64Digit n :: rest) = (b64decode rest).map fun bytes => a :: b :: c :: bytes := by
  intro n
  obtain ⟨hfirst, hsecond, hthird⟩ := group_bytes a b c
  rw [b64decode]
  simp only [base64Value_digit, base64Digit_ne, false_and, if_false]
  cases b64decode rest with
  | none => rfl
  | some bytes => simp only [Option.map_some, n, hfirst, hsecond, hthird]

/-- **Decoding inverts encoding.** -/
theorem b64decode_b64encode (raw : List UInt8) : b64decode (b64encode raw) = some raw := by
  fun_induction b64encode raw with
  | case1 => rfl
  | case2 a n =>
    have ha := a.toNat_lt
    have hbyte : UInt8.ofNat ((n / 262144 % 64 * 64 + n / 4096 % 64) / 16) = a := ofNat_eq (by omega)
    rw [b64decode]
    simp only [base64Value_digit, and_self, if_true, hbyte]
  | case3 a b n =>
    have ha := a.toNat_lt
    have hb := b.toNat_lt
    have hfirst : UInt8.ofNat (((n / 262144 % 64 * 64 + n / 4096 % 64) * 64 + n / 64 % 64) / 1024) =
        a := ofNat_eq (by omega)
    have hsecond : UInt8.ofNat (((n / 262144 % 64 * 64 + n / 4096 % 64) * 64 + n / 64 % 64) / 4) =
        b := ofNat_eq (by omega)
    rw [b64decode]
    simp only [base64Value_digit, base64Digit_ne, false_and, if_false, and_self, if_true, hfirst,
      hsecond]
  | case4 a b c rest n ih => rw [b64decode_group, ih, Option.map_some]

theorem b64encode_injective {raw raw' : List UInt8} (h : b64encode raw = b64encode raw') :
    raw = raw' := by
  have hdecode := b64decode_b64encode raw
  rw [h, b64decode_b64encode, Option.some_inj] at hdecode
  exact hdecode.symm

end BetterHindsight
