/-!
# Gas

Gas is counted in 64 bits. A cost that does not fit is the largest amount of gas instead: sums and
products are clamped, never reduced modulo `2 ^ 64`. `toNat_addClamped` and `toNat_mulClamped` state
this against the natural numbers.
-/

namespace ContractHost

/-- An amount of gas. -/
abbrev Gas := UInt64

namespace Gas

/-- The largest amount of gas. -/
def largest : Gas := 0xFFFFFFFFFFFFFFFF

/-- The sum, or the largest amount when the sum does not fit. -/
def addClamped (a b : Gas) : Gas := if a + b < a then largest else a + b

/-- The product, or the largest amount when the product does not fit. -/
def mulClamped (a b : Gas) : Gas := if a ≠ 0 ∧ largest / a < b then largest else a * b

/-- A natural number, or the largest amount when it does not fit. -/
def ofNatClamped (n : Nat) : Gas := 
  if n ≤ largest.toNat then UInt64.ofNat n else largest

theorem toNat_largest : largest.toNat = 0xFFFFFFFFFFFFFFFF := rfl

theorem toNat_addClamped (a b : Gas) :
    (addClamped a b).toNat = min (a.toNat + b.toNat) largest.toNat := by
  have ha := a.toNat_lt
  have hb := b.toNat_lt
  rw [addClamped]
  split
  · rename_i h
    rw [UInt64.lt_iff_toNat_lt, UInt64.toNat_add] at h
    rw [toNat_largest]
    omega
  · rename_i h
    rw [UInt64.lt_iff_toNat_lt, UInt64.toNat_add] at h
    rw [UInt64.toNat_add, toNat_largest]
    omega

theorem pos_of_ne_zero {a : Gas} (h : a ≠ 0) : 0 < a.toNat :=
  Nat.pos_of_ne_zero fun e => h (UInt64.toNat_inj.1 (by simpa using e))

theorem toNat_mulClamped (a b : Gas) :
    (mulClamped a b).toNat = min (a.toNat * b.toNat) largest.toNat := by
  have hb := b.toNat_lt
  rw [mulClamped]
  split
  · rename_i h
    obtain ⟨hz, h⟩ := h
    have ha := pos_of_ne_zero hz
    rw [UInt64.lt_iff_toNat_lt, UInt64.toNat_div, Nat.div_lt_iff_lt_mul ha, toNat_largest] at h
    rw [toNat_largest, Nat.mul_comm]
    omega
  · rename_i h
    by_cases hz : a = 0
    · simp [hz]
    · have ha := pos_of_ne_zero hz
      have h : ¬ largest / a < b := fun lt => h ⟨hz, lt⟩
      rw [UInt64.lt_iff_toNat_lt, UInt64.toNat_div, Nat.div_lt_iff_lt_mul ha, toNat_largest] at h
      rw [UInt64.toNat_mul, Nat.mul_comm a.toNat, toNat_largest]
      omega

theorem toNat_sub {a b : Gas} (le : b ≤ a) : (a - b).toNat = a.toNat - b.toNat :=
  UInt64.toNat_sub_of_le a b le

theorem sub_zero (a : Gas) : a - 0 = a := by
  rw [← UInt64.toNat_inj, toNat_sub UInt64.zero_le]
  rfl

theorem toNat_ofNatClamped (n : Nat) : (ofNatClamped n).toNat = min n largest.toNat := by
  rw [ofNatClamped]
  split
  · rename_i h
    rw [UInt64.toNat_ofNat']
    rw [toNat_largest] at h ⊢
    omega
  · omega

end Gas

end ContractHost
