import Mathlib
import ContractHost.Address

/-!
# Words as integers

A string of `n` bytes writes a number below `256 ^ n` (`FixedBytes.toNat_lt`), and no other string of
`n` bytes writes the same: byte by byte, such strings are ordered as their numbers are
(`FixedBytes.compare_toNat`). So nothing is lost where a word is read as a 256-bit integer
(`Word.toNat_toUInt256`), nor where it is written as one (`Word.toNat_ofUInt256`). The carry that
passes through the bytes of a word adds one to its number (`Word.toNat_next`), and the zeros in front
of an address add nothing (`Address.compare_toWord`).
-/

namespace ContractHost

namespace Bytes

theorem toNatBE_lt (bs : Bytes) : bs.toNatBE < 256 ^ bs.length := by
  induction bs using List.reverseRecOn with
  | nil => exact Nat.one_pos
  | append_singleton bs b ih =>
    have digit := b.toNat_lt
    rw [toNatBE_snoc, List.length_append, List.length_singleton, pow_succ]
    omega

theorem toNatBE_cons (b : UInt8) (bs : Bytes) :
    toNatBE (b :: bs) = b.toNat * 256 ^ bs.length + toNatBE bs := by
  induction bs using List.reverseRecOn with
  | nil => exact (Nat.zero_add _).trans (Nat.mul_one _).symm
  | append_singleton bs c ih =>
    rw [← List.cons_append, toNatBE_snoc, ih, toNatBE_snoc, List.length_append,
      List.length_singleton, pow_succ]
    ring

theorem toNatBE_reverse (bs : Bytes) : toNatBE bs.reverse = toNatLE bs := by
  induction bs with
  | nil => rfl
  | cons b bs ih =>
    rw [List.reverse_cons, toNatBE_snoc, ih, toNatLE]
    ring

theorem compare_eq_toNat (b c : UInt8) : compare b c = compare b.toNat c.toNat := by
  show compareOfLessAndEq b c = compareOfLessAndEq b.toNat c.toNat
  simp only [compareOfLessAndEq, UInt8.lt_iff_toNat_lt, UInt8.toNat_inj]

/-- The first difference decides between the numbers too, since all digits behind it come to less than
one of its own. -/
theorem compare_toNatBE {bs cs : Bytes} (length : bs.length = cs.length) :
    compare bs.toNatBE cs.toNatBE = compare bs cs := by
  induction bs generalizing cs with
  | nil =>
    obtain rfl := List.length_eq_zero_iff.1 length.symm
    rfl
  | cons b bs ih =>
    obtain ⟨c, cs, rfl⟩ := List.exists_cons_of_length_eq_add_one length.symm
    have rest := Nat.succ.inj length
    have digits := toNatBE_lt bs
    have digits' := toNatBE_lt cs
    rw [List.compare_cons_cons, compare_eq_toNat, ← ih rest, toNatBE_cons, toNatBE_cons, ← rest]
    rw [← rest] at digits'
    rcases Nat.lt_trichotomy b.toNat c.toNat with less | same | more
    · have unit := Nat.mul_le_mul_right (256 ^ bs.length) less
      rw [Nat.succ_mul] at unit
      rw [Nat.compare_eq_lt.2 less, Ordering.lt_then, Nat.compare_eq_lt]
      omega
    · rw [same, Nat.compare_eq_eq.2 rfl, Ordering.eq_then, Nat.compare_eq_ite_lt,
        Nat.compare_eq_ite_lt]
      simp only [Nat.add_lt_add_iff_left]
    · have unit := Nat.mul_le_mul_right (256 ^ bs.length) more
      rw [Nat.succ_mul] at unit
      rw [Nat.compare_eq_gt.2 more, Ordering.gt_then, Nat.compare_eq_gt]
      omega

/-- The carry is dropped only out of the last byte. -/
theorem toNatLE_incrementLE (bs : Bytes) :
    toNatLE (incrementLE bs) = (toNatLE bs + 1) % 256 ^ bs.length := by
  induction bs with
  | nil => exact (Nat.mod_one _).symm
  | cons b bs ih =>
    have bound := b.toNat_lt
    have digits := (toNatBE_reverse bs).symm.trans_lt (toNatBE_lt bs.reverse)
    rw [List.length_reverse] at digits
    have zero : (0 : UInt8).toNat = 0 := rfl
    have wraps : (b + 1).toNat = (b.toNat + 1) % 256 := UInt8.toNat_add b 1
    rw [incrementLE, List.length_cons, pow_succ', toNatLE]
    by_cases full : b + 1 = 0
    · have last : b.toNat = 255 := by
        rw [full] at wraps
        omega
      rw [if_pos full, toNatLE, ih, last, ← Nat.mul_mod_mul_left]
      exact (Nat.zero_add _).trans (congrArg (· % _) (by ring))
    · have room : b.toNat + 1 < 256 := by
        by_contra none
        exact full (UInt8.toNat_inj.1 (wraps.trans (by omega)))
      rw [if_neg full, toNatLE, wraps, Nat.mod_eq_of_lt room, Nat.mod_eq_of_lt]
      · ring
      · omega

theorem compare_append_left (front bs cs : Bytes) :
    compare (front ++ bs) (front ++ cs) = compare bs cs := by
  induction front with
  | nil => rfl
  | cons b front ih =>
    have same : compare b b = .eq := Std.ReflCmp.compare_self
    rw [List.cons_append, List.cons_append, List.compare_cons_cons, same, Ordering.eq_then, ih]

end Bytes

namespace FixedBytes

variable {n : Nat}

theorem toNat_lt (a : FixedBytes n) : a.toNat < 256 ^ n := by
  have bound := Bytes.toNatBE_lt a.toList
  rwa [a.length_toList] at bound

theorem toNat_ofNat {value : Nat} (fits : value < 256 ^ n) :
    (ofNat value : FixedBytes n).toNat = value :=
  (Bytes.toNatBE_ofNatBE n value).trans (Nat.mod_eq_of_lt fits)

theorem compare_toNat (a b : FixedBytes n) : compare a.toNat b.toNat = compare a b :=
  Bytes.compare_toNatBE (a.length_toList.trans b.length_toList.symm)

theorem toNat_injective : Function.Injective (toNat : FixedBytes n → Nat) := fun a b same =>
  Std.LawfulEqOrd.eq_of_compare ((compare_toNat a b).symm.trans (Nat.compare_eq_eq.2 same))

end FixedBytes

namespace Word

theorem pow_bytes : 256 ^ 32 = 2 ^ 256 := by norm_num

theorem toNat_toUInt256 (w : Word) : w.toUInt256.toNat = w.toNat := by
  have fits : w.toNat < 2 ^ 256 := pow_bytes ▸ w.toNat_lt
  rw [toUInt256, BitVec.toNat_ofNat, Nat.mod_eq_of_lt fits]

theorem toNat_ofUInt256 (value : UInt256) : (ofUInt256 value).toNat = value.toNat :=
  FixedBytes.toNat_ofNat (pow_bytes ▸ value.isLt)

theorem toUInt256_ofUInt256 (value : UInt256) : toUInt256 (ofUInt256 value) = value := by
  apply BitVec.eq_of_toNat_eq
  rw [toNat_toUInt256, toNat_ofUInt256]

theorem ofUInt256_toUInt256 (w : Word) : ofUInt256 (toUInt256 w) = w := by
  apply FixedBytes.toNat_injective
  rw [toNat_ofUInt256, toNat_toUInt256]

theorem compare_toUInt256 (v w : Word) :
    compare v.toUInt256.toNat w.toUInt256.toNat = compare v w := by
  rw [toNat_toUInt256, toNat_toUInt256, FixedBytes.compare_toNat]

theorem toNat_next (w : Word) : w.next.toNat = (w.toNat + 1) % 2 ^ 256 := by
  show Bytes.toNatBE (Bytes.incrementLE w.toList.reverse).reverse = _
  rw [Bytes.toNatBE_reverse, Bytes.toNatLE_incrementLE, ← Bytes.toNatBE_reverse,
    List.reverse_reverse, List.length_reverse, w.length_toList, pow_bytes]
  rfl

theorem toUInt256_next (w : Word) : w.next.toUInt256 = w.toUInt256 + 1 := by
  apply BitVec.eq_of_toNat_eq
  rw [toNat_toUInt256, toNat_next, BitVec.toNat_add, toNat_toUInt256]
  rfl

theorem toUInt256_iterate_next (k : Nat) (w : Word) :
    (next^[k] w).toUInt256 = w.toUInt256 + BitVec.ofNat 256 k := by
  induction k with
  | zero => exact (BitVec.add_zero _).symm
  | succ k ih =>
    rw [Function.iterate_succ_apply', toUInt256_next, ih, BitVec.add_assoc, BitVec.ofNat_add]
    rfl

theorem bijective_next : Function.Bijective next := by
  -- The inverse subtracts one from the integer.
  refine Function.bijective_iff_has_inverse.2 ⟨fun w => ofUInt256 (w.toUInt256 - 1), ?_, ?_⟩
  · intro w
    show ofUInt256 (w.next.toUInt256 - 1) = w
    rw [toUInt256_next, BitVec.add_sub_cancel, ofUInt256_toUInt256]
  · intro w
    rw [← ofUInt256_toUInt256 (next _), toUInt256_next, toUInt256_ofUInt256, BitVec.sub_add_cancel,
      ofUInt256_toUInt256]

end Word

namespace Address

theorem compare_toWord (a b : Address) : compare a.toWord b.toWord = compare a b :=
  Bytes.compare_append_left (List.replicate 12 0) a.toList b.toList

/-- The words of addresses are those that start with twelve zeros. -/
theorem range_toWord : Set.range toWord = {w | w.toList.take 12 = List.replicate 12 0} := by
  ext w
  constructor
  · rintro ⟨a, rfl⟩
    exact List.take_left' List.length_replicate
  · intro zeros
    refine ⟨ofWord w, FixedBytes.ext ?_⟩
    show List.replicate 12 0 ++ w.toList.drop 12 = w.toList
    rw [← zeros, List.take_append_drop]

end Address

/-- Words are the integers below `2 ^ 256`, in their order: going to the next word adds one and leaves
nothing out, and reading and writing words as integers undo each other. Addresses are, in their order,
the words that start with twelve zeros. -/
theorem words_count_in_order :
    (∀ w : Word, w.next.toUInt256.toNat = (w.toUInt256.toNat + 1) % 2 ^ 256) ∧
      Function.Bijective Word.next ∧
      (∀ (k : Nat) (w : Word),
        (Word.next^[k] w).toUInt256.toNat = (w.toUInt256.toNat + k) % 2 ^ 256) ∧
      (∀ w : Word, Word.ofUInt256 w.toUInt256 = w) ∧
      (∀ value : UInt256, (Word.ofUInt256 value).toUInt256 = value) ∧
      (∀ v w : Word, compare v w = compare v.toUInt256.toNat w.toUInt256.toNat) ∧
      (∀ m n : UInt256, compare (Word.ofUInt256 m) (Word.ofUInt256 n) = compare m.toNat n.toNat) ∧
      (∀ a b : Address, compare a.toWord b.toWord = compare a b) ∧
      Function.Injective Address.toWord ∧
      (∀ a : Address, Address.ofWord a.toWord = a) ∧
      Set.range Address.toWord = {w | w.toList.take 12 = List.replicate 12 0} := by
  refine ⟨fun w => ?_, Word.bijective_next, fun k w => ?_, Word.ofUInt256_toUInt256,
    Word.toUInt256_ofUInt256, fun v w => (Word.compare_toUInt256 v w).symm, fun m n => ?_,
    Address.compare_toWord, Function.LeftInverse.injective Address.ofWord_toWord,
    Address.ofWord_toWord, Address.range_toWord⟩
  · rw [Word.toUInt256_next, BitVec.toNat_add]
    rfl
  · rw [Word.toUInt256_iterate_next, BitVec.toNat_add, BitVec.toNat_ofNat, Nat.add_mod_mod]
  · rw [← Word.compare_toUInt256, Word.toUInt256_ofUInt256, Word.toUInt256_ofUInt256]

end ContractHost
