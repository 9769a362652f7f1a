import Mathlib
import ContractHost.Store.Chunk

/-!
# The words of a value

`encode` by the length of the value: a value of at most 31 bytes is its last word, a longer one is a
link followed by the words of what is left (`encode_of_le`, `encode_of_lt`); everything else here is
an induction along these two equations (`chunks_induction`).

The words of a value are a `Chain`, every word but the last going on, and reading them off the front
of any list gives the value back and leaves the rest alone (`decode_encode`). None of them is zero
unless the value is empty, and there is one for every 31 bytes begun (`length_encode`).
-/

namespace ContractHost.Store

theorem chunkLength_eq : chunkLength = 31 := rfl

/-! ## Single words -/

theorem toList_takeList {n : Nat} {bs : Bytes} (h : bs.length = n) :
    (FixedBytes.takeList bs : FixedBytes n).toList = bs := by
  subst h
  simp [FixedBytes.takeList]

theorem toList_linkWord {chunk : Bytes} (h : chunk.length = 31) :
    (linkWord chunk).toList = 1 :: chunk :=
  toList_takeList (by simp [h])

theorem toList_lastWord {chunk : Bytes} (h : chunk.length ≤ 31) :
    (lastWord chunk).toList =
      UInt8.ofNat (2 * chunk.length) :: List.replicate (31 - chunk.length) 0 ++ chunk := by
  refine toList_takeList ?_
  simp only [chunkLength_eq, List.cons_append, List.length_cons, List.length_append,
    List.length_replicate]
  omega

theorem metadata_linkWord {chunk : Bytes} (h : chunk.length = 31) :
    metadata (linkWord chunk) = 1 := by
  rw [metadata, toList_linkWord h]
  rfl

theorem metadata_lastWord {chunk : Bytes} (h : chunk.length ≤ 31) :
    metadata (lastWord chunk) = UInt8.ofNat (2 * chunk.length) := by
  rw [metadata, toList_lastWord h]
  rfl

theorem toNat_metadata_lastWord {chunk : Bytes} (h : chunk.length ≤ 31) :
    (metadata (lastWord chunk)).toNat = 2 * chunk.length := by
  rw [metadata_lastWord h, UInt8.toNat_ofNat']
  omega

theorem continues_iff (word : Word) : continues word = true ↔ (metadata word).toNat % 2 = 1 := by
  rw [continues, decide_eq_true_iff, ← UInt8.toNat_inj]
  simp

theorem continues_linkWord {chunk : Bytes} (h : chunk.length = 31) :
    continues (linkWord chunk) = true := by
  rw [continues_iff, metadata_linkWord h]
  rfl

theorem continues_lastWord {chunk : Bytes} (h : chunk.length ≤ 31) :
    continues (lastWord chunk) = false := by
  rw [← Bool.not_eq_true, continues_iff, toNat_metadata_lastWord h]
  omega

theorem chunk?_linkWord {chunk : Bytes} (h : chunk.length = 31) :
    chunk? (linkWord chunk) = some chunk := by
  rw [chunk?, continues_linkWord h, toList_linkWord h]
  rfl

theorem chunk?_lastWord {chunk : Bytes} (h : chunk.length ≤ 31) :
    chunk? (lastWord chunk) = some chunk := by
  have half : (metadata (lastWord chunk) / 2).toNat = chunk.length := by
    rw [UInt8.toNat_div, toNat_metadata_lastWord h]
    simp
  have behind : (UInt8.ofNat (2 * chunk.length) :: List.replicate (31 - chunk.length) 0).length =
      32 - chunk.length := by
    simp only [List.length_cons, List.length_replicate]
    omega
  simp only [chunk?, continues_lastWord h, half, chunkLength_eq, if_pos h, toList_lastWord h,
    Bool.false_eq_true, if_false]
  rw [List.drop_left' behind]

@[simp] theorem metadata_zero : metadata .zero = 0 := rfl

@[simp] theorem continues_zero : continues .zero = false := rfl

theorem ne_zero_of_metadata {word : Word} (h : metadata word ≠ 0) : word ≠ .zero := by
  rintro rfl
  exact h metadata_zero

/-- A word that goes on is not zero, so a chain never runs through cleared cells. -/
theorem ne_zero_of_continues {word : Word} (h : continues word = true) : word ≠ .zero := by
  rintro rfl
  cases h

theorem isZero_iff (word : Word) : word.isZero = true ↔ word = .zero := by
  simp [FixedBytes.isZero]

/-! ## The words of a value -/

/-- More room than a value has bytes changes nothing about its words. -/
theorem encodeWithin_eq {value : Bytes} {m n : Nat} (hm : value.length ≤ m)
    (hn : value.length ≤ n) : encodeWithin m value = encodeWithin n value := by
  induction m generalizing value n with
  | zero =>
    have short : value.length ≤ chunkLength := by omega
    cases n with
    | zero => rfl
    | succ n => rw [encodeWithin, encodeWithin, if_pos short]
  | succ m ih =>
    cases n with
    | zero =>
      have short : value.length ≤ chunkLength := by omega
      rw [encodeWithin, encodeWithin, if_pos short]
    | succ n =>
      have less : (value.drop chunkLength).length = value.length - 31 := List.length_drop
      rw [encodeWithin, encodeWithin, ih (n := n) (by omega) (by omega)]

theorem encode_of_le {value : Bytes} (h : value.length ≤ 31) : encode value = [lastWord value] := by
  rw [encode]
  cases value.length with
  | zero => rfl
  | succ n =>
    rw [← chunkLength_eq] at h
    rw [encodeWithin, if_pos h]

theorem encode_of_lt {value : Bytes} (h : 31 < value.length) :
    encode value = linkWord (value.take 31) :: encode (value.drop 31) := by
  obtain ⟨n, hn⟩ : ∃ n, value.length = n + 1 := ⟨value.length - 1, by omega⟩
  have less : (value.drop 31).length = value.length - 31 := List.length_drop
  rw [encode, hn, encodeWithin, if_neg (by rw [chunkLength_eq]; omega), encode, chunkLength_eq]
  congr 1
  exact encodeWithin_eq (by omega) (Nat.le_refl _)

/-- Values by the number of their words. -/
theorem chunks_induction {motive : Bytes → Prop}
    (short : ∀ value : Bytes, value.length ≤ 31 → motive value)
    (long : ∀ value : Bytes, 31 < value.length → motive (value.drop 31) → motive value)
    (value : Bytes) : motive value := by
  induction h : value.length using Nat.strongRecOn generalizing value with
  | ind n ih =>
    subst h
    by_cases le : value.length ≤ 31
    · exact short value le
    · refine long value (by omega) (ih _ ?_ _ rfl)
      rw [List.length_drop]
      omega

theorem length_take_chunk {value : Bytes} (h : 31 < value.length) :
    (value.take 31).length = 31 := by
  rw [List.length_take]
  omega

theorem length_encode (value : Bytes) :
    (encode value).length = max 1 ((value.length + 30) / 31) := by
  induction value using chunks_induction with
  | short value h =>
    rw [encode_of_le h, List.length_singleton]
    omega
  | long value h ih =>
    rw [encode_of_lt h, List.length_cons, ih, List.length_drop]
    omega

theorem length_encode_pos (value : Bytes) : 0 < (encode value).length := by
  rw [length_encode]
  omega

/-- One word for every 31 bytes begun. -/
theorem length_encode_of_ne_nil {value : Bytes} (h : value ≠ []) :
    (encode value).length = (value.length + 30) / 31 := by
  have pos := List.length_pos_iff.2 h
  rw [length_encode]
  omega

theorem decode_encode (value : Bytes) (rest : List Word) :
    decode (encode value ++ rest) = some (value, rest) := by
  induction value using chunks_induction with
  | short value h =>
    rw [encode_of_le h, List.singleton_append, decode, chunk?_lastWord h, continues_lastWord h]
    rfl
  | long value h ih =>
    have full := length_take_chunk h
    rw [encode_of_lt h, List.cons_append, decode, chunk?_linkWord full, continues_linkWord full, ih]
    simp [List.take_append_drop]

theorem encode_ne_zero {value : Bytes} (h : value ≠ []) : ∀ word ∈ encode value, word ≠ .zero := by
  induction value using chunks_induction with
  | short value short =>
    have pos := List.length_pos_iff.2 h
    rw [encode_of_le short]
    intro word member
    rw [List.mem_singleton] at member
    subst member
    apply ne_zero_of_metadata
    intro zero
    have twice := toNat_metadata_lastWord short
    rw [zero, UInt8.toNat_zero] at twice
    omega
  | long value long ih =>
    rw [encode_of_lt long]
    intro word member
    rcases List.mem_cons.1 member with here | later
    · subst here
      exact ne_zero_of_continues (continues_linkWord (length_take_chunk long))
    · refine ih (fun nil => ?_) word later
      have less := congrArg List.length nil
      rw [List.length_drop, List.length_nil] at less
      omega

/-! ## Chains of words -/

/-- Every word but the last goes on. -/
inductive Chain : List Word → Prop where
  | last {word : Word} (ends : continues word = false) : Chain [word]
  | link {word : Word} {words : List Word} (goesOn : continues word = true) (rest : Chain words) :
      Chain (word :: words)

theorem chain_encode (value : Bytes) : Chain (encode value) := by
  induction value using chunks_induction with
  | short value h =>
    rw [encode_of_le h]
    exact .last (continues_lastWord h)
  | long value h ih =>
    rw [encode_of_lt h]
    exact .link (continues_linkWord (length_take_chunk h)) ih

end ContractHost.Store
