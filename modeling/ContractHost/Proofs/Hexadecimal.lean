import Mathlib
import ContractHost.Bytes.Fixed

/-!
# The grammar of hexadecimal text

Of a text without one leading `0x`, what is read is its bytes in UTF-8. A character that is no digit
has a byte that is none (`Hex.forall_isDigitCode_iff`), so the text is read just if it consists of two
digits for each byte of the result, and the result shows these digits in lower case. Otherwise the
complaint is about the first of three things that is wrong: an odd number of bytes, a byte that is no
digit, a number of digits other than the right one (`FixedBytes.FollowsGrammar`).
-/

namespace ContractHost

namespace Hex

/-- A hexadecimal digit of either case. -/
def IsDigit (c : Char) : Prop := '0' ≤ c ∧ c ≤ '9' ∨ 'a' ≤ c ∧ c ≤ 'f' ∨ 'A' ≤ c ∧ c ≤ 'F'

instance (c : Char) : Decidable (IsDigit c) := inferInstanceAs (Decidable (_ ∨ _ ∨ _))

/-- The byte is the code of a digit. -/
def IsDigitCode (byte : UInt8) : Prop := IsDigit (Char.ofNat byte.toNat)

instance (byte : UInt8) : Decidable (IsDigitCode byte) := inferInstanceAs (Decidable (IsDigit _))

/-- The bytes of characters in UTF-8. -/
def utf8 (t : List Char) : Bytes := t.flatMap String.utf8EncodeChar

/-! ## Digits and their codes -/

theorem isDigit_iff (c : Char) :
    IsDigit c ↔ 48 ≤ c.toNat ∧ c.toNat ≤ 57 ∨ 97 ≤ c.toNat ∧ c.toNat ≤ 102 ∨
      65 ≤ c.toNat ∧ c.toNat ≤ 70 := by
  simp only [IsDigit, Char.le_def, UInt32.le_iff_toNat_le]
  exact Iff.rfl

theorem isDigitCode_iff_toNat (byte : UInt8) :
    IsDigitCode byte ↔ 48 ≤ byte.toNat ∧ byte.toNat ≤ 57 ∨ 97 ≤ byte.toNat ∧ byte.toNat ≤ 102 ∨
      65 ≤ byte.toNat ∧ byte.toNat ≤ 70 := by
  have bound := byte.toNat_lt
  have valid : byte.toNat.isValidChar := .inl (by omega)
  rw [IsDigitCode, isDigit_iff, Char.toNat_ofNat, if_pos valid]

theorem digitValue?_eq_none_iff (byte : UInt8) : digitValue? byte = none ↔ ¬ IsDigitCode byte := by
  rw [isDigitCode_iff_toNat]
  simp only [digitValue?, UInt8.le_iff_toNat_le]
  split_ifs with low lower upper
  · exact iff_of_false nofun fun none => none (.inl low)
  · exact iff_of_false nofun fun none => none (.inr (.inl lower))
  · exact iff_of_false nofun fun none => none (.inr (.inr upper))
  · exact iff_of_true rfl fun digit => digit.elim low fun letter => letter.elim lower upper

theorem lt_128_of_isDigit {c : Char} (digit : IsDigit c) : c.toNat < 128 := by
  rw [isDigit_iff] at digit
  omega

theorem utf8EncodeChar_of_lt {c : Char} (ascii : c.toNat < 128) :
    String.utf8EncodeChar c = [c.toUInt8] :=
  String.utf8EncodeChar_eq_singleton
    (Char.utf8Size_eq_one_iff.2 (UInt32.le_iff_toNat_le.2 (Nat.le_of_lt_succ ascii)))

theorem toNat_toUInt8 {c : Char} (ascii : c.toNat < 128) : c.toUInt8.toNat = c.toNat :=
  Nat.mod_eq_of_lt (show c.toNat < 256 by omega)

theorem isDigitCode_toUInt8 {c : Char} (ascii : c.toNat < 128) :
    IsDigitCode c.toUInt8 ↔ IsDigit c := by
  rw [IsDigitCode, toNat_toUInt8 ascii, Char.ofNat_toNat]

/-- Beyond ASCII the first byte is at least 128. -/
theorem exists_mem_utf8EncodeChar {c : Char} (beyond : 128 ≤ c.toNat) :
    ∃ byte ∈ String.utf8EncodeChar c, 128 ≤ byte.toNat := by
  have scalar : c.toNat < 0x110000 := by
    rcases c.valid with low | high
    · exact low.trans (by decide)
    · exact high.2
  have single : ¬ c.val.toNat ≤ 127 := Nat.not_le.2 beyond
  simp only [String.utf8EncodeChar, if_neg single]
  split_ifs
  · exact ⟨_, List.mem_cons_self, by simp only [UInt8.toNat_ofNat']; omega⟩
  · exact ⟨_, List.mem_cons_self, by simp only [UInt8.toNat_ofNat']; omega⟩
  · exact ⟨_, List.mem_cons_self, by simp only [UInt8.toNat_ofNat']; omega⟩

theorem forall_isDigitCode_iff (t : List Char) :
    (∀ byte ∈ utf8 t, IsDigitCode byte) ↔ ∀ c ∈ t, IsDigit c := by
  simp only [utf8, List.mem_flatMap, forall_exists_index, and_imp]
  constructor
  · intro codes c member
    by_cases ascii : c.toNat < 128
    · have byte := utf8EncodeChar_of_lt ascii ▸ List.mem_singleton_self c.toUInt8
      exact (isDigitCode_toUInt8 ascii).1 (codes _ c member byte)
    · obtain ⟨byte, inside, high⟩ := exists_mem_utf8EncodeChar (Nat.not_lt.1 ascii)
      have low := (isDigitCode_iff_toNat byte).1 (codes byte c member inside)
      omega
  · intro digits byte c member inside
    have ascii := lt_128_of_isDigit (digits c member)
    rw [utf8EncodeChar_of_lt ascii, List.mem_singleton] at inside
    exact inside ▸ (isDigitCode_toUInt8 ascii).2 (digits c member)

theorem utf8_of_digits {t : List Char} (digits : ∀ c ∈ t, IsDigit c) :
    utf8 t = t.map Char.toUInt8 := by
  rw [utf8, List.map_eq_flatMap]
  exact List.flatMap_congr fun c member => utf8EncodeChar_of_lt (lt_128_of_isDigit (digits c member))

/-- A digit of either case has a value, which is written as the digit in lower case. -/
theorem digit_of_isDigit {c : Char} (isDigit : IsDigit c) :
    ∃ value, digitValue? c.toUInt8 = some value ∧ value < 16 ∧ digit value = c.toLower := by
  have small : ∀ n < 128, IsDigit (Char.ofNat n) →
      (digitValue? (Char.ofNat n).toUInt8).any (· < 16) ∧
        (digitValue? (Char.ofNat n).toUInt8).map digit = some (Char.ofNat n).toLower := by
    decide
  have both := small c.toNat (lt_128_of_isDigit isDigit)
  rw [Char.ofNat_toNat] at both
  obtain ⟨bounded, lower⟩ := both isDigit
  obtain ⟨value, found, shown⟩ := Option.map_eq_some_iff.1 lower
  rw [found] at bounded
  exact ⟨value, found, of_decide_eq_true bounded, shown⟩

/-! ## Bytes and their digits -/

theorem digits_of_lt {high low : UInt8} (hh : high < 16) (hl : low < 16) :
    digits (high * 16 + low) = [digit high, digit low] := by
  have sixteen : (16 : UInt8).toNat = 16 := rfl
  rw [UInt8.lt_iff_toNat_lt, sixteen] at hh hl
  have number : (high * 16 + low).toNat = high.toNat * 16 + low.toNat := by
    rw [UInt8.toNat_add, UInt8.toNat_mul, sixteen]
    omega
  have first : (high * 16 + low) / 16 = high := by
    rw [← UInt8.toNat_inj, UInt8.toNat_div, number, sixteen]
    omega
  have second : (high * 16 + low) % 16 = low := by
    rw [← UInt8.toNat_inj, UInt8.toNat_mod, number, sixteen]
    omega
  rw [digits, first, second]

theorem halves_lt (byte : UInt8) : byte / 16 < 16 ∧ byte % 16 < 16 := by
  have bound := byte.toNat_lt
  have sixteen : (16 : UInt8).toNat = 16 := rfl
  rw [UInt8.lt_iff_toNat_lt, UInt8.lt_iff_toNat_lt, UInt8.toNat_div, UInt8.toNat_mod, sixteen]
  omega

theorem halves_add (byte : UInt8) : byte / 16 * 16 + byte % 16 = byte := by
  have bound := byte.toNat_lt
  have sixteen : (16 : UInt8).toNat = 16 := rfl
  rw [← UInt8.toNat_inj, UInt8.toNat_add, UInt8.toNat_mul, UInt8.toNat_div, UInt8.toNat_mod, sixteen]
  omega

/-- Digits are written in such a way that they read back. -/
theorem digit_spec {value : UInt8} (small : value < 16) :
    IsDigit (digit value) ∧ digitValue? (digit value).toUInt8 = some value := by
  have each : ∀ n < 16, IsDigit (digit (UInt8.ofNat n)) ∧
      digitValue? (digit (UInt8.ofNat n)).toUInt8 = some (UInt8.ofNat n) := by decide
  have spec := each value.toNat (UInt8.lt_iff_toNat_lt.1 small)
  rwa [UInt8.ofNat_toNat] at spec

theorem forall_isDigit_digits (bs : Bytes) : ∀ c ∈ bs.flatMap digits, IsDigit c := by
  intro c member
  obtain ⟨byte, -, inside⟩ := List.mem_flatMap.1 member
  rcases List.mem_pair.1 inside with rfl | rfl
  · exact (digit_spec (halves_lt byte).1).1
  · exact (digit_spec (halves_lt byte).2).1

@[simp] theorem length_flatMap_digits (bs : Bytes) : (bs.flatMap digits).length = 2 * bs.length := by
  induction bs with
  | nil => rfl
  | cons byte bs ih =>
    rw [List.flatMap_cons, List.length_append, ih, List.length_cons, Nat.mul_succ]
    exact Nat.add_comm 2 _

/-! ## Reading pairs of digits -/

theorem digitAt_of_some {byte value : UInt8} (found : digitValue? byte = some value) (index : Nat) :
    digitAt byte index = .ok value := by
  rw [digitAt, found]

theorem digitAt_of_bad {byte : UInt8} (bad : ¬ IsDigitCode byte) (index : Nat) :
    digitAt byte index = .error (.badDigit byte index) := by
  rw [digitAt, (digitValue?_eq_none_iff byte).2 bad]

theorem exists_digitAt {byte : UInt8} (digit : IsDigitCode byte) (index : Nat) :
    ∃ value, digitAt byte index = .ok value := by
  obtain ⟨value, found⟩ := Option.ne_none_iff_exists'.1
    fun none => (digitValue?_eq_none_iff byte).1 none digit
  exact ⟨value, digitAt_of_some found index⟩

theorem decodePairs_cons {high low h l : UInt8} {index : Nat} (readsHigh : digitAt high index = .ok h)
    (readsLow : digitAt low (index + 1) = .ok l) (rest : Bytes) :
    decodePairs index (high :: low :: rest) =
      (decodePairs (index + 2) rest).map ((h * 16 + l) :: ·) := by
  rw [decodePairs, readsHigh, readsLow]
  cases decodePairs (index + 2) rest with
  | error cause => rfl
  | ok bs => rfl

theorem decodePairs_digits (bs : Bytes) (index : Nat) :
    decodePairs index ((bs.flatMap digits).map Char.toUInt8) = .ok bs := by
  induction bs generalizing index with
  | nil => rfl
  | cons byte bs ih =>
    have high := (digit_spec (halves_lt byte).1).2
    have low := (digit_spec (halves_lt byte).2).2
    have read := decodePairs_cons (digitAt_of_some high index) (digitAt_of_some low (index + 1))
      ((bs.flatMap digits).map Char.toUInt8)
    rw [ih, halves_add] at read
    exact read

/-- Digits read as bytes that show them in lower case. -/
theorem decodePairs_of_digits {t : List Char} (even : t.length % 2 = 0) (hex : ∀ c ∈ t, IsDigit c)
    (index : Nat) :
    ∃ bs, decodePairs index (t.map Char.toUInt8) = .ok bs ∧
      bs.flatMap digits = t.map Char.toLower := by
  induction t using List.twoStepInduction generalizing index with
  | nil => exact ⟨[], rfl, rfl⟩
  | singleton c => cases even
  | cons_cons c d t ih _ =>
    obtain ⟨here, hex⟩ := List.forall_mem_cons.1 hex
    obtain ⟨next, hex⟩ := List.forall_mem_cons.1 hex
    obtain ⟨high, readsHigh, highBound, highShown⟩ := digit_of_isDigit here
    obtain ⟨low, readsLow, lowBound, lowShown⟩ := digit_of_isDigit next
    rw [List.length_cons, List.length_cons] at even
    obtain ⟨bs, reads, shown⟩ := ih (by omega) hex (index + 2)
    refine ⟨(high * 16 + low) :: bs, ?_, ?_⟩
    · rw [List.map_cons, List.map_cons, decodePairs_cons (digitAt_of_some readsHigh index)
        (digitAt_of_some readsLow (index + 1)), reads]
      rfl
    · rw [List.flatMap_cons, digits_of_lt highBound lowBound, shown, highShown, lowShown]
      rfl

/-- It is the first byte that is no digit that is named. -/
theorem decodePairs_of_bad {front back : Bytes} {byte : UInt8}
    (even : (front ++ byte :: back).length % 2 = 0) (hex : ∀ b ∈ front, IsDigitCode b)
    (bad : ¬ IsDigitCode byte) (index : Nat) :
    decodePairs index (front ++ byte :: back) = .error (.badDigit byte (index + front.length)) := by
  induction front using List.twoStepInduction generalizing index with
  | nil =>
    cases back with
    | nil => cases even
    | cons low back =>
      rw [List.nil_append, decodePairs, digitAt_of_bad bad]
      rfl
  | singleton high =>
    obtain ⟨h, readsHigh⟩ := exists_digitAt (List.forall_mem_singleton.1 hex) index
    rw [List.singleton_append, decodePairs, readsHigh, digitAt_of_bad bad]
    rfl
  | cons_cons high low front ih _ =>
    obtain ⟨here, hex⟩ := List.forall_mem_cons.1 hex
    obtain ⟨next, hex⟩ := List.forall_mem_cons.1 hex
    obtain ⟨h, readsHigh⟩ := exists_digitAt here index
    obtain ⟨l, readsLow⟩ := exists_digitAt next (index + 1)
    rw [List.cons_append, List.cons_append, List.length_cons, List.length_cons] at even
    have place : index + 2 + front.length = index + (front.length + 1 + 1) := by omega
    rw [List.cons_append, List.cons_append, decodePairs_cons readsHigh readsLow, ih (by omega) hex,
      place]
    rfl

/-- The byte is the first of a text that is no digit, and there are as many in front of it. -/
def FirstBad (t : List Char) (byte : UInt8) (index : Nat) : Prop :=
  ∃ front back, utf8 t = front ++ byte :: back ∧ front.length = index ∧
    (∀ b ∈ front, IsDigitCode b) ∧ ¬ IsDigitCode byte

theorem decode_of_odd {t : List Char} (odd : (utf8 t).length % 2 = 1) :
    decode (utf8 t) = .error .oddLength := if_pos odd

theorem decode_of_bad {t : List Char} (even : (utf8 t).length % 2 = 0) {byte : UInt8} {index : Nat}
    (first : FirstBad t byte index) : decode (utf8 t) = .error (.badDigit byte index) := by
  obtain ⟨front, back, split, rfl, hex, bad⟩ := first
  rw [decode, if_neg (by omega), split]
  rw [split] at even
  rw [decodePairs_of_bad even hex bad, Nat.zero_add]

theorem decode_of_digits {t : List Char} (even : t.length % 2 = 0) (hex : ∀ c ∈ t, IsDigit c) :
    ∃ bs, decode (utf8 t) = .ok bs ∧ bs.flatMap digits = t.map Char.toLower ∧
      2 * bs.length = t.length := by
  obtain ⟨bs, reads, shown⟩ := decodePairs_of_digits even hex 0
  refine ⟨bs, ?_, shown, ?_⟩
  · rw [utf8_of_digits hex, decode, List.length_map, if_neg (by omega), reads]
  · rw [← length_flatMap_digits, shown, List.length_map]

/-- One of three things is wrong with a text, or it consists of pairs of digits. -/
theorem utf8_cases (t : List Char) :
    (utf8 t).length % 2 = 1 ∨
      (utf8 t).length % 2 = 0 ∧ (∃ byte index, FirstBad t byte index) ∨
      t.length % 2 = 0 ∧ ∀ c ∈ t, IsDigit c := by
  rcases Nat.mod_two_eq_zero_or_one (utf8 t).length with even | odd
  · cases found : (utf8 t).find? fun byte => ¬ IsDigitCode byte with
    | some byte =>
      obtain ⟨bad, front, back, split, before⟩ := List.find?_eq_some_iff_append.1 found
      have hex : ∀ b ∈ front, IsDigitCode b := by simpa using before
      exact .inr (.inl ⟨even, byte, front.length, front, back, split, rfl, hex, of_decide_eq_true bad⟩)
    | none =>
      have hex : ∀ byte ∈ utf8 t, IsDigitCode byte := by simpa using found
      have digits := (forall_isDigitCode_iff t).1 hex
      rw [utf8_of_digits digits, List.length_map] at even
      exact .inr (.inr ⟨even, digits⟩)
  · exact .inl odd

end Hex

namespace FixedBytes

/-- What is left of a text without one leading `0x`. -/
def IsBare (text : String) (t : List Char) : Prop :=
  text.toList = '0' :: 'x' :: t ∨ ¬ ['0', 'x'] <+: text.toList ∧ t = text.toList

theorem bareDigits_of_unmarked {cs : List Char} (bare : ¬ ['0', 'x'] <+: cs) :
    bareDigits cs = cs := by
  unfold bareDigits
  split
  · exact absurd (List.prefix_append ['0', 'x'] _) bare
  · rfl

theorem isBare_iff (text : String) (t : List Char) : IsBare text t ↔ t = bareDigits text.toList := by
  by_cases marked : ['0', 'x'] <+: text.toList
  · obtain ⟨rest, split⟩ := marked
    have left : bareDigits text.toList = rest := by
      rw [← split]
      rfl
    rw [left, IsBare, ← split]
    constructor
    · rintro (same | ⟨bare, -⟩)
      · exact (List.append_cancel_left same).symm
      · exact absurd (List.prefix_append _ _) bare
    · rintro rfl
      exact .inl rfl
  · rw [bareDigits_of_unmarked marked, IsBare, and_iff_right marked]
    refine or_iff_right fun same => marked ?_
    rw [same]
    exact List.prefix_append ['0', 'x'] t

section

variable {n : Nat} {text : String} {t : List Char}

theorem ofText_eq_of_bare (bare : IsBare text t) :
    (ofText text : Except ReadError (FixedBytes n)) =
      match Hex.decode (Hex.utf8 t) with
      | .error cause => .error (.invalidHex cause)
      | .ok bs => ofList bs := by
  rw [(isBare_iff text t).1 bare]
  rfl

theorem ofText_of_odd (bare : IsBare text t) (odd : (Hex.utf8 t).length % 2 = 1) :
    (ofText text : Except ReadError (FixedBytes n)) = .error (.invalidHex .oddLength) := by
  rw [ofText_eq_of_bare bare, Hex.decode_of_odd odd]

theorem ofText_of_bad (bare : IsBare text t) (even : (Hex.utf8 t).length % 2 = 0) {byte : UInt8}
    {index : Nat} (first : Hex.FirstBad t byte index) :
    (ofText text : Except ReadError (FixedBytes n)) = .error (.invalidHex (.badDigit byte index)) := by
  rw [ofText_eq_of_bare bare, Hex.decode_of_bad even first]

theorem ofList_of_length {bs : Bytes} (length : bs.length = n) :
    (ofList bs : Except ReadError (FixedBytes n)) = .ok ⟨bs, length⟩ := by
  rw [ofList, ofList?, dif_pos length]

theorem ofText_of_digits (bare : IsBare text t) (hex : ∀ c ∈ t, Hex.IsDigit c)
    (length : t.length = 2 * n) :
    ∃ a : FixedBytes n, ofText text = .ok a ∧ a.hex = "0x" ++ String.ofList (t.map Char.toLower) := by
  obtain ⟨bs, reads, shown, twice⟩ := Hex.decode_of_digits (by omega) hex
  have bytes : bs.length = n := by omega
  refine ⟨⟨bs, bytes⟩, ?_, congrArg (fun cs => "0x" ++ String.ofList cs) shown⟩
  rw [ofText_eq_of_bare bare, reads]
  exact ofList_of_length bytes

theorem ofText_of_length (bare : IsBare text t) (hex : ∀ c ∈ t, Hex.IsDigit c)
    (even : t.length % 2 = 0) (wrong : t.length ≠ 2 * n) :
    (ofText text : Except ReadError (FixedBytes n)) = .error (.invalidLength (t.length / 2)) := by
  obtain ⟨bs, reads, -, twice⟩ := Hex.decode_of_digits even hex
  have half : t.length / 2 = bs.length := by omega
  rw [ofText_eq_of_bare bare, reads, half]
  dsimp only
  rw [ofList, ofList?, dif_neg (by omega)]

end

/-- What comes of reading a text, as `n` bytes, of which `t` is left without its `0x`. -/
inductive Verdict (n : Nat) (t : List Char) : Except ReadError (FixedBytes n) → Prop
  | oddLength (odd : (Hex.utf8 t).length % 2 = 1) : Verdict n t (.error (.invalidHex .oddLength))
  | badDigit {byte : UInt8} {index : Nat} (even : (Hex.utf8 t).length % 2 = 0)
      (first : Hex.FirstBad t byte index) : Verdict n t (.error (.invalidHex (.badDigit byte index)))
  | invalidLength (hex : ∀ c ∈ t, Hex.IsDigit c) (even : t.length % 2 = 0)
      (wrong : t.length ≠ 2 * n) : Verdict n t (.error (.invalidLength (t.length / 2)))
  | accepted {a : FixedBytes n} (hex : ∀ c ∈ t, Hex.IsDigit c) (length : t.length = 2 * n)
      (shown : a.hex = "0x" ++ String.ofList (t.map Char.toLower)) : Verdict n t (.ok a)

theorem verdict_ofText {n : Nat} {text : String} {t : List Char} (bare : IsBare text t) :
    Verdict n t (ofText text) := by
  rcases Hex.utf8_cases t with odd | ⟨even, byte, index, first⟩ | ⟨even, hex⟩
  · rw [ofText_of_odd bare odd]
    exact .oddLength odd
  · rw [ofText_of_bad bare even first]
    exact .badDigit even first
  · by_cases length : t.length = 2 * n
    · obtain ⟨a, reads, shown⟩ := ofText_of_digits bare hex length
      rw [reads]
      exact .accepted hex length shown
    · rw [ofText_of_length bare hex even length]
      exact .invalidLength hex even length

/-- When a text is read, as `n` bytes, of which `t` is left without its `0x`, and what is wrong with it
when it is not. -/
structure FollowsGrammar (n : Nat) (text : String) (t : List Char) : Prop where
  accepted_iff : (∃ a : FixedBytes n, ofText text = .ok a) ↔
    t.length = 2 * n ∧ ∀ c ∈ t, Hex.IsDigit c
  shown : ∀ a : FixedBytes n, ofText text = .ok a →
    a.hex = "0x" ++ String.ofList (t.map Char.toLower)
  invalidHex_iff :
    (∃ cause, (ofText text : Except ReadError (FixedBytes n)) = .error (.invalidHex cause)) ↔
      (Hex.utf8 t).length % 2 = 1 ∨ ∃ byte ∈ Hex.utf8 t, ¬ Hex.IsDigitCode byte
  oddLength_iff :
    (ofText text : Except ReadError (FixedBytes n)) = .error (.invalidHex .oddLength) ↔
      (Hex.utf8 t).length % 2 = 1
  badDigit_iff : ∀ byte index,
    (ofText text : Except ReadError (FixedBytes n)) =
        .error (.invalidHex (.badDigit byte index)) ↔
      (Hex.utf8 t).length % 2 = 0 ∧ Hex.FirstBad t byte index
  invalidLength_iff : ∀ length,
    (ofText text : Except ReadError (FixedBytes n)) = .error (.invalidLength length) ↔
      (∀ c ∈ t, Hex.IsDigit c) ∧ t.length % 2 = 0 ∧ t.length ≠ 2 * n ∧
        length = (Hex.utf8 t).length / 2

theorem followsGrammar_of_bare {n : Nat} {text : String} {t : List Char} (bare : IsBare text t) :
    FollowsGrammar n text t := by
  have verdict : Verdict n t (ofText text) := verdict_ofText bare
  constructor
  case accepted_iff =>
    constructor
    · rintro ⟨a, reads⟩
      rw [reads] at verdict
      cases verdict with
      | accepted hex length _ => exact ⟨length, hex⟩
    · rintro ⟨length, hex⟩
      obtain ⟨a, reads, -⟩ := ofText_of_digits bare hex length
      exact ⟨a, reads⟩
  case shown =>
    intro a reads
    rw [reads] at verdict
    cases verdict with
    | accepted _ _ shown => exact shown
  case invalidHex_iff =>
    constructor
    · rintro ⟨cause, fails⟩
      rw [fails] at verdict
      cases verdict with
      | oddLength odd => exact .inl odd
      | badDigit _ first =>
        obtain ⟨front, back, split, -, -, bad⟩ := first
        exact .inr ⟨_, split ▸ List.mem_append_right _ List.mem_cons_self, bad⟩
    · rintro (odd | ⟨byte, member, bad⟩)
      · exact ⟨_, ofText_of_odd bare odd⟩
      · rcases Hex.utf8_cases t with odd | ⟨even, _, _, first⟩ | ⟨-, hex⟩
        · exact ⟨_, ofText_of_odd bare odd⟩
        · exact ⟨_, ofText_of_bad bare even first⟩
        · exact absurd ((Hex.forall_isDigitCode_iff t).2 hex byte member) bad
  case oddLength_iff =>
    refine ⟨fun fails => ?_, ofText_of_odd bare⟩
    rw [fails] at verdict
    cases verdict with
    | oddLength odd => exact odd
  case badDigit_iff =>
    intro byte index
    refine ⟨fun fails => ?_, fun ⟨even, first⟩ => ofText_of_bad bare even first⟩
    rw [fails] at verdict
    cases verdict with
    | badDigit even first => exact ⟨even, first⟩
  case invalidLength_iff =>
    intro length
    constructor
    · intro fails
      rw [fails] at verdict
      cases verdict with
      | invalidLength hex even wrong =>
        rw [Hex.utf8_of_digits hex, List.length_map]
        exact ⟨hex, even, wrong, rfl⟩
    · rintro ⟨hex, even, wrong, rfl⟩
      rw [Hex.utf8_of_digits hex, List.length_map]
      exact ofText_of_length bare hex even wrong

theorem isBare_hex {n : Nat} (a : FixedBytes n) : IsBare a.hex (a.toList.flatMap Hex.digits) := by
  refine .inl ?_
  rw [hex, Hex.encode, String.toList_append]
  exact congrArg (['0', 'x'] ++ ·) String.toList_ofList

theorem ofText_hex {n : Nat} (a : FixedBytes n) : ofText a.hex = .ok a := by
  have hex := Hex.forall_isDigit_digits a.toList
  rw [ofText_eq_of_bare (isBare_hex a), Hex.utf8_of_digits hex, Hex.decode, List.length_map,
    Hex.length_flatMap_digits, if_neg (by omega), Hex.decodePairs_digits]
  exact ofList_of_length a.length_toList

/-- Every text leaves one rest without its `0x`, and is read by the grammar of that rest, whatever the
number of bytes wanted. What bytes are shown as reads as these bytes. -/
theorem ofText_follows_grammar :
    (∀ text, ∃! t, IsBare text t) ∧
      (∀ (n : Nat) (text : String) (t : List Char), IsBare text t → FollowsGrammar n text t) ∧
      ∀ (n : Nat) (a : FixedBytes n), ofText a.hex = .ok a := by
  refine ⟨fun text => ?_, fun _ _ _ bare => followsGrammar_of_bare bare, fun _ a => ofText_hex a⟩
  simp only [isBare_iff]
  exact existsUnique_eq

/-- Digits of either case behind one `0x`, a second `0x`, and a letter whose two bytes are no digits. -/
theorem ofText_follows_grammar_of_two :
    IsBare "0xaB0c" ['a', 'B', '0', 'c'] ∧ IsBare "0x0xaB" ['0', 'x', 'a', 'B'] ∧
      IsBare "aBé" ['a', 'B', 'é'] ∧
      (∃ a : FixedBytes 2, ofText "0xaB0c" = .ok a ∧ a.hex = "0xab0c") ∧
      (ofText "0x0xaB" : Except ReadError (FixedBytes 2)) = .error (.invalidHex (.badDigit 0x78 1)) ∧
      (ofText "aBé" : Except ReadError (FixedBytes 2)) = .error (.invalidHex (.badDigit 0xc3 2)) := by
  have mixed : IsBare "0xaB0c" ['a', 'B', '0', 'c'] := .inl (by decide)
  have twice : IsBare "0x0xaB" ['0', 'x', 'a', 'B'] := .inl (by decide)
  have foreign : IsBare "aBé" ['a', 'B', 'é'] := .inr (by decide)
  have follows {text : String} {t : List Char} : IsBare text t → FollowsGrammar 2 text t :=
    ofText_follows_grammar.2.1 2 text t
  refine ⟨mixed, twice, foreign, ?_, ?_, ?_⟩
  · have digits : ∀ c ∈ ['a', 'B', '0', 'c'], Hex.IsDigit c := by
      simp only [List.forall_mem_cons, List.not_mem_nil, false_implies, implies_true, and_true]
      decide
    obtain ⟨a, reads⟩ := (follows mixed).accepted_iff.2 ⟨rfl, digits⟩
    exact ⟨a, reads, (follows mixed).shown a reads⟩
  · exact ((follows twice).badDigit_iff 0x78 1).2
      ⟨rfl, [0x30], [0x61, 0x42], rfl, rfl, List.forall_mem_singleton.2 (by decide), by decide⟩
  · have digits : ∀ byte ∈ [0x61, 0x42], Hex.IsDigitCode byte :=
      List.forall_mem_cons.2 ⟨by decide, List.forall_mem_singleton.2 (by decide)⟩
    exact ((follows foreign).badDigit_iff 0xc3 2).2
      ⟨rfl, [0x61, 0x42], [0xa9], rfl, rfl, digits, by decide⟩

end FixedBytes

end ContractHost
