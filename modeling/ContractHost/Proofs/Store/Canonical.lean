import Mathlib
import ContractHost.Proofs.Store.Overwriting

/-!
# The one form of a value

Reading accepts more than is ever written: any odd first byte for a link, anything in front of the
last bytes, an empty end behind full links. `Canonical` tells what is written. The words of a value
are of this form (`canonical_encode`), and as the form leaves nothing open but the bytes of the value
(`eq_linkWord_of_metadata`, `Closes.eq_lastWord`), every list of this form is the words of a value
(`exists_encode_eq`). So `encode` is one to one onto these lists, and reading undoes it
(`encode_onto_canonical`), whatever stands behind (`encode_self_delimiting`).
-/

namespace ContractHost.Store

/-- A word ends a value with so many bytes: the first byte is twice their number, and between it and
them there are only zeros. -/
structure Closes (word : Word) (length : Nat) : Prop where
  length_le : length ≤ 31
  first : (metadata word).toNat = 2 * length
  padding : ∀ i, 0 < i → i + length < 32 → word.toList[i]? = some 0

/-- The form in which a value is written: links whose first byte is one, and a word that ends it, which
holds no bytes only if it stands alone. -/
def Canonical (words : List Word) : Prop :=
  ∃ links last length, words = links ++ [last] ∧ (∀ link ∈ links, metadata link = 1) ∧
    Closes last length ∧ (links ≠ [] → 1 ≤ length)

/-! ## What is written is of this form -/

theorem closes_lastWord {chunk : Bytes} (h : chunk.length ≤ 31) :
    Closes (lastWord chunk) chunk.length where
  length_le := h
  first := toNat_metadata_lastWord h
  padding i pos inside := by
    obtain ⟨i, rfl⟩ := Nat.exists_eq_add_one.2 pos
    have early : i < (List.replicate (31 - chunk.length) (0 : UInt8)).length := by
      rw [List.length_replicate]
      omega
    rw [toList_lastWord h, List.cons_append, List.getElem?_cons_succ,
      List.getElem?_append_left early, List.getElem?_replicate, if_pos]
    omega

/-- The links and the last word of a value; it is the value that is empty if the last word is. -/
theorem encode_eq_links (value : Bytes) :
    ∃ links last length, encode value = links ++ [last] ∧ (∀ link ∈ links, metadata link = 1) ∧
      Closes last length ∧ (value ≠ [] → 1 ≤ length) := by
  induction value using chunks_induction with
  | short value h =>
    exact ⟨[], lastWord value, value.length, encode_of_le h, by simp, closes_lastWord h,
      List.length_pos_iff.2⟩
  | long value h ih =>
    obtain ⟨links, last, length, words, full, closes, occupied⟩ := ih
    refine ⟨linkWord (value.take 31) :: links, last, length, ?_, ?_, closes, fun _ => ?_⟩
    · rw [encode_of_lt h, words, List.cons_append]
    · exact List.forall_mem_cons.2 ⟨metadata_linkWord (length_take_chunk h), full⟩
    · -- More than 31 bytes leave some for the words behind the first.
      refine occupied (List.length_pos_iff.1 ?_)
      rw [List.length_drop]
      omega

theorem canonical_encode (value : Bytes) : Canonical (encode value) := by
  obtain ⟨links, last, length, words, full, closes, occupied⟩ := encode_eq_links value
  refine ⟨links, last, length, words, full, closes, fun more => occupied ?_⟩
  rintro rfl
  have alone := congrArg List.length words
  rw [List.length_append, List.length_singleton, length_encode, List.length_nil] at alone
  exact more (List.length_eq_zero_iff.1 (by omega))

/-! ## What is of this form is written -/

theorem toList_eq_metadata_cons (word : Word) :
    word.toList = metadata word :: word.toList.drop 1 := by
  have bytes := word.length_toList
  rw [metadata]
  cases split : word.toList with
  | nil =>
    rw [split] at bytes
    cases bytes
  | cons first rest => rfl

theorem eq_linkWord_of_metadata {word : Word} (full : metadata word = 1) :
    word = linkWord (word.toList.drop 1) := by
  have rest : (word.toList.drop 1).length = 31 := by rw [List.length_drop, word.length_toList]
  refine FixedBytes.ext ?_
  rw [toList_linkWord rest, ← full]
  exact toList_eq_metadata_cons word

namespace Closes

variable {word : Word} {length : Nat}

theorem metadata_eq (closes : Closes word length) : metadata word = UInt8.ofNat (2 * length) := by
  have bound := closes.length_le
  rw [← UInt8.toNat_inj, closes.first, UInt8.toNat_ofNat']
  omega

/-- The bytes in front of those of the value. -/
theorem take_drop (closes : Closes word length) :
    (word.toList.drop 1).take (31 - length) = List.replicate (31 - length) 0 := by
  have bytes := word.length_toList
  refine List.eq_replicate_iff.2 ⟨?_, fun byte member => ?_⟩
  · rw [List.length_take, List.length_drop]
    omega
  · obtain ⟨i, inside, rfl⟩ := List.mem_take_iff_getElem.1 member
    have zero := closes.padding (1 + i) (by omega) (by omega)
    rw [List.getElem_drop]
    exact (List.getElem_eq_iff _).2 zero

theorem eq_lastWord (closes : Closes word length) :
    word = lastWord (word.toList.drop (32 - length)) := by
  have bound := closes.length_le
  have short : (word.toList.drop (32 - length)).length = length := by
    rw [List.length_drop, word.length_toList]
    omega
  have behind : (word.toList.drop 1).drop (31 - length) = word.toList.drop (32 - length) := by
    rw [List.drop_drop]
    congr 1
    omega
  refine FixedBytes.ext ?_
  rw [toList_lastWord (short.trans_le bound), short]
  calc word.toList
      = metadata word :: ((word.toList.drop 1).take (31 - length) ++
          (word.toList.drop 1).drop (31 - length)) := by
        rw [List.take_append_drop]
        exact toList_eq_metadata_cons word
    _ = _ := by rw [closes.metadata_eq, closes.take_drop, behind, List.cons_append]

end Closes

theorem exists_encode_eq {links : List Word} {last : Word} {length : Nat}
    (full : ∀ link ∈ links, metadata link = 1) (closes : Closes last length)
    (occupied : links ≠ [] → 1 ≤ length) :
    ∃ value, encode value = links ++ [last] ∧ (1 ≤ length → value ≠ []) := by
  have bound := closes.length_le
  induction links with
  | nil =>
    have short : (last.toList.drop (32 - length)).length = length := by
      rw [List.length_drop, last.length_toList]
      omega
    refine ⟨last.toList.drop (32 - length), ?_, fun some => List.length_pos_iff.1 ?_⟩
    · rw [encode_of_le (short.trans_le bound), ← closes.eq_lastWord, List.nil_append]
    · rwa [short]
  | cons link links ih =>
    obtain ⟨here, later⟩ := List.forall_mem_cons.1 full
    have some := occupied (List.cons_ne_nil link links)
    obtain ⟨value, words, nonempty⟩ := ih later fun _ => some
    have chunk : (link.toList.drop 1).length = 31 := by rw [List.length_drop, link.length_toList]
    have long : 31 < (link.toList.drop 1 ++ value).length := by
      have pos := List.length_pos_iff.2 (nonempty some)
      rw [List.length_append]
      omega
    refine ⟨link.toList.drop 1 ++ value, ?_,
      fun _ => List.append_ne_nil_of_right_ne_nil _ (nonempty some)⟩
    rw [encode_of_lt long, List.take_left' chunk, List.drop_left' chunk, words,
      ← eq_linkWord_of_metadata here, List.cons_append]

theorem exists_encode_eq_iff (words : List Word) :
    (∃ value, encode value = words) ↔ Canonical words := by
  constructor
  · rintro ⟨value, rfl⟩
    exact canonical_encode value
  · rintro ⟨links, last, length, rfl, full, closes, occupied⟩
    obtain ⟨value, words, -⟩ := exists_encode_eq full closes occupied
    exact ⟨value, words⟩

theorem encode_injective : Function.Injective encode := by
  intro value value' same
  have read := decode_encode value []
  rw [same, decode_encode] at read
  exact (congrArg Prod.fst (Option.some.inj read)).symm

/-! ## Reading back -/

/-- The words of a value can be told from whatever stands behind them: reading takes just these words
and gives the value. There is one word for every 31 bytes begun, and at least one; none is zero unless
the value is empty; and the first byte is one in every word but the last, in which it is even. -/
theorem encode_self_delimiting (value : Bytes) :
    (∀ rest, decode (encode value ++ rest) = some (value, rest)) ∧
      (encode value).length = max 1 (value.length ⌈/⌉ 31) ∧
      (value ≠ [] → ∀ word ∈ encode value, word ≠ .zero) ∧
      ∃ links last, encode value = links ++ [last] ∧ (∀ link ∈ links, metadata link = 1) ∧
        Even (metadata last).toNat ∧ (metadata last).toNat ≤ 62 := by
  obtain ⟨links, last, length, words, full, closes, -⟩ := encode_eq_links value
  have bound := closes.length_le
  refine ⟨decode_encode value, length_encode value, encode_ne_zero, links, last, words, full, ?_, ?_⟩
  · rw [closes.first]
    exact even_two_mul length
  · rw [closes.first]
    omega

/-- Two words that are both full, in front of a word that would go on. -/
theorem encode_self_delimiting_full :
    let value : Bytes := List.replicate 62 0x2a
    let further : Word := FixedBytes.takeList [0x03, 0x2b]
    decode (encode value ++ [further]) = some (value, [further]) ∧ (encode value).length = 2 ∧
      value ≠ [] ∧ ∀ word ∈ encode value, word ≠ .zero := by
  intro value further
  obtain ⟨reads, length, nonzero, -⟩ := encode_self_delimiting value
  have some : value ≠ [] := by decide
  exact ⟨reads [further], length.trans (by decide), some, nonzero some⟩

/-- Words are those of a value, and whatever reads them gives the value back. -/
structure StandFor (words : List Word) (value : Bytes) : Prop where
  encode : encode value = words
  decode : decode words = some (value, [])
  /-- The links of a chain that hold these words. -/
  valueOf : ∀ links : List Link, links.map Link.word = words → valueOf links = .ok value
  /-- The words found along the chain of a key. -/
  get : ∀ (changes : ChangeSet) (costs : StorageCosts) (key : Bytes) (meter : Meter),
    20 < key.length → (orbit words.length (headCell key)).map changes.content = words →
    costs.readFlat.toNat + (costs.readBytes value.length).toNat ≤ meter.remaining.toNat →
      (Fallible.eval (get costs key) ⟨changes, meter⟩).1 =
        .ok (if value = [] then none else some value)

theorem standFor_encode (value : Bytes) : StandFor (encode value) value where
  encode := rfl
  decode := by
    have read := decode_encode value []
    rwa [List.append_nil] at read
  valueOf _ words := Stored.valueOf_encode words
  get changes costs _ meter long along enough :=
    get_of_along ⟨changes, meter⟩ costs long along enough

/-- The lists of words that are written are those of the canonical form. Each of them reads as a value,
which is written in just these words, so that values and such lists are one to one. -/
theorem encode_onto_canonical :
    (∀ words, (∃ value, encode value = words) ↔ Canonical words) ∧
      (∀ words, Canonical words → ∃ value, StandFor words value) ∧
      Set.BijOn encode Set.univ {words | Canonical words} := by
  refine ⟨exists_encode_eq_iff, fun words canonical => ?_, ?_⟩
  · obtain ⟨value, rfl⟩ := (exists_encode_eq_iff words).2 canonical
    exact ⟨value, standFor_encode value⟩
  · refine ⟨fun value _ => canonical_encode value, encode_injective.injOn, fun words canonical => ?_⟩
    obtain ⟨value, written⟩ := (exists_encode_eq_iff words).2 canonical
    exact ⟨value, Set.mem_univ value, written⟩

/-- A link and two more bytes. -/
theorem encode_onto_canonical_pair :
    let link : Word := FixedBytes.takeList (0x01 :: List.replicate 31 0x2a)
    let last : Word := FixedBytes.takeList (0x04 :: List.replicate 29 0x00 ++ [0x2b, 0x2c])
    Canonical [link, last] ∧ StandFor [link, last] (List.replicate 31 0x2a ++ [0x2b, 0x2c]) := by
  intro link last
  have canonical : Canonical [link, last] := by
    have zeros : ∀ i < 30, 0 < i → last.toList[i]? = some 0 := by decide
    refine ⟨[link], last, 2, rfl, by decide, ⟨by decide, by decide, ?_⟩, by decide⟩
    intro i pos inside
    exact zeros i (by omega) pos
  obtain ⟨value, stands⟩ := encode_onto_canonical.2.1 _ canonical
  have read : decode [link, last] = some (List.replicate 31 0x2a ++ [0x2b, 0x2c], []) := by decide
  obtain rfl : value = List.replicate 31 0x2a ++ [0x2b, 0x2c] :=
    congrArg Prod.fst (Option.some.inj (stands.decode.symm.trans read))
  exact ⟨canonical, stands⟩

/-- Reading takes an empty end behind a full link, but that is not how the value is written. -/
example :
    let link := linkWord (List.replicate 31 0x2a)
    decode [link, .zero] = some (List.replicate 31 0x2a, []) ∧
      encode (List.replicate 31 0x2a) ≠ [link, .zero] := by decide

end ContractHost.Store
