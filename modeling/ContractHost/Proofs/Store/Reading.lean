import Mathlib
import ContractHost.Proofs.Store.Accesses
import ContractHost.Proofs.Store.Overwriting
import ContractHost.Proofs.Store.Prices

/-!
# Reading anything

A `get` takes whatever chain it finds, as long as it ends. A link gives the bytes behind its first
one, whichever odd number that is; the last word gives as many of its last bytes as half its first
byte says, whatever stands before them, and is malformed if that is more than a word holds
(`valueOf_linksAlong`). Nothing but the charges can fail besides, and these come to the price of a
value of that length (`get_on_any_chain`).
-/

namespace ContractHost.Store

/-! ## What the words of a chain hold -/

/-- The bytes that a word claims to end a value with. -/
def claimed (word : Word) : Bytes := word.toList.drop (32 - (metadata word).toNat / 2)

/-- The bytes of a chain: what stands behind the first byte of its links, and what the last word
claims. -/
def bytesAlong (content : Cell → Word) (head : Cell) (n : Nat) : Bytes :=
  ((orbit n head).flatMap fun cell => (content cell).toList.drop 1) ++
    claimed (content (nextCell^[n] head))

theorem decode_of_continues {word : Word} (goesOn : continues word = true) (words : List Word) :
    decode (word :: words) =
      (decode words).map fun read => (word.toList.drop 1 ++ read.1, read.2) := by
  rw [decode, chunk?, if_pos goesOn, goesOn]
  cases decode words with
  | none => rfl
  | some read => rfl

theorem decode_of_ends {word : Word} (ends : continues word = false) (words : List Word) :
    decode (word :: words) =
      if (metadata word).toNat < 64 then some (claimed word, words) else none := by
  have half : (metadata word / 2).toNat = (metadata word).toNat / 2 := UInt8.toNat_div _ _
  have chunk : chunk? word = if (metadata word).toNat < 64 then some (claimed word) else none := by
    rw [chunk?, if_neg (Bool.eq_false_iff.1 ends), claimed]
    simp only [half, chunkLength_eq]
    by_cases small : (metadata word).toNat < 64
    · rw [if_pos small, if_pos (by omega)]
    · rw [if_neg small, if_neg (by omega)]
  rw [decode, chunk, ends]
  by_cases small : (metadata word).toNat < 64
  · rw [if_pos small, if_pos small]
    rfl
  · rw [if_neg small, if_neg small]
    rfl

theorem bytesAlong_succ (content : Cell → Word) (head : Cell) (n : Nat) :
    bytesAlong content head (n + 1) =
      (content head).toList.drop 1 ++ bytesAlong content (nextCell head) n := by
  rw [bytesAlong, bytesAlong, orbit, List.flatMap_cons, List.append_assoc,
    Function.iterate_succ_apply]

theorem decode_words_of_ends {content : Cell → Word} {head : Cell} {n : Nat}
    (ends : Ends content head n) :
    decode ((orbit (n + 1) head).map content) =
      if (metadata (content (nextCell^[n] head))).toNat < 64 then
        some (bytesAlong content head n, [])
      else none := by
  induction n generalizing head with
  | zero => exact decode_of_ends ends.ends []
  | succ n ih =>
    rw [orbit, List.map_cons, decode_of_continues ends.head_goesOn, ih ends.tail,
      bytesAlong_succ, Function.iterate_succ_apply, apply_ite (Option.map _)]
    rfl

theorem getLast?_linksAlong (changes : ChangeSet) (n : Nat) (head : Cell) :
    (linksAlong changes (n + 1) head).getLast? =
      some ⟨nextCell^[n] head, changes.content (nextCell^[n] head)⟩ := by
  rw [linksAlong, orbit_eq_map, List.range_succ, List.map_append, List.map_append]
  exact List.getLast?_concat

/-- Of the words of a chain only the last can be malformed, and it is its slot that is at fault. -/
theorem valueOf_linksAlong {changes : ChangeSet} {head : Cell} {n : Nat}
    (ends : Ends changes.content head n) :
    valueOf (linksAlong changes (n + 1) head) =
      if (metadata (changes.content (nextCell^[n] head))).toNat < 64 then
        .ok (bytesAlong changes.content head n)
      else .error (.malformedSlot (nextCell^[n] head).slot) := by
  rw [valueOf, getLast?_linksAlong, words_linksAlong, decode_words_of_ends ends]
  by_cases small : (metadata (changes.content (nextCell^[n] head))).toNat < 64
  · rw [if_pos small, if_pos small]
  · rw [if_neg small, if_neg small]

/-! ## What a reading comes to -/

/-- All that a `get` can come to if the first word of the chain that does not go on stands in `last`
and the chain holds `value`. -/
structure GetOutcomes (costs : StorageCosts) (key : Bytes) (store : Store ChangeSet) (last : Cell)
    (value : Bytes) : Prop where
  unpaid : store.meter.remaining < costs.readFlat →
    Fallible.eval (get costs key) store = drained store costs.readFlat
  vacant : costs.readFlat ≤ store.meter.remaining →
    store.ledger.content (headCell key) = .zero →
      Fallible.eval (get costs key) store = (.ok none, paid store costs.readFlat)
  malformed : costs.readFlat ≤ store.meter.remaining →
    store.ledger.content (headCell key) ≠ .zero →
    64 ≤ (metadata (store.ledger.content last)).toNat →
      Fallible.eval (get costs key) store =
        (.error (.malformedSlot last.slot), paid store costs.readFlat)
  /-- The two charges take just what a value of this length costs to read. -/
  found : store.ledger.content (headCell key) ≠ .zero →
    (metadata (store.ledger.content last)).toNat < 64 →
    costs.readFlat.toNat + (costs.readBytes value.length).toNat ≤ store.meter.remaining.toNat →
      costs.read value.length ≤ store.meter.remaining ∧
        Fallible.eval (get costs key) store =
          (.ok (if value = [] then none else some value), paid store (costs.read value.length))
  starved : costs.readFlat ≤ store.meter.remaining →
    store.ledger.content (headCell key) ≠ .zero →
    (metadata (store.ledger.content last)).toNat < 64 →
    store.meter.remaining.toNat < costs.readFlat.toNat + (costs.readBytes value.length).toNat →
      Fallible.eval (get costs key) store =
        drained (paid store costs.readFlat) (costs.readBytes value.length)

section

variable {store : Store ChangeSet} (costs : StorageCosts) {key : Bytes} {n : Nat}

/-- Past the flat charge, on a chain that is not vacant. -/
theorem eval_get_of_held (long : 20 < key.length)
    (ends : Ends store.ledger.content (headCell key) n)
    (flat : costs.readFlat ≤ store.meter.remaining)
    (held : store.ledger.content (headCell key) ≠ .zero) :
    Fallible.eval (get costs key) store =
      if (metadata (store.ledger.content (nextCell^[n] (headCell key)))).toNat < 64 then
        let value := bytesAlong store.ledger.content (headCell key) n
        if store.meter.remaining - costs.readFlat < costs.readBytes value.length then
          drained (paid store costs.readFlat) (costs.readBytes value.length)
        else
          (.ok (if value = [] then none else some value),
            paid (paid store costs.readFlat) (costs.readBytes value.length))
      else
        (.error (.malformedSlot (nextCell^[n] (headCell key)).slot), paid store costs.readFlat) := by
  rw [eval_get_of_ends store costs long ends, if_neg (UInt64.not_lt.2 flat), chainLinks,
    if_neg held, valueOf_linksAlong ends]
  by_cases small : (metadata (store.ledger.content (nextCell^[n] (headCell key)))).toNat < 64
  · rw [if_pos small, if_pos small]
    simp only [List.isEmpty_iff]
  · rw [if_neg small, if_neg small]

theorem getOutcomes_of_ends (long : 20 < key.length)
    (ends : Ends store.ledger.content (headCell key) n) :
    GetOutcomes costs key store (nextCell^[n] (headCell key))
      (bytesAlong store.ledger.content (headCell key) n) := by
  constructor
  case unpaid =>
    intro short
    rw [eval_get_of_ends store costs long ends, if_pos short]
  case vacant =>
    intro flat zero
    have free := readBytes_zero costs
    rw [eval_get_of_ends store costs long ends, if_neg (UInt64.not_lt.2 flat), chainLinks,
      if_pos zero]
    have nothing : valueOf [] = .ok [] := rfl
    rw [nothing]
    dsimp only
    rw [List.length_nil, free, if_neg (UInt64.not_lt.2 UInt64.zero_le), paid, paid, Gas.sub_zero]
    rfl
  case malformed =>
    intro flat held large
    rw [eval_get_of_held costs long ends flat held, if_neg (Nat.not_lt.2 large)]
  case found =>
    intro held small enough
    have flat : costs.readFlat ≤ store.meter.remaining := by
      rw [UInt64.le_iff_toNat_le]
      omega
    have bytes : costs.readBytes (bytesAlong store.ledger.content (headCell key) n).length ≤
        store.meter.remaining - costs.readFlat := by
      rw [UInt64.le_iff_toNat_le, Gas.toNat_sub flat]
      omega
    have sum := toNat_read costs flat bytes
    have covered : costs.read (bytesAlong store.ledger.content (headCell key) n).length ≤
        store.meter.remaining := by
      rw [UInt64.le_iff_toNat_le, sum]
      exact enough
    have parts := (sub_of_parts sum covered).2.2
    refine ⟨covered, ?_⟩
    rw [eval_get_of_held costs long ends flat held, if_pos small]
    dsimp only
    rw [if_neg (UInt64.not_lt.2 bytes), paid, paid, paid, parts]
  case starved =>
    intro flat held small more
    have covered := UInt64.le_iff_toNat_le.1 flat
    have short : store.meter.remaining - costs.readFlat <
        costs.readBytes (bytesAlong store.ledger.content (headCell key) n).length := by
      rw [UInt64.lt_iff_toNat_lt, Gas.toNat_sub flat]
      omega
    rw [eval_get_of_held costs long ends flat held, if_pos small]
    dsimp only
    rw [if_pos short]

end

/-- Whatever the state, a key that is too short is refused for nothing, and a chain that ends has one
outcome for each amount of gas. In no case is anything written. -/
theorem get_on_any_chain (store : Store ChangeSet) (costs : StorageCosts) (key : Bytes) :
    (key.length ≤ 20 →
        Fallible.eval (get costs key) store = (.error (.storageKeyTooShort key.length), store)) ∧
      (∀ n, 20 < key.length → Ends store.ledger.content (headCell key) n →
        GetOutcomes costs key store (nextCell^[n] (headCell key))
          (bytesAlong store.ledger.content (headCell key) n)) ∧
      (Fallible.eval (get costs key) store).2.ledger = store.ledger ∧
      ∃ cells : List Cell, (Operation.get key).accesses costs store = cells.map .getStorage := by
  refine ⟨fun short => ?_, fun n long ends => getOutcomes_of_ends costs long ends,
    ledger_get store costs key, exists_accesses_get costs store key⟩
  rw [get_eq, eval_opening, if_pos short]

/-- Under the key stand two words that no `put` writes: one that goes on with another odd first byte,
and one with something in front of the two bytes that it ends with. -/
def frayed : ChangeSet :=
  let head := headCell (joinKey .zero [[0x61]])
  (ChangeSet.empty.recordSlot head (FixedBytes.takeList (0x07 :: List.replicate 31 0x2a))).recordSlot
    (nextCell head) (FixedBytes.takeList (0x04 :: List.replicate 29 0xff ++ [0x2b, 0x2c]))

theorem content_of_two {head : Cell} (apart : nextCell head ≠ head) (first second : Word) :
    let changes := (ChangeSet.empty.recordSlot head first).recordSlot (nextCell head) second
    changes.content head = first ∧ changes.content (nextCell head) = second := by
  intro changes
  refine ⟨?_, ChangeSet.content_recordSlot_self _ _ _⟩
  exact (ChangeSet.content_recordSlot_of_ne _ apart _).trans (ChangeSet.content_recordSlot_self _ _ _)

/-- A value is found with just the gas for its 33 bytes and not with less; a word that claims too much
is named, at the flat price; and a key without anything behind the address costs nothing. -/
theorem get_on_any_chain_frayed :
    let key := joinKey .zero [[0x61]]
    Fallible.eval (get .standard key) ⟨frayed, ⟨1099⟩⟩ =
        (.ok (some (List.replicate 31 0x2a ++ [0x2b, 0x2c])), ⟨frayed, ⟨0⟩⟩) ∧
      Fallible.eval (get .standard key) ⟨frayed, ⟨1098⟩⟩ =
        (.error (.insufficientGas 99 98), ⟨frayed, ⟨0⟩⟩) ∧
      Fallible.eval (get .standard key) ⟨ruined, ⟨1098⟩⟩ =
        (.error (.malformedSlot (nextCell (headCell key)).slot), ⟨ruined, ⟨98⟩⟩) ∧
      Fallible.eval (get .standard (joinKey .zero [])) ⟨ruined, ⟨1098⟩⟩ =
        (.error (.storageKeyTooShort 20), ⟨ruined, ⟨1098⟩⟩) := by
  intro key
  have long : 20 < key.length := by decide
  have apart : nextCell (headCell key) ≠ headCell key := by decide +kernel
  obtain ⟨first, second⟩ : frayed.content (headCell key) = _ ∧
      frayed.content (nextCell (headCell key)) = _ := content_of_two apart _ _
  obtain ⟨first', second'⟩ : ruined.content (headCell key) = _ ∧
      ruined.content (nextCell (headCell key)) = _ := content_of_two apart _ _
  have ends : Ends frayed.content (headCell key) 1 :=
    .succ (by rw [first]; decide) (.zero (by rw [second]; decide))
  have ends' : Ends ruined.content (headCell key) 1 :=
    .succ (by rw [first']; decide) (.zero (by rw [second']; decide))
  have value : bytesAlong frayed.content (headCell key) 1 =
      List.replicate 31 0x2a ++ [0x2b, 0x2c] := by
    rw [bytesAlong_succ, first, bytesAlong, orbit, List.flatMap_nil, List.nil_append,
      Function.iterate_zero_apply, second]
    decide
  have held : frayed.content (headCell key) ≠ .zero := by
    rw [first]
    decide
  have held' : ruined.content (headCell key) ≠ .zero := by
    rw [first']
    decide
  have small : (metadata (frayed.content (nextCell (headCell key)))).toNat < 64 := by
    rw [second]
    decide
  have large : 64 ≤ (metadata (ruined.content (nextCell (headCell key)))).toNat := by
    rw [second']
    decide
  have rich := (get_on_any_chain ⟨frayed, ⟨1099⟩⟩ .standard key).2.1 1 long ends
  have poor := (get_on_any_chain ⟨frayed, ⟨1098⟩⟩ .standard key).2.1 1 long ends
  have lost := (get_on_any_chain ⟨ruined, ⟨1098⟩⟩ .standard key).2.1 1 long ends'
  rw [value] at rich poor
  refine ⟨?_, ?_, ?_, (get_on_any_chain ⟨ruined, ⟨1098⟩⟩ .standard _).1 (by decide)⟩
  · exact (rich.found held small (by decide)).2
  · exact poor.starved (by decide) held small (by decide)
  · exact lost.malformed (by decide) held' large

end ContractHost.Store
