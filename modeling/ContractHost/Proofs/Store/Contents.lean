import Mathlib
import ContractHost.Proofs.Store.Outcomes

/-!
# The store as a map

Under keys whose orbits do not meet, the store is a map from keys to byte strings. `Stored` is what
holds of a change set between two operations: along the orbit of each key stand the words of the
value that was put last, zeros behind them, and no cell of these addresses holds anything else. Each
operation preserves it (`Stored.step`), so it holds after every operation of a run (`Stored.perform`),
whichever of them the meter did not cover: an operation fails for that reason only (`Faithful`). That
nothing is leaked is read off it by counting: the live slots of an address are the words of its
values (`Stored.liveSlots`).
-/

namespace ContractHost.Store

/-- Keys no two of which share a cell within the first cells of their orbits. -/
structure Separate (keys : Finset Bytes) (bound : Nat) : Prop where
  long : ∀ key ∈ keys, 20 < key.length
  distinct : ∀ key ∈ keys, (orbit bound (headCell key)).Nodup
  apart : ∀ key ∈ keys, ∀ other ∈ keys, key ≠ other →
    (headCell key).owner = (headCell other).owner →
      ∀ cell ∈ orbit bound (headCell key), cell ∉ orbit bound (headCell other)

theorem Separate.disjoint {keys : Finset Bytes} {bound : Nat} (separate : Separate keys bound)
    {key other : Bytes} (member : key ∈ keys) (member' : other ∈ keys) (different : key ≠ other)
    {cell : Cell} (inside : cell ∈ orbit bound (headCell key)) :
    cell ∉ orbit bound (headCell other) := by
  intro inside'
  have same : (headCell key).owner = (headCell other).owner :=
    (owner_of_mem_orbit inside).symm.trans (owner_of_mem_orbit inside')
  exact separate.apart key member other member' different same cell inside inside'

/-! ## Runs of operations -/

/-- What is held under the keys: the value that was put last, if any. -/
abbrev Holding := Bytes → Option Bytes

/-- What is seen of a held value: the empty one counts as none. -/
def visible (held : Option Bytes) : Option Bytes := held.filter fun value => !value.isEmpty

namespace Operation

/-- A byte-string operation on one of the keys, a value to be put having no more words than the
bound. -/
def Within (keys : Finset Bytes) (bound : Nat) : Operation → Prop
  | put key value => key ∈ keys ∧ (encode value).length ≤ bound
  | get key => key ∈ keys
  | getBytes key => key ∈ keys
  | contains key => key ∈ keys
  | delete key => key ∈ keys
  | set _ _ _ => False
  | load _ _ => False
  | clear _ => False

/-- What is held after an operation; one that failed changes nothing. -/
def record : (operation : Operation) → Except RuntimeError operation.Reply → Holding → Holding
  | put key value, .ok _, held => Function.update held key (some value)
  | delete key, .ok _, held => Function.update held key none
  | _, _, held => held

/-- The value whose bytes an operation pays for once it has read them. -/
def read? (held : Holding) : Operation → Option Bytes
  | get key => some ((visible (held key)).getD [])
  | getBytes key => some ((visible (held key)).getD [])
  | contains key => some ((visible (held key)).getD [])
  | _ => none

/-- What an operation is charged, one amount after the other. -/
def charges (costs : StorageCosts) (held : Holding) (operation : Operation) : List Gas :=
  operation.firstCharge costs ::
    ((operation.read? held).map fun value => costs.readBytes value.length).toList

/-- A reply tells what is held. -/
def Answers (held : Holding) : (operation : Operation) → operation.Reply → Prop
  | get key, found => found = visible (held key)
  | getBytes key, value => value = (visible (held key)).getD []
  | contains key, found => found = (visible (held key)).isSome
  | _, _ => True

end Operation

/-- How amounts fail that are charged one after the other: the first that is more than what is then
left. -/
def shortfall? : List Gas → Gas → Option RuntimeError
  | [], _ => none
  | amount :: amounts, left =>
    if left < amount then some (.insufficientGas amount left)
    else shortfall? amounts (left - amount)

/-- An operation fails just when the meter does not cover what it is charged, and else replies with
what is held. -/
structure Operation.Faithful (costs : StorageCosts) (held : Holding) (operation : Operation)
    (meter : Meter) (result : Except RuntimeError operation.Reply) : Prop where
  short : ∀ cause, shortfall? (operation.charges costs held) meter.remaining = some cause →
    result = .error cause
  covered : shortfall? (operation.charges costs held) meter.remaining = none →
    ∃ reply, result = .ok reply ∧ operation.Answers held reply

theorem shortfall?_of_lt {amount left : Gas} (less : left < amount) (amounts : List Gas) :
    shortfall? (amount :: amounts) left = some (.insufficientGas amount left) :=
  if_pos less

theorem shortfall?_of_not_lt {amount left : Gas} (enough : ¬ left < amount) (amounts : List Gas) :
    shortfall? (amount :: amounts) left = shortfall? amounts (left - amount) :=
  if_neg enough

theorem Operation.Faithful.of_short {costs : StorageCosts} {held : Holding} {operation : Operation}
    {meter : Meter} {cause : RuntimeError}
    (short : shortfall? (operation.charges costs held) meter.remaining = some cause) :
    operation.Faithful costs held meter (.error cause) := by
  constructor
  · intro cause' short'
    rw [short] at short'
    cases short'
    rfl
  · intro covered
    rw [short] at covered
    cases covered

theorem Operation.Faithful.of_covered {costs : StorageCosts} {held : Holding} {operation : Operation}
    {meter : Meter} {reply : operation.Reply}
    (covered : shortfall? (operation.charges costs held) meter.remaining = none)
    (answers : operation.Answers held reply) : operation.Faithful costs held meter (.ok reply) := by
  constructor
  · intro cause short
    rw [covered] at short
    cases short
  · intro _
    exact ⟨reply, rfl, answers⟩

/-- An operation that was made, where it began, what it returned and what it left. -/
structure Performed where
  operation : Operation
  before : Store ChangeSet
  result : Except RuntimeError operation.Reply
  after : Store ChangeSet

/-- Makes operations one after the other, whatever comes of them. -/
def perform (costs : StorageCosts) : List Operation → Store ChangeSet → List Performed
  | [], _ => []
  | operation :: operations, store =>
    let outcome := Fallible.eval (operation.run costs) store
    ⟨operation, store, outcome.1, outcome.2⟩ :: perform costs operations outcome.2

/-- What is held after operations, when this is held before them. -/
def heldFrom (held : Holding) (steps : List Performed) : Holding :=
  steps.foldl (fun held step => step.operation.record step.result held) held

/-- What is held after operations on an empty store. -/
def heldAfter : List Performed → Holding := heldFrom fun _ => none

/-! ## The invariant -/

/-- The words that stand under a key. -/
def wordsOf : Option Bytes → List Word
  | none => []
  | some value => encode value

/-- The orbits of the keys hold the words of what is held under them, and the other cells of these
addresses hold nothing. -/
structure Stored (keys : Finset Bytes) (bound : Nat) (held : Holding) (changes : ChangeSet) :
    Prop where
  fits : ∀ key ∈ keys, (wordsOf (held key)).length ≤ bound
  along : ∀ key ∈ keys, ∀ i < bound,
    changes.content (nextCell^[i] (headCell key)) = (wordsOf (held key)).getD i .zero
  beyond : ∀ key ∈ keys, ∀ cell, cell.owner = (headCell key).owner →
    (∀ other ∈ keys, cell ∉ orbit bound (headCell other)) → changes.content cell = .zero

/-- What the invariant shows: the cells along the orbits, and how many slots are live. -/
structure Shows (keys : Finset Bytes) (bound : Nat) (held : Holding) (changes : ChangeSet) :
    Prop where
  cells : ∀ key ∈ keys, (orbit bound (headCell key)).map changes.content =
    wordsOf (held key) ++ List.replicate (bound - (wordsOf (held key)).length) .zero
  live : ∀ key ∈ keys, changes.liveSlots (headCell key).owner =
    ∑ other ∈ keys with (headCell other).owner = (headCell key).owner,
      (((held other).getD []).length + 30) / 31

theorem length_wordsOf_visible_le (value : Option Bytes) :
    (wordsOf (visible value)).length ≤ (wordsOf value).length := by
  rcases value with _ | _ | ⟨byte, rest⟩
  · exact Nat.le_refl _
  · exact Nat.zero_le _
  · exact Nat.le_refl _

theorem length_wordsOf_visible (value : Option Bytes) :
    (wordsOf (visible value)).length = ((value.getD []).length + 30) / 31 := by
  rcases value with _ | _ | ⟨byte, rest⟩
  · rfl
  · rfl
  · exact length_encode_of_ne_nil (List.cons_ne_nil _ _)

theorem getD_append_zeros (words : List Word) (count i : Nat) :
    (words ++ List.replicate count FixedBytes.zero).getD i .zero = words.getD i .zero := by
  by_cases inside : i < words.length
  · rw [List.getD_append _ _ _ _ inside]
  · rw [List.getD_append_right _ _ _ _ (by omega), List.getD_eq_getElem?_getD,
      List.getElem?_getD_replicate_default_eq, List.getD_eq_default _ _ (by omega)]

/-- Keys over addresses that hold nothing hold nothing. -/
theorem stored_of_vacant {keys : Finset Bytes} (bound : Nat) {changes : ChangeSet}
    (vacant : ∀ key ∈ keys, ∀ slot, changes.content ⟨(headCell key).owner, slot⟩ = .zero) :
    Stored keys bound (fun _ => none) changes where
  fits key member := Nat.zero_le bound
  along key member i inside := by
    have here := vacant key member (nextCell^[i] (headCell key)).slot
    rwa [← owner_iterate i (headCell key)] at here
  beyond key member cell same outside := by
    have here := vacant key member cell.slot
    rwa [← same] at here

namespace Stored

variable {keys : Finset Bytes} {bound : Nat} {held : Holding} {changes : ChangeSet} {key : Bytes}

/-! ## Reading the invariant -/

theorem head (stored : Stored keys bound held changes) (member : key ∈ keys) :
    changes.content (headCell key) = (wordsOf (held key)).getD 0 .zero := by
  have fits := stored.fits key member
  by_cases none : bound = 0
  · subst none
    have nothing : wordsOf (held key) = [] := List.length_eq_zero_iff.1 (by omega)
    rw [nothing, stored.beyond key member _ rfl fun other _ inside => by cases inside]
    rfl
  · exact stored.along key member 0 (by omega)

theorem map_orbit (stored : Stored keys bound held changes) (member : key ∈ keys) :
    (orbit bound (headCell key)).map changes.content =
      wordsOf (held key) ++ List.replicate (bound - (wordsOf (held key)).length) .zero := by
  have fits := stored.fits key member
  refine List.ext_getElem ?_ fun i inside inside' => ?_
  · rw [List.length_map, length_orbit, List.length_append, List.length_replicate]
    omega
  · have lt : i < bound := by rwa [List.length_map, length_orbit] at inside
    rw [← List.getD_eq_getElem _ FixedBytes.zero inside', getD_append_zeros, ← stored.along key member i lt]
    simp [orbit_eq_map]

theorem map_words (stored : Stored keys bound held changes) (member : key ∈ keys) :
    (orbit (wordsOf (held key)).length (headCell key)).map changes.content =
      wordsOf (held key) := by
  rw [← take_orbit (stored.fits key member), List.map_take, stored.map_orbit member,
    List.take_left' rfl]

theorem ends (stored : Stored keys bound held changes) (member : key ∈ keys) :
    Ends changes.content (headCell key) ((wordsOf (held key)).length - 1) := by
  have head := stored.head member
  have along := stored.map_words member
  cases value : held key with
  | none =>
    rw [value] at head
    exact .zero (head ▸ continues_zero)
  | some value' =>
    rw [value] at along
    exact (chain_encode value').ends along

theorem visible_of_ne_nil {value : Bytes} (h : value ≠ []) :
    visible (some value) = some value := by
  cases value with
  | nil => exact absurd rfl h
  | cons byte rest => rfl

/-- The links that are read are the words of the value, none when it is empty. -/
theorem chainLinks_eq (stored : Stored keys bound held changes) (member : key ∈ keys) :
    chainLinks changes ((wordsOf (held key)).length - 1) (headCell key) =
      linksAlong changes (wordsOf (visible (held key))).length (headCell key) := by
  have head := stored.head member
  cases value : held key with
  | none =>
    rw [value] at head
    exact if_pos head
  | some value' =>
    rw [value] at head
    by_cases empty : value' = []
    · subst empty
      exact if_pos head
    · have nonempty := length_encode_pos value'
      have live : changes.content (headCell key) ≠ .zero := by
        have first : (encode value').getD 0 .zero ∈ encode value' := by
          rw [List.getD_eq_getElem _ _ nonempty]
          exact List.getElem_mem nonempty
        rw [head]
        exact encode_ne_zero empty _ first
      rw [chainLinks, if_neg live, visible_of_ne_nil empty]
      congr 1
      exact Nat.sub_add_cancel nonempty

theorem valueOf_encode {links : List Link} {value : Bytes}
    (words : links.map Link.word = encode value) : valueOf links = .ok value := by
  have nonempty := length_encode_pos value
  have read := decode_encode value []
  rw [List.append_nil, ← words] at read
  rw [← words, List.length_map] at nonempty
  obtain ⟨last, found⟩ : ∃ last, links.getLast? = some last :=
    ⟨_, List.getLast?_eq_some_getLast (List.ne_nil_of_length_pos nonempty)⟩
  rw [valueOf, found, read]

theorem valueOf_chainLinks (stored : Stored keys bound held changes) (member : key ∈ keys) :
    valueOf (chainLinks changes ((wordsOf (held key)).length - 1) (headCell key)) =
      .ok ((visible (held key)).getD []) := by
  have along := stored.map_words member
  rw [stored.chainLinks_eq member]
  cases value : held key with
  | none => rfl
  | some value' =>
    by_cases empty : value' = []
    · subst empty
      rfl
    · rw [value] at along
      rw [visible_of_ne_nil empty]
      exact valueOf_encode ((words_linksAlong _ _ _).trans along)

/-! ## Preserving the invariant -/

/-- Writing along the orbit of a key changes what is held under that key and nothing else. -/
theorem recordWords (separate : Separate keys bound) (stored : Stored keys bound held changes)
    (member : key ∈ keys) {value : Option Bytes} {words : List Word}
    (inside : words.length ≤ bound) (fits : (wordsOf value).length ≤ bound)
    (written : ∀ i < words.length, words.getD i .zero = (wordsOf value).getD i .zero)
    (behind : ∀ i, words.length ≤ i →
      (wordsOf (held key)).getD i .zero = (wordsOf value).getD i .zero) :
    Stored keys bound (Function.update held key value)
      (changes.recordWords (headCell key) words) where
  fits other member' := by
    by_cases same : other = key
    · rwa [same, Function.update_self]
    · rw [Function.update_of_ne same]
      exact stored.fits other member'
  along other member' i lt := by
    have along := stored.along other member' i lt
    by_cases same : other = key
    · subst same
      have distinct := nodup_orbit_of_le inside (separate.distinct other member)
      rw [Function.update_self]
      by_cases early : i < words.length
      · rw [ChangeSet.content_recordWords distinct early, written i early]
      · have outside : nextCell^[i] (headCell other) ∉ orbit words.length (headCell other) := by
          intro again
          obtain ⟨j, before, back⟩ := mem_orbit.1 again
          have same := iterate_inj (separate.distinct other member) (by omega) lt back
          omega
        rw [ChangeSet.content_recordWords_of_notMem outside, along, behind i (by omega)]
    · have outside : nextCell^[i] (headCell other) ∉ orbit words.length (headCell key) := by
        intro again
        exact separate.disjoint member' member same (iterate_mem_orbit lt _)
          (orbit_subset inside _ again)
      rw [ChangeSet.content_recordWords_of_notMem outside, along, Function.update_of_ne same]
  beyond other member' cell same outside := by
    have apart : cell ∉ orbit words.length (headCell key) := fun again =>
      outside key member (orbit_subset inside _ again)
    rw [ChangeSet.content_recordWords_of_notMem apart]
    exact stored.beyond other member' cell same outside

/-- With no room at all nothing is held, and clearing a head changes nothing. -/
theorem recordWords_of_no_room (stored : Stored keys 0 held changes) (head : Cell) :
    Stored keys 0 (Function.update held key none) (changes.recordWords head [.zero]) where
  fits other member := by
    by_cases same : other = key
    · rw [same, Function.update_self]
      exact Nat.le_refl 0
    · rw [Function.update_of_ne same]
      exact stored.fits other member
  along other member i lt := absurd lt (Nat.not_lt_zero i)
  beyond other member cell same outside := by
    have zero := stored.beyond other member cell same outside
    rw [ChangeSet.recordWords_cons, ChangeSet.recordWords_nil, ChangeSet.content_recordSlot, zero,
      ite_self]

theorem put (separate : Separate keys bound) (stored : Stored keys bound held changes)
    (member : key ∈ keys) {value : Bytes} (fits : (encode value).length ≤ bound) :
    Stored keys bound (Function.update held key (some value))
      (changes.recordWords (headCell key)
        (putWords value (chainLinks changes ((wordsOf (held key)).length - 1)
          (headCell key)).length)) := by
  have old := stored.fits key member
  rw [stored.chainLinks_eq member, length_linksAlong]
  have less := length_wordsOf_visible_le (held key)
  refine stored.recordWords separate member ?_ fits (fun i lt => getD_append_zeros _ _ _) ?_
  · rw [length_putWords]
    omega
  · intro i beyond
    rw [length_putWords] at beyond
    rw [show wordsOf (some value) = encode value from rfl,
      List.getD_eq_default (encode value) _ (by omega)]
    generalize held key = old at beyond ⊢
    rcases old with _ | _ | ⟨byte, rest⟩
    · rfl
    · rcases i with _ | i
      · rfl
      · rfl
    · exact List.getD_eq_default _ _ (le_trans (le_max_right _ _) beyond)

theorem delete (separate : Separate keys bound) (stored : Stored keys bound held changes)
    (member : key ∈ keys) :
    Stored keys bound (Function.update held key none)
      (changes.recordWords (headCell key)
        (List.replicate ((wordsOf (held key)).length - 1 + 1) .zero)) := by
  have old := stored.fits key member
  by_cases none : bound = 0
  · subst none
    rw [show (wordsOf (held key)).length - 1 + 1 = 1 by omega]
    exact stored.recordWords_of_no_room _
  · refine stored.recordWords separate member ?_ (Nat.zero_le _) (fun i lt => ?_) (fun i le => ?_)
    · rw [List.length_replicate]
      omega
    · rw [List.getD_eq_getElem?_getD, List.getElem?_getD_replicate_default_eq]
      rfl
    · rw [List.length_replicate] at le
      rw [List.getD_eq_default _ _ (by omega)]
      rfl

/-! ## Operations -/

theorem visible_getD (value : Option Bytes) :
    (if ((visible value).getD []).isEmpty then none else some ((visible value).getD [])) =
      visible value := by
  rcases value with _ | _ | ⟨byte, rest⟩
  · rfl
  · rfl
  · rfl

/-- A `get` finds what is held unless it cannot be paid for, and writes nothing. -/
theorem eval_get {store : Store ChangeSet} (separate : Separate keys bound)
    (stored : Stored keys bound held store.ledger) (member : key ∈ keys) (costs : StorageCosts) :
    ∃ after : Store ChangeSet, after.ledger = store.ledger ∧
      Fallible.eval (get costs key) store =
        ((shortfall? ((Operation.get key).charges costs held) store.meter.remaining).elim
          (.ok (visible (held key))) .error, after) := by
  rw [eval_get_of_ends store costs (separate.long key member) (stored.ends member),
    stored.valueOf_chainLinks member]
  dsimp only
  have charges : (Operation.get key).charges costs held =
      [costs.readFlat, costs.readBytes ((visible (held key)).getD []).length] := rfl
  rw [charges]
  split
  · rename_i less
    rw [shortfall?_of_lt less]
    refine ⟨_, ?_, rfl⟩
    rfl
  · rename_i enough
    rw [shortfall?_of_not_lt enough]
    split
    · rename_i less
      rw [shortfall?_of_lt less]
      refine ⟨_, ?_, rfl⟩
      rfl
    · rename_i enough'
      rw [shortfall?_of_not_lt enough', visible_getD]
      refine ⟨_, ?_, rfl⟩
      rfl

/-- An operation that reads what a `get` finds. -/
theorem step_of_get {store : Store ChangeSet} (separate : Separate keys bound)
    (stored : Stored keys bound held store.ledger) (member : key ∈ keys) (costs : StorageCosts)
    (operation : Operation) (f : Option Bytes → operation.Reply)
    (charges : operation.charges costs held = (Operation.get key).charges costs held)
    (answers : operation.Answers held (f (visible (held key))))
    (runs : Fallible.eval (operation.run costs) store =
      Fallible.proceed (fun found => pure (f found)) (Fallible.eval (Store.get costs key) store)) :
    (Fallible.eval (operation.run costs) store).2.ledger = store.ledger ∧
      operation.Faithful costs held store.meter (Fallible.eval (operation.run costs) store).1 := by
  obtain ⟨after, same, found⟩ := stored.eval_get separate member costs
  rw [runs, found]
  rw [← charges]
  cases short : shortfall? (operation.charges costs held) store.meter.remaining with
  | some cause => exact ⟨same, .of_short short⟩
  | none => exact ⟨same, .of_covered short answers⟩

/-- One operation keeps the invariant, and fails or replies as what is held and the meter have it. -/
theorem step {store : Store ChangeSet} (separate : Separate keys bound)
    (stored : Stored keys bound held store.ledger) (costs : StorageCosts) {operation : Operation}
    (within : operation.Within keys bound) :
    Stored keys bound
        (operation.record (Fallible.eval (operation.run costs) store).1 held)
        (Fallible.eval (operation.run costs) store).2.ledger ∧
      operation.Faithful costs held store.meter
        (Fallible.eval (operation.run costs) store).1 := by
  cases operation with
  | put key value =>
    obtain ⟨member, fits⟩ := within
    rw [Operation.run, eval_put_of_ends store costs (separate.long key member) value
      (stored.ends member)]
    split
    · exact ⟨stored, .of_short (shortfall?_of_lt ‹_› _)⟩
    · exact ⟨stored.put separate member fits, .of_covered (shortfall?_of_not_lt ‹_› _) trivial⟩
  | get key =>
    obtain ⟨same, faithful⟩ := stored.step_of_get separate within costs (.get key) id rfl rfl
      (Fallible.proceed_pure _).symm
    exact ⟨same ▸ stored, faithful⟩
  | getBytes key =>
    obtain ⟨same, faithful⟩ := stored.step_of_get separate within costs (.getBytes key)
      (·.getD []) rfl rfl (eval_getBytes store costs)
    exact ⟨same ▸ stored, faithful⟩
  | contains key =>
    obtain ⟨same, faithful⟩ := stored.step_of_get separate within costs (.contains key)
      (·.isSome) rfl rfl (eval_contains store costs)
    exact ⟨same ▸ stored, faithful⟩
  | delete key =>
    rw [Operation.run, eval_delete_of_ends store costs (separate.long key within)
      (stored.ends within)]
    split
    · exact ⟨stored, .of_short (shortfall?_of_lt ‹_› _)⟩
    · exact ⟨stored.delete separate within, .of_covered (shortfall?_of_not_lt ‹_› _) trivial⟩
  | set type key value => exact within.elim
  | load type key => exact within.elim
  | clear key => exact within.elim

/-- What holds before a run of operations holds after each of them. -/
theorem perform {operations : List Operation} {store : Store ChangeSet}
    (separate : Separate keys bound) (stored : Stored keys bound held store.ledger)
    (costs : StorageCosts) (within : ∀ operation ∈ operations, operation.Within keys bound)
    {earlier later : List Performed} {step : Performed}
    (performed : Store.perform costs operations store = earlier ++ step :: later) :
    Stored keys bound (heldFrom held (earlier ++ [step])) step.after.ledger ∧
      step.operation.Faithful costs (heldFrom held earlier) step.before.meter step.result := by
  induction operations generalizing held store earlier with
  | nil => exact absurd performed (by simp [Store.perform])
  | cons operation operations ih =>
    obtain ⟨now, rest⟩ := List.forall_mem_cons.1 within
    obtain ⟨kept, faithful⟩ := stored.step separate costs now
    cases earlier with
    | nil =>
      obtain ⟨rfl, -⟩ := List.cons.inj performed
      exact ⟨kept, faithful⟩
    | cons first earlier =>
      obtain ⟨rfl, others⟩ := List.cons.inj performed
      exact ih kept rest others

/-! ## Counting -/

/-- The cells that the value under a key keeps live. -/
def liveOrbit (held : Holding) (key : Bytes) : List Cell :=
  orbit (wordsOf (visible (held key))).length (headCell key)

theorem liveOrbit_subset (stored : Stored keys bound held changes) (member : key ∈ keys) :
    liveOrbit held key ⊆ orbit bound (headCell key) :=
  orbit_subset ((length_wordsOf_visible_le _).trans (stored.fits key member)) _

theorem nodup_liveOrbit (separate : Separate keys bound) (stored : Stored keys bound held changes)
    (member : key ∈ keys) : (liveOrbit held key).Nodup :=
  nodup_orbit_of_le ((length_wordsOf_visible_le _).trans (stored.fits key member))
    (separate.distinct key member)

theorem content_ne_zero_iff (separate : Separate keys bound)
    (stored : Stored keys bound held changes) (member : key ∈ keys) {cell : Cell}
    (inside : cell ∈ orbit bound (headCell key)) :
    changes.content cell ≠ .zero ↔ cell ∈ liveOrbit held key := by
  obtain ⟨i, lt, rfl⟩ := mem_orbit.1 inside
  have fits := stored.fits key member
  rw [stored.along key member i lt, liveOrbit]
  rcases value : held key with _ | _ | ⟨byte, rest⟩
  · exact ⟨fun live => absurd rfl live, fun again => by cases again⟩
  · refine ⟨fun live => absurd ?_ live, fun again => by cases again⟩
    rcases i with _ | i
    · rfl
    · rfl
  · rw [value] at fits
    constructor
    · intro live
      refine iterate_mem_orbit ?_ _
      by_contra beyond
      exact live (List.getD_eq_default _ _ (Nat.not_lt.1 beyond))
    · intro again
      obtain ⟨j, before, same⟩ := mem_orbit.1 again
      have early : i < (encode (byte :: rest)).length := by
        have eq := iterate_inj (separate.distinct key member) (lt_of_lt_of_le before fits) lt same
        exact eq ▸ before
      rw [wordsOf, List.getD_eq_getElem _ _ early]
      exact encode_ne_zero (List.cons_ne_nil _ _) _ (List.getElem_mem early)

/-- The live slots of an address are the words of its values. -/
theorem liveSlots (separate : Separate keys bound) (stored : Stored keys bound held changes)
    (member : key ∈ keys) :
    changes.liveSlots (headCell key).owner =
      ∑ other ∈ keys with (headCell other).owner = (headCell key).owner,
        (((held other).getD []).length + 30) / 31 := by
  have exact (cell : Cell) :
      cell ∈ (keys.filter fun other => (headCell other).owner = (headCell key).owner).biUnion
          (fun other => (liveOrbit held other).toFinset) ↔
        cell.owner = (headCell key).owner ∧ changes.content cell ≠ .zero := by
    simp only [Finset.mem_biUnion, Finset.mem_filter, List.mem_toFinset]
    constructor
    · rintro ⟨other, ⟨member', same⟩, live⟩
      have inside := stored.liveOrbit_subset member' live
      have owned := (owner_of_mem_orbit inside).trans same
      exact ⟨owned, (stored.content_ne_zero_iff separate member' inside).2 live⟩
    · rintro ⟨owned, live⟩
      by_contra none
      refine live (stored.beyond key member cell owned fun other member' inside => none ?_)
      have same := (owner_of_mem_orbit inside).symm.trans owned
      exact ⟨other, ⟨member', same⟩, (stored.content_ne_zero_iff separate member' inside).1 live⟩
  rw [ChangeSet.liveSlots_eq_card exact, Finset.card_biUnion]
  · apply Finset.sum_congr rfl
    intro other member'
    have here := (Finset.mem_filter.1 member').1
    rw [List.toFinset_card_of_nodup (stored.nodup_liveOrbit separate here), liveOrbit,
      length_orbit, length_wordsOf_visible]
  · intro first member₁ second member₂ different
    have here₁ := (Finset.mem_filter.1 member₁).1
    have here₂ := (Finset.mem_filter.1 member₂).1
    apply Finset.disjoint_left.2
    intro cell inside₁ inside₂
    exact separate.disjoint here₁ here₂ different
      (stored.liveOrbit_subset here₁ (List.mem_toFinset.1 inside₁))
      (stored.liveOrbit_subset here₂ (List.mem_toFinset.1 inside₂))

theorem shows (separate : Separate keys bound) (stored : Stored keys bound held changes) :
    Shows keys bound held changes where
  cells _ member := stored.map_orbit member
  live _ member := stored.liveSlots separate member

end Stored

/-- Started on addresses without live slots, the store is a map after every operation, and an operation
fails just when the meter does not cover it. -/
theorem shows_after_each_operation {keys : Finset Bytes} {bound : Nat}
    (separate : Separate keys bound) {store : Store ChangeSet}
    (vacant : ∀ key ∈ keys, ∀ slot, store.ledger.content ⟨(headCell key).owner, slot⟩ = .zero)
    (costs : StorageCosts) {operations : List Operation}
    (within : ∀ operation ∈ operations, operation.Within keys bound)
    {earlier later : List Performed} {step : Performed}
    (performed : perform costs operations store = earlier ++ step :: later) :
    Shows keys bound (heldAfter (earlier ++ [step])) step.after.ledger ∧
      step.operation.Faithful costs (heldAfter earlier) step.before.meter step.result := by
  have start := stored_of_vacant bound vacant
  obtain ⟨stored, faithful⟩ := start.perform separate costs within performed
  exact ⟨stored.shows separate, faithful⟩

/-- Two keys of one address. -/
def twoKeys : Finset Bytes := {joinKey .zero [[0x61]], joinKey .zero [[0x62]]}

theorem separate_twoKeys : Separate twoKeys 2 where
  long := by decide +kernel
  distinct := by decide +kernel
  apart := by decide +kernel

/-- A value of two words is put, a value of one word over it, and that one is read. -/
def overwriting : List Operation :=
  [.put (joinKey .zero [[0x61]]) (List.replicate 40 0x2a), .put (joinKey .zero [[0x61]]) [0x2a],
    .get (joinKey .zero [[0x61]])]

/-- The second word of the value that is put first is gone. What the two values leave of 6000 units is
not enough to read. -/
theorem shows_after_overwriting :
    ∃ earlier step later,
      perform .standard overwriting ⟨.empty, ⟨6000⟩⟩ = earlier ++ step :: later ∧
        Shows twoKeys 2 (heldAfter (earlier ++ [step])) step.after.ledger ∧
        step.operation.Faithful .standard (heldAfter earlier) step.before.meter step.result ∧
        (orbit 2 (headCell (joinKey .zero [[0x61]]))).map step.after.ledger.content =
          encode [0x2a] ++ [.zero] ∧
        step.result = .error (.insufficientGas 1000 770) := by
  have within : ∀ operation ∈ overwriting, operation.Within twoKeys 2 := by
    simp only [overwriting, List.forall_mem_cons, List.not_mem_nil, false_implies, implies_true,
      and_true, Operation.Within]
    decide
  obtain ⟨earlier, step, later, performed, held, short⟩ : ∃ earlier step later,
      perform .standard overwriting ⟨.empty, ⟨6000⟩⟩ = earlier ++ step :: later ∧
        heldAfter (earlier ++ [step]) (joinKey .zero [[0x61]]) = some [0x2a] ∧
        shortfall? (step.operation.charges .standard (heldAfter earlier))
          step.before.meter.remaining = some (.insufficientGas 1000 770) :=
    ⟨[_, _], _, [], rfl, by decide +kernel, by decide +kernel⟩
  obtain ⟨shows, faithful⟩ := shows_after_each_operation separate_twoKeys
    (fun _ _ _ => ChangeSet.content_empty _) .standard within performed
  have cells := shows.cells (joinKey .zero [[0x61]]) (by decide)
  rw [held] at cells
  exact ⟨earlier, step, later, performed, shows, faithful, cells, faithful.short _ short⟩

end ContractHost.Store
