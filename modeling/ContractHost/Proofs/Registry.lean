import Mathlib
import ContractHost.Proofs.Execution.Steps

/-!
# What is registered is what is found

A registry is filled by a series of registrations, and a contract's table of methods by a series of
declarations. In both, of those with one key the last counts (`getElem?_foldl_insert`). What the
table holds under a selector is not the method itself but where it was declared, and that is still the
place of its handler however many declarations were overwritten (`method?_ofContract`). So what a
call finds can be read off the registrations and declarations directly, without any table
(`registered_methods_found`).
-/

namespace ContractHost

/-! ## Filling a table -/

section Table

variable {κ ν α : Type} [Ord κ] [Std.TransOrd κ] [Std.LawfulEqOrd κ]

theorem mem_foldl_insert (key : α → κ) (value : α → ν) (list : List α)
    (map : Std.ExtTreeMap κ ν) (k : κ) :
    k ∈ list.foldl (fun map a => map.insert (key a) (value a)) map ↔
      k ∈ list.map key ∨ k ∈ map := by
  induction list generalizing map with
  | nil => simp
  | cons a rest ih =>
    rw [List.foldl_cons, ih, Std.ExtTreeMap.mem_insert, Std.compare_eq_iff_eq, List.map_cons,
      List.mem_cons, eq_comm]
    tauto

variable [DecidableEq κ]

/-- Of the entries with one key the last counts. -/
theorem getElem?_foldl_insert (key : α → κ) (value : α → ν) (list : List α)
    (map : Std.ExtTreeMap κ ν) (k : κ) :
    (list.foldl (fun map a => map.insert (key a) (value a)) map)[k]? =
      ((list.findRev? fun a => key a = k).map value).or map[k]? := by
  rw [List.findRev?_eq_find?_reverse, List.foldl_eq_foldr_reverse]
  induction list.reverse with
  | nil => rfl
  | cons a rest ih =>
    rw [List.foldr_cons, Std.ExtTreeMap.getElem?_insert, ih, List.find?_cons]
    by_cases same : key a = k
    · simp [same]
    · simp [same]

/-- There are as many entries as there are different keys. -/
theorem size_foldl_insert (key : α → κ) (value : α → ν) (list : List α) :
    (list.foldl (fun map a => map.insert (key a) (value a)) (∅ : Std.ExtTreeMap κ ν)).size =
      (list.map key).toFinset.card := by
  have distinct := Std.ExtTreeMap.distinct_keys
    (t := list.foldl (fun map a => map.insert (key a) (value a)) (∅ : Std.ExtTreeMap κ ν))
  rw [← Std.ExtTreeMap.length_keys, ← List.toFinset_card_of_nodup]
  · congr 1
    ext k
    rw [List.mem_toFinset, List.mem_toFinset, Std.ExtTreeMap.mem_keys, mem_foldl_insert]
    simp
  · exact distinct.imp fun differ same => differ (Std.compare_eq_iff_eq.2 same)

end Table

/-- The last element with a property, sought for with its place or without. -/
theorem findRev?_zipIdx {α : Type} (list : List α) (p : α → Bool) :
    (list.zipIdx.findRev? fun entry => p entry.1).map Prod.fst = list.findRev? p := by
  have mapped : (list.zipIdx.reverse.map Prod.fst).find? p = _ := List.find?_map
  rw [List.map_reverse, List.zipIdx_map_fst] at mapped
  rw [List.findRev?_eq_find?_reverse, List.findRev?_eq_find?_reverse]
  exact mapped.symm

/-! ## Contracts -/

variable {σ ω : Type}

/-- The selector under which a method is declared. -/
def Method.selector (method : Method ω) : Selector := Selector.ofSignature method.signature

/-- The last declaration of a selector. -/
def Contract.lastMethod? (contract : Contract ω) (selector : Selector) : Option (Method ω) :=
  contract.methods.findRev? fun method => method.selector = selector

theorem Contract.isSome_lastMethod? {contract : Contract ω} {selector : Selector} :
    (contract.lastMethod? selector).isSome = true ↔
      ∃ method ∈ contract.methods, method.selector = selector := by
  rw [lastMethod?, List.findRev?_eq_find?_reverse, List.find?_isSome]
  simp

namespace Descriptor

variable {config : Config} {address : Address} {contract : Contract ω} {selector : Selector}

/-- The table is filled with the declarations in their order. -/
theorem entries_ofContract (config : Config) (address : Address) (contract : Contract ω) :
    (ofContract config address contract).entries =
      contract.methods.zipIdx.foldl (fun entries declared =>
        entries.insert declared.1.selector (entryOf config declared.1 declared.2)) ∅ := rfl

theorem method?_ofContract (config : Config) (address : Address) (contract : Contract ω)
    (selector : Selector) :
    (ofContract config address contract).method? selector =
      (contract.methods.zipIdx.findRev? fun declared => declared.1.selector = selector).map
        fun declared => entryOf config declared.1 declared.2 := by
  rw [method?, entries_ofContract,
    getElem?_foldl_insert fun declared : Method ω × Nat => declared.1.selector]
  simp

theorem method?_of_none (undeclared : contract.lastMethod? selector = none) :
    (ofContract config address contract).method? selector = none := by
  have listed := findRev?_zipIdx contract.methods fun method => method.selector = selector
  rw [← Contract.lastMethod?, undeclared, Option.map_eq_none_iff] at listed
  rw [method?_ofContract, listed]
  rfl

/-- What is declared last is what the table names, and the place that the table holds is the place of
its handler. -/
theorem method?_of_some (config : Config) (address : Address) {method : Method ω}
    (last : contract.lastMethod? selector = some method) :
    ∃ index,
      (ofContract config address contract).method? selector =
        some (entryOf config method index) ∧
      (ofContract config address contract).handler (entryOf config method index) =
        .ok method.handler := by
  have listed := findRev?_zipIdx contract.methods fun method => method.selector = selector
  rw [← Contract.lastMethod?, last] at listed
  obtain ⟨⟨method', index⟩, found, rfl⟩ := Option.map_eq_some_iff.1 listed
  refine ⟨index, ?_, ?_⟩
  · rw [method?_ofContract, found]
    rfl
  · rw [List.findRev?_eq_find?_reverse] at found
    have member := List.mem_reverse.1 (List.mem_of_find?_eq_some found)
    have placed : contract.methods[index]? = some method' := List.mem_zipIdx_iff_getElem?.1 member
    have handled : (ofContract config address contract).handlers[index]? = some method'.handler := by
      rw [ofContract, List.getElem?_map, placed]
      rfl
    simp only [handler, entryOf, handled]

/-- Only different selectors count. -/
theorem methodCount_ofContract (config : Config) (address : Address) (contract : Contract ω) :
    (ofContract config address contract).methodCount =
      (contract.methods.map Method.selector).toFinset.card := by
  have selectors : contract.methods.zipIdx.map (fun declared => declared.1.selector) =
      contract.methods.map Method.selector := by
    rw [show (fun declared : Method ω × Nat => declared.1.selector) = Method.selector ∘ Prod.fst
      from rfl, ← List.map_map, List.zipIdx_map_fst]
  rw [methodCount, entries_ofContract,
    size_foldl_insert fun declared : Method ω × Nat => declared.1.selector, selectors]

end Descriptor

/-! ## Registries -/

/-- The last contract that is registered at an address. -/
def lastContract? (registrations : List (Address × Contract ω)) (address : Address) :
    Option (Contract ω) :=
  (registrations.findRev? fun registration => registration.1 = address).map Prod.snd

namespace Registry

/-- The registry after a series of registrations. -/
def ofList (config : Config) (registrations : List (Address × Contract ω)) : Registry ω :=
  registrations.foldl (fun registry registration => registry.register registration.1 registration.2)
    (empty config)

theorem foldl_register (registrations : List (Address × Contract ω)) (registry : Registry ω) :
    registrations.foldl (fun registry registration =>
        registry.register registration.1 registration.2) registry =
      ⟨registry.config, registrations.foldl (fun contracts registration =>
        contracts.insert registration.1
          (.ofContract registry.config registration.1 registration.2)) registry.contracts⟩ := by
  induction registrations generalizing registry with
  | nil => rfl
  | cons registration rest ih => exact ih _

theorem ofList_eq (config : Config) (registrations : List (Address × Contract ω)) :
    ofList config registrations =
      ⟨config, registrations.foldl (fun contracts registration =>
        contracts.insert registration.1
          (.ofContract config registration.1 registration.2)) ∅⟩ :=
  foldl_register registrations (empty config)

@[simp] theorem config_ofList (config : Config) (registrations : List (Address × Contract ω)) :
    (ofList config registrations).config = config := by
  rw [ofList_eq]

theorem get?_ofList (config : Config) (registrations : List (Address × Contract ω))
    (address : Address) :
    (ofList config registrations).get? address =
      (lastContract? registrations address).map (.ofContract config address) := by
  rw [ofList_eq, get?]
  dsimp only
  rw [getElem?_foldl_insert fun registration : Address × Contract ω => registration.1, lastContract?]
  cases found : registrations.findRev? fun registration => registration.1 = address with
  | none => simp
  | some registration =>
    rw [List.findRev?_eq_find?_reverse] at found
    have same : registration.1 = address := by simpa using List.find?_some found
    simp [same]

theorem contains_ofList_iff {config : Config} {registrations : List (Address × Contract ω)}
    {address : Address} :
    (ofList config registrations).contains address = true ↔
      address ∈ registrations.map Prod.fst := by
  rw [ofList_eq, contains, Std.ExtTreeMap.contains_iff_mem]
  dsimp only
  rw [mem_foldl_insert fun registration : Address × Contract ω => registration.1]
  simp

/-- The addresses of any registry are in increasing order, and those at which it has contracts. -/
theorem addresses_spec (registry : Registry ω) :
    registry.addresses.Pairwise (fun a b => compare a b = .lt) ∧
      (∀ address, address ∈ registry.addresses ↔ registry.contains address = true) ∧
      registry.addresses.length = registry.size := by
  refine ⟨Std.ExtTreeMap.ordered_keys, ?_, Std.ExtTreeMap.length_keys⟩
  intro address
  rw [addresses, Std.ExtTreeMap.mem_keys, contains, Std.ExtTreeMap.contains_iff_mem]

end Registry

/-! ## Calls -/

/-- The current frame of a valid stack calls its target with a payload that begins with a
selector. -/
structure CallStack.Calls (stack : CallStack) (frame : Frame) (selector : Selector) : Prop where
  valid : stack.validate = .ok ()
  current : stack.current? = some frame
  selected : Selector.ofPayload? frame.payload = some selector

@[simp] theorem Selector.ofPayload?_append (selector : Selector) (input : Bytes) :
    ofPayload? (selector.toList ++ input) = some selector := by
  have front : (selector.toList ++ input).take 4 = selector.toList :=
    List.take_left' selector.length_toList
  rw [ofPayload?, front, FixedBytes.ofList?, dif_pos selector.length_toList]

namespace Environment

variable {environment : Environment ω} {config : Config}
  {registrations : List (Address × Contract ω)} {frame : Frame} {selector : Selector}

theorem lookup_of_calls {stack : CallStack} (calls : stack.Calls frame selector) :
    environment.lookup stack =
      match environment.registry.get? frame.target with
      | none => .error (.unknownContract frame.target)
      | some contract =>
        match contract.method? selector with
        | none => .error (.unknownMethod frame.target selector)
        | some entry => .ok ⟨frame, selector, contract, entry⟩ := by
  unfold lookup
  rw [calls.valid, calls.current]
  cases registered : environment.registry.get? frame.target with
  | none =>
    simp only [calls.selected, registered]
    rfl
  | some contract =>
    cases declared : contract.method? selector with
    | none =>
      simp only [calls.selected, registered, declared]
      rfl
    | some entry =>
      simp only [calls.selected, registered, declared]
      rfl

/-- What is registered and declared last is found, at its price. -/
theorem lookup_of_some (registered : environment.registry = .ofList config registrations)
    {stack : CallStack} (calls : stack.Calls frame selector) {contract : Contract ω}
    {method : Method ω} (last : lastContract? registrations frame.target = some contract)
    (declared : contract.lastMethod? selector = some method) :
    ∃ found, environment.lookup stack = .ok found ∧
      environment.entryGas found = max (config.methodGas method.rawGas) config.basicGas ∧
      Found.start found = .ok (⟨contract.name, frame, selector⟩, method.handler) := by
  obtain ⟨index, named, handled⟩ :=
    Descriptor.method?_of_some config frame.target declared
  have found : environment.registry.get? frame.target =
      some (.ofContract config frame.target contract) := by
    rw [registered, Registry.get?_ofList, last]
    rfl
  refine ⟨⟨frame, selector, .ofContract config frame.target contract,
    Descriptor.entryOf config method index⟩, ?_, ?_, ?_⟩
  · rw [lookup_of_calls calls, found]
    dsimp only
    rw [named]
  · rw [entryGas, basicGas, registered, Registry.config_ofList]
    rfl
  · rw [Found.start, handled]
    rfl

/-- Where nothing is registered, or not the selector declared, nothing is found. -/
theorem exists_lookup_error (registered : environment.registry = .ofList config registrations)
    {stack : CallStack} (calls : stack.Calls frame selector)
    (undeclared : ∀ contract, lastContract? registrations frame.target = some contract →
      contract.lastMethod? selector = none) :
    ∃ cause, environment.lookup stack = .error cause := by
  rw [lookup_of_calls calls, registered, Registry.get?_ofList]
  cases last : lastContract? registrations frame.target with
  | none => exact ⟨_, rfl⟩
  | some contract =>
    dsimp only [Option.map_some]
    rw [Descriptor.method?_of_none (undeclared contract last)]
    exact ⟨_, rfl⟩

theorem ne_execution_of_lookup {stack : CallStack} {cause : RuntimeError}
    (looked : environment.lookup stack = .error cause) (text : String) :
    cause ≠ .execution text := by
  rintro rfl
  rcases environment.lookup_cases stack with
    ⟨cause, refused, failed⟩ | ⟨cause, -, failed, unresolved⟩ | ⟨found, finds, -⟩
  · rw [looked] at failed
    cases failed
    unfold CallStack.validate at refused
    split at refused
    · cases refused
    · split at refused
      · cases refused
      · cases refused
  · rw [looked] at failed
    cases failed
    cases unresolved
  · rw [looked] at finds
    cases finds

/-- Whatever is found was registered and declared last, and its handler is there. -/
theorem exists_last_of_lookup (registered : environment.registry = .ofList config registrations)
    {stack : CallStack} {found : Found ω} (looked : environment.lookup stack = .ok found) :
    ∃ contract method, lastContract? registrations found.frame.target = some contract ∧
      contract.lastMethod? found.selector = some method ∧
      Found.start found = .ok (⟨contract.name, found.frame, found.selector⟩, method.handler) := by
  have finds := finds_of_lookup looked
  have calls : stack.Calls found.frame found.selector :=
    ⟨finds.valid, finds.current, finds.selected⟩
  by_contra missing
  have undeclared : ∀ contract, lastContract? registrations found.frame.target = some contract →
      contract.lastMethod? found.selector = none := by
    intro contract last
    cases declared : contract.lastMethod? found.selector with
    | none => rfl
    | some method =>
      obtain ⟨found', looked', -, started⟩ := lookup_of_some registered calls last declared
      rw [looked] at looked'
      cases looked'
      exact absurd ⟨contract, method, last, declared, started⟩ missing
  obtain ⟨cause, failed⟩ := exists_lookup_error registered calls undeclared
  rw [looked] at failed
  cases failed

/-- The place that a table holds is never one where no handler is. -/
theorem resolve_ne_execution (registered : environment.registry = .ofList config registrations)
    (x : Execution σ ω) (text : String) :
    (Fallible.eval environment.resolve x).1 ≠ .error (.execution text) := by
  rw [eval_resolve]
  split
  · simp
  · cases looked : environment.lookup x.stack with
    | error cause =>
      have other := ne_execution_of_lookup looked text
      simpa using other
    | ok found =>
      dsimp only
      split
      · simp
      · obtain ⟨contract, method, -, -, started⟩ := exists_last_of_lookup registered looked
        simp [started]

/-- With enough gas the handler is ready that was registered and declared last. -/
theorem resolve_of_last (registered : environment.registry = .ofList config registrations)
    {x : Execution σ ω} (calls : x.stack.Calls frame selector) {contract : Contract ω}
    {method : Method ω} (last : lastContract? registrations frame.target = some contract)
    (declared : contract.lastMethod? selector = some method)
    (covered : max (config.methodGas method.rawGas) config.basicGas ≤ x.meter.remaining) :
    ∃ log, Fallible.eval environment.resolve x =
      (.ok (⟨contract.name, frame, selector⟩, method.handler),
        { x with
          meter := ⟨x.meter.remaining - max (config.methodGas method.rawGas) config.basicGas⟩
          log }) := by
  obtain ⟨found, looked, price, started⟩ := lookup_of_some registered calls last declared
  refine ⟨x.log ++ [foundEntry x.stack found], ?_⟩
  rw [← price] at covered ⊢
  rw [environment.eval_resolve_of_ok looked covered, started]
  rfl

/-- With enough gas for what was declared last a call finds a method just when one was declared. -/
theorem resolves_iff (registered : environment.registry = .ofList config registrations)
    {x : Execution σ ω} (calls : x.stack.Calls frame selector)
    (covered : ∀ contract method, lastContract? registrations frame.target = some contract →
      contract.lastMethod? selector = some method →
        max (config.methodGas method.rawGas) config.basicGas ≤ x.meter.remaining) :
    (∃ started, (Fallible.eval environment.resolve x).1 = .ok started) ↔
      ∃ contract, lastContract? registrations frame.target = some contract ∧
        ∃ method ∈ contract.methods, method.selector = selector := by
  constructor
  · rintro ⟨⟨invocation, handler⟩, resolved⟩
    have whole : Fallible.eval environment.resolve x =
        (.ok (invocation, handler), (Fallible.eval environment.resolve x).2) :=
      Prod.ext resolved rfl
    obtain ⟨found, looked, -, -⟩ := exists_found_of_resolve whole
    obtain ⟨contract, method, last, declared, -⟩ := exists_last_of_lookup registered looked
    have finds := finds_of_lookup looked
    obtain rfl : frame = found.frame := Option.some.inj (calls.current.symm.trans finds.current)
    obtain rfl : selector = found.selector :=
      Option.some.inj (calls.selected.symm.trans finds.selected)
    exact ⟨contract, last, Contract.isSome_lastMethod?.1 (declared ▸ rfl)⟩
  · rintro ⟨contract, last, declares⟩
    obtain ⟨method, declared⟩ :=
      Option.isSome_iff_exists.1 (Contract.isSome_lastMethod?.2 declares)
    obtain ⟨log, resolved⟩ := resolve_of_last registered calls last declared
      (covered contract method last declared)
    rw [resolved]
    exact ⟨_, rfl⟩

variable [Ledger σ]

/-- A call that has the gas for it finds a method just when the last contract registered at its
target declares the selector. It starts the handler of the last such declaration, for the larger of
the method's gas and the basic gas, and never misses a handler. A contract answers to as many methods
as it declares selectors, and the registered addresses are listed once each, in increasing order. -/
theorem registered_methods_found (environment : Environment ω)
    (registered : environment.registry = .ofList config registrations) :
    (∀ (x : Execution σ ω) frame selector, x.stack.Calls frame selector →
      (∀ contract method, lastContract? registrations frame.target = some contract →
        contract.lastMethod? selector = some method →
          max (config.methodGas method.rawGas) config.basicGas ≤ x.meter.remaining) →
      ((∃ started, (Fallible.eval environment.resolve x).1 = .ok started) ↔
        ∃ contract, lastContract? registrations frame.target = some contract ∧
          ∃ method ∈ contract.methods, method.selector = selector)) ∧
      (∀ (x : Execution σ ω) frame selector contract method, x.stack.Calls frame selector →
        lastContract? registrations frame.target = some contract →
        contract.lastMethod? selector = some method →
        max (config.methodGas method.rawGas) config.basicGas ≤ x.meter.remaining →
        ∃ log,
          let invocation : Invocation := ⟨contract.name, frame, selector⟩
          let started : Execution σ ω := { x with
            meter := ⟨x.meter.remaining - max (config.methodGas method.rawGas) config.basicGas⟩
            log }
          Fallible.eval environment.resolve x = (.ok (invocation, method.handler), started) ∧
            ∀ call, Fallible.eval (environment.dispatch call) x =
              (environment.runWith call (method.handler invocation).run).run started) ∧
      (∀ (x : Execution σ ω) frame selector contract method,
        (x.enter frame).stack.Calls frame selector →
        lastContract? registrations frame.target = some contract →
        contract.lastMethod? selector = some method →
        max (config.methodGas method.rawGas) config.basicGas ≤ x.meter.remaining →
        ∃ log,
          let invocation : Invocation := ⟨contract.name, frame, selector⟩
          let started : Execution σ ω := { x.enter frame with
            meter := ⟨x.meter.remaining - max (config.methodGas method.rawGas) config.basicGas⟩
            log }
          let outcome := (environment.runWith (environment.callWithin x.stack.maxDepth)
            (method.handler invocation).run).run started
          Fallible.eval (environment.call frame) x =
            (outcome.1, environment.leave frame outcome.1 outcome.2)) ∧
      (∀ (x : Execution σ ω) text,
        (Fallible.eval environment.resolve x).1 ≠ .error (.execution text)) ∧
      (∀ address contract, lastContract? registrations address = some contract →
        ∃ descriptor, environment.registry.get? address = some descriptor ∧
          descriptor.methodCount = (contract.methods.map Method.selector).toFinset.card) ∧
      environment.registry.addresses.Pairwise (fun a b => compare a b = .lt) ∧
      (∀ address, address ∈ environment.registry.addresses ↔
        environment.registry.contains address = true) ∧
      (∀ address, environment.registry.contains address = true ↔
        address ∈ registrations.map Prod.fst) ∧
      environment.registry.addresses.length = environment.registry.size := by
  obtain ⟨increasing, listed, counted⟩ := environment.registry.addresses_spec
  refine ⟨fun x frame selector calls => resolves_iff registered calls, ?_, ?_,
    resolve_ne_execution registered, ?_, increasing, listed, ?_, counted⟩
  · intro x frame selector contract method calls last declared covered
    obtain ⟨log, resolved⟩ := resolve_of_last registered calls last declared covered
    refine ⟨log, resolved, fun call => ?_⟩
    rw [eval_dispatch, resolved]
  · intro x frame selector contract method calls last declared covered
    obtain ⟨log, resolved⟩ := resolve_of_last registered calls last declared covered
    refine ⟨log, ?_⟩
    rw [eval_call, eval_callWithin_succ, eval_dispatch, resolved]
    rfl
  · intro address contract last
    refine ⟨.ofContract config address contract, ?_,
      Descriptor.methodCount_ofContract config address contract⟩
    rw [registered, Registry.get?_ofList, last]
    rfl
  · intro address
    rw [registered, Registry.contains_ofList_iff]

/-- A contract that declares one signature twice, and another one between. -/
def echo : Contract Unit where
  name := "Echo"
  methods := [
    { signature := "echo(bytes)", rawGas := 500, handler := fun _ => .mk (.done (.ok [0x31])) },
    { signature := "mute()", rawGas := 0, handler := fun _ => .mk (.done (.ok [])) },
    { signature := "echo(bytes)", rawGas := 900, handler := fun _ => .mk (.done (.ok [0x32])) }]

/-- A contract without methods, and then `echo` in its place. -/
def echoHost : Environment Unit where
  registry := .ofList .standard
    [(.zero, ⟨"Mute", []⟩), (.ofUInt64 1, ⟨"Mute", []⟩), (.zero, echo)]
  transaction := .empty
  bridge? := none

/-- The later declaration answers. -/
theorem registered_methods_found_echo :
    let frame : Frame := ⟨.zero, .zero, (Selector.ofSignature "echo(bytes)").toList ++ [0x2a]⟩
    let start : Execution ChangeSet Unit := .startSystem echoHost .empty ()
    (Fallible.eval (echoHost.call frame) start).1 = .ok [0x32] ∧
      echoHost.registry.addresses.length = 2 := by
  intro frame start
  obtain ⟨-, -, starts, -, -, -, -, -, counted⟩ :=
    @registered_methods_found ChangeSet Unit .standard _ _ echoHost rfl
  have calls : (start.enter frame).stack.Calls frame (Selector.ofSignature "echo(bytes)") :=
    ⟨rfl, rfl, Selector.ofPayload?_append _ _⟩
  have declared : echo.lastMethod? (Selector.ofSignature "echo(bytes)") = some echo.methods[2] := by
    simp [Contract.lastMethod?, echo, Method.selector]
  have covered (price : Gas) : price ≤ Gas.largest := by
    have bound := price.toNat_lt
    rw [UInt64.le_iff_toNat_le, Gas.toNat_largest]
    omega
  obtain ⟨log, runs⟩ :=
    starts start frame _ echo _ calls (by simp [lastContract?, frame]) declared (covered _)
  refine ⟨?_, ?_⟩
  · rw [runs]
    rfl
  · rw [counted]
    decide +kernel

end Environment

end ContractHost
