import Mathlib
import ContractHost.Json.Reader
import ContractHost.Proofs.Decimal

/-!
# Reading what was written

A reader takes a part off the front of a text and returns what follows it. What follows must not go on
with the part: behind digits there is no digit, behind a number none of the characters that numbers are
made of (`Delimits`). So the parts of a value read back in front of the commas, colons and brackets that
stand behind them, and a whole text reads as the value it was written from (`ofText?_text`). That is
said of values that are well formed: their numbers have no superfluous zeros in front, and in their
strings only code units stand for the characters that have to be escaped in full.
-/

namespace ContractHost

open Decimal (Digit Numeral IsWhole digits ofDigits ofDigits_digits isWhole_digits)

namespace Json

/-! ## Digits -/

/-- No digit follows. -/
def NoDigit (rest : List Char) : Prop := ∀ c ∈ rest.head?, Digit.ofChar? c = none

theorem ofChar?_char (d : Digit) : Digit.ofChar? d.char = some d := by
  revert d
  decide

theorem spanDigits_map (ds : List Digit) {rest : List Char} (ends : NoDigit rest) :
    spanDigits (ds.map Digit.char ++ rest) = (ds, rest) := by
  induction ds with
  | nil =>
    cases rest with
    | nil => rfl
    | cons c rest =>
      have none := ends c rfl
      rw [List.map_nil, List.nil_append, spanDigits, none]
  | cons d ds ih => rw [List.map_cons, List.cons_append, spanDigits, ofChar?_char, ih]

theorem readDigits?_map {ds : List Digit} (some : ds ≠ []) {rest : List Char} (ends : NoDigit rest) :
    readDigits? (ds.map Digit.char ++ rest) = .some (ds, rest) := by
  rw [readDigits?, spanDigits_map ds ends]
  cases ds with
  | nil => exact absurd rfl some
  | cons d ds => rfl

theorem readWhole?_map {ds : List Digit} (whole : IsWhole ds) {rest : List Char}
    (ends : NoDigit rest) : readWhole? (ds.map Digit.char ++ rest) = some (ds, rest) := by
  obtain ⟨d, tail, rfl, alone⟩ := whole
  rw [readWhole?, readDigits?_map (List.cons_ne_nil d tail) ends]
  split
  · rename_i found
    cases found
    cases alone rfl
  · rfl

/-! ## Numbers -/

/-- What follows is nothing that a number could go on with. -/
def Delimits (rest : List Char) : Prop :=
  ∀ c ∈ rest.head?, Digit.ofChar? c = none ∧ c ≠ '.' ∧ c ≠ 'e' ∧ c ≠ 'E'

/-- The digits behind the point, if there are any. -/
def fractionText (ds : List Digit) : List Char :=
  if ds.isEmpty then [] else '.' :: ds.map Digit.char

/-- The exponent, if there is one. -/
def exponentText : Option Int → List Char
  | none => []
  | some power => Numeral.exponentText power

theorem readExponent?_text (exponent : Option Int) {rest : List Char} (ends : Delimits rest) :
    readExponent? (exponentText exponent ++ rest) = some (exponent, rest) := by
  cases exponent with
  | none =>
    cases rest with
    | nil => rfl
    | cons c rest =>
      obtain ⟨-, -, lower, upper⟩ := ends c rfl
      exact if_neg (not_or.2 ⟨lower, upper⟩)
  | some power =>
    have nonempty : digits power.natAbs ≠ [] := by
      obtain ⟨d, tail, split, -⟩ := isWhole_digits power.natAbs
      exact split ▸ List.cons_ne_nil d tail
    have read := readDigits?_map nonempty fun c member => (ends c member).1
    have value := ofDigits_digits power.natAbs
    show readExponent? ('e' :: (if power < 0 then '-' else '+') ::
      ((digits power.natAbs).map Digit.char ++ rest)) = _
    rw [readExponent?, if_pos (.inl rfl)]
    by_cases negative : power < 0
    · rw [if_pos negative]
      simp only [readSign, read, value, Option.map_some, if_true]
      congr 3
      omega
    · rw [if_neg negative]
      simp only [readSign, read, value, Option.map_some, Bool.false_eq_true, if_false]
      congr 3
      omega

theorem head_exponentText (exponent : Option Int) {rest : List Char} (ends : Delimits rest) :
    ∀ c ∈ (exponentText exponent ++ rest).head?, Digit.ofChar? c = none ∧ c ≠ '.' := by
  cases exponent with
  | none => exact fun c member => ⟨(ends c member).1, (ends c member).2.1⟩
  | some power =>
    intro c member
    cases member
    exact ⟨by decide, by decide⟩

theorem readFraction?_text (ds : List Digit) {rest : List Char}
    (ends : ∀ c ∈ rest.head?, Digit.ofChar? c = none ∧ c ≠ '.') :
    readFraction? (fractionText ds ++ rest) = some (ds, rest) := by
  cases ds with
  | nil =>
    cases rest with
    | nil => rfl
    | cons c rest =>
      show readFraction? (c :: rest) = _
      unfold readFraction?
      split
      · rename_i found
        cases found
        exact absurd rfl (ends '.' rfl).2
      · rfl
  | cons d ds => exact readDigits?_map (List.cons_ne_nil d ds) fun c member => (ends c member).1

theorem noDigit_fractionText (ds : List Digit) {rest : List Char} (ends : NoDigit rest) :
    NoDigit (fractionText ds ++ rest) := by
  cases ds with
  | nil => exact ends
  | cons d ds =>
    intro c member
    cases member
    decide

/-- A number without its sign. -/
theorem readMagnitude?_text (negative : Bool) {whole : List Digit} (isWhole : IsWhole whole)
    (fraction : List Digit) (exponent : Option Int) {rest : List Char} (ends : Delimits rest) :
    readMagnitude? negative (whole.map Digit.char ++
        (fractionText fraction ++ (exponentText exponent ++ rest))) =
      some (⟨negative, whole, fraction, exponent⟩, rest) := by
  have behind := head_exponentText exponent ends
  have noDigit := noDigit_fractionText fraction fun c member => (behind c member).1
  rw [readMagnitude?, readWhole?_map isWhole noDigit]
  show (readFraction? _ >>= _) = _
  rw [readFraction?_text fraction behind]
  show (readExponent? _ >>= _) = _
  rw [readExponent?_text exponent ends]
  rfl

theorem text_numeral (n : Numeral) :
    n.text = (if n.negative then ['-'] else []) ++ (n.whole.map Digit.char ++
      (fractionText n.fraction ++ exponentText n.exponent)) := by
  rw [Numeral.text, List.append_assoc, List.append_assoc]
  rfl

theorem readNumeral?_text {n : Numeral} (isWhole : IsWhole n.whole) {rest : List Char}
    (ends : Delimits rest) : readNumeral? (n.text ++ rest) = some (n, rest) := by
  obtain ⟨negative, whole, fraction, exponent⟩ := n
  have read := readMagnitude?_text negative isWhole fraction exponent ends
  rw [text_numeral]
  simp only [List.append_assoc]
  cases negative with
  | true => exact read
  | false =>
    -- The first character is a digit, so none is taken for a sign.
    obtain ⟨d, tail, rfl, -⟩ := isWhole
    fin_cases d <;> exact read

end Json

/-! ## Strings -/

/-- A part that is written in the form in which it is read. -/
def StringPart.WellFormed : StringPart → Prop
  | char c => 32 ≤ c.toNat
  | unit code => code < 65536

namespace Json

theorem hexValue?_digitChar {n : Nat} (small : n < 16) : hexValue? (Nat.digitChar n) = some n := by
  revert n
  decide

theorem codeUnit?_unitText {code : Nat} (small : code < 65536) :
    codeUnit? (Nat.digitChar (code / 4096 % 16)) (Nat.digitChar (code / 256 % 16))
      (Nat.digitChar (code / 16 % 16)) (Nat.digitChar (code % 16)) = some code := by
  have lt (n : Nat) : n % 16 < 16 := Nat.mod_lt n (by decide)
  simp only [codeUnit?, hexValue?_digitChar (lt _)]
  show some _ = some code
  congr 1
  omega

/-- What a part of a string adds to the parts behind it. -/
theorem readString?_part {part : StringPart} (wellFormed : part.WellFormed) (rest : List Char) :
    readString? (part.text ++ rest) =
      (readString? rest).map fun read => (part :: read.1, read.2) := by
  cases part with
  | unit code =>
    show readString? ('\\' :: 'u' :: (StringPart.unitText code ++ rest)) = _
    simp only [StringPart.unitText, List.map_cons, List.map_nil, List.cons_append, List.nil_append]
    rw [readString?, codeUnit?_unitText wellFormed]
    cases readString? rest <;> rfl
  | char c =>
    have printable : ¬ c.toNat < 32 := Nat.not_lt.2 wellFormed
    by_cases escaped : c = '"' ∨ c = '\\'
    · rw [StringPart.text, if_pos escaped]
      rcases escaped with rfl | rfl
      · show readString? ('\\' :: '"' :: rest) = _
        rw [readString?]
        · cases readString? rest <;> rfl
        · exact fun _ _ _ _ _ same _ => absurd same (by decide)
      · show readString? ('\\' :: '\\' :: rest) = _
        rw [readString?]
        · cases readString? rest <;> rfl
        · exact fun _ _ _ _ _ same _ => absurd same (by decide)
    · obtain ⟨quote, backslash⟩ := not_or.1 escaped
      rw [StringPart.text, if_neg escaped, if_neg printable]
      show readString? (c :: rest) = _
      rw [readString?, if_neg (not_or.2 ⟨printable, backslash⟩)]
      · cases readString? rest <;> rfl
      · exact quote
      · exact fun _ _ _ _ _ same _ => backslash same
      · exact fun _ _ same _ => backslash same

theorem readString?_text {parts : List StringPart} (wellFormed : ∀ part ∈ parts, part.WellFormed)
    (rest : List Char) : readString? (parts.flatMap StringPart.text ++ '"' :: rest) = some (parts, rest) := by
  induction parts with
  | nil => rfl
  | cons part parts ih =>
    obtain ⟨here, later⟩ := List.forall_mem_cons.1 wellFormed
    rw [List.flatMap_cons, List.append_assoc, readString?_part here, ih later]
    rfl

end Json

/-! ## Values -/

namespace Json

/-- A value that is written in the form in which it is read. -/
inductive WellFormed : Json → Prop
  | null : WellFormed null
  | bool (value : Bool) : WellFormed (bool value)
  | number {value : Numeral} (isWhole : IsWhole value.whole) : WellFormed (number value)
  | string {parts : List StringPart} (each : ∀ part ∈ parts, part.WellFormed) :
    WellFormed (string parts)
  | array {items : List Json} (each : ∀ item ∈ items, WellFormed item) : WellFormed (array items)
  | object {members : List (List StringPart × Json)}
    (keys : ∀ member ∈ members, ∀ part ∈ member.1, part.WellFormed)
    (each : ∀ member ∈ members, WellFormed member.2) : WellFormed (object members)

/-- A value reads back, with fuel for each of its characters, in front of what delimits it. -/
def ReadsBack (value : Json) : Prop :=
  ∀ (fuel : Nat) (rest : List Char), value.text.length ≤ fuel → Delimits rest →
    readValue? fuel (value.text ++ rest) = some (value, rest)

/-- A text that begins with neither a blank nor the end of an array or an object. -/
def Opens (cs : List Char) : Prop :=
  ∃ c ∈ cs.head?, c ∉ [' ', '\t', '\n', '\r', ']', '\x7d']

theorem Opens.append {cs : List Char} (opens : Opens cs) (rest : List Char) : Opens (cs ++ rest) := by
  obtain ⟨c, first, other⟩ := opens
  refine ⟨c, ?_, other⟩
  rw [List.head?_append, Option.mem_def.1 first]
  rfl

theorem Opens.skipBlanks {cs : List Char} (opens : Opens cs) : skipBlanks cs = cs := by
  obtain ⟨c, first, other⟩ := opens
  obtain ⟨tail, rfl⟩ := List.head?_eq_some_iff.1 (Option.mem_def.1 first)
  simp only [List.mem_cons, List.not_mem_nil, or_false, not_or] at other
  obtain ⟨space, tab, feed, ret, -⟩ := other
  refine List.dropWhile_cons_of_neg ?_
  simp only [space, tab, feed, ret, decide_false, Bool.or_self, Bool.false_eq_true, not_false_eq_true]

theorem opens_numeral {n : Numeral} (isWhole : IsWhole n.whole) : Opens n.text := by
  obtain ⟨negative, whole, fraction, exponent⟩ := n
  obtain ⟨d, tail, rfl, -⟩ := isWhole
  cases negative with
  | true => exact ⟨'-', rfl, by decide⟩
  | false =>
    refine ⟨d.char, rfl, ?_⟩
    revert d
    decide

theorem opens_text {value : Json} (wellFormed : value.WellFormed) : Opens value.text := by
  cases wellFormed with
  | null => exact ⟨'n', rfl, by decide⟩
  | bool value => cases value <;> exact ⟨_, rfl, by decide⟩
  | number isWhole => exact opens_numeral isWhole
  | string each => exact ⟨'"', rfl, by decide⟩
  | array each => exact ⟨'[', rfl, by decide⟩
  | object keys each => exact ⟨'\x7b', rfl, by decide⟩

/-! ### Arrays and objects -/

theorem delimits_cons {c : Char} (rest : List Char)
    (delimits : Digit.ofChar? c = none ∧ c ≠ '.' ∧ c ≠ 'e' ∧ c ≠ 'E') : Delimits (c :: rest) := by
  intro first member
  cases member
  exact delimits

theorem opens_itemsText {items : List Json} (some : items ≠ [])
    (wellFormed : ∀ item ∈ items, item.WellFormed) : Opens (itemsText items) := by
  cases items with
  | nil => exact absurd rfl some
  | cons item items =>
    have opens := opens_text (List.forall_mem_cons.1 wellFormed).1
    cases items with
    | nil => exact opens
    | cons next items => exact opens.append _

theorem opens_membersText {members : List (List StringPart × Json)} (some : members ≠ []) :
    Opens (membersText members) := by
  obtain ⟨⟨key, value⟩, members, rfl⟩ := List.exists_cons_of_ne_nil some
  cases members <;> exact ⟨'"', rfl, by decide⟩

theorem readItems?_text {items : List Json} (some : items ≠ [])
    (each : ∀ item ∈ items, ReadsBack item) {fuel : Nat} (enough : (itemsText items).length < fuel)
    (rest : List Char) :
    readItems? fuel (itemsText items ++ ']' :: rest) = .some (items, rest) := by
  induction items generalizing fuel with
  | nil => exact absurd rfl some
  | cons item items ih =>
    obtain ⟨here, later⟩ := List.forall_mem_cons.1 each
    obtain ⟨fuel, rfl⟩ := Nat.exists_eq_succ_of_ne_zero (Nat.ne_zero_of_lt enough)
    cases items with
    | nil =>
      have read := here fuel (']' :: rest) (Nat.le_of_lt_succ enough) (delimits_cons rest (by decide))
      show (readValue? fuel (item.text ++ ']' :: rest) >>= _) = _
      rw [read]
      rfl
    | cons next items =>
      have split : itemsText (item :: next :: items) = item.text ++ ',' :: itemsText (next :: items) :=
        rfl
      rw [split, List.length_append, List.length_cons] at enough
      have inside : (itemsText (next :: items)).length < fuel := by omega
      have behind := ih (List.cons_ne_nil next items) later inside
      have read := here fuel (',' :: (itemsText (next :: items) ++ ']' :: rest)) (by omega)
        (delimits_cons _ (by decide))
      rw [split, List.append_assoc, List.cons_append]
      show (readValue? fuel (item.text ++ _) >>= _) = _
      rw [read]
      show (readItems? fuel (itemsText (next :: items) ++ ']' :: rest) >>= _) = _
      rw [behind]
      rfl

/-- A member up to what stands behind its value. -/
theorem readMembers?_member {key : List StringPart} (wellFormed : ∀ part ∈ key, part.WellFormed)
    {value : Json} (reads : ReadsBack value) {fuel : Nat} (enough : value.text.length ≤ fuel)
    {rest : List Char} (ends : Delimits rest) :
    readMembers? (fuel + 1) (StringPart.quoted key ++ ':' :: value.text ++ rest) =
      match skipBlanks rest with
      | '\x7d' :: rest => some ([(key, value)], rest)
      | ',' :: rest => do
        let (members, rest) ← readMembers? fuel rest
        return ((key, value) :: members, rest)
      | _ => none := by
  have readKey := readString?_text wellFormed (':' :: (value.text ++ rest))
  have readBack := reads fuel rest enough ends
  have layout : StringPart.quoted key ++ ':' :: value.text ++ rest =
      '"' :: (key.flatMap StringPart.text ++ '"' :: ':' :: (value.text ++ rest)) := by
    simp only [StringPart.quoted, List.append_assoc, List.cons_append, List.nil_append]
  rw [layout]
  show (readString? _ >>= _) = _
  rw [readKey]
  show (readValue? fuel (value.text ++ rest) >>= _) = _
  rw [readBack]
  rfl

theorem readMembers?_text {members : List (List StringPart × Json)} (some : members ≠ [])
    (keys : ∀ member ∈ members, ∀ part ∈ member.1, part.WellFormed)
    (each : ∀ member ∈ members, ReadsBack member.2) {fuel : Nat}
    (enough : (membersText members).length < fuel) (rest : List Char) :
    readMembers? fuel (membersText members ++ '\x7d' :: rest) = .some (members, rest) := by
  induction members generalizing fuel with
  | nil => exact absurd rfl some
  | cons member members ih =>
    obtain ⟨key, value⟩ := member
    obtain ⟨keyHere, keysLater⟩ := List.forall_mem_cons.1 keys
    obtain ⟨(here : ReadsBack value), later⟩ := List.forall_mem_cons.1 each
    obtain ⟨fuel, rfl⟩ := Nat.exists_eq_succ_of_ne_zero (Nat.ne_zero_of_lt enough)
    cases members with
    | nil =>
      have last : membersText [(key, value)] = StringPart.quoted key ++ ':' :: value.text := rfl
      rw [last, List.length_append, List.length_cons] at enough
      rw [last, readMembers?_member keyHere here (by omega) (delimits_cons rest (by decide))]
      rfl
    | cons next members =>
      have split : membersText ((key, value) :: next :: members) =
          StringPart.quoted key ++ ':' :: value.text ++ ',' :: membersText (next :: members) := rfl
      rw [split, List.length_append, List.length_append, List.length_cons, List.length_cons] at enough
      have inside : (membersText (next :: members)).length < fuel := by omega
      have behind := ih (List.cons_ne_nil next members) keysLater later inside
      rw [split, List.append_assoc, List.cons_append,
        readMembers?_member keyHere here (by omega) (delimits_cons _ (by decide))]
      show (readMembers? fuel (membersText (next :: members) ++ '\x7d' :: rest) >>= _) = _
      rw [behind]
      rfl

theorem Opens.ne_closing {cs : List Char} (opens : Opens cs) (rest : List Char) :
    cs ≠ ']' :: rest ∧ cs ≠ '\x7d' :: rest := by
  obtain ⟨c, first, other⟩ := opens
  constructor
  · rintro rfl
    cases first
    exact other (by decide)
  · rintro rfl
    cases first
    exact other (by decide)

theorem readValue?_array {fuel : Nat} {cs : List Char} (opens : Opens cs) :
    readValue? (fuel + 1) ('[' :: cs) = (readItems? fuel cs).map fun read => (array read.1, read.2) := by
  have here : skipBlanks ('[' :: cs) = '[' :: cs := rfl
  simp only [readValue?, here, opens.skipBlanks]
  split
  · exact absurd rfl (opens.ne_closing _).1
  · rfl

theorem readValue?_object {fuel : Nat} {cs : List Char} (opens : Opens cs) :
    readValue? (fuel + 1) ('\x7b' :: cs) =
      (readMembers? fuel cs).map fun read => (object read.1, read.2) := by
  have here : skipBlanks ('\x7b' :: cs) = '\x7b' :: cs := rfl
  simp only [readValue?, here, opens.skipBlanks]
  split
  · exact absurd rfl (opens.ne_closing _).2
  · rfl

theorem readValue?_numeral {n : Numeral} (isWhole : IsWhole n.whole) (fuel : Nat) (rest : List Char) :
    readValue? (fuel + 1) (n.text ++ rest) =
      (readNumeral? (n.text ++ rest)).map fun read => (number read.1, read.2) := by
  obtain ⟨negative, whole, fraction, exponent⟩ := n
  obtain ⟨d, tail, rfl, -⟩ := isWhole
  cases negative with
  | true => rfl
  | false => fin_cases d <;> rfl

theorem Opens.length_pos {cs : List Char} (opens : Opens cs) : 0 < cs.length := by
  obtain ⟨c, first, -⟩ := opens
  obtain ⟨tail, rfl⟩ := List.head?_eq_some_iff.1 (Option.mem_def.1 first)
  exact Nat.succ_pos tail.length

theorem readsBack_of_succ {value : Json} (wellFormed : value.WellFormed)
    (reads : ∀ (fuel : Nat) (rest : List Char), value.text.length ≤ fuel + 1 → Delimits rest →
      readValue? (fuel + 1) (value.text ++ rest) = some (value, rest)) : ReadsBack value := by
  intro fuel rest enough ends
  have positive := Nat.lt_of_lt_of_le (opens_text wellFormed).length_pos enough
  obtain ⟨fuel, rfl⟩ := Nat.exists_eq_succ_of_ne_zero positive.ne'
  exact reads fuel rest enough ends

theorem length_lt_of_bracketed (opening closing : Char) {cs : List Char} {fuel : Nat}
    (enough : (opening :: cs ++ [closing]).length ≤ fuel + 1) : cs.length < fuel := by
  rw [List.length_append, List.length_cons, List.length_singleton] at enough
  omega

/-- What is nested is read with one less of fuel, which its brackets make up for. -/
theorem readsBack_of_wellFormed {value : Json} (wellFormed : value.WellFormed) : ReadsBack value := by
  induction wellFormed with
  | null => exact readsBack_of_succ .null fun fuel rest _ _ => rfl
  | bool value =>
    refine readsBack_of_succ (.bool value) fun fuel rest _ _ => ?_
    cases value <;> rfl
  | @number n isWhole =>
    refine readsBack_of_succ (.number isWhole) fun fuel rest _ ends => ?_
    show readValue? (fuel + 1) (n.text ++ rest) = _
    rw [readValue?_numeral isWhole, readNumeral?_text isWhole ends]
    rfl
  | @string parts each =>
    refine readsBack_of_succ (.string each) fun fuel rest _ _ => ?_
    have layout : text (string parts) ++ rest = '"' :: (parts.flatMap StringPart.text ++ '"' :: rest) :=
      (List.append_cons ('"' :: parts.flatMap StringPart.text) '"' rest).symm
    rw [layout]
    show (readString? _).map _ = _
    rw [readString?_text each]
    rfl
  | @array items wellFormed each =>
    refine readsBack_of_succ (.array wellFormed) fun fuel rest enough _ => ?_
    -- An empty array is seen by its bracket; `readItems?` wants an item.
    by_cases empty : items = []
    · rw [empty]
      rfl
    · have layout : text (array items) ++ rest = '[' :: (itemsText items ++ ']' :: rest) :=
        (List.append_cons ('[' :: itemsText items) ']' rest).symm
      have inside : (itemsText items).length < fuel := length_lt_of_bracketed '[' ']' enough
      rw [layout, readValue?_array ((opens_itemsText empty wellFormed).append _),
        readItems?_text empty each inside]
      rfl
  | @object members keys wellFormed each =>
    refine readsBack_of_succ (.object keys wellFormed) fun fuel rest enough _ => ?_
    by_cases empty : members = []
    · rw [empty]
      rfl
    · have layout :
          text (object members) ++ rest = '\x7b' :: (membersText members ++ '\x7d' :: rest) :=
        (List.append_cons ('\x7b' :: membersText members) '\x7d' rest).symm
      have inside : (membersText members).length < fuel :=
        length_lt_of_bracketed '\x7b' '\x7d' enough
      rw [layout, readValue?_object ((opens_membersText empty).append _),
        readMembers?_text empty keys each inside]
      rfl

/-- A well formed value reads back from its text. -/
theorem ofText?_text {value : Json} (wellFormed : value.WellFormed) :
    ofText? (String.ofList value.text) = some value := by
  have read := readsBack_of_wellFormed wellFormed (2 * value.text.length + 2) [] (by omega)
    fun c member => nomatch member
  rw [List.append_nil] at read
  rw [ofText?, String.toList_ofList, read]
  rfl

end Json

end ContractHost
