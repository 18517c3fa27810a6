/-
# Resolving integers

An integer is looked up in four tables. The first compares all of it and the
others look at its low sixteen bits, so an integer of more bits, or a negative
one, has the opcode of those bits unless only the whole number could tell it.
No two of the tables find anything for the same integer: an opcode's pattern says
which table it stands in, and one word does not fit two patterns. So it is all the
same in which order they are asked.

Decoding takes words of sixteen bits only, and then resolves them as they are; the
operands are the digits of the word and what the last of them spell.

Key definitions: `Opcode.tables`, `Pattern.table`, `Instruction.Spells`.
Key theorems: `Word.ofDigits_eq_iff`, `Opcode.of_tables`, `Opcode.findSome?_of_perm`,
`Instruction.lookup_emod`, `Instruction.decode_eq_ok_iff_lookup`,
`Instruction.spells_of_decode`, `Instruction.integers_are_resolved`.
-/
import ChipEight.Operand
import ChipEight.Proofs.WordPrograms

namespace ChipEight

/-! ### Digits -/

/-- A word is spelled by its four digits and by no other four. -/
theorem Word.ofDigits_eq_iff {w : UInt16} {ds : List (Fin 16)} (four : ds.length = 4) :
    Numeral.ofDigits 16 (ds.map Fin.val) = w.toNat ↔ ds = Word.nibbles w := by
  match ds, four with
  | [a, b, c, d], _ =>
    have value := Word.value_eq w
    simp only [Numeral.ofDigits, Word.nibbles, List.map_cons, List.map_nil, List.foldl_cons,
      List.foldl_nil, List.cons.injEq, and_true, Fin.ext_iff]
    omega

/-! ### Tables that do not overlap -/

section

variable {α : Type} {found found' : List (Option α)}

/-- Where only one value is found, it is the first. -/
theorem findSome?_id_eq_some_iff (agree : ∀ a b, some a ∈ found → some b ∈ found → a = b) {a : α} :
    found.findSome? id = some a ↔ some a ∈ found := by
  constructor
  · intro first
    obtain ⟨o, listed, rfl⟩ := List.exists_of_findSome?_eq_some first
    exact listed
  · intro listed
    cases first : found.findSome? id with
    | none => exact absurd (List.findSome?_eq_none_iff.1 first _ listed) (Option.some_ne_none a)
    | some b =>
      obtain ⟨o, listed', rfl⟩ := List.exists_of_findSome?_eq_some first
      rw [agree a b listed listed']

/-- Then nothing hangs on the order. -/
theorem findSome?_id_of_perm (agree : ∀ a b, some a ∈ found → some b ∈ found → a = b)
    (perm : found'.Perm found) : found'.findSome? id = found.findSome? id := by
  have agree' : ∀ a b, some a ∈ found' → some b ∈ found' → a = b := fun a b ha hb =>
    agree a b (perm.mem_iff.1 ha) (perm.mem_iff.1 hb)
  ext a
  rw [findSome?_id_eq_some_iff agree', findSome?_id_eq_some_iff agree, perm.mem_iff]

end

/-- The table that holds a pattern. -/
def Pattern.table : Pattern → Nat
  | word _ => 0
  | family _ => 1
  | lastDigit _ _ => 2
  | lastByte _ _ => 3

namespace Opcode

variable {w : Int} {op op' : Opcode}

/-- What each table finds for an integer, in the order in which they are asked. -/
def tables (w : Int) : List (Option Opcode) :=
  let low := UInt16.ofInt w
  let family := (Word.family low).val
  [byWord? w, byFamily? family, byLastDigit? family (Word.n low).val,
    byLastByte? family (Word.nn low).toNat]

/-- The first table that finds something decides. -/
theorem find?_eq_findSome? (w : Int) : find? w = (tables w).findSome? id := by
  simp only [find?, tables, List.findSome?_cons, List.findSome?_nil, id_eq]
  cases byWord? w <;> cases byFamily? _ <;> cases byLastDigit? _ _ <;> cases byLastByte? _ _ <;>
    rfl

theorem fits_unique {w : UInt16} (fits : op.pattern.Fits w) (fits' : op'.pattern.Fits w) :
    op = op' :=
  Option.some.inj ((find?_of_fits fits).symm.trans (find?_of_fits fits'))

/-- Only words of sixteen bits are compared as a whole. -/
theorem toNat_of_byWord? (h : byWord? w = some op) : ((UInt16.ofInt w).toNat : Int) = w := by
  unfold byWord? at h
  rw [Instruction.toNat_ofInt]
  split_ifs at h with h0 h1 h2 <;> omega

/-- What a table finds has a pattern of that table, and it fits. -/
theorem of_tables : ∀ {k : Nat}, (tables w)[k]? = some (some op) →
    op.pattern.Fits (UInt16.ofInt w) ∧ op.pattern.table = k
  | 0, found => by
    have whole : byWord? w = some op := Option.some.inj found
    have low := toNat_of_byWord? whole
    rw [← low] at whole
    rw [pattern_of_byWord? whole]
    exact ⟨rfl, rfl⟩
  | 1, found => by
    rw [pattern_of_byFamily? (Option.some.inj found)]
    exact ⟨rfl, rfl⟩
  | 2, found => by
    rw [pattern_of_byLastDigit? (Option.some.inj found)]
    exact ⟨⟨rfl, rfl⟩, rfl⟩
  | 3, found => by
    rw [pattern_of_byLastByte? (Option.some.inj found)]
    exact ⟨⟨rfl, rfl⟩, rfl⟩

theorem tables_agree (a b : Opcode) (ha : some a ∈ tables w) (hb : some b ∈ tables w) : a = b := by
  obtain ⟨j, found⟩ := List.mem_iff_getElem?.1 ha
  obtain ⟨k, found'⟩ := List.mem_iff_getElem?.1 hb
  exact fits_unique (of_tables found).1 (of_tables found').1

/-- **No two tables find something.** -/
theorem table_unique {j k : Nat} (found : (tables w)[j]? = some (some op))
    (found' : (tables w)[k]? = some (some op')) : j = k := by
  obtain ⟨fits, stands⟩ := of_tables found
  obtain ⟨fits', stands'⟩ := of_tables found'
  rw [← stands, ← stands', fits_unique fits fits']

/-- **The tables may be asked in any order.** -/
theorem findSome?_of_perm {found : List (Option Opcode)} (perm : found.Perm (tables w)) :
    found.findSome? id = find? w := by
  rw [find?_eq_findSome?, findSome?_id_of_perm tables_agree perm]

/-! ### Integers by their top digit -/

theorem byWord?_of_high (high : w % 65536 / 4096 ≠ 0) : byWord? w = none := by
  rw [byWord?, if_neg (by omega), if_neg (by omega), if_neg (by omega)]

/-- With a top digit only the low sixteen bits count. -/
theorem find?_emod (high : w % 65536 / 4096 ≠ 0) : find? (w % 65536) = find? w := by
  simp only [find?, Instruction.ofInt_emod]
  rw [byWord?_of_high high, byWord?_of_high (by omega)]

/-- Without one there is only the table of whole words. -/
theorem find?_of_low (low : w % 65536 / 4096 = 0) : find? w = byWord? w := by
  have family : (Word.family (UInt16.ofInt w)).val = 0 := by
    have value := Instruction.toNat_ofInt w
    simp only [Word.family]
    omega
  cases whole : byWord? w <;> simp [find?, family, whole, byFamily?, byLastDigit?, byLastByte?]

theorem exists_byWord?_iff :
    (∃ op, byWord? w = some op) ↔ w = 0x0000 ∨ w = 0x00E0 ∨ w = 0x00EE := by
  unfold byWord?
  split_ifs with h0 h1 h2 <;> simp [*]

end Opcode

namespace Instruction

variable {w : Int} {op : Opcode} {f : Fault} {i : Instruction}

/-! ### Looking up -/

theorem lookup_eq_ok_iff : lookup w = .ok op ↔ Opcode.find? w = some op := by
  rw [lookup]
  cases Opcode.find? w <;> simp

theorem lookup_eq_error_iff : lookup w = .error f ↔
    Opcode.find? w = none ∧ f = .unimplemented (UInt16.ofInt w).toNat none := by
  rw [lookup]
  cases Opcode.find? w <;> simp [eq_comm]

/-- **An integer with a top digit has the opcode, or the fault, of its low sixteen
bits.** -/
theorem lookup_emod (high : w % 65536 / 4096 ≠ 0) : lookup (w % 65536) = lookup w := by
  rw [lookup, Opcode.find?_emod high, ofInt_emod, ← lookup]

/-- Without a top digit it has to be one of three words itself. -/
theorem exists_lookup_iff (low : w % 65536 / 4096 = 0) :
    (∃ op, lookup w = .ok op) ↔ w = 0x0000 ∨ w = 0x00E0 ∨ w = 0x00EE := by
  simp only [lookup_eq_ok_iff, Opcode.find?_of_low low, Opcode.exists_byWord?_iff]

theorem eq_of_lookup_error (refused : lookup w = .error f) :
    f = .unimplemented (w % 65536).toNat none := by
  rw [(lookup_eq_error_iff.1 refused).2, ← toNat_ofInt, Int.toNat_natCast]

/-! ### Decoding -/

theorem find?_toNat_ofInt (range : 0 ≤ w ∧ w ≤ 0xFFFF) :
    Opcode.find? (UInt16.ofInt w).toNat = Opcode.find? w := by
  rw [toNat_ofInt, Int.emod_eq_of_lt range.1 (by omega)]

/-- A word of sixteen bits is decoded if it is looked up, and to that opcode. -/
theorem decode_eq_ok_iff_lookup : decode w = .ok i ↔
    (0 ≤ w ∧ w ≤ 0xFFFF) ∧ i.word = UInt16.ofInt w ∧ lookup w = .ok i.opcode := by
  rw [decode_eq_ok_iff]
  refine and_congr_right fun range => ?_
  rw [ofWord?_eq_some_iff, find?_toNat_ofInt range, lookup_eq_ok_iff]

theorem decode_eq_error_iff {e : DecodeError} : decode w = .error e ↔
    ¬(0 ≤ w ∧ w ≤ 0xFFFF) ∧ e = .outOfRange w ∨
      (0 ≤ w ∧ w ≤ 0xFFFF) ∧ ∃ f, lookup w = .error f ∧ e = .fault f := by
  by_cases range : 0 ≤ w ∧ w ≤ 0xFFFF
  · cases found : Opcode.find? w with
    | none => simp [decode, lookup, ofWord?, range, found, find?_toNat_ofInt, eq_comm]
    | some op => simp [decode, lookup, ofWord?, range, found, find?_toNat_ofInt]
  · simp [decode, range, eq_comm]

/-- The operands of an instruction are the digits of an integer and what they
spell, and each is an operand of its sort. -/
structure Spells (i : Instruction) (w : Int) : Prop where
  digits : w = 4096 * (Word.family i.word).val + 256 * i.x.val + 16 * i.y.val + i.n.val
  byte : i.nn.toNat = 16 * i.y.val + i.n.val
  address : i.nnn.val = 256 * i.x.val + i.nn.toNat
  check_x : OperandSort.register.check (w / 256 % 16) = .ok i.x.val
  check_y : OperandSort.register.check (w / 16 % 16) = .ok i.y.val
  check_n : OperandSort.nibble.check (w % 16) = .ok i.n.val
  check_nn : OperandSort.byte.check (w % 256) = .ok i.nn.toNat
  check_nnn : OperandSort.address.check (w % 4096) = .ok i.nnn.val

/-- **Operands are digits of the word.** -/
theorem spells_of_decode (decoded : decode w = .ok i) : i.Spells w := by
  obtain ⟨range, word, -⟩ := decode_eq_ok_iff_lookup.1 decoded
  have whole : (i.word.toNat : Int) = w := by
    rw [word, toNat_ofInt, Int.emod_eq_of_lt range.1 (by omega)]
  have value : i.word.toNat = 4096 * (Word.family i.word).val + 256 * i.x.val + 16 * i.y.val
      + i.n.val := Word.value_eq i.word
  have byte : i.nn.toNat = 16 * i.y.val + i.n.val := Word.toNat_nn i.word
  have address : i.nnn.val = 256 * i.x.val + i.nn.toNat := Word.val_nnn i.word
  refine ⟨by omega, byte, address, ?_, ?_, ?_, ?_, ?_⟩
  all_goals
    rw [OperandSort.check_eq_ok_iff]
    simp only [OperandSort.greatest]
    omega

/-- **Resolving integers.** Whatever the integer, its low sixteen bits are spelled
by four digits. With a top digit it is looked up as those bits are; without one it
must itself be one of three words; and a fault names the bits. It is decoded iff it
is a word of sixteen bits that is looked up, with the same opcode, and refused as
out of range iff it is no such word. At most one of the four tables finds
something, so they may be asked in any order; and the operands of what is decoded
spell it and are operands of their sorts. -/
theorem integers_are_resolved (w : Int) :
    (∀ ds : List (Fin 16), ds.length = 4 →
      ((Numeral.ofDigits 16 (ds.map Fin.val) : Int) = w % 65536 ↔
        ds = Word.nibbles (UInt16.ofInt w))) ∧
    (w % 65536 / 4096 ≠ 0 → lookup w = lookup (w % 65536)) ∧
    (w % 65536 / 4096 = 0 →
      ((∃ op, lookup w = .ok op) ↔ w = 0x0000 ∨ w = 0x00E0 ∨ w = 0x00EE)) ∧
    (∀ f, lookup w = .error f → f = .unimplemented (w % 65536).toNat none) ∧
    (∀ v, decode w = .error (.outOfRange v) ↔ ¬(0 ≤ w ∧ w ≤ 0xFFFF) ∧ v = w) ∧
    (0 ≤ w ∧ w ≤ 0xFFFF →
      (∀ i, decode w = .ok i ↔ (i.word.toNat : Int) = w ∧ lookup w = .ok i.opcode) ∧
      ∀ f, decode w = .error (.fault f) ↔ lookup w = .error f) ∧
    (∀ (j k : Nat) (op op' : Opcode), (Opcode.tables w)[j]? = some (some op) →
      (Opcode.tables w)[k]? = some (some op') → j = k) ∧
    (∀ found : List (Option Opcode), found.Perm (Opcode.tables w) →
      found.findSome? id = Opcode.find? w) ∧
    ∀ i, decode w = .ok i → i.Spells w := by
  refine ⟨fun ds four => ?_, fun high => (lookup_emod high).symm, exists_lookup_iff,
    fun f => eq_of_lookup_error, fun v => ?_, fun range => ⟨fun i => ?_, fun f => ?_⟩,
    fun j k op op' => Opcode.table_unique, fun found => Opcode.findSome?_of_perm,
    fun i => spells_of_decode⟩
  · rw [← toNat_ofInt, Int.natCast_inj, Word.ofDigits_eq_iff four]
  · simp [decode_eq_error_iff]
  · have word : i.word = UInt16.ofInt w ↔ (i.word.toNat : Int) = w := by
      rw [← UInt16.toNat_inj, ← Int.natCast_inj, toNat_ofInt, Int.emod_eq_of_lt range.1 (by omega)]
    rw [decode_eq_ok_iff_lookup, word, and_iff_right range]
  · simp [decode_eq_error_iff, range]

/-- `-0x2FFB` is looked up as `0xD005`, but `0x100E0` is not looked up as `0x00E0`. -/
theorem integers_beyond_words_are_resolved :
    lookup (-0x2FFB) = .ok .drw ∧ lookup 0x100E0 ≠ .ok .cls ∧
      lookup 0x100E0 = .error (.unimplemented 0xE0 none) ∧
      decode 0x100E0 = .error (.outOfRange 0x100E0) ∧
      (⟨0xD125, .drw⟩ : Instruction).Spells 0xD125 := by
  obtain ⟨-, same, -⟩ := integers_are_resolved (-0x2FFB)
  obtain ⟨-, -, known, named, range, -⟩ := integers_are_resolved 0x100E0
  obtain ⟨-, -, -, -, -, decoded, -, -, spelled⟩ := integers_are_resolved 0xD125
  have unknown : ¬∃ op, lookup 0x100E0 = .ok op := by
    rw [known (by decide)]
    decide
  refine ⟨(same (by decide)).trans (by decide), fun found => unknown ⟨_, found⟩, ?_,
    (range _).2 ⟨by decide, rfl⟩, spelled _ (((decoded (by decide)).1 _).2 (by decide))⟩
  cases refused : lookup 0x100E0 with
  | ok op => exact absurd ⟨op, refused⟩ unknown
  | error f => exact congrArg _ (named f refused)

end Instruction

end ChipEight
