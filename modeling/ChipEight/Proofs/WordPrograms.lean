/-
# Programs of words

A program written as words, loaded and fetched again. Each number goes in with
its low sixteen bits, the high byte first; the loader puts the bytes at the
start of programs, and the fetch makes words of them in the same order. So the
word that is fetched is the one that was written.

Where no word of the program is a detour (an instruction that may take the
program counter elsewhere than past its word) and none stores into memory, the
machine goes through the program word by word: each step leaves the rest of the
program as it is and comes to the next word of it.

Key definitions: `Opcode.detours`, `Opcode.stores`, `Machine.HoldsFrom`.
Key theorems: `Instruction.getElem?_encodeWords`, `Machine.holdsFrom_load`,
`Machine.Executes.of_holdsFrom`, `Machine.encoded_words_are_executed`.
-/
import ChipEight.Proofs.Executions
import ChipEight.Proofs.MemoryProvenance

namespace ChipEight

/-! ### Words as bytes -/

namespace Instruction

theorem toNat_ofInt (w : Int) : ((UInt16.ofInt w).toNat : Int) = w % 65536 := by
  simp only [UInt16.ofInt, UInt16.toNat_ofNat']
  omega

theorem ofInt_emod (w : Int) : UInt16.ofInt (w % 65536) = UInt16.ofInt w := by
  apply UInt16.toNat_inj.1
  have low := toNat_ofInt w
  have low' := toNat_ofInt (w % 65536)
  omega

/-- Of the low sixteen bits of any number there is no decoding out of range. -/
theorem decode_emod_eq_ok_iff {w : Int} {i : Instruction} :
    decode (w % 65536) = .ok i ↔ i.word = UInt16.ofInt w ∧ i.opcode.pattern.Fits i.word := by
  have range : 0 ≤ w % 65536 ∧ w % 65536 ≤ 0xFFFF := by omega
  rw [decode_eq_ok_iff, ofInt_emod, ofWord?_eq_some_iff]
  constructor
  · rintro ⟨-, word, found⟩
    rw [← word] at found
    exact ⟨word, Opcode.find?_eq_some_iff.1 found⟩
  · rintro ⟨word, fits⟩
    rw [← word]
    exact ⟨range, rfl, Opcode.find?_of_fits fits⟩

/-- The bytes of the word in place `k` stand in the places `2 * k` and
`2 * k + 1`, the high one first. -/
theorem getElem?_encodeWords : ∀ (ws : List Int) (k : Nat),
    (encodeWords ws)[2 * k]? =
        ws[k]?.map (fun w => UInt8.ofNat ((UInt16.ofInt w).toNat / 256)) ∧
      (encodeWords ws)[2 * k + 1]? =
        ws[k]?.map (fun w => UInt8.ofNat ((UInt16.ofInt w).toNat % 256))
  | [], _ => ⟨rfl, rfl⟩
  | _ :: _, 0 => ⟨rfl, rfl⟩
  | _ :: ws, k + 1 => getElem?_encodeWords ws k

end Instruction

namespace Memory

theorem byteAt_overlay {start a : Nat} {bytes : List UInt8} {b : UInt8} (m : Memory)
    (inside : a < 4096) (put : placed start bytes a = some b) :
    byteAt a (overlay start bytes m) = b := by
  have read := get_overlay start bytes m ⟨a, inside⟩
  rw [put, Option.getD_some] at read
  rw [byteAt, Vector.getElem?_eq_getElem inside, Option.getD_some]
  exact read

end Memory

/-! ### Instructions that go straight on -/

namespace Opcode

/-- The opcodes that may take the program counter elsewhere than past the word. -/
def detours : List Opcode :=
  [ret, jp, call, jpV0, seImm, sneImm, seReg, sneReg, skp, sknp, ldKey]

/-- The opcodes that write into memory. -/
def stores : List Opcode := [bcd, store]

end Opcode

/-- Detours are those whose write set holds the program counter. -/
theorem Instruction.writes_pc_iff {σ : Type} {i : Instruction} {m : Machine σ} :
    i.Writes m .pc ↔ i.opcode ∈ Opcode.detours := by
  cases e : i.opcode <;> simp [Writes, e, Opcode.detours]

namespace Machine

variable {σ : Type} {m m' : Machine σ} {i : Instruction}

/-- From an address on there lie these words. -/
def HoldsFrom (m : Machine σ) (a : Int) (ws : List Int) : Prop :=
  ∀ (k : Nat) (w : Int), ws[k]? = some w → { m with pc := a + 2 * k }.WordAt (UInt16.ofInt w)

theorem HoldsFrom.head {w : Int} {ws : List Int} (h : m.HoldsFrom m.pc (w :: ws)) :
    m.WordAt (UInt16.ofInt w) := by
  have first := h 0 w rfl
  rwa [Int.natCast_zero, Int.mul_zero, Int.add_zero] at first

theorem HoldsFrom.tail {w a : Int} {ws : List Int} (h : m.HoldsFrom a (w :: ws)) :
    m.HoldsFrom (a + 2) ws := by
  intro k v hv
  have next := h (k + 1) v hv
  rwa [Int.natCast_add, Int.mul_add, ← Int.add_assoc, Int.add_right_comm] at next

/-- Which words there are is told by memory alone. -/
theorem HoldsFrom.of_memory {a : Int} {ws : List Int} (h : m.HoldsFrom a ws)
    (same : m'.memory = m.memory) : m'.HoldsFrom a ws := by
  intro k w hw
  have here := h k w hw
  unfold WordAt at here ⊢
  rwa [← same] at here

theorem load_encodeWords_iff (m : Machine σ) (ws : List Int) :
    m.load (Instruction.encodeWords ws) = .done () m' ↔ ws.length ≤ 1792 ∧
      m' = { m with memory := Memory.overlay 512 (Instruction.encodeWords ws) m.memory } := by
  rw [load_eq_done_iff, Instruction.length_encodeWords]
  have half : 2 * ws.length ≤ 3584 ↔ ws.length ≤ 1792 := by omega
  rw [half]

/-- **A loaded program lies where programs start**, word by word. -/
theorem holdsFrom_load {ws : List Int} (h : m.load (Instruction.encodeWords ws) = .done () m') :
    m'.HoldsFrom 512 ws := by
  obtain ⟨fits, rfl⟩ := (load_encodeWords_iff m ws).1 h
  intro k w hw
  have lt : k < ws.length := (List.getElem?_eq_some_iff.1 hw).1
  obtain ⟨high, low⟩ := Instruction.getElem?_encodeWords ws k
  rw [hw, Option.map_some] at high low
  have bytes {j : Nat} {b : UInt8} (hj : (Instruction.encodeWords ws)[j]? = some b)
      (bound : 512 + j < 4096) :
      Memory.byteAt (512 + j) (Memory.overlay 512 (Instruction.encodeWords ws) m.memory) = b :=
    Memory.byteAt_overlay m.memory bound (Memory.placed_eq_some_iff.2 ⟨j, rfl, hj⟩)
  have place : ((512 : Int) + 2 * k).toNat = 512 + 2 * k := by omega
  have word := (UInt16.ofInt w).toNat_lt
  refine ⟨⟨by show (0 : Int) ≤ 512 + 2 * k; omega, by show (512 : Int) + 2 * k ≤ 4094; omega⟩, ?_⟩
  show _ = 256 * (Memory.byteAt ((512 : Int) + 2 * k).toNat _).toNat
    + (Memory.byteAt (((512 : Int) + 2 * k).toNat + 1) _).toNat
  rw [place, Nat.add_assoc, bytes high (by omega), bytes low (by omega), UInt8.toNat_ofNat',
    UInt8.toNat_ofNat']
  omega

variable [RandomSource σ]

/-- An instruction that is no detour comes to the next word. -/
theorem pc_of_step_done (h : m.step = .done i m') (straight : i.opcode ∉ Opcode.detours) :
    m'.pc = m.pc + 2 := by
  obtain ⟨-, -, rfl⟩ := of_step_done h
  exact sameAt_execute (c := .pc) fun written => straight (Instruction.writes_pc_iff.1 written)

/-- A step at a word that is no detour and stores nothing executes it, comes to
the next word and leaves memory alone. -/
theorem straight_step {w : Int} (here : m.WordAt (UInt16.ofInt w))
    (decoded : Instruction.decode (w % 65536) = .ok i) (straight : i.opcode ∉ Opcode.detours)
    (silent : i.opcode ∉ Opcode.stores) {j : Instruction} (h : m.step = .done j m') :
    j = i ∧ m'.pc = m.pc + 2 ∧ m'.memory = m.memory := by
  obtain ⟨word, fits⟩ := Instruction.decode_emod_eq_ok_iff.1 decoded
  have next : m.Next i := ⟨by rwa [word], fits⟩
  obtain rfl : j = i := (of_step_done h).1.unique next
  refine ⟨rfl, pc_of_step_done h straight, ?_⟩
  obtain ⟨-, -, rfl⟩ := of_step_done h
  exact memory_execute (fun e => silent (by simp [e, Opcode.stores]))
    fun e => silent (by simp [e, Opcode.stores])

/-- **A program without detours and stores is executed word by word.** -/
theorem Executes.of_holdsFrom {ws : List Int} {is : List Instruction} (h : Executes is m m')
    (length : is.length = ws.length) (holds : m.HoldsFrom m.pc ws)
    (plain : ∀ w ∈ ws, ∃ i, Instruction.decode (w % 65536) = .ok i ∧ i.opcode ∉ Opcode.detours ∧
      i.opcode ∉ Opcode.stores) :
    is.map .ok = ws.map (fun w => Instruction.decode (w % 65536)) ∧
      m'.pc = m.pc + 2 * ws.length := by
  induction h generalizing ws with
  | @nil m =>
    obtain rfl := List.eq_nil_of_length_eq_zero length.symm
    exact ⟨rfl, (Int.add_zero m.pc).symm⟩
  | @cons i is m m₁ m' first rest ih =>
    obtain _ | ⟨w, ws⟩ := ws
    · cases length
    obtain ⟨j, decoded, straight, silent⟩ := plain w List.mem_cons_self
    obtain ⟨rfl, pc, memory⟩ := straight_step holds.head decoded straight silent first
    have holds₁ : m₁.HoldsFrom m₁.pc ws := by
      rw [pc]
      exact holds.tail.of_memory memory
    obtain ⟨executed, last⟩ := ih (Nat.succ.inj length) holds₁
      fun v hv => plain v (List.mem_cons_of_mem w hv)
    refine ⟨by rw [List.map_cons, List.map_cons, decoded, executed], ?_⟩
    rw [last, pc, List.length_cons]
    omega

/-- **What is written as words is fetched as words, and executed as them.** The
bytes of a program of words are its words modulo `65536`, the high byte first.
It is loaded iff it has at most `1792` words, and then the word fetched at
`0x200 + 2 * k` is the one in place `k`, modulo `65536`. If all its words are
instructions, none a detour and none one that stores, then a run of as many
steps from a reset either faults or executes just these instructions in their
order, and ends past the last one. -/
theorem encoded_words_are_executed (m : Machine σ) (ws : List Int) :
    (Instruction.encodeWords ws).length = 2 * ws.length ∧
    (∀ (k : Nat) (w : Int), ws[k]? = some w → ∃ high low : UInt8,
      (Instruction.encodeWords ws)[2 * k]? = some high ∧
      (Instruction.encodeWords ws)[2 * k + 1]? = some low ∧
      256 * (high.toNat : Int) + low.toNat = w % 65536) ∧
    ((m.load (Instruction.encodeWords ws)).1 = .ok () ↔ ws.length ≤ 1792) ∧
    (∀ m', m.load (Instruction.encodeWords ws) = .done () m' →
      ∀ (k : Nat) (w : Int), ws[k]? = some w → ∃ word : UInt16,
        { m' with pc := 0x200 + 2 * k }.fetch? = some word ∧ (word.toNat : Int) = w % 65536) ∧
    ∀ m', m.reset.load (Instruction.encodeWords ws) = .done () m' →
      (∀ w ∈ ws, ∃ i, Instruction.decode (w % 65536) = .ok i ∧ i.opcode ∉ Opcode.detours ∧
        i.opcode ∉ Opcode.stores) →
      ∀ n m'', m'.run ws.length = .done n m'' → n = ws.length ∧ ∃ is, Executes is m' m'' ∧
        is.map .ok = ws.map (fun w => Instruction.decode (w % 65536)) ∧
        m''.pc = 0x200 + 2 * ws.length := by
  refine ⟨Instruction.length_encodeWords ws, fun k w hw => ?_, ?_, fun m' loaded k w hw => ?_,
    fun m' loaded plain n m'' done => ?_⟩
  · obtain ⟨high, low⟩ := Instruction.getElem?_encodeWords ws k
    rw [hw, Option.map_some] at high low
    refine ⟨_, _, high, low, ?_⟩
    have value := Instruction.toNat_ofInt w
    have word := (UInt16.ofInt w).toNat_lt
    rw [UInt8.toNat_ofNat', UInt8.toNat_ofNat']
    omega
  · constructor
    · intro ok
      have loaded : m.load (Instruction.encodeWords ws) =
          .done () (m.load (Instruction.encodeWords ws)).2 := Prod.ext ok rfl
      exact ((load_encodeWords_iff m ws).1 loaded).1
    · intro fits
      rw [(load_encodeWords_iff m ws).2 ⟨fits, rfl⟩]
  · exact ⟨_, fetch?_eq_some_iff.2 (holdsFrom_load loaded k w hw), Instruction.toNat_ofInt w⟩
  · obtain ⟨rfl, is, length, executes⟩ := run_eq_done_iff.1 done
    have start : m'.pc = 0x200 := by
      obtain ⟨-, rfl⟩ := (load_encodeWords_iff m.reset ws).1 loaded
      rfl
    have holds : m'.HoldsFrom m'.pc ws := by
      rw [start]
      exact holdsFrom_load loaded
    obtain ⟨executed, last⟩ := executes.of_holdsFrom (by omega) holds plain
    exact ⟨by omega, is, executes, executed, by rw [last, start]⟩

/-- A program that draws the digit three and clears the display again, with two
of its words beyond sixteen bits. -/
def clearedThree : List Int := [0x6003, 0x1F029, -0x2FFB, 0x00E0]

/-- The words in sixteen bits are `6003`, `F029`, `D005` and `00E0`. -/
theorem clearedThree_is_executed : ∃ m' m'' is,
    switchedOn.reset.load (Instruction.encodeWords clearedThree) = .done () m' ∧
      m'.run 4 = .done 4 m'' ∧ Executes is m' m'' ∧
      is.map .ok = clearedThree.map (fun w => Instruction.decode (w % 65536)) ∧ m''.pc = 0x208 ∧
      { m' with pc := 0x204 }.fetch? = some 0xD005 := by
  obtain ⟨-, -, -, -, run⟩ := encoded_words_are_executed switchedOn clearedThree
  obtain ⟨-, -, -, fetch, -⟩ := encoded_words_are_executed switchedOn.reset clearedThree
  obtain ⟨m', loaded⟩ : ∃ m', switchedOn.reset.load (Instruction.encodeWords clearedThree) =
      .done () m' := ⟨_, (load_encodeWords_iff switchedOn.reset clearedThree).2 ⟨by decide, rfl⟩⟩
  have plain : ∀ w ∈ clearedThree, ∃ i, Instruction.decode (w % 65536) = .ok i ∧
      i.opcode ∉ Opcode.detours ∧ i.opcode ∉ Opcode.stores := by
    simp only [clearedThree, List.mem_cons, List.not_mem_nil, or_false, forall_eq_or_imp, forall_eq]
    exact ⟨⟨⟨0x6003, .ldImm⟩, by decide⟩, ⟨⟨0xF029, .ldF⟩, by decide⟩, ⟨⟨0xD005, .drw⟩, by decide⟩,
      ⟨⟨0x00E0, .cls⟩, by decide⟩⟩
  have done : ((switchedOn.reset.load (Instruction.encodeWords clearedThree)).2.run 4).1 = .ok 4 := by
    decide +kernel
  rw [loaded] at done
  have ran : m'.run 4 = .done 4 (m'.run 4).2 := Prod.ext done rfl
  obtain ⟨-, is, executes, executed, last⟩ := run _ loaded plain _ _ ran
  obtain ⟨word, here, value⟩ := fetch _ loaded 2 (-0x2FFB) rfl
  obtain rfl : word = 0xD005 := UInt16.toNat_inj.1 (Int.ofNat_inj.1 value)
  exact ⟨_, _, is, loaded, ran, executes, executed, last, here⟩

end Machine

end ChipEight
