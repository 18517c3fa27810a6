/-
# Loading a program

A program that fits takes the place of as many bytes, from where programs start,
and nothing else of the machine changes: below it the font stays, and above it
what a longer program has left. A program that does not fit is refused, and
nothing changes at all.

So of what an earlier program has put there a later one that is no shorter leaves
nothing, and it is all the same whether the earlier one was ever loaded.

Key theorems: `Memory.overlay_overlay`, `Machine.load_error_iff`,
`Machine.toList_memory_of_load`, `Machine.load_of_load`, `Machine.load_after_loads`,
`Machine.load_is_all_or_nothing`.
-/
import ChipEight.Proofs.MemoryProvenance

namespace ChipEight

namespace Memory

theorem placed_eq_none_iff {start a : Nat} {bytes : List UInt8} :
    placed start bytes a = none ↔ a < start ∨ start + bytes.length ≤ a := by
  unfold placed
  split_ifs with above
  · rw [List.getElem?_eq_none_iff]
    omega
  · simp only [true_iff]
    omega

/-- Bytes that are put over no more than as many from the same address leave
nothing of them. -/
theorem overlay_overlay {start : Nat} {before bytes : List UInt8}
    (fewer : before.length ≤ bytes.length) (m : Memory) :
    overlay start bytes (overlay start before m) = overlay start bytes m := by
  suffices same : ∀ a : Fin 4096,
      (overlay start bytes (overlay start before m)).get a = (overlay start bytes m).get a from
    Vector.ext fun a ha => same ⟨a, ha⟩
  intro a
  rw [get_overlay, get_overlay, get_overlay]
  cases put : placed start bytes a.val with
  | some b => rfl
  | none =>
    -- where the later bytes do not reach, the earlier did not reach either
    have beside := placed_eq_none_iff.1 put
    have unput : placed start before a.val = none := placed_eq_none_iff.2 (by omega)
    rw [unput, Option.getD_none]

end Memory

namespace Machine

variable {σ : Type} {m m₁ m₂ : Machine σ} {p q : List UInt8} {f : Fault}

/-! ### Refused programs -/

/-- What a load answers does not hang on the machine. -/
theorem load_fst (p : List UInt8) (m : Machine σ) :
    (m.load p).1 = if 3584 < p.length then .error (.programTooLarge p.length) else .ok () := by
  by_cases long : 3584 < p.length
  · rw [load_of_too_long long, if_pos long]
  · rw [(load_eq_done_iff p m _).2 ⟨Nat.le_of_not_lt long, rfl⟩, if_neg long]

/-- A program is refused for its size and for nothing else. -/
theorem load_error_iff :
    (m.load p).1 = .error f ↔ 3584 < p.length ∧ f = .programTooLarge p.length := by
  rw [load_fst]
  split_ifs with long
  · simp [long, eq_comm]
  · simp [long]

/-! ### Loaded programs -/

/-- A loaded program stands between what was below it and what was beyond its end. -/
theorem toList_memory_of_load (loaded : m.load p = .done () m₁) :
    m₁.memory.toList =
      m.memory.toList.take 0x200 ++ p ++ m.memory.toList.drop (0x200 + p.length) := by
  obtain ⟨fits, rfl⟩ := (load_eq_done_iff p m m₁).1 loaded
  exact Memory.toList_overlay (by omega) m.memory

/-- A program leaves alone what is not its own. -/
theorem byte_of_load (loaded : m.load p = .done () m₁) {a : Fin 4096}
    (beside : a.val < 0x200 ∨ 0x200 + p.length ≤ a.val) : m₁.memory.get a = m.memory.get a := by
  obtain ⟨-, rfl⟩ := (load_eq_done_iff p m m₁).1 loaded
  show (Memory.overlay 0x200 p m.memory).get a = _
  rw [Memory.get_overlay, Memory.placed_eq_none_iff.2 beside, Option.getD_none]

/-- A load changes memory alone. -/
theorem eq_of_load (loaded : m.load p = .done () m₁) : m₁ = { m with memory := m₁.memory } := by
  obtain ⟨-, rfl⟩ := (load_eq_done_iff p m m₁).1 loaded
  rfl

/-- **A program covers an earlier one that is no longer.** -/
theorem load_of_load (before : m.load q = .done () m₁) (fewer : q.length ≤ p.length)
    (loaded : m.load p = .done () m₂) : m₁.load p = .done () m₂ := by
  obtain ⟨-, rfl⟩ := (load_eq_done_iff q m m₁).1 before
  obtain ⟨fits, rfl⟩ := (load_eq_done_iff p m m₂).1 loaded
  rw [load_eq_done_iff]
  refine ⟨fits, ?_⟩
  rw [Memory.overlay_overlay fewer]

/-- Programs that are refused or no longer than the last might as well not have
been loaded. -/
theorem load_after_loads [RandomSource σ] (fits : p.length ≤ 3584) : ∀ {qs : List (List UInt8)},
    (∀ q ∈ qs, q.length ≤ p.length ∨ 3584 < q.length) → ∀ m : Machine σ,
      (m.after (qs.map .load)).load p = m.load p
  | [], _, _ => rfl
  | q :: qs, covered, m => by
    have rest := load_after_loads fits fun q' hq => covered q' (List.mem_cons_of_mem q hq)
    have loaded : m.load p = .done () (m.load p).2 := by
      rw [(load_eq_done_iff p m _).2 ⟨fits, rfl⟩]
    show ((m.load q).2.after (qs.map .load)).load p = m.load p
    rw [rest]
    rcases covered q List.mem_cons_self with fewer | long
    · have before : m.load q = .done () (m.load q).2 := by
        rw [(load_eq_done_iff q m _).2 ⟨by omega, rfl⟩]
      exact (load_of_load before fewer loaded).trans loaded.symm
    · rw [load_of_too_long long]

/-- **A load is all or nothing.** A program of more than `3584` bytes is refused,
for its size, and leaves the machine as it was; no other is refused. One that is
loaded replaces as many bytes of memory from `0x200` on, so memory stays as long
as it was and the bytes below and beyond the program stay what they were; and
nothing but memory changes. Hence, if a program no longer than this one was loaded
before, this one is refused if it would be on the machine as it was, and otherwise
leaves just the machine that it would leave there. -/
theorem load_is_all_or_nothing (m : Machine σ) (p : List UInt8) :
    (∀ f, (m.load p).1 = .error f ↔ 3584 < p.length ∧ f = .programTooLarge p.length) ∧
    (3584 < p.length → m.load p = .fail (.programTooLarge p.length) m) ∧
    (p.length ≤ 3584 → ∃ m', m.load p = .done () m' ∧
      m'.memory.toList =
        m.memory.toList.take 0x200 ++ p ++ m.memory.toList.drop (0x200 + p.length) ∧
      (m.memory.toList.take 0x200 ++ p ++ m.memory.toList.drop (0x200 + p.length)).length = 4096 ∧
      (∀ a : Fin 4096, a.val < 0x200 ∨ 0x200 + p.length ≤ a.val →
        m'.memory.get a = m.memory.get a) ∧
      m' = { m with memory := m'.memory }) ∧
    ∀ q m₁, m.load q = .done () m₁ → q.length ≤ p.length →
      (m₁.load p).1 = (m.load p).1 ∧
        ∀ m₂, m.load p = .done () m₂ → m₁.load p = .done () m₂ := by
  refine ⟨fun f => load_error_iff, load_of_too_long, fun fits => ?_, fun q m₁ before fewer => ?_⟩
  · have loaded := (load_eq_done_iff p m _).2 ⟨fits, rfl⟩
    have bytes := toList_memory_of_load loaded
    refine ⟨_, loaded, bytes, ?_, fun a => byte_of_load loaded, eq_of_load loaded⟩
    rw [← bytes, Vector.length_toList]
  · exact ⟨by rw [load_fst, load_fst], fun m₂ => load_of_load before fewer⟩

/-- Four bytes cover the three of an earlier program, and one byte leaves the
other two. One byte more than fits is refused. -/
theorem switchedOn_takes_programs : ∃ m₁ m₂ m₃,
    switchedOn.load [0xA2, 0x1E, 0xD0] = .done () m₁ ∧
    switchedOn.load [0x00, 0xE0, 0x12, 0x00] = .done () m₂ ∧
    m₁.load [0x00, 0xE0, 0x12, 0x00] = .done () m₂ ∧
    m₁.load [0xA3] = .done () m₃ ∧ m₃.memory.get 0x202 = 0xD0 ∧ m₃.pc = 0x200 ∧
    m₁.load (.replicate 3585 7) = .fail (.programTooLarge 3585) m₁ := by
  obtain ⟨-, -, loads, -⟩ := load_is_all_or_nothing switchedOn [0xA2, 0x1E, 0xD0]
  obtain ⟨m₁, first, -⟩ := loads (by decide)
  have third : m₁.memory.get 0x202 = 0xD0 := by
    obtain rfl : (switchedOn.load [0xA2, 0x1E, 0xD0]).2 = m₁ := congrArg Prod.snd first
    decide +kernel
  have start : m₁.pc = 0x200 := by
    rw [eq_of_load first]
    rfl
  obtain ⟨-, -, loads, covers⟩ := load_is_all_or_nothing switchedOn [0x00, 0xE0, 0x12, 0x00]
  obtain ⟨m₂, alone, -⟩ := loads (by decide)
  obtain ⟨-, -, loads, -⟩ := load_is_all_or_nothing m₁ [0xA3]
  obtain ⟨m₃, short, -, -, kept, rest⟩ := loads (by decide)
  obtain ⟨-, refused, -⟩ := load_is_all_or_nothing m₁ (.replicate 3585 7)
  rw [List.length_replicate] at refused
  refine ⟨m₁, m₂, m₃, first, alone, (covers _ m₁ first (by decide)).2 m₂ alone, short,
    (kept 0x202 (by decide)).trans third, ?_, refused (by decide)⟩
  rw [rest]
  exact start

end Machine

end ChipEight
