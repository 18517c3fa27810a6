/-
# Differences are exact

What a difference between two snapshots tells is all that differs, and nothing
else. Processor, timers and keys are told field by field: each is a record that
is told by its fields (`get`) and can be overwritten in one of them (`put`), and
what holds of such records is proved once for all three. So the snapshot before
can be overwritten with the values after, the two can change places, and a
difference is empty iff the snapshots are equal. Memory and display are only
compared; as a packed display tells its pixels, no pixel can differ unseen.

Key definitions: `AreChanges`, `overwrite`, `CpuState.put`, `Timers.put`,
`Diff.swapped`.
Key theorems: `areChanges_changes`, `get_overwrite`, `swapped_changes`,
`Diff.isEmpty_between_iff`, `Diff.between_is_exact`.
-/
import ChipEight.Proofs.Packing
import ChipEight.Snapshot.Diff
import Mathlib.Data.List.Nodup

namespace ChipEight

/-! ### Records told by their fields -/

section

variable {φ α : Type}

/-- The change the other way. One from no value has no other way. -/
def Change.swapped (c : Change φ α) : Change φ α :=
  match c.before with
  | some v => ⟨c.field, some c.after, v⟩
  | none => c

/-- The changes tell exactly which of the fields differ, each once and in their
order, with both values. -/
structure AreChanges (fields : List φ) (before after : φ → α) (cs : List (Change φ α)) : Prop where
  order : (cs.map Change.field).Sublist fields
  once : (cs.map Change.field).Nodup
  mem_iff : ∀ c, c ∈ cs ↔
    before c.field ≠ after c.field ∧ c.before = some (before c.field) ∧ c.after = after c.field

theorem map_field_appearances (fields : List φ) (after : φ → α) :
    (appearances fields after).map Change.field = fields := by
  simp [appearances, Function.comp_def]

theorem mem_appearances_iff {fields : List φ} {after : φ → α} {c : Change φ α}
    (all : ∀ f, f ∈ fields) :
    c ∈ appearances fields after ↔ c.before = none ∧ c.after = after c.field := by
  obtain ⟨f, v, w⟩ := c
  constructor
  · intro h
    obtain ⟨g, -, same⟩ := List.mem_map.1 h
    cases same
    exact ⟨rfl, rfl⟩
  · rintro ⟨hv, hw⟩
    obtain rfl : v = none := hv
    obtain rfl : w = after f := hw
    exact List.mem_map.2 ⟨f, all f, rfl⟩

variable [DecidableEq α] {fields : List φ} {before after : φ → α}

theorem changes_cons (f : φ) (fields : List φ) (before after : φ → α) :
    changes (f :: fields) before after =
      if before f = after f then changes fields before after
      else ⟨f, some (before f), after f⟩ :: changes fields before after := by
  by_cases same : before f = after f
  · simp [changes, same]
  · simp [changes, same]

theorem map_field_changes (fields : List φ) (before after : φ → α) :
    (changes fields before after).map Change.field = fields.filter fun f => before f ≠ after f := by
  simp [changes, Function.comp_def]

theorem areChanges_changes (once : fields.Nodup) (all : ∀ f, f ∈ fields) :
    AreChanges fields before after (changes fields before after) where
  order := by
    rw [map_field_changes]
    exact List.filter_sublist
  once := by
    rw [map_field_changes]
    exact once.filter _
  mem_iff c := by
    obtain ⟨f, v, w⟩ := c
    constructor
    · intro h
      obtain ⟨g, differs, same⟩ := List.mem_map.1 h
      cases same
      exact ⟨by simpa using (List.mem_filter.1 differs).2, rfl, rfl⟩
    · rintro ⟨differs, hv, hw⟩
      obtain rfl : v = some (before f) := hv
      obtain rfl : w = after f := hw
      exact List.mem_map.2 ⟨f, List.mem_filter.2 ⟨all f, by simpa using differs⟩, rfl⟩

theorem swapped_changes (fields : List φ) (before after : φ → α) :
    (changes fields before after).map Change.swapped = changes fields after before := by
  have sides : (fields.filter fun f => before f ≠ after f) =
      fields.filter fun f => after f ≠ before f :=
    List.filter_congr fun f _ => by simp [eq_comm]
  rw [changes, changes, sides, List.map_map]
  rfl

/-- The record with the values after put in, one change after the other. -/
def overwrite {S : Type} (put : S → φ → α → S) (cs : List (Change φ α)) (s : S) : S :=
  cs.foldl (fun s c => put s c.field c.after) s

/-- Where a record takes values of its kind in each field, overwriting by changes
sets the fields that differ, and leaves the others. -/
theorem get_overwrite [DecidableEq φ] {S : Type} {get : S → φ → α} {put : S → φ → α → S}
    (get_put : ∀ s t f g, get (put s f (get t f)) g = if g = f then get t f else get s g) (a b : S) :
    ∀ (fields : List φ) (s : S) (g : φ),
      get (overwrite put (changes fields (get a) (get b)) s) g =
        if g ∈ fields ∧ get a g ≠ get b g then get b g else get s g
  | [], s, g => by simp [overwrite, changes]
  | f :: fields, s, g => by
    rw [changes_cons]
    by_cases same : get a f = get b f
    · rw [if_pos same, get_overwrite get_put a b fields s g]
      by_cases here : g = f
      · subst here
        simp [same]
      · simp [here]
    · rw [if_neg same]
      show get (overwrite put _ (put s f (get b f))) g = _
      rw [get_overwrite get_put a b fields _ g, get_put]
      by_cases here : g = f
      · subst here
        simp [same]
      · simp [here]

/-- So a record that is told by its fields becomes the other. -/
theorem overwrite_changes [DecidableEq φ] {S : Type} {get : S → φ → α} {put : S → φ → α → S}
    (get_put : ∀ s t f g, get (put s f (get t f)) g = if g = f then get t f else get s g)
    (ext_get : ∀ s t, (∀ f, get s f = get t f) → s = t) (all : ∀ f, f ∈ fields) (a b : S) :
    overwrite put (changes fields (get a) (get b)) a = b := by
  refine ext_get _ _ fun f => ?_
  rw [get_overwrite get_put]
  by_cases same : get a f = get b f
  · rw [if_neg fun h => h.2 same, same]
  · rw [if_pos ⟨all f, same⟩]

/-- No field of a list that has all of them differs iff the records are equal. -/
theorem isEmpty_changes_iff {S : Type} {get : S → φ → α}
    (ext_get : ∀ s t, (∀ f, get s f = get t f) → s = t) (all : ∀ f, f ∈ fields) (a b : S) :
    (changes fields (get a) (get b)).isEmpty = true ↔ a = b := by
  rw [List.isEmpty_iff, changes_eq_nil_iff]
  constructor
  · intro same
    exact ext_get a b fun f => same f (all f)
  · rintro rfl f -
    rfl

end

/-! ### The three records -/

theorem CpuField.mem_all (f : CpuField) : f ∈ CpuField.all := by
  cases f <;> decide

theorem TimerField.mem_all (f : TimerField) : f ∈ TimerField.all := by
  cases f <;> decide

namespace CpuState

/-- The processor with one field set. A value that is not of the field's kind
leaves it as it is. -/
def put (s : CpuState) : CpuField → CpuValue → CpuState
  | .pc, .number n => { s with pc := n }
  | .index, .number n => { s with index := n }
  | .sp, .number n => if h : 0 ≤ n ∧ n ≤ 16 then { s with sp := ⟨n.toNat, by omega⟩ } else s
  | .registers, .registers v => { s with registers := v }
  | .stack, .stack v => { s with stack := v }
  | .instructionCount, .number n => { s with instructionCount := n.toNat }
  | _, _ => s

theorem put_sp (s t : CpuState) : s.put .sp (t.get .sp) = { s with sp := t.sp } := by
  have range : 0 ≤ (t.sp.val : Int) ∧ (t.sp.val : Int) ≤ 16 := by omega
  simp only [get, put, range, and_self, ↓reduceDIte, Int.toNat_natCast]

theorem get_put (s t : CpuState) (f g : CpuField) :
    (s.put f (t.get f)).get g = if g = f then t.get f else s.get g := by
  cases f
  case sp =>
    rw [put_sp]
    cases g <;> rfl
  all_goals cases g <;> rfl

theorem ext_get (s t : CpuState) (same : ∀ f, s.get f = t.get f) : s = t := by
  have pc := same .pc
  have index := same .index
  have sp := same .sp
  have registers := same .registers
  have stack := same .stack
  have count := same .instructionCount
  simp only [get, CpuValue.number.injEq, CpuValue.registers.injEq, CpuValue.stack.injEq] at *
  obtain ⟨_, _, _, _, _, _⟩ := s
  obtain ⟨_, _, _, _, _, _⟩ := t
  simp only [mk.injEq]
  exact ⟨pc, index, Fin.ext (Int.ofNat_inj.1 sp), registers, stack, Int.ofNat_inj.1 count⟩

end CpuState

namespace Timers

/-- The timers with one of them set. -/
def put (t : Timers) : TimerField → Int → Timers
  | .delay, v => { t with delay := v }
  | .sound, v => { t with sound := v }

theorem get_put (s t : Timers) (f g : TimerField) :
    (s.put f (t.get f)).get g = if g = f then t.get f else s.get g := by
  cases f <;> cases g <;> rfl

theorem ext_get (s t : Timers) (same : ∀ f, s.get f = t.get f) : s = t := by
  have delay : s.delay = t.delay := same .delay
  have sound : s.sound = t.sound := same .sound
  cases s
  cases t
  simp_all

end Timers

/-! ### Whole differences -/

namespace Diff

/-- The difference the other way. -/
def swapped (d : Diff) : Diff :=
  { d with
    cpu := d.cpu.map Change.swapped
    timers := d.timers.map Change.swapped
    keys := d.keys.map Change.swapped }

theorem swapped_between (a b : Snapshot) : (between (some a) b).swapped = between (some b) a := by
  simp only [swapped, between, keyChanges, swapped_changes, bne_comm]

/-- **A difference is empty iff the snapshots are equal.** -/
theorem isEmpty_between_iff (a b : Snapshot) : (between (some a) b).isEmpty = true ↔ a = b := by
  have cpu := isEmpty_changes_iff CpuState.ext_get CpuField.mem_all a.cpu b.cpu
  have timers := isEmpty_changes_iff Timers.ext_get TimerField.mem_all a.timers b.timers
  have keys := isEmpty_changes_iff (fun _ _ => Keypad.ext_isPressed) List.mem_finRange
    a.keypad b.keypad
  obtain ⟨ac, at', ak, am, ad⟩ := a
  obtain ⟨bc, bt, bk, bm, bd⟩ := b
  simp only [isEmpty, between, keyChanges, Keypad.keys, Bool.and_eq_true, cpu, timers, keys,
    Bool.not_eq_true', bne_eq_false_iff_eq, Snapshot.mk.injEq, and_assoc]

theorem memoryChanged_iff {σ τ : Type} (m : Machine σ) (n : Machine τ) :
    (between (some m.snapshot) n.snapshot).memoryChanged = true ↔
      ∃ a : Fin 4096, m.memory.get a ≠ n.memory.get a := by
  show (m.memory != n.memory) = true ↔ _
  rw [bne_iff_ne, ← not_iff_not, not_not]
  constructor
  · rintro same ⟨a, differs⟩
    exact differs (by rw [same])
  · intro alike
    refine Vector.ext fun a ha => ?_
    by_contra differs
    exact alike ⟨⟨a, ha⟩, differs⟩

theorem displayChanged_iff {σ τ : Type} (m : Machine σ) (n : Machine τ) :
    (between (some m.snapshot) n.snapshot).displayChanged = true ↔
      ∃ x y, m.display.pixel x y ≠ n.display.pixel x y := by
  show (m.display.packed != n.display.packed) = true ↔ _
  rw [bne_iff_ne, ← not_iff_not, not_not]
  constructor
  · rintro same ⟨x, y, differs⟩
    exact differs (by rw [Grid.packed_injective same])
  · intro alike
    have same : m.display = n.display := Grid.ext_pixel fun x y => by
      by_contra differs
      exact alike ⟨x, y, differs⟩
    rw [same]

/-- **Differences are exact.** Between any two machines the difference of their
snapshots is empty iff the snapshots are equal. Under processor, timers and keys
it tells exactly the fields that differ, each once and in their order, with the
values before and after; put into what was before, those after make it what
comes after. Memory and display count as changed iff a byte and a pixel differ.
The other way round the difference is the same with the values of each change in
each other's places. From nothing, every processor field and timer appears, the
keys are told as from a keypad on which none is pressed, and memory and display
count as changed. -/
theorem between_is_exact {σ τ : Type} (m : Machine σ) (n : Machine τ) :
    let a := m.snapshot
    let b := n.snapshot
    let d := between (some a) b
    let fresh := between none b
    (d.isEmpty = true ↔ a = b) ∧
    (AreChanges CpuField.all a.cpu.get b.cpu.get d.cpu ∧
      AreChanges TimerField.all a.timers.get b.timers.get d.timers ∧
      AreChanges Keypad.keys a.keypad.isPressed b.keypad.isPressed d.keys) ∧
    (CpuField.all.map CpuField.name =
        ["pc", "index", "sp", "registers", "stack", "instruction_count"] ∧
      TimerField.all.map TimerField.name = ["delay", "sound"] ∧
      Keypad.keys.map keyName = ["key_0", "key_1", "key_2", "key_3", "key_4", "key_5", "key_6",
        "key_7", "key_8", "key_9", "key_A", "key_B", "key_C", "key_D", "key_E", "key_F"].map Text.of) ∧
    (overwrite CpuState.put d.cpu a.cpu = b.cpu ∧ overwrite Timers.put d.timers a.timers = b.timers ∧
      overwrite Keypad.set d.keys a.keypad = b.keypad) ∧
    (d.memoryChanged = true ↔ ∃ i : Fin 4096, m.memory.get i ≠ n.memory.get i) ∧
    (d.displayChanged = true ↔ ∃ x y, m.display.pixel x y ≠ n.display.pixel x y) ∧
    between (some b) a = d.swapped ∧
    fresh.isEmpty = false ∧
    (fresh.cpu.map Change.field = CpuField.all ∧
      ∀ c, c ∈ fresh.cpu ↔ c.before = none ∧ c.after = b.cpu.get c.field) ∧
    (fresh.timers.map Change.field = TimerField.all ∧
      ∀ c, c ∈ fresh.timers ↔ c.before = none ∧ c.after = b.timers.get c.field) ∧
    AreChanges Keypad.keys (fun _ => false) b.keypad.isPressed fresh.keys ∧
    fresh.memoryChanged = true ∧ fresh.displayChanged = true := by
  intro a b d fresh
  have cpuOnce : CpuField.all.Nodup := by decide
  have timersOnce : TimerField.all.Nodup := by decide
  have keysOnce : Keypad.keys.Nodup := List.nodup_finRange 16
  have allKeys : ∀ k, k ∈ Keypad.keys := List.mem_finRange
  have unpressed : Keypad.released.isPressed = fun _ => false := funext Keypad.isPressed_released
  refine ⟨isEmpty_between_iff a b, ⟨?_, ?_, ?_⟩, ⟨rfl, rfl, by decide⟩, ⟨?_, ?_, ?_⟩,
    memoryChanged_iff m n, displayChanged_iff m n, (swapped_between a b).symm, rfl, ⟨?_, fun c => ?_⟩,
    ⟨?_, fun c => ?_⟩, ?_, rfl, rfl⟩
  · exact areChanges_changes cpuOnce CpuField.mem_all
  · exact areChanges_changes timersOnce TimerField.mem_all
  · exact areChanges_changes keysOnce allKeys
  · exact overwrite_changes CpuState.get_put CpuState.ext_get CpuField.mem_all a.cpu b.cpu
  · exact overwrite_changes Timers.get_put Timers.ext_get TimerField.mem_all a.timers b.timers
  · exact overwrite_changes (fun p q k j => p.isPressed_set k j (q.isPressed k))
      (fun _ _ => Keypad.ext_isPressed) allKeys a.keypad b.keypad
  · exact map_field_appearances CpuField.all b.cpu.get
  · exact mem_appearances_iff CpuField.mem_all
  · exact map_field_appearances TimerField.all b.timers.get
  · exact mem_appearances_iff TimerField.mem_all
  · rw [← unpressed]
    exact areChanges_changes keysOnce allKeys

end Diff

end ChipEight
