/-
# Pressed keys as a set

A keypad is told by the set of its pressed keys, and setting keys is a matter of
that set: keys that are released go out of it, and keys that are pressed come
into it. The first pressed key is the least of the set. Values are read one after
the other, and the first that names no key ends it; the keys before it have been
set.

Key definitions: `Keypad.pressedSet`, `Keypad.ofSet`, `Key.Names`,
`Keypad.setEach`.
Key theorems: `Keypad.firstPressed_eq_min'`, `Keypad.setEach_false`,
`Keypad.setEach_true`, `Keypad.setKeys_eq_done_iff`, `Keypad.setKeys_eq_fail_iff`.
-/
import ChipEight.Keypad
import Mathlib.Data.Finset.Max
import Mathlib.Data.Fintype.Basic
import Mathlib.Data.List.FinRange

namespace ChipEight

/-! ### Sets of keys -/

namespace Keypad

/-- The keys that are pressed. -/
def pressedSet (p : Keypad) : Finset Key := Finset.univ.filter fun k => p.isPressed k

/-- The keypad with these keys pressed and no others. -/
def ofSet (s : Finset Key) : Keypad := ⟨Vector.ofFn fun k => decide (k ∈ s)⟩

@[simp] theorem mem_pressedSet {p : Keypad} {k : Key} : k ∈ p.pressedSet ↔ p.isPressed k := by
  simp [pressedSet]

@[simp] theorem isPressed_ofSet (s : Finset Key) (k : Key) : (ofSet s).isPressed k ↔ k ∈ s := by
  simp [isPressed, ofSet]

@[simp] theorem pressedSet_ofSet (s : Finset Key) : (ofSet s).pressedSet = s := by
  ext k
  rw [mem_pressedSet, isPressed_ofSet]

/-- A keypad is told by its pressed keys. -/
theorem ofSet_pressedSet (p : Keypad) : ofSet p.pressedSet = p :=
  ext_isPressed fun k => by rw [Bool.eq_iff_iff, isPressed_ofSet, mem_pressedSet]

theorem pressedSet_released : released.pressedSet = ∅ := by
  ext k
  simp

theorem pressedSet_set (p : Keypad) (k : Key) (v : Bool) :
    (p.set k v).pressedSet = if v then insert k p.pressedSet else p.pressedSet.erase k := by
  ext j
  rw [mem_pressedSet, isPressed_set]
  cases v with
  | true =>
    rw [if_pos rfl, Finset.mem_insert, mem_pressedSet]
    by_cases same : j = k
    · simp [same]
    · simp [same]
  | false =>
    rw [if_neg Bool.false_ne_true, Finset.mem_erase, mem_pressedSet]
    by_cases same : j = k
    · simp [same]
    · simp [same]

/-! ### The first pressed key -/

theorem firstPressed_eq_none_iff {p : Keypad} : p.firstPressed = none ↔ p.pressedSet = ∅ := by
  rw [firstPressed, List.find?_eq_none, Finset.eq_empty_iff_forall_notMem]
  simp [keys]

/-- The first pressed key is the least of them. -/
theorem firstPressed_eq_min' {p : Keypad} (any : p.pressedSet.Nonempty) :
    p.firstPressed = some (p.pressedSet.min' any) := by
  have least : p.isPressed (p.pressedSet.min' any) :=
    mem_pressedSet.1 (Finset.min'_mem p.pressedSet any)
  cases found : p.firstPressed with
  | none => exact absurd (firstPressed_eq_none_iff.1 found) any.ne_empty
  | some k =>
    obtain ⟨pressed, before, after, split, released⟩ := List.find?_eq_some_iff_append.1 found
    have ascending : (before ++ k :: after).Pairwise (· < ·) := by
      rw [← split]
      exact List.pairwise_lt_finRange 16
    have listed : p.pressedSet.min' any ∈ before ++ k :: after := by
      rw [← split]
      exact List.mem_finRange _
    have le : p.pressedSet.min' any ≤ k := Finset.min'_le _ _ (mem_pressedSet.2 pressed)
    congr 1
    rcases List.mem_append.1 listed with early | late
    · -- nothing before the one that is found is pressed
      have not := released _ early
      simp [least] at not
    · rcases List.mem_cons.1 late with same | later
      · exact same.symm
      · have lt := (List.pairwise_cons.1 (List.pairwise_append.1 ascending).2.1).1 _ later
        exact absurd lt (not_lt_of_ge le)

end Keypad

/-! ### Names of keys -/

namespace Key

/-- The values name the keys, one by one. -/
def Names (vs : List Json) (ks : List Key) : Prop := vs.map ofJson = ks.map .ok

theorem names_cons_iff {v : Json} {vs : List Json} {ks : List Key} :
    Names (v :: vs) ks ↔ ∃ k ks', ofJson v = .ok k ∧ Names vs ks' ∧ ks = k :: ks' := by
  cases ks with
  | nil => simp [Names]
  | cons k ks => simp [Names]

/-- All values name keys, or there is a first that names none. -/
theorem names_or_bad : ∀ vs : List Json, (∃ ks, Names vs ks) ∨
    ∃ front v back ks f, vs = front ++ v :: back ∧ Names front ks ∧ ofJson v = .error f
  | [] => .inl ⟨[], rfl⟩
  | v :: vs => by
    cases named : ofJson v with
    | error f => exact .inr ⟨[], v, vs, [], f, rfl, rfl, named⟩
    | ok k =>
      rcases names_or_bad vs with ⟨ks, names⟩ | ⟨front, w, back, ks, f, rfl, names, bad⟩
      · exact .inl ⟨k :: ks, names_cons_iff.2 ⟨k, ks, named, names, rfl⟩⟩
      · exact .inr ⟨v :: front, w, back, k :: ks, f, rfl,
          names_cons_iff.2 ⟨k, ks, named, names, rfl⟩, bad⟩

end Key

namespace Keypad

/-! ### Setting keys -/

/-- The keypad with some keys set alike. -/
def setEach (v : Bool) (ks : List Key) (p : Keypad) : Keypad := ks.foldl (fun p k => p.set k v) p

theorem isPressed_setEach (v : Bool) : ∀ (ks : List Key) (p : Keypad) (j : Key),
    (setEach v ks p).isPressed j = if j ∈ ks then v else p.isPressed j
  | [], p, j => by rw [setEach, List.foldl_nil, if_neg List.not_mem_nil]
  | k :: ks, p, j => by
    rw [show setEach v (k :: ks) p = setEach v ks (p.set k v) from rfl, isPressed_setEach v ks,
      isPressed_set]
    by_cases later : j ∈ ks
    · rw [if_pos later, if_pos (List.mem_cons_of_mem k later)]
    · simp only [later, List.mem_cons, or_false, if_false]

/-- Keys that are released go out of the set. -/
theorem setEach_false (ks : List Key) (p : Keypad) :
    setEach false ks p = ofSet (p.pressedSet \ ks.toFinset) :=
  ext_isPressed fun k => by
    rw [isPressed_setEach, Bool.eq_iff_iff, isPressed_ofSet]
    simp [and_comm]

/-- Keys that are pressed come into the set. -/
theorem setEach_true (ks : List Key) (p : Keypad) :
    setEach true ks p = ofSet (p.pressedSet ∪ ks.toFinset) :=
  ext_isPressed fun k => by
    rw [isPressed_setEach, Bool.eq_iff_iff, isPressed_ofSet]
    simp [or_comm]

theorem setKeys_of_names (v : Bool) : ∀ {vs : List Json} {ks : List Key}, Key.Names vs ks →
    ∀ p : Keypad, p.setKeys v vs = .done () (p.setEach v ks)
  | [], ks, names, p => by
    obtain rfl : ks = [] := List.map_eq_nil_iff.1 names.symm
    rfl
  | w :: vs, ks, names, p => by
    obtain ⟨k, ks', named, rest, rfl⟩ := Key.names_cons_iff.1 names
    simp only [setKeys, setKey, named, Attempt.andThen_done]
    exact setKeys_of_names v rest (p.set k v)

theorem setKeys_of_bad (v : Bool) {w : Json} {f : Fault} (bad : Key.ofJson w = .error f)
    (back : List Json) : ∀ {front : List Json} {ks : List Key}, Key.Names front ks →
    ∀ p : Keypad, p.setKeys v (front ++ w :: back) = .fail f (p.setEach v ks)
  | [], ks, names, p => by
    obtain rfl : ks = [] := List.map_eq_nil_iff.1 names.symm
    simp only [List.nil_append, setKeys, setKey, bad, Attempt.andThen_fail, setEach, List.foldl_nil]
  | u :: front, ks, names, p => by
    obtain ⟨k, ks', named, rest, rfl⟩ := Key.names_cons_iff.1 names
    simp only [List.cons_append, setKeys, setKey, named, Attempt.andThen_done]
    exact setKeys_of_bad v bad back rest (p.set k v)

/-- Keys are set if all values name keys. -/
theorem setKeys_eq_done_iff {v : Bool} {vs : List Json} {p q : Keypad} :
    p.setKeys v vs = .done () q ↔ ∃ ks, Key.Names vs ks ∧ q = p.setEach v ks := by
  constructor
  · intro h
    rcases Key.names_or_bad vs with ⟨ks, names⟩ | ⟨front, w, back, ks, f, rfl, names, bad⟩
    · rw [setKeys_of_names v names] at h
      exact ⟨ks, names, (congrArg Prod.snd h).symm⟩
    · rw [setKeys_of_bad v bad back names] at h
      cases h
  · rintro ⟨ks, names, rfl⟩
    exact setKeys_of_names v names p

/-- Otherwise the keys before the first value that names none are set. -/
theorem setKeys_eq_fail_iff {v : Bool} {vs : List Json} {f : Fault} {p q : Keypad} :
    p.setKeys v vs = .fail f q ↔ ∃ front w back ks, vs = front ++ w :: back ∧
      Key.Names front ks ∧ Key.ofJson w = .error f ∧ q = p.setEach v ks := by
  constructor
  · intro h
    rcases Key.names_or_bad vs with ⟨ks, names⟩ | ⟨front, w, back, ks, g, rfl, names, bad⟩
    · rw [setKeys_of_names v names] at h
      cases h
    · rw [setKeys_of_bad v bad back names] at h
      cases h
      exact ⟨front, w, back, ks, rfl, names, bad, rfl⟩
  · rintro ⟨front, w, back, ks, rfl, names, bad, rfl⟩
    exact setKeys_of_bad v bad back names p

end Keypad

end ChipEight
