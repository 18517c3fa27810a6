/-
# The keypad

Sixteen keys, each pressed or released, set by the host between instructions.
A key is named by a value: a whole number from `0` to `15`, or a truth value
in the place of `0` or `1`; any other value names no key.

A value that names no key is refused with a message that shows it. Where the
value holds a number with too many digits to be shown, the message fails, and
with a fault that is not one of the machine's family.

Key definitions: `Keypad`, `Key.ofInt`, `Key.refused`, `Key.ofJson`,
`Keypad.apply`, `Keypad.firstPressed`.
Key theorems: `Keypad.isPressed_set`, `Keypad.isPressed_released`,
`Key.ofInt_eq_ok_iff`, `Key.ofInt_eq_error_iff`.
-/
import ChipEight.Fault
import ChipEight.Json.Inline

namespace ChipEight

/-- A key of the keypad. -/
abbrev Key := Fin 16

namespace Key

/-- The fault for a number that is of no key. -/
def refused (i : Int) : Fault := if Numeral.Short i then .keyOutOfRange i else .numeralTooLong

/-- The key of a number. -/
def ofInt (i : Int) : Except Fault Key :=
  if h : 0 ≤ i ∧ i < 16 then .ok ⟨i.toNat, by omega⟩ else .error (refused i)

/-- The key that a value names. -/
def ofJson (v : Json) : Except Fault Key :=
  match v.wholeNumber? with
  | some i => ofInt i
  | none => .error (if v.isShort then .keyNotInteger v.inline else .numeralTooLong)

theorem refused_of_short {i : Int} (short : Numeral.Short i) : refused i = .keyOutOfRange i :=
  if_pos short

theorem refused_of_long {i : Int} (long : ¬Numeral.Short i) : refused i = .numeralTooLong :=
  if_neg long

theorem ofInt_eq_ok_iff {i : Int} {k : Key} : ofInt i = .ok k ↔ i = (k : Nat) := by
  obtain ⟨k, hk⟩ := k
  unfold ofInt
  split
  · simp only [Except.ok.injEq, Fin.mk.injEq]
    omega
  · simp only [reduceCtorEq, false_iff]
    omega

theorem ofInt_eq_error_iff {i : Int} {f : Fault} :
    ofInt i = .error f ↔ ¬(0 ≤ i ∧ i < 16) ∧ f = refused i := by
  unfold ofInt
  split
  · simp_all
  · simp_all [eq_comm]

/-- No key has a number that is too long. -/
theorem ofInt_of_long {i : Int} (long : ¬Numeral.Short i) : ofInt i = .error .numeralTooLong := by
  refine ofInt_eq_error_iff.2 ⟨fun inside => long ?_, (refused_of_long long).symm⟩
  rw [← Int.toNat_of_nonneg inside.1]
  exact Numeral.short_of_byte i.toNat (by omega)

@[simp] theorem ofJson_int (i : Int) : ofJson (.int i) = ofInt i := rfl

end Key

/-- Which keys are pressed. -/
structure Keypad where
  pressed : Vector Bool 16
  deriving DecidableEq

namespace Keypad

/-- The keypad with every key released. -/
def released : Keypad := ⟨.replicate _ false⟩

/-- Whether a key is pressed. -/
def isPressed (p : Keypad) (k : Key) : Bool := p.pressed[k]

/-- The keypad with one key set. -/
def set (p : Keypad) (k : Key) (v : Bool) : Keypad := ⟨p.pressed.set k v⟩

/-- The keypad with each key released in its turn. -/
def reset (p : Keypad) : Keypad := ⟨p.pressed.map fun _ => false⟩

/-- A keypad is told by its keys. -/
theorem ext_isPressed {p q : Keypad} (e : ∀ k, p.isPressed k = q.isPressed k) : p = q := by
  obtain ⟨ps⟩ := p
  obtain ⟨qs⟩ := q
  congr 1
  ext i hi
  exact e ⟨i, hi⟩

@[simp] theorem isPressed_released (k : Key) : released.isPressed k = false := by
  simp [isPressed, released]

theorem reset_eq_released (p : Keypad) : p.reset = released := by
  apply ext_isPressed
  intro k
  rw [isPressed_released]
  simp [isPressed, reset]

theorem isPressed_set (p : Keypad) (k j : Key) (v : Bool) :
    (p.set k v).isPressed j = if j = k then v else p.isPressed j := by
  unfold set isPressed
  by_cases e : j = k
  · subst e; simp
  · have : (k : Nat) ≠ j := fun h => e (Fin.ext h.symm)
    simp [e, Vector.getElem_set_ne, this]

/-- The keys, ascending. -/
def keys : List Key := List.finRange 16

/-- The pressed keys, ascending. -/
def pressedKeys (p : Keypad) : List Key := keys.filter p.isPressed

/-- The pressed key of the lowest number. -/
def firstPressed (p : Keypad) : Option Key := keys.find? p.isPressed

/-- The state of each key, ascending. -/
def states (p : Keypad) : List Bool := p.pressed.toList

/-! ### Keys named by values -/

/-- Set the key that a value names. -/
def setKey (index : Json) (v : Bool) (p : Keypad) : Attempt Keypad Unit :=
  match Key.ofJson index with
  | .ok k => .done () (p.set k v)
  | .error f => .fail f p

/-- Set the keys that values name, one after the other, up to the first value
that names none. -/
def setKeys (v : Bool) : List Json → Keypad → Attempt Keypad Unit
  | [], p => .done () p
  | index :: rest, p => (p.setKey index v).andThen fun _ p => setKeys v rest p

/-- Whether the key that a value names is pressed. -/
def isPressedKey (index : Json) (p : Keypad) : Except Fault Bool :=
  (Key.ofJson index).map p.isPressed

/-- Release some keys and then press some, up to the first value that names
none. A key named for both ends pressed. -/
def apply (press release : List Json) (p : Keypad) : Attempt Keypad Unit :=
  (p.setKeys false release).andThen fun _ p => p.setKeys true press

end Keypad

end ChipEight
