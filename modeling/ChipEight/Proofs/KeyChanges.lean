/-
# Changes of keys

What is done to a keypad, seen on the set of its pressed keys. Releasing and then
pressing takes away the keys of the one list and adds those of the other, in
whatever order and however often they are named; so a key that both name ends
pressed. A value that names no key ends it: those before it have had their effect,
and if it is among the values to release nothing is pressed. What it ends with is the
fault of a key that is not there, unless its number is too long for a message.

Every change of a keypad is so a change of a set, and after any number of changes
the keypad answers by the set that these lead to.

Key definitions: `Key.leading`, `Key.among`, `Keypad.Change`, `Keypad.Change.onSet`,
`Keypad.afterChanges`, `Keypad.AnswersBy`.
Key theorems: `Keypad.apply_of_names`, `Keypad.apply_of_inRange`,
`Keypad.apply_of_first_outside`, `Keypad.pressedSet_perform`,
`Keypad.pressedSet_afterChanges`, `Keypad.answersBy_pressedSet`,
`Keypad.key_changes_are_set_changes`, `Keypad.overlong_key_is_not_refused_as_such`.
-/
import ChipEight.Proofs.Numerals
import ChipEight.Proofs.PressedKeys
import Mathlib.Tactic.Common

namespace ChipEight

/-! ### Keys that are named -/

namespace Key

/-- There is a key of this number. -/
def InRange (i : Int) : Prop := 0 ≤ i ∧ i < 16

instance (i : Int) : Decidable (InRange i) := inferInstanceAs (Decidable (_ ∧ _))

/-- The keys of the values before the first that names none. -/
def leading : List Json → List Key
  | [] => []
  | v :: vs =>
    match ofJson v with
    | .ok k => k :: leading vs
    | .error _ => []

theorem length_of_names {vs : List Json} {ks : List Key} (names : Names vs ks) :
    ks.length = vs.length := by
  have same := congrArg List.length names
  rwa [List.length_map, List.length_map, eq_comm] at same

theorem leading_of_names : ∀ {vs : List Json} {ks : List Key}, Names vs ks → leading vs = ks
  | [], ks, names => (List.map_eq_nil_iff.1 names.symm).symm
  | v :: vs, ks, names => by
    obtain ⟨k, ks', named, rest, rfl⟩ := names_cons_iff.1 names
    rw [leading, named]
    exact congrArg (k :: ·) (leading_of_names rest)

theorem leading_of_bad {w : Json} {f : Fault} (bad : ofJson w = .error f) (back : List Json) :
    ∀ {front : List Json} {ks : List Key}, Names front ks → leading (front ++ w :: back) = ks
  | [], ks, names => by
    obtain rfl : ks = [] := List.map_eq_nil_iff.1 names.symm
    rw [List.nil_append, leading, bad]
  | v :: front, ks, names => by
    obtain ⟨k, ks', named, rest, rfl⟩ := names_cons_iff.1 names
    rw [List.cons_append, leading, named]
    exact congrArg (k :: ·) (leading_of_bad bad back rest)

/-- The keys whose numbers are in a list. -/
def among (is : List Int) : Finset Key := Finset.univ.filter fun k => (k.val : Int) ∈ is

theorem mem_among {is : List Int} {k : Key} : k ∈ among is ↔ (k.val : Int) ∈ is := by
  simp [among]

@[simp] theorem among_nil : among [] = ∅ := by simp [among]

/-- In which order the numbers stand, and how often, is nothing to it. -/
theorem among_congr {is js : List Int} (same : ∀ i, i ∈ is ↔ i ∈ js) : among is = among js := by
  ext k
  rw [mem_among, mem_among, same]

/-- Numbers of keys name them. -/
theorem names_of_inRange : ∀ {is : List Int}, (∀ i ∈ is, InRange i) →
    ∃ ks, Names (is.map .int) ks ∧ ks.toFinset = among is
  | [], _ => ⟨[], rfl, among_nil.symm⟩
  | i :: is, inside => by
    obtain ⟨low, high⟩ := inside i List.mem_cons_self
    obtain ⟨ks, names, keys⟩ := names_of_inRange fun j hj => inside j (List.mem_cons_of_mem i hj)
    let k : Key := ⟨i.toNat, by omega⟩
    have number : i = (k.val : Int) := (Int.toNat_of_nonneg low).symm
    refine ⟨k :: ks, names_cons_iff.2 ⟨k, ks, ?_, names, rfl⟩, ?_⟩
    · exact ofInt_eq_ok_iff.2 number
    · ext j
      rw [List.toFinset_cons, Finset.mem_insert, keys, mem_among, mem_among, List.mem_cons, number,
        Int.ofNat_inj, Fin.ext_iff]

/-- An entry of two lists put together is one of the later list or of the earlier. -/
theorem append_eq_append_cons {α : Type} {as bs cs ds : List α} {x : α}
    (same : as ++ bs = cs ++ x :: ds) :
    (∃ es, cs = as ++ es ∧ bs = es ++ x :: ds) ∨ ∃ es, as = cs ++ x :: es ∧ ds = es ++ bs := by
  rcases List.append_eq_append_iff.1 same with later | ⟨es, rfl, tail⟩
  · exact .inl later
  · rcases List.cons_eq_append_iff.1 tail with ⟨rfl, rfl⟩ | ⟨fs, rfl, rfl⟩
    · exact .inl ⟨[], by simp, rfl⟩
    · exact .inr ⟨fs, rfl, rfl⟩

/-- If some number is that of no key, there is a first. -/
theorem exists_first_outside : ∀ {is : List Int}, ¬(∀ i ∈ is, InRange i) →
    ∃ front i back, is = front ++ i :: back ∧ (∀ j ∈ front, InRange j) ∧ ¬InRange i
  | [], differ => absurd (fun _ none => absurd none List.not_mem_nil) differ
  | i :: is, differ => by
    by_cases inside : InRange i
    · have later : ¬∀ j ∈ is, InRange j := fun all => differ fun j hj =>
        (List.mem_cons.1 hj).elim (fun e => e ▸ inside) (all j)
      obtain ⟨front, j, back, rfl, before, outside⟩ := exists_first_outside later
      refine ⟨i :: front, j, back, rfl, fun j hj => ?_, outside⟩
      exact (List.mem_cons.1 hj).elim (fun e => e ▸ inside) (before j)
    · exact ⟨[], i, is, rfl, fun _ none => absurd none List.not_mem_nil, inside⟩

end Key

namespace Keypad

variable {p : Keypad} {press release front back : List Json} {gone new : List Key} {v : Json}
  {f : Fault}

/-! ### Releasing and then pressing -/

theorem apply_of_names (released : Key.Names release gone) (pressed : Key.Names press new)
    (p : Keypad) :
    p.apply press release = .done () (ofSet (p.pressedSet \ gone.toFinset ∪ new.toFinset)) := by
  rw [apply, setKeys_of_names false released, Attempt.andThen_done, setKeys_of_names true pressed,
    setEach_true, setEach_false, pressedSet_ofSet]

/-- Nothing is pressed if a value to release names no key. -/
theorem apply_of_bad_release (names : Key.Names front gone) (bad : Key.ofJson v = .error f)
    (back press : List Json) (p : Keypad) :
    p.apply press (front ++ v :: back) = .fail f (ofSet (p.pressedSet \ gone.toFinset)) := by
  rw [apply, setKeys_of_bad false bad back names, Attempt.andThen_fail, setEach_false]

theorem apply_of_bad_press (released : Key.Names release gone) (names : Key.Names front new)
    (bad : Key.ofJson v = .error f) (back : List Json) (p : Keypad) :
    p.apply (front ++ v :: back) release =
      .fail f (ofSet (p.pressedSet \ gone.toFinset ∪ new.toFinset)) := by
  rw [apply, setKeys_of_names false released, Attempt.andThen_done,
    setKeys_of_bad true bad back names, setEach_true, setEach_false, pressedSet_ofSet]

/-! ### Numbers of keys -/

section

variable {pressed released before after : List Int} {i : Int}

theorem apply_of_inRange (inside : ∀ i ∈ released ++ pressed, Key.InRange i) (p : Keypad) :
    p.apply (pressed.map .int) (released.map .int) =
      .done () (ofSet (p.pressedSet \ Key.among released ∪ Key.among pressed)) := by
  obtain ⟨gone, names, keys⟩ :=
    Key.names_of_inRange fun i hi => inside i (List.mem_append_left pressed hi)
  obtain ⟨new, names', keys'⟩ :=
    Key.names_of_inRange fun i hi => inside i (List.mem_append_right released hi)
  rw [apply_of_names names names', keys, keys']

/-- The numbers before the first that is of no key have their effect. Those
beyond the end of the numbers to release are pressed. -/
theorem apply_of_first_outside (first : released ++ pressed = before ++ i :: after)
    (inside : ∀ j ∈ before, Key.InRange j) (outside : ¬Key.InRange i) (p : Keypad) :
    p.apply (pressed.map .int) (released.map .int) =
      .fail (Key.refused i) (ofSet (p.pressedSet \ Key.among (before.take released.length) ∪
        Key.among (before.drop released.length))) := by
  have bad : Key.ofJson (.int i) = .error (Key.refused i) :=
    Key.ofInt_eq_error_iff.2 ⟨outside, rfl⟩
  rcases Key.append_eq_append_cons first with ⟨early, rfl, rfl⟩ | ⟨late, rfl, rfl⟩
  · obtain ⟨gone, names, keys⟩ :=
      Key.names_of_inRange fun j hj => inside j (List.mem_append_left early hj)
    obtain ⟨new, names', keys'⟩ :=
      Key.names_of_inRange fun j hj => inside j (List.mem_append_right released hj)
    rw [List.map_append, List.map_cons, apply_of_bad_press names names' bad, List.take_left,
      List.drop_left, keys, keys']
  · obtain ⟨gone, names, keys⟩ := Key.names_of_inRange inside
    have short : before.length ≤ (before ++ i :: late).length := by simp
    rw [List.map_append, List.map_cons, apply_of_bad_release names bad, keys,
      List.take_of_length_le short, List.drop_of_length_le short, Key.among_nil,
      Finset.union_empty]

end

/-! ### Changes -/

/-- What a host does to a keypad. -/
inductive Change where
  /-- Press or release the key that a value names. -/
  | setKey (index : Json) (v : Bool)
  /-- Release every key. -/
  | releaseAll
  /-- Release some keys and then press some. -/
  | apply (press release : List Json)

namespace Change

/-- The change as the keypad makes it. -/
def perform : Change → Keypad → Attempt Keypad Unit
  | .setKey index v, p => p.setKey index v
  | .releaseAll, _ => .done () released
  | .apply press release, p => p.apply press release

/-- The change as one of the set of pressed keys. -/
def onSet (s : Finset Key) : Change → Finset Key
  | .setKey index v =>
    if v then s ∪ (Key.leading [index]).toFinset else s \ (Key.leading [index]).toFinset
  | .releaseAll => ∅
  | .apply press release =>
    if (Key.leading release).length = release.length then
      s \ (Key.leading release).toFinset ∪ (Key.leading press).toFinset
    else s \ (Key.leading release).toFinset

end Change

/-- The keypad after some changes. One that ends with a fault has had its effect so
far. -/
def afterChanges (p : Keypad) (changes : List Change) : Keypad :=
  changes.foldl (fun p change => (change.perform p).2) p

/-- Keys are set up to the first value that names none. -/
theorem setKeys_snd (v : Bool) (vs : List Json) (p : Keypad) :
    (p.setKeys v vs).2 = p.setEach v (Key.leading vs) := by
  rcases Key.names_or_bad vs with ⟨ks, names⟩ | ⟨front, w, back, ks, f, rfl, names, bad⟩
  · rw [setKeys_of_names v names, Key.leading_of_names names]
  · rw [setKeys_of_bad v bad back names, Key.leading_of_bad bad back names]

theorem setKeys_singleton (index : Json) (v : Bool) (p : Keypad) :
    (p.setKeys v [index]).2 = (p.setKey index v).2 := by
  rw [setKeys, setKey]
  cases Key.ofJson index <;> rfl

theorem pressedSet_setKey (index : Json) (v : Bool) (p : Keypad) :
    (p.setKey index v).2.pressedSet = Change.onSet p.pressedSet (.setKey index v) := by
  rw [← setKeys_singleton, setKeys_snd, Change.onSet]
  cases v with
  | true => rw [setEach_true, pressedSet_ofSet, if_pos rfl]
  | false => rw [setEach_false, pressedSet_ofSet, if_neg Bool.false_ne_true]

theorem pressedSet_apply (press release : List Json) (p : Keypad) :
    (p.apply press release).2.pressedSet = Change.onSet p.pressedSet (.apply press release) := by
  rw [Change.onSet]
  rcases Key.names_or_bad release with ⟨gone, names⟩ | ⟨front, w, back, gone, f, rfl, names, bad⟩
  · rw [Key.leading_of_names names, if_pos (Key.length_of_names names), apply,
      setKeys_of_names false names, Attempt.andThen_done, setKeys_snd, setEach_true, setEach_false,
      pressedSet_ofSet, pressedSet_ofSet]
  · have short : gone.length ≠ (front ++ w :: back).length := by
      rw [Key.length_of_names names, List.length_append, List.length_cons]
      omega
    rw [Key.leading_of_bad bad back names, if_neg short, apply_of_bad_release names bad,
      pressedSet_ofSet]

/-- A change of the keypad is that change of the set. -/
theorem pressedSet_perform (p : Keypad) (change : Change) :
    (change.perform p).2.pressedSet = Change.onSet p.pressedSet change := by
  cases change with
  | setKey index v => exact pressedSet_setKey index v p
  | releaseAll => exact pressedSet_released
  | apply press release => exact pressedSet_apply press release p

/-- **Changes of the keypad are changes of the set.** -/
theorem pressedSet_afterChanges : ∀ (changes : List Change) (p : Keypad),
    (p.afterChanges changes).pressedSet = changes.foldl Change.onSet p.pressedSet
  | [], _ => rfl
  | change :: changes, p => by
    show ((change.perform p).2.afterChanges changes).pressedSet = _
    rw [pressedSet_afterChanges changes, pressedSet_perform, List.foldl_cons]

/-! ### Answers -/

/-- What a keypad answers is what the set says. -/
structure AnswersBy (p : Keypad) (s : Finset Key) : Prop where
  firstPressed_none : p.firstPressed = none ↔ s = ∅
  firstPressed_min : ∀ any : s.Nonempty, p.firstPressed = some (s.min' any)
  states_eq : p.states = keys.map fun k => decide (k ∈ s)
  isPressedKey_eq : ∀ {v : Json} {k : Key}, Key.ofJson v = .ok k →
    p.isPressedKey v = .ok (decide (k ∈ s))

theorem isPressed_eq_decide (p : Keypad) (k : Key) : p.isPressed k = decide (k ∈ p.pressedSet) := by
  rw [Bool.eq_iff_iff, decide_eq_true_iff, mem_pressedSet]

/-- A keypad answers by its pressed keys. -/
theorem answersBy_pressedSet (p : Keypad) : p.AnswersBy p.pressedSet where
  firstPressed_none := firstPressed_eq_none_iff
  firstPressed_min := firstPressed_eq_min'
  states_eq := by
    apply List.ext_getElem
    · rw [states, Vector.length_toList, List.length_map, keys, List.length_finRange]
    · intro i here _
      rw [List.getElem_map, ← isPressed_eq_decide]
      simp [states, keys, isPressed]
  isPressedKey_eq named := by rw [isPressedKey, named, ← isPressed_eq_decide]; rfl

/-- **Changes of keys.** Numbers of keys to release and to press take the one out
of the set of pressed keys and put the other in, in whatever order and however
often they stand. Otherwise there is a first number that is of no key, among those
to release and then those to press; it is refused as such unless it is too long for
the message, and the numbers before it have just the effect that they have by
themselves, none being pressed if it is one to release. After any changes at all the
keypad answers by the set they lead to. -/
theorem key_changes_are_set_changes (p : Keypad) (press release : List Int) :
    ((∀ i ∈ release ++ press, Key.InRange i) → ∃ q,
      p.apply (press.map .int) (release.map .int) = .done () q ∧
      q.pressedSet = p.pressedSet \ Key.among release ∪ Key.among press ∧
      ∀ press' release' : List Int,
        (∀ i, i ∈ press' ↔ i ∈ press) → (∀ i, i ∈ release' ↔ i ∈ release) →
          p.apply (press'.map .int) (release'.map .int) = .done () q) ∧
    (¬(∀ i ∈ release ++ press, Key.InRange i) → ∃ before i after,
      release ++ press = before ++ i :: after ∧ (∀ j ∈ before, Key.InRange j) ∧ ¬Key.InRange i) ∧
    (∀ before i after, release ++ press = before ++ i :: after →
      (∀ j ∈ before, Key.InRange j) → ¬Key.InRange i → ∃ q,
        p.apply (press.map .int) (release.map .int) = .fail (Key.refused i) q ∧
        (Numeral.Short i → Key.refused i = .keyOutOfRange i ∧
          (Key.refused i).kind? = some .invalidKey) ∧
        (¬Numeral.Short i → Key.refused i = .numeralTooLong ∧ (Key.refused i).kind? = none) ∧
        p.apply ((before.drop release.length).map .int) ((before.take release.length).map .int) =
          .done () q ∧
        q.pressedSet = p.pressedSet \ Key.among (before.take release.length) ∪
          Key.among (before.drop release.length) ∧
        (before.length < release.length → q.pressedSet = p.pressedSet \ Key.among before)) ∧
    ∀ changes, (p.afterChanges changes).pressedSet = changes.foldl Change.onSet p.pressedSet ∧
      (p.afterChanges changes).AnswersBy (changes.foldl Change.onSet p.pressedSet) := by
  refine ⟨fun inside => ?_, Key.exists_first_outside,
    fun before i after first inside outside => ?_, fun changes => ?_⟩
  · refine ⟨_, apply_of_inRange inside p, pressedSet_ofSet _, fun press' release' new gone => ?_⟩
    have inside' : ∀ i ∈ release' ++ press', Key.InRange i := by
      intro i hi
      rw [List.mem_append, gone, new, ← List.mem_append] at hi
      exact inside i hi
    rw [apply_of_inRange inside' p, Key.among_congr new, Key.among_congr gone]
  · refine ⟨_, apply_of_first_outside first inside outside p, fun short => ?_, fun long => ?_, ?_,
      pressedSet_ofSet _, fun early => ?_⟩
    · rw [Key.refused_of_short short]
      exact ⟨rfl, rfl⟩
    · rw [Key.refused_of_long long]
      exact ⟨rfl, rfl⟩
    · rw [← List.take_append_drop release.length before] at inside
      exact apply_of_inRange inside p
    · rw [pressedSet_ofSet, List.take_of_length_le early.le, List.drop_of_length_le early.le,
        Key.among_nil, Finset.union_empty]
  · rw [← pressedSet_afterChanges]
    exact ⟨rfl, answersBy_pressedSet _⟩

/-- With `3` and `7` pressed, `3` and `5` are released and then `5` and `9` pressed.
A `16` among the numbers to release ends it before the `7`, and the `1` is not
pressed. -/
theorem three_and_seven_change :
    (∃ q, (ofSet {3, 7}).apply (([5, 9, 5] : List Int).map .int) (([3, 5, 3] : List Int).map .int) =
        .done () q ∧ q.pressedSet = {5, 7, 9} ∧ q.firstPressed = some 5) ∧
    ∃ q, (ofSet {3, 7}).apply (([1] : List Int).map .int) (([3, 16, 7] : List Int).map .int) =
        .fail (.keyOutOfRange 16) q ∧ q.pressedSet = {7} := by
  constructor
  · obtain ⟨q, applied, set, -⟩ :=
      (key_changes_are_set_changes (ofSet {3, 7}) [5, 9, 5] [3, 5, 3]).1 (by decide)
    have pressed : q.pressedSet = {5, 7, 9} := by
      rw [set, pressedSet_ofSet]
      decide
    obtain ⟨-, -, -, answers⟩ := key_changes_are_set_changes q [] []
    have answersBy : q.AnswersBy {5, 7, 9} := pressed ▸ (answers []).2
    exact ⟨q, applied, pressed, answersBy.firstPressed_min (by decide)⟩
  · obtain ⟨q, applied, refused, -, -, -, early⟩ :=
      (key_changes_are_set_changes (ofSet {3, 7}) [1] [3, 16, 7]).2.2.1 [3] 16 [7, 1] rfl
        (by decide) (by decide)
    rw [(refused (by decide)).1] at applied
    refine ⟨q, applied, (early (by decide)).trans ?_⟩
    rw [pressedSet_ofSet]
    decide

/-- A number of 4301 digits is of no key. To press it ends with a fault outside the
family, where shorter numbers end with that of a key which is not there. -/
theorem overlong_key_is_not_refused_as_such :
    ¬Key.InRange Numeral.leastLong ∧
    released.apply (([Numeral.leastLong] : List Int).map .int) (([] : List Int).map .int) =
      .fail .numeralTooLong released ∧
    Fault.numeralTooLong.kind? = none ∧
    ¬∀ (p : Keypad) (press release before after : List Int) (i : Int),
      release ++ press = before ++ i :: after → (∀ j ∈ before, Key.InRange j) →
        ¬Key.InRange i → ∃ f q, p.apply (press.map .int) (release.map .int) = .fail f q ∧
          f.kind? = some .invalidKey := by
  have bad : Key.ofJson (.int Numeral.leastLong) = .error .numeralTooLong :=
    Key.ofInt_of_long Numeral.not_short_leastLong
  have outside : ¬Key.InRange Numeral.leastLong := (Key.ofInt_eq_error_iff.1 bad).1
  have pressed :
      released.apply (([Numeral.leastLong] : List Int).map .int) (([] : List Int).map .int) =
        .fail .numeralTooLong released := by
    simp only [List.map_cons, List.map_nil, apply, setKeys, setKey, bad, Attempt.andThen_done,
      Attempt.andThen_fail]
  refine ⟨outside, pressed, rfl, fun all => ?_⟩
  obtain ⟨f, q, applied, kind⟩ := all released [Numeral.leastLong] [] [] [] _ rfl
    (fun _ none => absurd none List.not_mem_nil) outside
  rw [pressed] at applied
  cases applied
  cases kind

end Keypad

end ChipEight
