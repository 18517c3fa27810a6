/-
# What is written is read back

A value goes into its text and comes out of it again, in either layout and
however deep it lies. That needs that the value is plain: texts and names of
characters only (a pair of lone surrogates would come back as the one code point
that the pair stands for), no two members of one name, whole numbers within the
limit on digits, and no reals.

A part of a text is read with more text after it, so what is proved of each part
is that the reader takes the part and leaves the rest. Only a numeral could go
on into the rest, and whatever comes after one ends it. The reader's fuel is
bounded by the length of the part. What is written is in ASCII, whatever
characters the value has.

Key definitions: `Json.Plain`, `Json.Reads`, `Json.Ascii`.
Key theorems: `Json.readString_quoted`, `Json.Plain.reads`, `Json.read_write`,
`Json.Plain.ascii`.
-/
import ChipEight.Proofs.Numerals

namespace ChipEight

namespace Json

/-! ### Texts -/

theorem unitEscape_append (n : Nat) (rest : Text) :
    unitEscape n ++ rest = 0x5C :: 0x75 :: (fourHex n ++ rest) := rfl

theorem unitEscape_ne_nil (n : Nat) : unitEscape n ≠ [] := List.cons_ne_nil 0x5C _

theorem escape_ne_nil (c : Nat) : escape c ≠ [] := by
  unfold escape
  split_ifs
  iterate 7 · decide
  · exact List.cons_ne_nil c []
  · exact unitEscape_ne_nil c
  · exact List.append_ne_nil_of_left_ne_nil (unitEscape_ne_nil _) _

theorem length_le_length_escapes : ∀ t : Text, t.length ≤ (t.flatMap escape).length
  | [] => Nat.le_refl _
  | c :: t => by
    have rest := length_le_length_escapes t
    have first := List.length_pos_iff.2 (escape_ne_nil c)
    rw [List.flatMap_cons, List.length_append, List.length_cons]
    omega

/-- A unit that is no surrogate stands for itself. -/
theorem readUnitEscape_of_unit {n : Nat} (word : n < 0x10000) (low : isHighSurrogate n = false)
    (rest : Text) : readUnitEscape (fourHex n ++ rest) = .ok (n, rest) := by
  rw [readUnitEscape, fourHex?_fourHex word]
  simp only [low, Bool.false_eq_true, if_false]

/-- Two surrogates stand for the code point that they were made of. -/
theorem readUnitEscape_of_pair {n : Nat} (above : 0x10000 ≤ n) (unicode : n < 0x110000)
    (rest : Text) :
    readUnitEscape (fourHex (0xD800 + (n - 0x10000) / 0x400)
      ++ unitEscape (0xDC00 + (n - 0x10000) % 0x400) ++ rest) = .ok (n, rest) := by
  have high : isHighSurrogate (0xD800 + (n - 0x10000) / 0x400) = true := by
    simp only [isHighSurrogate, Bool.and_eq_true, decide_eq_true_eq]
    omega
  have low : isLowSurrogate (0xDC00 + (n - 0x10000) % 0x400) = true := by
    simp only [isLowSurrogate, Bool.and_eq_true, decide_eq_true_eq]
    omega
  have joined : joinSurrogates (0xD800 + (n - 0x10000) / 0x400)
      (0xDC00 + (n - 0x10000) % 0x400) = n := by
    unfold joinSurrogates
    omega
  rw [readUnitEscape, List.append_assoc, unitEscape_append, fourHex?_fourHex (by omega)]
  simp only [high, if_true, fourHex?_fourHex (n := 0xDC00 + (n - 0x10000) % 0x400) (by omega), low,
    joined]

theorem readString_unit (fuel : Nat) (before rest : Text) :
    readString (fuel + 1) before (0x5C :: 0x75 :: rest) =
      match readUnitEscape rest with
      | .error e => .error e
      | .ok (c, rest) => readString fuel (c :: before) rest := rfl

theorem readString_plain {c : Nat} (quote : c ≠ 0x22) (backslash : c ≠ 0x5C) (printable : 0x20 ≤ c)
    (fuel : Nat) (before rest : Text) :
    readString (fuel + 1) before (c :: rest) = readString fuel (c :: before) rest := by
  rw [readString]
  · rw [if_neg (by omega)]
  · exact quote
  · intro _ same
    exact absurd same backslash
  · intro _ _ same
    exact absurd same backslash

/-- **A character is read back in one round.** -/
theorem readString_escape {c : Nat} (scalar : c.isValidChar) (fuel : Nat) (before rest : Text) :
    readString (fuel + 1) before (escape c ++ rest) = readString fuel (c :: before) rest := by
  unfold escape
  split_ifs with quote backslash newline return_ tab feed back printable word
  · subst quote
    rfl
  · subst backslash
    rfl
  · subst newline
    rfl
  · subst return_
    rfl
  · subst tab
    rfl
  · subst feed
    rfl
  · subst back
    rfl
  · exact readString_plain quote backslash printable.1 fuel before rest
  · have unpaired : isHighSurrogate c = false := by
      have range : c < 0xD800 ∨ 0xDFFF < c ∧ c < 0x110000 := scalar
      rw [isHighSurrogate, Bool.and_eq_false_iff, decide_eq_false_iff_not, decide_eq_false_iff_not]
      omega
    rw [unitEscape_append, readString_unit, readUnitEscape_of_unit word unpaired]
  · have unicode : c < 0x110000 := by
      have range : c < 0xD800 ∨ 0xDFFF < c ∧ c < 0x110000 := scalar
      omega
    rw [List.append_assoc, unitEscape_append, readString_unit, ← List.append_assoc,
      readUnitEscape_of_pair (by omega) unicode]

/-- **A quoted text is read back**, with fuel for each of its characters and the
closing mark. -/
theorem readString_quoted : ∀ {t : Text}, (∀ c ∈ t, c.isValidChar) → ∀ {fuel : Nat},
    t.length < fuel → ∀ before rest : Text,
      readString fuel before (t.flatMap escape ++ 0x22 :: rest) = .ok (before.reverse ++ t, rest)
  | [], _, fuel + 1, _, before, rest => by
    rw [List.append_nil]
    rfl
  | c :: t, scalar, fuel + 1, enough, before, rest => by
    have others : ∀ d ∈ t, d.isValidChar := fun d hd => scalar d (List.mem_cons_of_mem c hd)
    rw [List.flatMap_cons, List.append_assoc, readString_escape (scalar c List.mem_cons_self),
      readString_quoted others (Nat.lt_of_succ_lt_succ enough), List.reverse_cons,
      List.append_assoc]
    rfl

/-- What the reader does after the opening mark of a quoted text. -/
theorem readString_after_quote {t : Text} (scalar : ∀ c ∈ t, c.isValidChar) (rest : Text) :
    readString (quote t ++ rest).length [] (t.flatMap escape ++ 0x22 :: rest) = .ok (t, rest) := by
  have escapes := length_le_length_escapes t
  refine readString_quoted scalar ?_ [] rest
  simp only [quote, List.length_append, List.length_cons]
  omega

theorem quote_append (t rest : Text) :
    quote t ++ rest = 0x22 :: (t.flatMap escape ++ 0x22 :: rest) := by
  simp [quote]

/-! ### Values without parts -/

/-- The values that their text tells in full. -/
inductive Plain : Json → Prop
  | null : Plain .null
  | bool (b : Bool) : Plain (.bool b)
  | int {n : Int} (limit : n.natAbs < 10 ^ Numeral.maxDigits) : Plain (.int n)
  | string {t : Text} (scalar : ∀ c ∈ t, c.isValidChar) : Plain (.string t)
  | array {vs : List Json} (items : ∀ v ∈ vs, Plain v) : Plain (.array vs)
  | object {ms : List (Text × Json)} (once : (ms.map Prod.fst).Nodup)
      (scalar : ∀ m ∈ ms, ∀ c ∈ m.1, c.isValidChar) (members : ∀ m ∈ ms, Plain m.2) :
      Plain (.object ms)

/-- The text of a value is read as the value wherever it stands, and what comes
after it is left. -/
def Reads (layout : Layout) (v : Json) : Prop :=
  ∀ (depth fuel : Nat) (rest : Text), (writeAt layout depth v).length ≤ fuel → EndsNumber rest →
    readValue fuel (writeAt layout depth v ++ rest) = .ok (v, rest)

theorem readValue_of_scalar {c : Nat} (h : c ≠ 0x22 ∧ c ≠ 0x5B ∧ c ≠ 0x7B) (fuel : Nat) (t : Text) :
    readValue (fuel + 1) (c :: t) = readScalar (c :: t) := by
  obtain ⟨quote, bracket, brace⟩ := h
  rw [readValue]
  · exact fun _ same => quote (List.cons.inj same).1
  · exact fun _ same => bracket (List.cons.inj same).1
  · exact fun _ same => brace (List.cons.inj same).1

theorem findSome?_words_eq_none {t : Text} (h : ∀ w ∈ words, Text.dropExact? w.1 t = none) :
    words.findSome? (fun (word, v) => (Text.dropExact? word t).map (v, ·)) = none :=
  List.findSome?_eq_none_iff.2 fun w hw => by simp only [h w hw, Option.map_none]

theorem dropExact?_of_digit {w t : Text} {c : Nat} (digit : isDigit c)
    (h : ∃ l ∈ w.head?, isDigit l = false) : Text.dropExact? w (c :: t) = none := by
  obtain ⟨l, front, other⟩ := h
  obtain ⟨lead, rfl⟩ := List.head?_eq_some_iff.1 front
  have differs : l ≠ c := by
    rintro rfl
    rw [other] at digit
    contradiction
  rw [Text.dropExact?, if_neg differs]

/-- No word of the grammar starts with a digit, -/
theorem no_word_of_digit {c : Nat} (digit : isDigit c) (t : Text) :
    ∀ w ∈ words, Text.dropExact? w.1 (c :: t) = none := by
  have heads : ∀ w ∈ words, ∃ l ∈ w.1.head?, isDigit l = false := by decide
  exact fun w hw => dropExact?_of_digit digit (heads w hw)

/-- nor with one after a minus sign. -/
theorem no_word_of_minus {c : Nat} (digit : isDigit c) (t : Text) :
    ∀ w ∈ words, Text.dropExact? w.1 (0x2D :: c :: t) = none := by
  have infinity : Text.dropExact? (Text.of "Infinity") (c :: t) = none :=
    dropExact?_of_digit digit (by decide)
  simp only [words, List.forall_mem_cons]
  exact ⟨rfl, rfl, rfl, rfl, rfl, infinity, fun _ none => absurd none List.not_mem_nil⟩

theorem isDigit_iff {c : Nat} : isDigit c = true ↔ 0x30 ≤ c ∧ c ≤ 0x39 := by
  simp [isDigit]

theorem readScalar_of_digit {c : Nat} (digit : isDigit c) (t : Text) :
    readScalar (c :: t) = readUnsigned false (c :: t) := by
  have range := isDigit_iff.1 digit
  unfold readScalar
  rw [findSome?_words_eq_none (no_word_of_digit digit t)]
  split
  · contradiction
  · split
    · rename_i same
      have minus := (List.cons.inj same).1
      omega
    · rfl

theorem readScalar_of_minus {c : Nat} (digit : isDigit c) (t : Text) :
    readScalar (0x2D :: c :: t) = readUnsigned true (c :: t) := by
  unfold readScalar
  rw [findSome?_words_eq_none (no_word_of_minus digit t)]
  rfl

theorem decimalDigits_eq_cons (n : Nat) :
    ∃ c cs, Numeral.decimalDigits n = c :: cs ∧ isDigit c := by
  obtain ⟨c, cs, digits⟩ := List.exists_cons_of_ne_nil (Numeral.decimalDigits_ne_nil n)
  exact ⟨c, cs, digits, Numeral.isDigit_of_mem_decimalDigits (n := n) (by simp [digits])⟩

theorem readScalar_decimal {n : Int} (limit : n.natAbs < 10 ^ Numeral.maxDigits) {rest : Text}
    (ends : EndsNumber rest) : readScalar (Numeral.decimal n ++ rest) = .ok (.int n, rest) := by
  cases n with
  | ofNat n =>
    obtain ⟨c, cs, digits, digit⟩ := decimalDigits_eq_cons n
    have read := readUnsigned_decimalDigits (n := n) limit ends false
    rw [digits] at read
    rw [Numeral.decimal, digits]
    exact (readScalar_of_digit digit _).trans read
  | negSucc n =>
    obtain ⟨c, cs, digits, digit⟩ := decimalDigits_eq_cons (n + 1)
    have read := readUnsigned_decimalDigits (n := n + 1) limit ends true
    rw [digits] at read
    rw [Numeral.decimal, digits]
    exact (readScalar_of_minus digit _).trans read

/-- What a value's text starts with is no space and closes no bracket. -/
theorem Plain.head {v : Json} (h : v.Plain) (layout : Layout) (depth : Nat) :
    ∃ c cs, writeAt layout depth v = c :: cs ∧ isSpace c = false ∧ c ≠ 0x5D := by
  cases h with
  | null => exact ⟨_, _, rfl, rfl, by decide⟩
  | bool b => cases b <;> exact ⟨_, _, rfl, rfl, by decide⟩
  | @int n limit =>
    rw [writeAt]
    cases n with
    | ofNat n =>
      obtain ⟨c, cs, digits, digit⟩ := decimalDigits_eq_cons n
      have range := isDigit_iff.1 digit
      refine ⟨c, cs, digits, ?_, by omega⟩
      simp only [isSpace, Bool.or_eq_false_iff, beq_eq_false_iff_ne]
      omega
    | negSucc n => exact ⟨_, _, rfl, rfl, by decide⟩
  | string => exact ⟨_, _, rfl, rfl, by decide⟩
  | @array vs => cases vs <;> exact ⟨_, _, rfl, rfl, by decide⟩
  | @object ms => rcases ms with _ | ⟨⟨name, v⟩, ms⟩ <;> exact ⟨_, _, rfl, rfl, by decide⟩

theorem Plain.length_pos {v : Json} (h : v.Plain) (layout : Layout) (depth : Nat) :
    0 < (writeAt layout depth v).length := by
  obtain ⟨c, cs, text, -, -⟩ := h.head layout depth
  rw [text]
  exact Nat.succ_pos cs.length

theorem reads_int {n : Int} (limit : n.natAbs < 10 ^ Numeral.maxDigits) (layout : Layout) :
    Reads layout (.int n) := by
  intro depth fuel rest enough ends
  obtain ⟨fuel, rfl⟩ := Nat.exists_eq_add_one.2
    (Nat.lt_of_lt_of_le ((Plain.int limit).length_pos layout depth) enough)
  have read := readScalar_decimal limit ends
  rw [writeAt]
  cases n with
  | ofNat n =>
    obtain ⟨c, cs, digits, digit⟩ := decimalDigits_eq_cons n
    have range := isDigit_iff.1 digit
    rw [Numeral.decimal, digits] at read ⊢
    exact (readValue_of_scalar (by omega) fuel (cs ++ rest)).trans read
  | negSucc n => exact read

theorem reads_string {t : Text} (scalar : ∀ c ∈ t, c.isValidChar) (layout : Layout) :
    Reads layout (.string t) := by
  intro depth fuel rest enough _
  obtain ⟨fuel, rfl⟩ := Nat.exists_eq_add_one.2
    (Nat.lt_of_lt_of_le ((Plain.string scalar).length_pos layout depth) enough)
  have read := readString_after_quote scalar rest
  rw [writeAt, quote_append] at *
  rw [readValue, read]
  rfl

/-! ### Arrays and objects -/

theorem skipSpace_lineBreak (layout : Layout) (depth : Nat) (t : Text) :
    skipSpace (layout.lineBreak depth ++ t) = skipSpace t := by
  cases layout with
  | line => rfl
  | indented =>
    have spaces : ∀ c ∈ Layout.indented.lineBreak depth, isSpace c := by
      intro c hc
      rcases List.mem_cons.1 hc with rfl | pad
      · rfl
      · rw [List.eq_of_mem_replicate pad]
        rfl
    rw [skipSpace, List.dropWhile_append_of_pos spaces]
    rfl

theorem skipSpace_cons {c : Nat} (visible : isSpace c = false) (t : Text) :
    skipSpace (c :: t) = c :: t :=
  List.dropWhile_cons_of_neg (by simp [visible])

theorem endsNumber_lineBreak (layout : Layout) (depth : Nat) {c : Nat} {t : Text}
    (h : isDigit c = false ∧ c ≠ 0x2E ∧ c ≠ 0x65 ∧ c ≠ 0x45) :
    EndsNumber (layout.lineBreak depth ++ c :: t) := by
  cases layout with
  | line => exact endsNumber_cons h
  | indented => exact endsNumber_cons (by decide)

/-- The items after the first are read up to the closing bracket. -/
theorem readItems_of_reads (layout : Layout) (depth close : Nat) (rest : Text) :
    ∀ (vs : List Json) {v : Json}, (∀ u ∈ v :: vs, u.Plain ∧ Reads layout u) → ∀ fuel : Nat,
      (writeAt layout depth v ++ writeItems layout depth vs).length < fuel →
      ∀ before : List Json,
        readItems fuel before (writeAt layout depth v ++ (writeItems layout depth vs
          ++ (layout.lineBreak close ++ 0x5D :: rest))) = .ok (before.reverse ++ v :: vs, rest) := by
  intro vs
  induction vs with
  | nil =>
    intro v items fuel enough before
    obtain ⟨fuel, rfl⟩ := Nat.exists_eq_add_one.2 (Nat.zero_lt_of_lt enough)
    rw [writeItems, List.append_nil] at enough
    rw [writeItems, List.nil_append]
    have read := (items v List.mem_cons_self).2 depth fuel
      (layout.lineBreak close ++ 0x5D :: rest) (Nat.le_of_lt_succ enough)
      (endsNumber_lineBreak layout close (by decide))
    rw [readItems, read]
    simp only [skipSpace_lineBreak, skipSpace_cons (c := 0x5D) (by decide), List.reverse_cons]
  | cons u vs ih =>
    intro v items fuel enough before
    obtain ⟨fuel, rfl⟩ := Nat.exists_eq_add_one.2 (Nat.zero_lt_of_lt enough)
    have others : ∀ t ∈ u :: vs, t.Plain ∧ Reads layout t := fun t ht =>
      items t (List.mem_cons_of_mem v ht)
    -- an item starts with no space, so the space in front of it is skipped and no more
    obtain ⟨c, cs, text, visible, -⟩ := (items u (by simp)).1.head layout depth
    simp only [writeItems, List.length_append, List.length_cons] at enough
    have read := (items v List.mem_cons_self).2 depth fuel
      (writeItems layout depth (u :: vs) ++ (layout.lineBreak close ++ 0x5D :: rest)) (by omega)
      (endsNumber_cons (by decide))
    have next := ih others fuel (by rw [List.length_append]; omega) (v :: before)
    rw [readItems, read]
    simp only [writeItems, List.cons_append, List.append_assoc,
      skipSpace_cons (c := 0x2C) (by decide), skipSpace_lineBreak]
    rw [text, List.cons_append, skipSpace_cons visible, ← List.cons_append, ← text, next,
      List.reverse_cons, List.append_assoc, List.singleton_append]

theorem readValue_bracket {c : Nat} (visible : isSpace c = false) (occupied : c ≠ 0x5D)
    (layout : Layout) (depth fuel : Nat) (t : Text) :
    readValue (fuel + 1) (0x5B :: (layout.lineBreak depth ++ c :: t)) =
      (readItems fuel [] (c :: t)).map fun (vs, rest) => (.array vs, rest) := by
  rw [readValue, skipSpace_lineBreak, skipSpace_cons visible]
  split
  · rename_i same
    exact absurd (List.cons.inj same).1 occupied
  · rfl

theorem reads_array {layout : Layout} {vs : List Json} (plain : ∀ v ∈ vs, v.Plain)
    (items : ∀ v ∈ vs, Reads layout v) : Reads layout (.array vs) := by
  intro depth fuel rest enough _
  obtain ⟨fuel, rfl⟩ := Nat.exists_eq_add_one.2
    (Nat.lt_of_lt_of_le ((Plain.array plain).length_pos layout depth) enough)
  cases vs with
  | nil => rfl
  | cons v vs =>
    obtain ⟨c, cs, text, visible, occupied⟩ := (plain v List.mem_cons_self).head layout (depth + 1)
    simp only [writeAt, List.length_append, List.length_cons] at enough
    have read := readItems_of_reads layout (depth + 1) depth rest vs
      (fun u hu => ⟨plain u hu, items u hu⟩) fuel (by rw [List.length_append]; omega) []
    simp only [writeAt, text, List.cons_append, List.append_assoc, List.nil_append] at read ⊢
    rw [readValue_bracket visible occupied, read]
    rfl

theorem insertMember_of_new {name : Text} (v : Json) : ∀ {before : List (Text × Json)},
    name ∉ before.map Prod.fst → insertMember name v before = before ++ [(name, v)]
  | [], _ => rfl
  | (n, w) :: before, new => by
    rw [List.map_cons, List.mem_cons, not_or] at new
    rw [insertMember, if_neg (Ne.symm new.1), insertMember_of_new v new.2]
    rfl

theorem not_mem_of_once {name : Text} {v : Json} {before after : List (Text × Json)}
    (once : ((before ++ (name, v) :: after).map Prod.fst).Nodup) : name ∉ before.map Prod.fst := by
  rw [List.map_append, List.nodup_append] at once
  exact fun old => once.2.2 name old name (by simp) rfl

theorem skipSpace_colon (layout : Layout) (t : Text) :
    ∃ t', skipSpace (layout.colon ++ t) = 0x3A :: t' ∧ skipSpace t' = skipSpace t := by
  cases layout with
  | line => exact ⟨t, rfl, rfl⟩
  | indented => exact ⟨0x20 :: t, rfl, rfl⟩

/-- One member is read, and the mark that comes after it decides. -/
theorem readMembers_member {layout : Layout} {name : Text} {v : Json}
    (scalar : ∀ c ∈ name, c.isValidChar) (plain : v.Plain) (reads : Reads layout v)
    {depth fuel : Nat} (enough : (writeAt layout depth v).length ≤ fuel) {t : Text}
    (ends : EndsNumber t) (before : List (Text × Json)) (rest : Text) :
    (skipSpace t = 0x7D :: rest →
      readMembers (fuel + 1) before
        (quote name ++ (layout.colon ++ (writeAt layout depth v ++ t))) =
          .ok (insertMember name v before, rest)) ∧
    (skipSpace t = 0x2C :: rest →
      readMembers (fuel + 1) before
        (quote name ++ (layout.colon ++ (writeAt layout depth v ++ t))) =
          readMembers fuel (insertMember name v before) (skipSpace rest)) := by
  obtain ⟨c, cs, text, visible, -⟩ := plain.head layout depth
  obtain ⟨t', colon, after⟩ := skipSpace_colon layout (writeAt layout depth v ++ t)
  have value : skipSpace t' = writeAt layout depth v ++ t := by
    rw [after, text, List.cons_append, skipSpace_cons visible]
  have read := readString_after_quote scalar (layout.colon ++ (writeAt layout depth v ++ t))
  rw [quote_append] at read ⊢
  rw [readMembers, read]
  simp only [colon, value, reads depth fuel t enough ends]
  exact ⟨fun brace => by rw [brace]; rfl, fun comma => by rw [comma]; rfl⟩

/-- The members after the first are read up to the closing brace. -/
theorem readMembers_of_reads (layout : Layout) (depth close : Nat) (rest : Text) :
    ∀ (ms : List (Text × Json)) {name : Text} {v : Json},
      (∀ m ∈ (name, v) :: ms, (∀ c ∈ m.1, c.isValidChar) ∧ m.2.Plain ∧ Reads layout m.2) →
      ∀ fuel : Nat, (writeAt layout depth v ++ writeMembers layout depth ms).length < fuel →
      ∀ before : List (Text × Json), ((before ++ (name, v) :: ms).map Prod.fst).Nodup →
        readMembers fuel before (quote name ++ (layout.colon ++ (writeAt layout depth v
          ++ (writeMembers layout depth ms ++ (layout.lineBreak close ++ 0x7D :: rest))))) =
            .ok (before ++ (name, v) :: ms, rest) := by
  intro ms
  induction ms with
  | nil =>
    intro name v members fuel enough before once
    obtain ⟨fuel, rfl⟩ := Nat.exists_eq_add_one.2 (Nat.zero_lt_of_lt enough)
    obtain ⟨scalar, plain, reads⟩ : (∀ c ∈ name, c.isValidChar) ∧ v.Plain ∧ Reads layout v :=
      members (name, v) List.mem_cons_self
    rw [writeMembers, List.append_nil] at enough
    have brace : skipSpace (layout.lineBreak close ++ 0x7D :: rest) = 0x7D :: rest := by
      rw [skipSpace_lineBreak, skipSpace_cons (by decide)]
    rw [writeMembers, List.nil_append, (readMembers_member scalar plain reads
      (Nat.le_of_lt_succ enough) (endsNumber_lineBreak layout close (by decide)) before rest).1 brace,
      insertMember_of_new v (not_mem_of_once once)]
  | cons m ms ih =>
    intro name v members fuel enough before once
    obtain ⟨name', u⟩ := m
    obtain ⟨fuel, rfl⟩ := Nat.exists_eq_add_one.2 (Nat.zero_lt_of_lt enough)
    obtain ⟨scalar, plain, reads⟩ : (∀ c ∈ name, c.isValidChar) ∧ v.Plain ∧ Reads layout v :=
      members (name, v) List.mem_cons_self
    have others : ∀ m ∈ (name', u) :: ms, (∀ c ∈ m.1, c.isValidChar) ∧ m.2.Plain ∧
        Reads layout m.2 := fun m hm => members m (List.mem_cons_of_mem _ hm)
    have once' : ((before ++ [(name, v)] ++ (name', u) :: ms).map Prod.fst).Nodup := by
      rwa [List.append_assoc, List.singleton_append]
    simp only [writeMembers, List.length_append, List.length_cons] at enough
    have next := ih others fuel (by rw [List.length_append]; omega) _ once'
    have room : (writeAt layout depth v).length ≤ fuel := by omega
    have comma (t : Text) := (readMembers_member scalar plain reads room
      (endsNumber_cons (c := 0x2C) (by decide)) before t).2 (skipSpace_cons (by decide) t)
    have start (t : Text) : skipSpace (layout.lineBreak depth ++ (quote name' ++ t)) =
        quote name' ++ t := by
      rw [skipSpace_lineBreak, quote_append, skipSpace_cons (by decide)]
    simp only [writeMembers, List.cons_append, List.append_assoc]
    rw [comma, start, insertMember_of_new v (not_mem_of_once once), next, List.append_assoc,
      List.singleton_append]

theorem readValue_brace (layout : Layout) (depth fuel : Nat) (name t : Text) :
    readValue (fuel + 1) (0x7B :: (layout.lineBreak depth ++ (quote name ++ t))) =
      (readMembers fuel [] (quote name ++ t)).map fun (ms, rest) => (.object ms, rest) := by
  rw [readValue, skipSpace_lineBreak, quote_append, skipSpace_cons (by decide)]
  rfl

theorem reads_object {layout : Layout} {ms : List (Text × Json)} (once : (ms.map Prod.fst).Nodup)
    (scalar : ∀ m ∈ ms, ∀ c ∈ m.1, c.isValidChar) (plain : ∀ m ∈ ms, m.2.Plain)
    (members : ∀ m ∈ ms, Reads layout m.2) : Reads layout (.object ms) := by
  intro depth fuel rest enough _
  obtain ⟨fuel, rfl⟩ := Nat.exists_eq_add_one.2
    (Nat.lt_of_lt_of_le ((Plain.object once scalar plain).length_pos layout depth) enough)
  rcases ms with _ | ⟨⟨name, v⟩, ms⟩
  · rfl
  · simp only [writeAt, List.length_append, List.length_cons] at enough
    have read := readMembers_of_reads layout (depth + 1) depth rest ms
      (fun m hm => ⟨scalar m hm, plain m hm, members m hm⟩) fuel
      (by rw [List.length_append]; omega) [] once
    simp only [writeAt, List.cons_append, List.append_assoc, List.nil_append] at read ⊢
    rw [readValue_brace, read]
    rfl

/-! ### Whole texts -/

/-- **A plain value is read from its text wherever that stands.** -/
theorem Plain.reads {v : Json} (h : v.Plain) (layout : Layout) : Reads layout v := by
  induction h with
  | null =>
    intro depth fuel rest enough _
    obtain ⟨fuel, rfl⟩ := Nat.exists_eq_add_one.2
      (Nat.lt_of_lt_of_le (Plain.null.length_pos layout depth) enough)
    rfl
  | bool b =>
    intro depth fuel rest enough _
    obtain ⟨fuel, rfl⟩ := Nat.exists_eq_add_one.2
      (Nat.lt_of_lt_of_le ((Plain.bool b).length_pos layout depth) enough)
    cases b <;> rfl
  | int limit => exact reads_int limit layout
  | string scalar => exact reads_string scalar layout
  | array plain items => exact reads_array plain items
  | object once scalar plain members => exact reads_object once scalar plain members

/-- **What is written is read back.** -/
theorem read_write {v : Json} (h : v.Plain) (layout : Layout) : read (write layout v) = .ok v := by
  obtain ⟨c, cs, text, visible, -⟩ := h.head layout 0
  have whole := h.reads layout 0 ((write layout v).length + 1) [] (Nat.le_succ _) endsNumber_nil
  have start : skipSpace (write layout v) = write layout v := by
    rw [write, text, skipSpace_cons visible]
  rw [← write, List.append_nil] at whole
  rw [read, start, whole]
  rfl

/-! ### In ASCII -/

/-- A text of line feeds and of the code points from space to tilde. -/
def Ascii (t : Text) : Prop := ∀ c ∈ t, c = 0x0A ∨ 0x20 ≤ c ∧ c ≤ 0x7E

instance (t : Text) : Decidable (Ascii t) :=
  inferInstanceAs (Decidable (∀ c ∈ t, c = 0x0A ∨ 0x20 ≤ c ∧ c ≤ 0x7E))

variable {t u : Text}

theorem Ascii.append (ht : Ascii t) (hu : Ascii u) : Ascii (t ++ u) :=
  List.forall_mem_append.2 ⟨ht, hu⟩

theorem Ascii.cons {c : Nat} (hc : c = 0x0A ∨ 0x20 ≤ c ∧ c ≤ 0x7E) (ht : Ascii t) :
    Ascii (c :: t) :=
  List.forall_mem_cons.2 ⟨hc, ht⟩

theorem ascii_unitEscape {n : Nat} (word : n < 0x10000) : Ascii (unitEscape n) := by
  have digit : ∀ d < 16, hexDigit d = 0x0A ∨ 0x20 ≤ hexDigit d ∧ hexDigit d ≤ 0x7E :=
    fun d hd => Or.inr (hexDigit_range d hd)
  rw [unitEscape, fourHex_eq word]
  refine Ascii.append (by decide) ?_
  simp only [Ascii, List.forall_mem_cons]
  exact ⟨digit _ (by omega), digit _ (by omega), digit _ (by omega), digit _ (by omega),
    fun c hc => absurd hc List.not_mem_nil⟩

/-- A character is told in ASCII. -/
theorem ascii_escape {c : Nat} (scalar : c.isValidChar) : Ascii (escape c) := by
  have range : c < 0xD800 ∨ 0xDFFF < c ∧ c < 0x110000 := scalar
  unfold escape
  split_ifs with _ _ _ _ _ _ _ printable word
  iterate 7 · decide
  · exact Ascii.cons (Or.inr printable) (by decide)
  · exact ascii_unitEscape word
  · exact Ascii.append (ascii_unitEscape (by omega)) (ascii_unitEscape (by omega))

theorem ascii_quote (scalar : ∀ c ∈ t, c.isValidChar) : Ascii (quote t) := by
  have inside : Ascii (t.flatMap escape) := fun c hc => by
    obtain ⟨d, hd, hc⟩ := List.mem_flatMap.1 hc
    exact ascii_escape (scalar d hd) c hc
  exact Ascii.append (Ascii.cons (by decide) inside) (by decide)

theorem ascii_decimal (n : Int) : Ascii (Numeral.decimal n) := by
  have digits : ∀ n : Nat, Ascii (Numeral.decimalDigits n) := fun n c hc => by
    have range := isDigit_iff.1 (Numeral.isDigit_of_mem_decimalDigits hc)
    omega
  cases n with
  | ofNat n => exact digits n
  | negSucc n => exact Ascii.cons (by decide) (digits (n + 1))

theorem ascii_lineBreak (layout : Layout) (depth : Nat) : Ascii (layout.lineBreak depth) := by
  cases layout with
  | line => exact fun c hc => absurd hc List.not_mem_nil
  | indented =>
    refine Ascii.cons (by decide) fun c hc => ?_
    rw [List.eq_of_mem_replicate hc]
    decide

theorem ascii_colon (layout : Layout) : Ascii layout.colon := by
  cases layout <;> decide

theorem ascii_writeItems {layout : Layout} {depth : Nat} : ∀ {vs : List Json},
    (∀ v ∈ vs, Ascii (writeAt layout depth v)) → Ascii (writeItems layout depth vs)
  | [], _ => fun c hc => absurd hc List.not_mem_nil
  | v :: vs, h => by
    have first := Ascii.append (ascii_lineBreak layout depth) (h v List.mem_cons_self)
    have others := ascii_writeItems fun u hu => h u (List.mem_cons_of_mem v hu)
    exact Ascii.append (Ascii.cons (by decide) first) others

theorem ascii_member {layout : Layout} {depth : Nat} {name : Text} {v : Json}
    (scalar : ∀ c ∈ name, c.isValidChar) (value : Ascii (writeAt layout depth v)) :
    Ascii (layout.lineBreak depth ++ quote name ++ layout.colon ++ writeAt layout depth v) :=
  (((ascii_lineBreak layout depth).append (ascii_quote scalar)).append (ascii_colon layout)).append
    value

theorem ascii_writeMembers {layout : Layout} {depth : Nat} : ∀ {ms : List (Text × Json)},
    (∀ m ∈ ms, ∀ c ∈ m.1, c.isValidChar) → (∀ m ∈ ms, Ascii (writeAt layout depth m.2)) →
      Ascii (writeMembers layout depth ms)
  | [], _, _ => fun c hc => absurd hc List.not_mem_nil
  | m :: ms, scalar, h => by
    have first := ascii_member (scalar m List.mem_cons_self) (h m List.mem_cons_self)
    have others := ascii_writeMembers (fun m hm => scalar m (List.mem_cons_of_mem _ hm))
      fun m hm => h m (List.mem_cons_of_mem _ hm)
    exact Ascii.append (Ascii.cons (by decide) first) others

/-- **A plain value is written in ASCII**, whatever characters its texts are of. -/
theorem Plain.ascii {v : Json} (h : v.Plain) (layout : Layout) (depth : Nat) :
    Ascii (writeAt layout depth v) := by
  induction h generalizing depth with
  | null => exact (by decide : Ascii (Text.of "null"))
  | bool b =>
    cases b with
    | false => exact (by decide : Ascii (Text.of "false"))
    | true => exact (by decide : Ascii (Text.of "true"))
  | int _ => exact ascii_decimal _
  | string scalar => exact ascii_quote scalar
  | @array vs _ items =>
    cases vs with
    | nil => exact (by decide : Ascii (Text.of "[]"))
    | cons v vs =>
      have first := Ascii.append (ascii_lineBreak layout (depth + 1))
        (items v List.mem_cons_self (depth + 1))
      have others := ascii_writeItems fun u hu => items u (List.mem_cons_of_mem v hu) (depth + 1)
      exact ((Ascii.cons (by decide) first).append others).append (ascii_lineBreak layout depth)
        |>.append (by decide)
  | @object ms _ scalar _ members =>
    cases ms with
    | nil => exact (by decide : Ascii (Text.of "\x7b\x7d"))
    | cons m ms =>
      have first := ascii_member (scalar m List.mem_cons_self)
        (members m List.mem_cons_self (depth + 1))
      have others := ascii_writeMembers (fun m hm => scalar m (List.mem_cons_of_mem _ hm))
        fun m hm => members m (List.mem_cons_of_mem _ hm) (depth + 1)
      exact ((Ascii.cons (by decide) first).append others).append (ascii_lineBreak layout depth)
        |>.append (by decide)

end Json

end ChipEight
