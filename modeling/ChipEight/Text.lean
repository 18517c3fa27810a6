/-
# Texts as sequences of code points

A text is a list of Unicode code points. Lone surrogates are allowed in it,
because a JSON escape can name one (`"\ud800"`), which is why texts are not
`String`s: a `String` has no place for them. Texts that the library itself
writes start as `String`s and enter through `Text.of`.

Key definitions: `Text.of`, `Text.toString?`, `Text.dropExact?`.
Key theorems: `Text.dropExact?_append`, `Text.eq_append_of_dropExact?`.
-/

namespace ChipEight

/-- A sequence of code points of Unicode, surrogates included. -/
abbrev Text := List Nat

namespace Text

/-- The code points of a string. -/
def of (s : String) : Text := s.toList.map Char.toNat

/-- The string with these code points, where every one of them is a character
(`none` if the text holds a surrogate or a number beyond Unicode). -/
def toString? (t : Text) : Option String :=
  if t.all fun c => decide c.isValidChar then some (String.ofList (t.map Char.ofNat)) else none

/-- What is left of a text after `lead`, or `none` if it does not start so. -/
def dropExact? : (lead : Text) → Text → Option Text
  | [], t => some t
  | _ :: _, [] => none
  | l :: lead, c :: t => if l = c then dropExact? lead t else none

/-- A code point, repeated. -/
def pad (c : Nat) (count : Nat) : Text := List.replicate count c

theorem dropExact?_append : ∀ lead t : Text, dropExact? lead (lead ++ t) = some t
  | [], _ => rfl
  | l :: lead, t => by simp [dropExact?, dropExact?_append lead t]

theorem eq_append_of_dropExact? : ∀ {lead t rest : Text},
    dropExact? lead t = some rest → t = lead ++ rest
  | [], _, _, h => by simpa [dropExact?] using h
  | _ :: _, [], _, h => by simp [dropExact?] at h
  | l :: lead, c :: t, rest, h => by
    by_cases hc : l = c
    · subst hc
      simpa using eq_append_of_dropExact? (by simpa [dropExact?] using h : dropExact? lead t = some rest)
    · simp [dropExact?, hc] at h

end Text

end ChipEight
