/-
# JSON values

Values as configurations and hosts hand them over. Whole numbers and reals are
different values even where they are equal, objects keep the order in which
their names were first met, and texts may hold lone surrogates.

Numbers are also a type of their own, `Number`, for the places where a truth
value counts as zero or one and anything else is refused.

Key definitions: `Json`, `Json.insertMember`, `Json.truthy`,
`Json.sameValue`, `Number`, `Json.number?`.
Key theorems: `Json.lookup_insertMember_self`, `Json.lookup_insertMember_of_ne`.
-/
import ChipEight.Binary64
import ChipEight.Text

namespace ChipEight

/-- A JSON value. -/
inductive Json where
  | null
  | bool (b : Bool)
  | int (n : Int)
  | real (x : Binary64)
  | string (t : Text)
  | array (items : List Json)
  | object (members : List (Text × Json))
  deriving Inhabited

/-- A number, or a truth value in the place of one. -/
inductive Number where
  | bool (b : Bool)
  | int (n : Int)
  | real (x : Binary64)
  deriving DecidableEq, Repr

namespace Number

/-- A truth value as a whole number. -/
def ofBool (b : Bool) : Int := if b then 1 else 0

/-- The number as a value. -/
def toJson : Number → Json
  | .bool b => .bool b
  | .int n => .int n
  | .real x => .real x

/-- Whether the number is at most zero. A NaN is not. -/
def isNonpositive : Number → Bool
  | .bool b => !b
  | .int n => n ≤ 0
  | .real .nan => false
  | .real x => !(Binary64.zero false).lt x

/-- Whether two numbers have one value, whatever their kinds. -/
def sameValue : Number → Number → Bool
  | .real x, .real y => x.sameValue y
  | .real x, .int n | .int n, .real x => x.isInt n
  | .real x, .bool b | .bool b, .real x => x.isInt (ofBool b)
  | .int m, .int n => m == n
  | .int m, .bool b | .bool b, .int m => m == ofBool b
  | .bool a, .bool b => a == b

end Number

namespace Json

/-- The value as a number, if it is one or a truth value. -/
def number? : Json → Option Number
  | .bool b => some (.bool b)
  | .int n => some (.int n)
  | .real x => some (.real x)
  | _ => none

/-- The value as a whole number, truth values counting as zero and one. -/
def wholeNumber? : Json → Option Int
  | .bool b => some (Number.ofBool b)
  | .int n => some n
  | _ => none

/-- Whether the value counts as true: all values do but null, false, zero, and
the empty text, array and object. -/
def truthy : Json → Bool
  | .null => false
  | .bool b => b
  | .int n => n != 0
  | .real x => !x.isInt 0
  | .string t => !t.isEmpty
  | .array items => !items.isEmpty
  | .object members => !members.isEmpty

/-! ### Members of objects -/

/-- The members of an object with one more. A name that is there already keeps
its place and takes the new value. -/
def insertMember (name : Text) (value : Json) : List (Text × Json) → List (Text × Json)
  | [] => [(name, value)]
  | (n, v) :: rest =>
    if n = name then (name, value) :: rest else (n, v) :: insertMember name value rest

theorem lookup_insertMember_self (name : Text) (value : Json) :
    ∀ members, (insertMember name value members).lookup name = some value
  | [] => by simp [insertMember]
  | (n, v) :: rest => by
    by_cases h : n = name
    · simp [insertMember, h]
    · have h' : (name == n) = false := by simpa using fun e => h e.symm
      simp [insertMember, h, List.lookup_cons, h', lookup_insertMember_self name value rest]

theorem lookup_insertMember_of_ne {name other : Text} (value : Json) (h : other ≠ name) :
    ∀ members, (insertMember name value members).lookup other = members.lookup other
  | [] => by simp [insertMember, h]
  | (n, v) :: rest => by
    by_cases hn : n = name
    · subst hn
      have h' : (other == n) = false := by simpa using h
      simp [insertMember, List.lookup_cons, h']
    · simp [insertMember, hn, List.lookup_cons, lookup_insertMember_of_ne value h rest]

/-- The value of a member of an object. -/
def get? (name : Text) : Json → Option Json
  | .object members => members.lookup name
  | _ => none

/-! ### Sameness of values -/

mutual

/-- Whether two values are the same: numbers by what they count, with truth
values as zero and one, objects whatever the order of their members. -/
def sameValue : Json → Json → Bool
  | .null, .null => true
  | .bool b, w => (w.number?.map (Number.sameValue (.bool b))).getD false
  | .int n, w => (w.number?.map (Number.sameValue (.int n))).getD false
  | .real x, w => (w.number?.map (Number.sameValue (.real x))).getD false
  | .string t, .string u => t == u
  | .array vs, .array ws => sameItems vs ws
  | .object ms, .object ns => ms.length == ns.length && sameMembers ms ns
  | _, _ => false

/-- Whether two lists hold the same values in one order. -/
def sameItems : List Json → List Json → Bool
  | [], [] => true
  | v :: vs, w :: ws => sameValue v w && sameItems vs ws
  | _, _ => false

/-- Whether every member of the first list is one of the second. -/
def sameMembers : List (Text × Json) → List (Text × Json) → Bool
  | [], _ => true
  | (name, v) :: rest, ns =>
    (match ns.lookup name with
      | some w => sameValue v w
      | none => false) && sameMembers rest ns

end

end Json

end ChipEight
