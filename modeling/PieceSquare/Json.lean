set_option autoImplicit false

/-! # JSON values

A number without a point and an exponent that fits 64 bits is an integer, any other number is a
binary64 number. The members of an object are kept in the order of their names, one member for
each name, so that objects with the same members are the same list. `Members` is also the type of
a dictionary of options.
-/

namespace PieceSquare

/-- A JSON value. -/
inductive Json where
  | null
  | bool (b : Bool)
  | integer (n : Int)
  | float (x : Float)
  | string (s : String)
  | array (elements : List Json)
  | object (members : List (String × Json))

/-- Named values. -/
abbrev Members := List (String × Json)

namespace Members

/-- Gives a name a value, in place of the value it may have. -/
def insert (name : String) (value : Json) : Members → Members
  | [] => [(name, value)]
  | (n, v) :: rest =>
    if name = n then (name, value) :: rest
    else if name < n then (name, value) :: (n, v) :: rest
    else (n, v) :: insert name value rest

/-- The value of a name. -/
def get? (members : Members) (name : String) : Option Json := members.lookup name

/-- The members of a list of pairs. Of several pairs with one name the last counts. -/
def ofPairs (pairs : List (String × Json)) : Members :=
  pairs.foldl (fun members (name, value) => insert name value members) []

theorem get?_cons (name : String) (value : Json) (members : Members) (other : String) :
    get? ((name, value) :: members) other =
      if other = name then some value else get? members other := by
  by_cases h : other = name
  · simp [get?, h]
  · have hb : (other == name) = false := by simpa using h
    simp [get?, h, List.lookup_cons, hb]

theorem get?_insert (name : String) (value : Json) (members : Members) (other : String) :
    get? (insert name value members) other =
      if other = name then some value else get? members other := by
  induction members with
  | nil => exact get?_cons name value [] other
  | cons pair rest ih =>
      obtain ⟨n, v⟩ := pair
      rw [insert]
      split
      · next h => subst h; simp only [get?_cons]; grind
      · split
        · simp only [get?_cons]
        · simp only [get?_cons, ih]
          grind

end Members

namespace Json

mutual

/-- Whether two values are equal. Numbers compare as numbers of their own kind: an integer is never
equal to a binary64 number, and the two zeros of binary64 are equal. -/
def same : Json → Json → Bool
  | null, null => true
  | bool a, bool b => a == b
  | integer a, integer b => a == b
  | float a, float b => a == b
  | string a, string b => a == b
  | array a, array b => sameElements a b
  | object a, object b => sameMembers a b
  | _, _ => false

/-- Whether two lists of values are equal. -/
def sameElements : List Json → List Json → Bool
  | [], [] => true
  | a :: as, b :: bs => same a b && sameElements as bs
  | _, _ => false

/-- Whether two lists of members are equal. -/
def sameMembers : List (String × Json) → List (String × Json) → Bool
  | [], [] => true
  | (m, a) :: as, (n, b) :: bs => m == n && same a b && sameMembers as bs
  | _, _ => false

end

end Json

end PieceSquare
