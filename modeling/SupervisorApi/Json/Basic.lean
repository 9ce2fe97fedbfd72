import SupervisorApi.Decimal.Binary64

set_option autoImplicit false

namespace SupervisorApi

inductive Json where
  | null
  | bool (b : Bool)
  | int (n : Int)
  | real (x : Binary64)
  | str (s : String)
  | arr (items : List Json)
  | obj (members : List (String × Json))
  deriving Inhabited

abbrev Members := List (String × Json)

namespace Json

mutual
def same : Json → Json → Bool
  | .null, .null => true
  | .bool a, .bool b => a == b
  | .int a, .int b => a == b
  | .real a, .real b => a.same b
  | .str a, .str b => a == b
  | .arr a, .arr b => sameItems a b
  | .obj a, .obj b => sameMembers a b
  | _, _ => false

def sameItems : List Json → List Json → Bool
  | [], [] => true
  | a :: as, b :: bs => same a b && sameItems as bs
  | _, _ => false

def sameMembers : List (String × Json) → List (String × Json) → Bool
  | [], [] => true
  | (k, a) :: as, (l, b) :: bs => k == l && same a b && sameMembers as bs
  | _, _ => false
end

def describe : Json → String
  | .null => "null"
  | .bool _ => "a boolean"
  | .int _ | .real _ => "a number"
  | .str _ => "a string"
  | .arr _ => "an array"
  | .obj _ => "an object"

end Json

namespace Members

def get? (key : String) : Members → Option Json
  | [] => none
  | (k, v) :: rest => if k = key then some v else get? key rest

def look (object : Members) : String → Option Json :=
  fun key => get? key object

def put (key : String) (value : Json) : Members → Members
  | [] => [(key, value)]
  | (k, v) :: rest =>
    if k = key then (key, value) :: rest
    else if key < k then (key, value) :: (k, v) :: rest
    else (k, v) :: put key value rest

def ofList (members : List (String × Json)) : Members :=
  members.foldl (fun object (k, v) => put k v object) []

@[simp] theorem get?_put (key k : String) (value : Json) (object : Members) :
    get? k (put key value object) = if key = k then some value else get? k object := by
  induction object with
  | nil => rfl
  | cons m rest ih =>
    obtain ⟨l, v⟩ := m
    unfold put
    split
    · next h => subst h; by_cases hk : l = k <;> simp [get?, hk]
    · split
      · simp [get?]
      · next h _ =>
        by_cases hl : l = k
        · subst hl; simp [get?, Ne.symm h]
        · simp [get?, hl, ih]

end Members

def Json.ofMembers (members : List (String × Json)) : Json :=
  .obj (Members.ofList members)

end SupervisorApi
