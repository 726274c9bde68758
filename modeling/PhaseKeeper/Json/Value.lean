/-!
JSON values. Integers and floating-point numbers are different values, a float is kept as its bits,
and the members of an object stand in the byte order of their keys, each key once.
-/
namespace PhaseKeeper

inductive Json where
  | null
  | bool (b : Bool)
  | int (n : Int)
  | float (bits : UInt64)
  | text (s : String)
  | list (items : List Json)
  | object (members : List (String × Json))
deriving Repr, Inhabited

namespace Json

def insert (key : String) (value : Json) : List (String × Json) → List (String × Json)
  | [] => [(key, value)]
  | (k, v) :: r =>
    if key < k then (key, value) :: (k, v) :: r
    else if key = k then (key, value) :: r
    else (k, v) :: insert key value r

/-- The object with these members; of two under one key the later one counts. -/
def ofMembers (members : List (String × Json)) : Json :=
  .object (members.foldl (fun ms (k, v) => insert k v ms) [])

mutual

def depth : Json → Nat
  | .list items => depthItems items + 1
  | .object members => depthMembers members + 1
  | _ => 0

def depthItems : List Json → Nat
  | [] => 0
  | j :: r => max j.depth (depthItems r)

def depthMembers : List (String × Json) → Nat
  | [] => 0
  | (_, j) :: r => max j.depth (depthMembers r)

end

def get? (key : String) : Json → Option Json
  | .object members => members.lookup key
  | _ => none

end Json
end PhaseKeeper
