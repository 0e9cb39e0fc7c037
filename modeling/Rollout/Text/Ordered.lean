/-!
Strings in ascending order by code point, which is also the order of their UTF-8 bytes.
-/

namespace Rollout.Text

/-- Puts a string into an ascending list, once. -/
def insertOrdered (value : String) : List String → List String
  | [] => [value]
  | first :: rest =>
      if value = first then first :: rest
      else if value < first then value :: first :: rest
      else first :: insertOrdered value rest

/-- The strings of the list, ascending and each once. -/
def orderedSet (values : List String) : List String :=
  values.foldl (fun set value => insertOrdered value set) []

/-- The strings of the list, ascending, equal ones kept. -/
def ascending (values : List String) : List String :=
  values.mergeSort fun first second => decide (first ≤ second)

/-- Gives a key a value, in a list of entries with ascending keys. -/
def insertEntry {Value : Type} (key : String) (value : Value) :
    List (String × Value) → List (String × Value)
  | [] => [(key, value)]
  | first :: rest =>
      if key = first.1 then (key, value) :: rest
      else if key < first.1 then (key, value) :: first :: rest
      else first :: insertEntry key value rest

end Rollout.Text
