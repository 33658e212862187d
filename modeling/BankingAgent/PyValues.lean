import BankingAgent.Mcp
import BankingAgent.Search.Traversal
import BankingAgent.Tools
import Mathlib.Algebra.Group.Basic
import Mathlib.Data.Int.Cast.Lemmas

/-!
# JSON values in the hands of Python

Code that takes a value from a model as it comes iterates it, hashes it and looks things up in it,
whatever its type; some of that raises. Numbers are equal if their values are, so `1`, `1.0` and
`True` are one member of a set, and `"1"` is another one.

* `Json.elements`, `Json.first` — `for x in v` and `v[0]`.
* `PyLib.hash`, `PyLib.holds` — `hash(v)` and `x in v`.
-/

namespace BankingAgent

open Traversal

/-! ## Iteration -/

namespace Json

/-- `for x in v`. -/
def elements (v : Json) : Except Exn (List Json) := v.items?.elim (.error .typeError) .ok

/-- `v[0]`. A dictionary has names only, and `0` is none. -/
def first : Json → Except Exn Json
  | .obj _ => .error .keyError
  | v => v.elements >>= fun items => (items.head?.elim (.error .indexError) .ok)

/-- What is first is among the items. -/
theorem exists_elements_of_first {v item : Json} (h : v.first = .ok item) :
    ∃ items, v.elements = .ok items ∧ item ∈ items := by
  cases v with
  | obj fields => cases h
  | _ =>
    obtain ⟨items, hitems, h⟩ := bind_eq_ok_iff.mp h
    cases items with
    | nil => cases h
    | cons item' items =>
      cases h
      exact ⟨_, hitems, List.mem_cons_self⟩

/-- A list of strings. -/
def ofStrings (l : List String) : Json := .arr (l.map .str)

end Json

/-! ## Equality -/

/-- What a value is hashed and compared by. `json.loads` makes one object of every `NaN`, which a
container therefore takes for itself. -/
inductive HashKey : Type where
  | none
  | number (q : ℚ)
  /-- an infinity, or `NaN` -/
  | special (repr : String)
  | text (s : String)
  deriving DecidableEq

namespace PyLib

variable (py : PyLib)

/-- What a value that can be hashed is hashed by. -/
def hashKey? : Json → Option HashKey
  | .null => some .none
  | .bool b => some (.number (if b then 1 else 0))
  | .int n => some (.number n)
  | .float repr => some ((py.floatValue repr).elim (.special repr) .number)
  | .str s => some (.text s)
  | .arr _ => none
  | .obj _ => none

/-- `hash(v)`; lists and dictionaries have none. -/
def hash (v : Json) : Except Exn HashKey := (py.hashKey? v).elim (.error .typeError) .ok

/-- `x in v`, for a value with the hash key `k`: an item of a list, a part of a string, a name of a
dictionary. -/
def holds (k : HashKey) : Json → Except Exn Bool
  | .arr items => .ok (items.any fun item => py.hashKey? item = some k)
  | .str s => match k with
    | .text t => .ok (contains t s)
    | _ => .error .typeError
  | .obj fields => .ok (fields.any fun f => HashKey.text f.1 = k)
  | _ => .error .typeError

variable {py}

@[simp] theorem hash_str (s : String) : py.hash (.str s) = .ok (.text s) := rfl

/-- `hash` answers exactly for what has a key. -/
theorem hash_eq_ok_iff {v : Json} {k : HashKey} : py.hash v = .ok k ↔ py.hashKey? v = some k := by
  rw [hash]
  cases py.hashKey? v <;> simp

end PyLib

end BankingAgent
