import Mathlib.Data.List.Sort
import Mathlib.Data.Rat.Init

/-!
# JSON values and the library functions the stores rely on

Arguments of tool calls are JSON objects, held by the program as dictionaries and
by the database as text. A dictionary keeps its insertion order, and
`json.dumps` writes the fields in that order unless it is asked to sort them.

* `Json` — the values `json.loads` returns.
* `Json.sortKeys` — the same value with the fields of every object in order; two
  dictionaries are equal in the program exactly if they agree after it.
* `PyLib` — `json`, `hashlib`, `datetime` and a few string methods, which are not
  part of the repository. Their laws are hypotheses of the theorems that need them.
-/

namespace BankingAgent

/-- A JSON value. Floats are held by their textual representation. -/
inductive Json : Type where
  | null
  | bool (b : Bool)
  | int (n : ℤ)
  | float (repr : String)
  | str (s : String)
  | arr (items : List Json)
  | obj (fields : List (String × Json))

/-- A text in braces. -/
def braced (text : String) : String := "\x7b" ++ text ++ "\x7d"

namespace Json

mutual

/-- Whether two values are the same, down to the order of fields and the text of floats. -/
def equals : Json → Json → Bool
  | .null, .null => true
  | .bool a, .bool b => a == b
  | .int m, .int n => m == n
  | .float r, .float s => r == s
  | .str s, .str t => s == t
  | .arr items, .arr items' => equalsItems items items'
  | .obj fields, .obj fields' => equalsFields fields fields'
  | _, _ => false

/-- `equals` on each item of a list. -/
def equalsItems : List Json → List Json → Bool
  | [], [] => true
  | v :: rest, v' :: rest' => equals v v' && equalsItems rest rest'
  | _, _ => false

/-- `equals` on each field, and the same names. -/
def equalsFields : List (String × Json) → List (String × Json) → Bool
  | [], [] => true
  | (k, v) :: rest, (k', v') :: rest' => k == k' && equals v v' && equalsFields rest rest'
  | _, _ => false

end

mutual

/-- `equals` decides equality. -/
theorem equals_iff : ∀ v v' : Json, equals v v' = true ↔ v = v'
  | .arr items, v' => by cases v' <;> simp [equals, equalsItems_iff items]
  | .obj fields, v' => by cases v' <;> simp [equals, equalsFields_iff fields]
  | .null, v' => by cases v' <;> simp [equals]
  | .bool _, v' => by cases v' <;> simp [equals]
  | .int _, v' => by cases v' <;> simp [equals]
  | .float _, v' => by cases v' <;> simp [equals]
  | .str _, v' => by cases v' <;> simp [equals]

theorem equalsItems_iff : ∀ items items' : List Json, equalsItems items items' = true ↔ items = items'
  | [], items' => by cases items' <;> simp [equalsItems]
  | v :: rest, items' => by
    cases items' <;> simp [equalsItems, equals_iff v, equalsItems_iff rest]

theorem equalsFields_iff : ∀ fields fields' : List (String × Json),
    equalsFields fields fields' = true ↔ fields = fields'
  | [], fields' => by cases fields' <;> simp [equalsFields]
  | (k, v) :: rest, fields' => by
    cases fields' with
    | nil => simp [equalsFields]
    | cons f rest' =>
      obtain ⟨k', v'⟩ := f
      simp [equalsFields, equals_iff v, equalsFields_iff rest]

end

instance : DecidableEq Json := fun v v' => decidable_of_iff _ (equals_iff v v')

/-- Insert a field before the first one whose name is not smaller. -/
def insertField (f : String × Json) : List (String × Json) → List (String × Json)
  | [] => [f]
  | g :: rest => if f.1 ≤ g.1 then f :: g :: rest else g :: insertField f rest

mutual

/-- `sort_keys=True`: the fields of every object in the order of their names. -/
def sortKeys : Json → Json
  | .arr items => .arr (sortItems items)
  | .obj fields => .obj (sortFields fields)
  | v => v

/-- `sortKeys` on each item of a list. -/
def sortItems : List Json → List Json
  | [] => []
  | v :: rest => sortKeys v :: sortItems rest

/-- `sortKeys` on each field, and the fields themselves in order. -/
def sortFields : List (String × Json) → List (String × Json)
  | [] => []
  | (k, v) :: rest => insertField (k, sortKeys v) (sortFields rest)

end

/-- `==` on dictionaries, lists and scalars: the order of fields does not count. -/
def Same (a b : Json) : Prop := a.sortKeys = b.sortKeys

/-- `isinstance(v, dict)`. -/
def isDict : Json → Bool
  | .obj _ => true
  | _ => false

/-- The value itself if it is a dictionary, else `{}`. -/
def dictOrEmpty : Json → Json
  | .obj fields => .obj fields
  | _ => .obj []

/-- `d.get(name)`. -/
def get? (name : String) : Json → Option Json
  | .obj fields => (fields.find? fun f => f.1 = name).map Prod.snd
  | _ => none

/-- The items of `for x in v`: those of a list, the characters of a string, the names of a
dictionary. -/
def items? : Json → Option (List Json)
  | .arr items => some items
  | .str s => some (s.toList.map fun c => .str (String.singleton c))
  | .obj fields => some (fields.map fun f => .str f.1)
  | _ => none

/-- `d[name] = v`: replaces the field in place, or adds it at the end. -/
def setField (name : String) (v : Json) : List (String × Json) → List (String × Json)
  | [] => [(name, v)]
  | f :: rest => if f.1 = name then (name, v) :: rest else f :: setField name v rest

/-- Truth value of a value: `None`, `False`, zero and whatever is empty are false. -/
def truthy : Json → Bool
  | .null => false
  | .bool b => b
  | .int n => n ≠ 0
  | .float repr => repr ≠ "0.0" && repr ≠ "-0.0"
  | .str s => s ≠ ""
  | .arr items => !items.isEmpty
  | .obj fields => !fields.isEmpty

/-- `type(v).__name__`. -/
def typeName : Json → String
  | .null => "NoneType"
  | .bool _ => "bool"
  | .int _ => "int"
  | .float _ => "float"
  | .str _ => "str"
  | .arr _ => "list"
  | .obj _ => "dict"

/-- A string, if that is what the value is. -/
def str? : Json → Option String
  | .str s => some s
  | _ => none

/-- A field that is set has the value it was set to. -/
@[simp] theorem get?_obj_setField_self (name : String) (v : Json) (fields : List (String × Json)) :
    (Json.obj (setField name v fields)).get? name = some v := by
  induction fields with
  | nil => simp [setField, get?]
  | cons f rest ih =>
    by_cases h : f.1 = name
    · simp [setField, get?, h]
    · simp only [get?] at ih
      simp [setField, get?, h, ih]

/-- The other fields keep theirs. -/
theorem get?_obj_setField_of_ne {name other : String} (h : other ≠ name) (v : Json)
    (fields : List (String × Json)) :
    (Json.obj (setField name v fields)).get? other = (Json.obj fields).get? other := by
  induction fields with
  | nil => simp [setField, get?, h.symm]
  | cons f rest ih =>
    simp only [get?] at ih
    by_cases hf : f.1 = name
    · simp [setField, get?, hf, h.symm]
    · by_cases ho : f.1 = other
      · simp [setField, get?, ho, h]
      · simp [setField, get?, hf, ho, ih]

/-! ## Sorting is idempotent -/

/-- The fields are in order, and so are the fields of their values. -/
def Canonical (fields : List (String × Json)) : Prop :=
  fields.Pairwise (fun f g => f.1 ≤ g.1) ∧ ∀ f ∈ fields, f.2.sortKeys = f.2

theorem mem_insertField {f g : String × Json} {l : List (String × Json)} :
    g ∈ insertField f l ↔ g = f ∨ g ∈ l := by
  induction l with
  | nil => simp [insertField]
  | cons a l ih =>
    rw [insertField]
    split
    · simp
    · simp only [List.mem_cons, ih]
      tauto

/-- Sorting fields in keeps them sorted. -/
theorem Canonical.insertField {f : String × Json} {l : List (String × Json)} (hl : Canonical l)
    (hf : f.2.sortKeys = f.2) : Canonical (insertField f l) := by
  refine ⟨?_, fun g hg => ?_⟩
  · obtain ⟨hs, -⟩ := hl
    induction l with
    | nil => simp [Json.insertField]
    | cons a l ih =>
      obtain ⟨ha, hs⟩ := List.pairwise_cons.mp hs
      rw [Json.insertField]
      split
      · rename_i hfa
        refine List.pairwise_cons.mpr ⟨fun g hg => ?_, List.pairwise_cons.mpr ⟨ha, hs⟩⟩
        rcases List.mem_cons.mp hg with rfl | hg
        · exact hfa
        · exact String.le_trans hfa (ha g hg)
      · rename_i hfa
        refine List.pairwise_cons.mpr ⟨fun g hg => ?_, ih hs⟩
        rcases mem_insertField.mp hg with rfl | hg
        · exact (String.le_total a.1 _).resolve_right hfa
        · exact ha g hg
  · rcases mem_insertField.mp hg with rfl | hg
    · exact hf
    · exact hl.2 g hg

/-- Sorting leaves canonical fields alone. -/
theorem Canonical.sortFields {l : List (String × Json)} (hl : Canonical l) : sortFields l = l := by
  induction l with
  | nil => rfl
  | cons f l ih =>
    obtain ⟨hs, hv⟩ := hl
    obtain ⟨hf, hs⟩ := List.pairwise_cons.mp hs
    have hrest : Json.sortFields l = l := ih ⟨hs, fun g hg => hv g (List.mem_cons_of_mem _ hg)⟩
    obtain ⟨k, v⟩ := f
    have hkv : v.sortKeys = v := hv (k, v) (List.mem_cons_self ..)
    rw [Json.sortFields, hrest, hkv]
    cases l with
    | nil => rfl
    | cons g l => rw [Json.insertField, if_pos (hf g (List.mem_cons_self ..))]

mutual

/-- Sorting twice is sorting once. -/
theorem sortKeys_sortKeys : ∀ v : Json, v.sortKeys.sortKeys = v.sortKeys
  | .arr items => congrArg Json.arr (sortItems_sortItems items)
  | .obj fields => congrArg Json.obj (canonical_sortFields fields).sortFields
  | .null => rfl
  | .bool _ => rfl
  | .int _ => rfl
  | .float _ => rfl
  | .str _ => rfl

theorem sortItems_sortItems : ∀ items : List Json, sortItems (sortItems items) = sortItems items
  | [] => rfl
  | v :: rest => by
    rw [sortItems, sortItems, sortKeys_sortKeys v, sortItems_sortItems rest]

theorem canonical_sortFields : ∀ fields : List (String × Json), Canonical (sortFields fields)
  | [] => ⟨List.Pairwise.nil, nofun⟩
  | (_, v) :: rest => (canonical_sortFields rest).insertField (sortKeys_sortKeys v)

end

end Json

/-- A point in time, in microseconds. -/
abbrev Instant : Type := ℕ

/-- The library functions. -/
structure PyLib : Type where
  /-- `json.dumps(v)` -/
  dumps : Json → String
  /-- `json.loads(text)`; `none` stands for `JSONDecodeError` -/
  loads : String → Option Json
  /-- `hashlib.sha256(text.encode()).hexdigest()` -/
  sha256 : String → String
  /-- `t.isoformat()` -/
  isoformat : Instant → String
  /-- `datetime.fromisoformat(text)`; `none` stands for `ValueError` -/
  fromisoformat : String → Option Instant
  /-- the number with this representation; none is the value of `nan`, `inf` and `-inf` -/
  floatValue : String → Option ℚ
  /-- `repr(text)` -/
  repr : String → String
  /-- `str(v)` of a value that is not a string -/
  display : Json → String
  /-- `text.lower()` -/
  lower : String → String
  /-- `text.strip()` -/
  strip : String → String
  /-- the characters of the regular expression `\w` -/
  wordChar : Char → Bool

/-- `json.loads` undoes `json.dumps` on the value. -/
def PyLib.RoundTrips (py : PyLib) (v : Json) : Prop := py.loads (py.dumps v) = some v

/-- `json.dumps(v, sort_keys=True)`. -/
def PyLib.dumpsSorted (py : PyLib) (v : Json) : String := py.dumps v.sortKeys

/-- `_digest` of `grant_repo.py`: the hash of the canonical text of the arguments. -/
def PyLib.digest (py : PyLib) (toolArgs : Json) : String := py.sha256 (py.dumpsSorted toolArgs)

end BankingAgent
