import BankingAgent.Recording
import BankingAgent.Tools

/-!
# `redacted_logger.py`, `observability.py`, `data_security.py`: redaction

Three redactors keep secrets out of logs and traces, each with keys of its own. `safe_log_data` goes
through the top level of a payload. It does not know the keys `account_number`, `full_account` and
`credit_card`, which `redact_attributes` redacts, and it does not look into the values it keeps.

* `sensitive_iff` — which keys one of the redactors takes for sensitive.
* `safe_log_iff` — the output contains no value of a sensitive key, exactly if all of them lie in
  redacted fields and do not recur in others.
* `safe_log_hides_iff` — what the output depends on.
-/

namespace BankingAgent

/-! ## The model -/

/-- `DataClassification`. -/
inductive DataClassification : Type where
  | publicData
  | internal
  | confidential
  | financialConfidential
  | restrictedPii
  | secret
  deriving DecidableEq, Repr

/-- `FieldPolicy`. -/
structure FieldPolicy : Type where
  fieldName : String
  classification : DataClassification := .internal
  canEnterPrompt : Bool := true
  canEnterLog : Bool := false
  canEnterVectorStore : Bool := false
  canPersistLongTerm : Bool := false
  retentionDays : ℤ := 0
  redactionRule : String := "full"
  deriving DecidableEq

/-- `DEFAULT_FIELD_POLICIES`; every policy is under its own field name. -/
def defaultFieldPolicies : List FieldPolicy :=
  [{ fieldName := "user_id", classification := .internal, canEnterPrompt := false,
     canEnterLog := true },
   { fieldName := "account_id", classification := .confidential, canEnterPrompt := true,
     canEnterLog := false, redactionRule := "last4" },
   { fieldName := "full_account_number", classification := .restrictedPii, canEnterPrompt := false,
     canEnterLog := false },
   { fieldName := "balance", classification := .financialConfidential, canEnterPrompt := true,
     canEnterLog := false },
   { fieldName := "transaction_id", classification := .confidential, canEnterPrompt := true,
     canEnterLog := true },
   { fieldName := "api_key", classification := .secret, canEnterPrompt := false,
     canEnterLog := false, redactionRule := "full" },
   { fieldName := "token", classification := .secret, canEnterPrompt := false,
     canEnterLog := false, redactionRule := "full" }]

/-- `get_field_policy`. -/
def getFieldPolicy (fieldName : String) : FieldPolicy :=
  (defaultFieldPolicies.find? fun policy => policy.fieldName = fieldName).getD
    { fieldName := fieldName, classification := .internal }

/-- The classifications whose fields are secrets or personal data. -/
def DataClassification.Hidden (classification : DataClassification) : Bool :=
  classification = .secret || classification = .restrictedPii

/-- What takes the place of a redacted value. -/
def redacted : Json := .str "[REDACTED]"

section Redactors

variable (py : PyLib)

/-- The key is one of the fields, or names a token, a secret or a password. -/
def isMasked (fields : List String) (key : String) : Bool :=
  fields.contains (py.lower key) ||
    ["token", "secret", "password"].any (contains · (py.lower key))

/-- The entries of a dictionary, with the values of these keys redacted. -/
def maskFields (fields : List String) (data : List (String × Json)) : List (String × Json) :=
  data.map fun (key, value) => (key, if isMasked py fields key then redacted else value)

/-- `sensitive_keys` of `safe_log_data`. -/
def sensitiveKeys : List String :=
  ["api_key", "token", "authorization", "x-api-key", "password", "secret", "full_account_number",
    "ssn"]

/-- `safe_log_data`. -/
def safeLogData (data : List (String × Json)) : List (String × Json) :=
  maskFields py sensitiveKeys data

/-- `_REDACT_FIELDS`. -/
def redactFields : List String :=
  ["api_key", "token", "authorization", "x-api-key", "password", "secret", "account_number",
    "full_account", "ssn", "credit_card"]

/-- `redact_attributes`. -/
def redactAttributes (attrs : List (String × Json)) : List (String × Json) :=
  maskFields py redactFields attrs

/-- A key that `redact_attributes` redacts or a policy classifies as a secret or as personal data,
in whatever case it is written. -/
def Sensitive (key : String) : Bool :=
  isMasked py redactFields key || (getFieldPolicy (py.lower key)).classification.Hidden

end Redactors

/-! ## What a payload stores -/

/-- A value is part of another one, at whatever depth. -/
inductive PartOf : Json → Json → Prop
  | self (v : Json) : PartOf v v
  | item {v w : Json} {items : List Json} (hmem : w ∈ items) (h : PartOf v w) :
      PartOf v (.arr items)
  | field {v w : Json} {key : String} {fields : List (String × Json)} (hmem : (key, w) ∈ fields)
      (h : PartOf v w) : PartOf v (.obj fields)

/-- A value is stored somewhere in another one, under a key of the kind. -/
def StoredUnder (P : String → Bool) (v w : Json) : Prop :=
  ∃ fields key, PartOf (.obj fields) w ∧ (key, v) ∈ fields ∧ P key = true

/-- The output of `safe_log_data` contains no value that the payload stores under a sensitive
key. -/
def LeaksNothing (py : PyLib) (data : List (String × Json)) : Prop :=
  ∀ v, StoredUnder (Sensitive py) v (.obj data) → ¬ PartOf v (.obj (safeLogData py data))

/-- The keys that `safe_log_data` does not know. -/
def overlookedKeys : List String := ["account_number", "full_account", "credit_card"]

/-- All sensitive keys of the payload are top-level keys that `safe_log_data` redacts, or stand in
the values of these. -/
structure Sheltered (py : PyLib) (data : List (String × Json)) : Prop where
  known : ∀ key value, (key, value) ∈ data → py.lower key ∉ overlookedKeys
  shallow : ∀ key value, (key, value) ∈ data → isMasked py sensitiveKeys key = false →
    ∀ v, ¬ StoredUnder (Sensitive py) v value

/-- No value of a sensitive key in a redacted field is the text that takes its place, or stands in a
field that is kept. -/
def Unrepeated (py : PyLib) (data : List (String × Json)) : Prop :=
  ∀ key value v, (key, value) ∈ data → isMasked py sensitiveKeys key = true →
    v = value ∨ StoredUnder (Sensitive py) v value → v ≠ redacted ∧
      ∀ key' value', (key', value') ∈ data → isMasked py sensitiveKeys key' = false →
        ¬ PartOf v value'

/-! ## Sensitive keys -/

section Keys

variable {py : PyLib} {key : String} {value v w : Json} {data : List (String × Json)}
  {P : String → Bool}

/-- A field without a policy of its own has the default policy. -/
theorem getFieldPolicy_of_not_mem (h : key ∉ defaultFieldPolicies.map FieldPolicy.fieldName) :
    getFieldPolicy key = { fieldName := key } := by
  have hnone : defaultFieldPolicies.find? (fun policy => policy.fieldName = key) = none := by
    rw [List.find?_eq_none]
    intro policy hpolicy heq
    exact h (List.mem_map.mpr ⟨policy, hpolicy, by simpa using heq⟩)
  rw [getFieldPolicy, hnone, Option.getD_none]

theorem hidden_getFieldPolicy_iff {name : String} :
    (getFieldPolicy name).classification.Hidden = true ↔
      name ∈ ["full_account_number", "api_key", "token"] := by
  by_cases hname : name ∈ defaultFieldPolicies.map FieldPolicy.fieldName
  · revert name
    decide
  · rw [getFieldPolicy_of_not_mem hname]
    simp only [defaultFieldPolicies, List.map_cons, List.map_nil, List.mem_cons] at hname ⊢
    simp [DataClassification.Hidden]
    tauto

/-- **The sensitive keys** are those that `safe_log_data` redacts, and three that it overlooks. -/
theorem sensitive_iff : Sensitive py key = true ↔
    isMasked py sensitiveKeys key = true ∨ py.lower key ∈ overlookedKeys := by
  simp only [Sensitive, isMasked, Bool.or_eq_true, hidden_getFieldPolicy_iff, List.contains_iff_mem,
    sensitiveKeys, redactFields, overlookedKeys, List.mem_cons, List.not_mem_nil, or_false]
  tauto

/-- A key is not both redacted and overlooked. -/
theorem not_isMasked_of_overlooked (h : py.lower key ∈ overlookedKeys) :
    isMasked py sensitiveKeys key = false := by
  simp only [overlookedKeys, List.mem_cons, List.not_mem_nil, or_false] at h
  rcases h with h | h | h <;> rw [isMasked, h] <;> decide

/-! ## Parts of a value -/

theorem PartOf.trans {u : Json} (huv : PartOf u v) (hvw : PartOf v w) : PartOf u w := by
  induction hvw with
  | self => exact huv
  | item hmem _ ih => exact .item hmem ih
  | field hmem _ ih => exact .field hmem ih

/-- A text has no parts. -/
theorem partOf_str_iff {text : String} : PartOf v (.str text) ↔ v = .str text := by
  constructor
  · intro h
    cases h with
    | self => rfl
  · rintro rfl
    exact .self _

/-- A part of a dictionary is the dictionary or a part of one of its values. -/
theorem partOf_obj_iff : PartOf v (.obj data) ↔
    v = .obj data ∨ ∃ key value, (key, value) ∈ data ∧ PartOf v value := by
  constructor
  · intro h
    cases h with
    | self => exact .inl rfl
    | field hmem h => exact .inr ⟨_, _, hmem, h⟩
  · rintro (rfl | ⟨key, value, hmem, h⟩)
    · exact .self _
    · exact .field hmem h

theorem StoredUnder.partOf (h : StoredUnder P v w) : PartOf v w := by
  obtain ⟨fields, key, hfields, hmem, -⟩ := h
  exact (PartOf.field hmem (.self v)).trans hfields

theorem StoredUnder.mono {w' : Json} (h : StoredUnder P v w) (hw : PartOf w w') :
    StoredUnder P v w' := by
  obtain ⟨fields, key, hfields, hmem, hkey⟩ := h
  exact ⟨fields, key, hfields.trans hw, hmem, hkey⟩

/-- What a dictionary stores under a key of the kind stands at its top, or in one of its values. -/
theorem storedUnder_obj_iff : StoredUnder P v (.obj data) ↔
    ∃ key value, (key, value) ∈ data ∧ (P key = true ∧ v = value ∨ StoredUnder P v value) := by
  constructor
  · rintro ⟨fields, key, hfields, hmem, hkey⟩
    rcases partOf_obj_iff.mp hfields with heq | ⟨key', value, hmem', hin⟩
    · obtain rfl : fields = data := Json.obj.inj heq
      exact ⟨key, v, hmem, .inl ⟨hkey, rfl⟩⟩
    · exact ⟨key', value, hmem', .inr ⟨fields, key, hin, hmem, hkey⟩⟩
  · rintro ⟨key, value, hmem, ⟨hkey, rfl⟩ | h⟩
    · exact ⟨data, key, .self _, hmem, hkey⟩
    · exact h.mono (.field hmem (.self _))

/-! ## What the log shows -/

/-- The entries of the output are the redacted and the kept ones. -/
theorem mem_safeLogData_iff : (key, v) ∈ safeLogData py data ↔
    ∃ value, (key, value) ∈ data ∧
      (isMasked py sensitiveKeys key = true ∧ v = redacted ∨
        isMasked py sensitiveKeys key = false ∧ v = value) := by
  rw [safeLogData, maskFields, List.mem_map]
  constructor
  · rintro ⟨⟨key', value⟩, hmem, heq⟩
    obtain ⟨rfl, rfl⟩ := Prod.mk.inj heq
    refine ⟨value, hmem, ?_⟩
    cases isMasked py sensitiveKeys key' <;> simp
  · rintro ⟨value, hmem, ⟨hkey, rfl⟩ | ⟨hkey, rfl⟩⟩
    · exact ⟨(key, value), hmem, by simp [hkey]⟩
    · exact ⟨(key, v), hmem, by simp [hkey]⟩

/-- In a sheltered payload a value of a sensitive key stands in a redacted field. -/
theorem Sheltered.exists_masked (h : Sheltered py data)
    (hv : StoredUnder (Sensitive py) v (.obj data)) :
    ∃ key value, (key, value) ∈ data ∧ isMasked py sensitiveKeys key = true ∧
      (v = value ∨ StoredUnder (Sensitive py) v value) := by
  obtain ⟨key, value, hmem, ⟨hkey, rfl⟩ | hin⟩ := storedUnder_obj_iff.mp hv
  · exact ⟨key, v, hmem, (sensitive_iff.mp hkey).resolve_right (h.known key v hmem), .inl rfl⟩
  · refine ⟨key, value, hmem, ?_, .inr hin⟩
    by_contra hkept
    exact h.shallow key value hmem (by simpa using hkept) v hin

/-- **No leak**: sheltered values that do not recur are not in the output. -/
theorem Sheltered.leaksNothing (h : Sheltered py data) (hunrepeated : Unrepeated py data) :
    LeaksNothing py data := by
  intro v hv hout
  obtain ⟨key, value, hmem, hmasked, hstored⟩ := h.exists_masked hv
  obtain ⟨hne, hfree⟩ := hunrepeated key value v hmem hmasked hstored
  rcases partOf_obj_iff.mp hout with rfl | ⟨key', x, hx, hin⟩
  · -- the whole output has a redacted field, so its text would be a value of a sensitive key
    have hplace : StoredUnder (Sensitive py) redacted (.obj (safeLogData py data)) :=
      storedUnder_obj_iff.mpr ⟨key, redacted, mem_safeLogData_iff.mpr
        ⟨value, hmem, .inl ⟨hmasked, rfl⟩⟩, .inl ⟨sensitive_iff.mpr (.inl hmasked), rfl⟩⟩
    have hinside : StoredUnder (Sensitive py) redacted value := by
      rcases hstored with rfl | hstored
      · exact hplace
      · exact hplace.mono hstored.partOf
    exact (hunrepeated key value redacted hmem hmasked (.inr hinside)).1 rfl
  · obtain ⟨value', hmem', ⟨-, rfl⟩ | ⟨hkept, rfl⟩⟩ := mem_safeLogData_iff.mp hx
    · exact hne (partOf_str_iff.mp hin)
    · exact hfree key' x hmem' hkept hin

/-- What is kept leaks as a whole. -/
theorem LeaksNothing.not_partOf (h : LeaksNothing py data) (hmem : (key, value) ∈ data)
    (hkept : isMasked py sensitiveKeys key = false)
    (hv : StoredUnder (Sensitive py) v (.obj data)) : ¬ PartOf v value := by
  intro hin
  exact h v hv (.field (mem_safeLogData_iff.mpr ⟨value, hmem, .inr ⟨hkept, rfl⟩⟩) hin)

theorem LeaksNothing.sheltered (h : LeaksNothing py data) : Sheltered py data where
  known key value hmem hkey :=
    h.not_partOf hmem (not_isMasked_of_overlooked hkey)
      (storedUnder_obj_iff.mpr ⟨key, value, hmem, .inl ⟨sensitive_iff.mpr (.inr hkey), rfl⟩⟩)
      (.self value)
  shallow key value hmem hkept _ hv :=
    h.not_partOf hmem hkept (storedUnder_obj_iff.mpr ⟨key, value, hmem, .inr hv⟩) hv.partOf

theorem LeaksNothing.unrepeated (h : LeaksNothing py data) : Unrepeated py data := by
  intro key value v hmem hmasked hstored
  have hv : StoredUnder (Sensitive py) v (.obj data) := by
    refine storedUnder_obj_iff.mpr ⟨key, value, hmem, ?_⟩
    exact hstored.imp_left fun heq => ⟨sensitive_iff.mpr (.inl hmasked), heq⟩
  refine ⟨?_, fun key' value' hmem' hkept => h.not_partOf hmem' hkept hv⟩
  rintro rfl
  exact h redacted hv
    (.field (mem_safeLogData_iff.mpr ⟨value, hmem, .inl ⟨hmasked, rfl⟩⟩) (.self redacted))

end Keys

/-- **`safe_log_data`** lets no value of a sensitive key into the log, exactly if all of these
values lie in fields that it redacts, and none of them is the text put in its place or part of a
field that it keeps. -/
theorem safe_log_iff (py : PyLib) (data : List (String × Json)) :
    LeaksNothing py data ↔ Sheltered py data ∧ Unrepeated py data :=
  ⟨fun h => ⟨h.sheltered, h.unrepeated⟩, fun h => h.1.leaksNothing h.2⟩

/-- An account number, under a key that only `redact_attributes` knows. -/
theorem account_number_logged :
    ¬ LeaksNothing demoPy [("account_number", .str "DE89370400440532013000")] := by
  intro h
  refine h.sheltered.known "account_number" _ List.mem_cons_self ?_
  decide

/-! ## What the log depends on -/

mutual

/-- The value, with another one in place of each value under a key of the kind. -/
def cover (P : String → Bool) (c : Json) : Json → Json
  | .arr items => .arr (coverItems P c items)
  | .obj fields => .obj (coverFields P c fields)
  | v => v

/-- `cover` on each item of a list. -/
def coverItems (P : String → Bool) (c : Json) : List Json → List Json
  | [] => []
  | v :: rest => cover P c v :: coverItems P c rest

/-- `cover` on each field, and the value itself under a key of the kind. -/
def coverFields (P : String → Bool) (c : Json) : List (String × Json) → List (String × Json)
  | [] => []
  | (key, v) :: rest => (key, if P key then c else cover P c v) :: coverFields P c rest

end

/-- The payloads differ in nothing but the values of keys of the kind. -/
def AgreeOutside (P : String → Bool) (data data' : List (String × Json)) : Prop :=
  coverFields P .null data = coverFields P .null data'

section Cover

variable {P : String → Bool} {c d v w : Json} {data data' : List (String × Json)} {py : PyLib}
  {key : String} {value : Json}

theorem coverItems_eq_map (items : List Json) : coverItems P c items = items.map (cover P c) := by
  induction items with
  | nil => rfl
  | cons v rest ih => rw [coverItems, ih, List.map_cons]

theorem coverFields_eq_map (fields : List (String × Json)) : coverFields P c fields =
    fields.map fun f => (f.1, if P f.1 then c else cover P c f.2) := by
  induction fields with
  | nil => rfl
  | cons f rest ih => rw [coverFields, ih, List.map_cons]

mutual

/-- The second cover hides the first. -/
theorem cover_cover (P : String → Bool) (c d : Json) : ∀ v, cover P c (cover P d v) = cover P c v
  | .arr items => congrArg Json.arr (coverItems_coverItems P c d items)
  | .obj fields => congrArg Json.obj (coverFields_coverFields P c d fields)
  | .null => rfl
  | .bool _ => rfl
  | .int _ => rfl
  | .float _ => rfl
  | .str _ => rfl

theorem coverItems_coverItems (P : String → Bool) (c d : Json) :
    ∀ items, coverItems P c (coverItems P d items) = coverItems P c items
  | [] => rfl
  | v :: rest => by
    rw [coverItems, coverItems, cover_cover P c d v, coverItems_coverItems P c d rest, coverItems]

theorem coverFields_coverFields (P : String → Bool) (c d : Json) :
    ∀ fields, coverFields P c (coverFields P d fields) = coverFields P c fields
  | [] => rfl
  | (key, v) :: rest => by
    rw [coverFields, coverFields, coverFields, coverFields_coverFields P c d rest]
    by_cases hkey : P key = true
    · simp [hkey]
    · simp [hkey, cover_cover P c d v]

end

mutual

/-- Nothing is covered where no key is of the kind. -/
theorem cover_eq_self (P : String → Bool) (c : Json) :
    ∀ v, (∀ x, ¬ StoredUnder P x v) → cover P c v = v
  | .arr items => fun h => congrArg Json.arr
      (coverItems_eq_self P c items fun w hw x hx => h x (hx.mono (.item hw (.self w))))
  | .obj fields => fun h => congrArg Json.obj (coverFields_eq_self P c fields
      (fun key w hw hkey => h w (storedUnder_obj_iff.mpr ⟨key, w, hw, .inl ⟨hkey, rfl⟩⟩))
      fun _ w hw x hx => h x (hx.mono (.field hw (.self w))))
  | .null => fun _ => rfl
  | .bool _ => fun _ => rfl
  | .int _ => fun _ => rfl
  | .float _ => fun _ => rfl
  | .str _ => fun _ => rfl

theorem coverItems_eq_self (P : String → Bool) (c : Json) :
    ∀ items : List Json, (∀ w ∈ items, ∀ x, ¬ StoredUnder P x w) → coverItems P c items = items
  | [], _ => rfl
  | v :: rest, h => by
    rw [coverItems, cover_eq_self P c v (h v List.mem_cons_self),
      coverItems_eq_self P c rest fun w hw => h w (List.mem_cons_of_mem _ hw)]

theorem coverFields_eq_self (P : String → Bool) (c : Json) : ∀ fields : List (String × Json),
    (∀ key w, (key, w) ∈ fields → ¬ P key = true) →
    (∀ key w, (key, w) ∈ fields → ∀ x, ¬ StoredUnder P x w) → coverFields P c fields = fields
  | [], _, _ => rfl
  | (key, v) :: rest, hkeys, h => by
    rw [coverFields, if_neg (hkeys key v List.mem_cons_self),
      cover_eq_self P c v (h key v List.mem_cons_self),
      coverFields_eq_self P c rest (fun key w hw => hkeys key w (List.mem_cons_of_mem _ hw))
        fun key w hw => h key w (List.mem_cons_of_mem _ hw)]

end

/-- Two different covers come to the same only where no key is of the kind. -/
theorem not_storedUnder_of_cover (hcd : c ≠ d) (h : cover P c w = cover P d w) :
    ¬ StoredUnder P v w := by
  rintro ⟨fields, key, hin, hmem, hkey⟩
  induction hin with
  | self =>
    simp only [cover, coverFields_eq_map, Json.obj.injEq, List.map_inj_left] at h
    have hentry := h (key, v) hmem
    simp only [hkey, if_true, Prod.mk.injEq, true_and] at hentry
    exact hcd hentry
  | item hw _ ih =>
    simp only [cover, coverItems_eq_map, Json.arr.injEq, List.map_inj_left] at h
    exact ih (h _ hw)
  | @field w key' fields' hw _ ih =>
    simp only [cover, coverFields_eq_map, Json.obj.injEq, List.map_inj_left] at h
    have hentry := h (key', w) hw
    by_cases hkey' : P key' = true
    · simp only [hkey', if_true, Prod.mk.injEq, true_and] at hentry
      exact hcd hentry
    · simp only [if_neg hkey', Prod.mk.injEq, true_and] at hentry
      exact ih hentry

/-- A value without keys of the kind agrees with no other one outside of them. -/
theorem eq_of_cover_eq (hw : ∀ x, ¬ StoredUnder P x w) (h : cover P .null w = cover P .null v) :
    v = w := by
  rw [cover_eq_self P .null w hw] at h
  -- any other cover comes to the same, so there is nothing to be covered
  have hsame : cover P .null v = cover P (.bool true) v := by
    rw [← h, ← cover_cover P (.bool true) .null v, ← h, cover_eq_self P _ w hw]
  have hv : ∀ x, ¬ StoredUnder P x v := fun x => not_storedUnder_of_cover (by simp) hsame
  rw [h, cover_eq_self P .null v hv]

/-- Lists that agree under one map agree under another, if entries do. -/
theorem map_eq_map_of {α β γ : Type} {f : α → β} {g : α → γ} {l l' : List α}
    (hfg : ∀ a ∈ l, ∀ b, f a = f b → g b = g a) (h : l.map f = l'.map f) :
    l'.map g = l.map g := by
  induction l generalizing l' with
  | nil =>
    obtain rfl : l' = [] := by simpa using h.symm
    rfl
  | cons a l ih =>
    cases l' with
    | nil => simp at h
    | cons b l' =>
      simp only [List.map_cons, List.cons.injEq] at h ⊢
      exact ⟨hfg a List.mem_cons_self b h.1,
        ih (fun a ha => hfg a (List.mem_cons_of_mem _ ha)) h.2⟩

end Cover

/-- **Noninterference**: what `safe_log_data` puts out does not depend on the values of sensitive
keys, exactly if all of them lie in fields that it redacts. -/
theorem safe_log_hides_iff (py : PyLib) (data : List (String × Json)) :
    (∀ data', AgreeOutside (Sensitive py) data data' →
      safeLogData py data' = safeLogData py data) ↔ Sheltered py data := by
  constructor
  · intro h
    have hcovered : ∀ c, safeLogData py (coverFields (Sensitive py) c data) = safeLogData py data :=
      fun c => h _ (coverFields_coverFields _ _ c data).symm
    have hsame := (hcovered .null).trans (hcovered (.bool true)).symm
    simp only [safeLogData, maskFields, coverFields_eq_map, List.map_map, List.map_inj_left,
      Function.comp_apply, Prod.forall, Prod.mk.injEq, true_and] at hsame
    have hkept : ∀ key value, (key, value) ∈ data → isMasked py sensitiveKeys key = false →
        Sensitive py key = false ∧ cover (Sensitive py) .null value =
          cover (Sensitive py) (.bool true) value := by
      intro key value hmem hkept
      have hentry := hsame key value hmem
      simp only [hkept, Bool.false_eq_true, if_false] at hentry
      cases hkey : Sensitive py key with
      | true => simp [hkey] at hentry
      | false => exact ⟨rfl, by simpa [hkey] using hentry⟩
    refine ⟨fun key value hmem hkey => ?_, fun key value hmem hnot v => ?_⟩
    · have hno := (hkept key value hmem (not_isMasked_of_overlooked hkey)).1
      rw [sensitive_iff.mpr (.inr hkey)] at hno
      cases hno
    · exact not_storedUnder_of_cover (by simp) (hkept key value hmem hnot).2
  · intro h data' hagree
    rw [AgreeOutside, coverFields_eq_map, coverFields_eq_map] at hagree
    refine map_eq_map_of ?_ hagree
    rintro ⟨key, value⟩ hmem ⟨key', value'⟩ hentry
    simp only [Prod.mk.injEq] at hentry
    obtain ⟨rfl, hvalue⟩ := hentry
    cases hmasked : isMasked py sensitiveKeys key with
    | true => simp [hmasked]
    | false =>
      have hkey : ¬ Sensitive py key = true := by
        rw [sensitive_iff, hmasked]
        simpa using h.known key value hmem
      rw [if_neg hkey, if_neg hkey] at hvalue
      simp [hmasked, eq_of_cover_eq (h.shallow key value hmem hmasked) hvalue]

end BankingAgent
