import BankingAgent.Recording
import BankingAgent.Tools
import Mathlib.Data.List.Dedup

/-!
# The schema a model is shown

`provider_schema` shows a model the schema of a tool without the fields the server fills in, and
`validate_tool_call` reads the whole schema of the answer. Nothing fills the fields in between the
two; and the validator takes a field without a type for a string, and `null` for no value.

* `validateToolCall_iff` — what the validator accepts.
* `shown_schema_iff` — for which schemas it accepts whatever conforms to what is shown.
-/

namespace BankingAgent

/-! ## What is shown -/

/-- `server_fields`. -/
def serverFields : List String := ["user_id", "tenant_id", "approver_id"]

/-- The items of a list, none for anything else. -/
def Json.items : Json → List Json
  | .arr items => items
  | _ => []

/-- `schema.get("required", [])`. -/
def Json.requiredNames (schema : Json) : List String :=
  ((schema.get? "required").getD (.arr [])).strings

/-- `schema.get("properties", {})`. -/
def Json.properties (schema : Json) : Json := (schema.get? "properties").getD (.obj [])

/-- The `parameters` of `provider_schema`. -/
def ToolDefinition.parameters (t : ToolDefinition) (includeServerFields : Bool) : Json :=
  let properties := t.inputSchema.properties.fields
  let required := ((t.inputSchema.get? "required").getD (.arr [])).items
  let shown (name : String) : Bool := includeServerFields || name ∉ serverFields
  .obj [("type", .str "object"),
    ("properties", .obj (properties.filter fun f => shown f.1)),
    ("required", .arr (required.filter fun r => (r.str?.map shown).getD true))]

/-- `provider_schema`. -/
def ToolDefinition.providerSchema (t : ToolDefinition) (description : String)
    (includeServerFields : Bool) : Json :=
  .obj [("type", .str "function"),
    ("function", .obj [("name", .str t.name), ("description", .str description),
      ("parameters", t.parameters includeServerFields)])]

/-- `schema["function"]["parameters"]`. -/
def functionParameters (schema : Json) : Json :=
  (((schema.get? "function").getD .null).get? "parameters").getD .null

theorem functionParameters_providerSchema (t : ToolDefinition) (description : String)
    (includeServerFields : Bool) :
    functionParameters (t.providerSchema description includeServerFields) =
      t.parameters includeServerFields := rfl

/-- A value of the type with that name. -/
def hasType (value : Json) (name : String) : Prop :=
  if name = "null" then value = .null else checkType value name = true

/-- A value of the type a schema declares: of one type, of one of several, or of any. -/
def admits : Option Json → Json → Prop
  | none, _ => True
  | some (.str name), value => hasType value name
  | some type, value => ∃ name ∈ type.strings, hasType value name

/-- An object that conforms to a schema: the required fields are there, and the declared fields
have values of their types. -/
structure Conforms (schema : Json) (fields : List (String × Json)) : Prop where
  nodup : (fields.map Prod.fst).Nodup
  present : ∀ name ∈ schema.requiredNames, ((Json.obj fields).get? name).isSome = true
  typed : ∀ f ∈ fields, ∀ prop, schema.properties.get? f.1 = some prop →
    admits (prop.get? "type") f.2

/-- A schema as the validator's annotations have it: the names required are strings, the properties
are dictionaries, and a type, if there is one, is a name or a list of names. -/
structure WellFormed (schema : Json) : Prop where
  isDict : schema.isDict = true
  required : ∀ required, schema.get? "required" = some required →
    ∃ names : List String, required = .arr (names.map Json.str)
  properties : ∀ properties, schema.get? "properties" = some properties →
    properties.isDict = true
  property : ∀ name prop, schema.properties.get? name = some prop → prop.isDict = true
  type : ∀ name prop type, schema.properties.get? name = some prop → prop.get? "type" = some type →
    (∃ t, type = .str t) ∨ ∃ (t : String) (ts : List String), type = .arr ((t :: ts).map Json.str)

/-! ## What the validator accepts -/

/-- The value passes for the type a schema declares. -/
def passes (type : Option Json) (value : Json) : Prop :=
  ∀ name, type.getD (.str "string") = .str name → checkType value name = true

section Validator

variable {py : PyLib}

/-- The names `_check_type` knows. -/
def checkedTypes : List String := ["string", "number", "integer", "boolean", "object", "array"]

theorem checkType_of_unchecked {name : String} (h : name ∉ checkedTypes) (value : Json) :
    checkType value name = true := by
  unfold checkType
  split <;> simp_all [checkedTypes]

theorem hasType_iff {name : String} (h : name ∈ checkedTypes) {value : Json} :
    hasType value name ↔ checkType value name = true := by
  have hne : name ≠ "null" := by
    rintro rfl
    exact absurd h (by decide)
  rw [hasType, if_neg hne]

/-- None of the names stands for `null`. -/
theorem checkType_null {name : String} (h : name ∈ checkedTypes) :
    checkType .null name = false := by
  simp only [checkedTypes, List.mem_cons, List.not_mem_nil, or_false] at h
  rcases h with rfl | rfl | rfl | rfl | rfl | rfl <;> rfl

/-- No field is missing: every required one is there, and is not null. -/
theorem missingField_eq_none_iff {args schema : Json} :
    missingField args schema = none ↔
      ∀ name ∈ schema.requiredNames, ∃ value, args.get? name = some value ∧ value ≠ .null := by
  rw [missingField, List.find?_eq_none, Json.requiredNames]
  refine forall₂_congr fun name _ => ?_
  cases args.get? name with
  | none => simp
  | some value => cases value <;> simp

theorem mistype_eq_none_iff (prop value : Json) :
    mistype prop value = none ↔ passes (prop.get? "type") value := by
  rw [mistype, passes]
  cases (prop.get? "type").getD (.str "string") <;> simp

/-- No field has the wrong type: those with a schema pass its check. -/
theorem mistypedField_eq_none_iff {fields : List (String × Json)} {schema : Json}
    (hproperty : ∀ name prop, schema.properties.get? name = some prop → prop.isDict = true) :
    mistypedField (.obj fields) schema = none ↔
      ∀ f ∈ fields, ∀ prop, schema.properties.get? f.1 = some prop →
        passes (prop.get? "type") f.2 := by
  rw [mistypedField, List.findSome?_eq_none_iff]
  refine forall₂_congr fun f _ => ?_
  rw [← Json.properties]
  cases hprop : schema.properties.get? f.1 with
  | none => simp [hprop]
  | some prop =>
    have hdict := hproperty f.1 prop hprop
    cases prop with
    | obj declared => simp [hprop, mistype_eq_none_iff]
    | _ => cases hdict

/-- Both together are the validation. -/
theorem validateAgainstSchema_eq_none_iff {toolName : String} {args schema : Json} :
    validateAgainstSchema py toolName args schema = none ↔
      missingField args schema = none ∧ mistypedField args schema = none := by
  rw [validateAgainstSchema]
  cases missingField args schema with
  | some name => simp
  | none => cases mistypedField args schema <;> simp

/-- The arguments have what the schema requires, and what they have is of the declared types. -/
structure Accepted (schema : Json) (fields : List (String × Json)) : Prop where
  present : ∀ name ∈ schema.requiredNames,
    ∃ value, (Json.obj fields).get? name = some value ∧ value ≠ .null
  typed : ∀ f ∈ fields, ∀ prop, schema.properties.get? f.1 = some prop →
    passes (prop.get? "type") f.2

/-- **What the validator accepts** of a registered tool. -/
theorem validateToolCall_iff {registry : ToolRegistry} {d : ToolDefinition}
    (hget : registry.get d.name = some d) (hschema : WellFormed d.inputSchema)
    (fields : List (String × Json)) :
    validateToolCall py d.name (.obj fields) registry = none ↔ Accepted d.inputSchema fields := by
  have haccepted : Accepted d.inputSchema fields ↔
      missingField (.obj fields) d.inputSchema = none ∧
        mistypedField (.obj fields) d.inputSchema = none := by
    rw [missingField_eq_none_iff, mistypedField_eq_none_iff hschema.property]
    exact ⟨fun h => ⟨h.present, h.typed⟩, fun h => ⟨h.1, h.2⟩⟩
  rw [validateToolCall, hget]
  dsimp only
  split
  · rw [haccepted, validateAgainstSchema_eq_none_iff]
  · rename_i hfalsy
    refine ⟨fun _ => ?_, fun _ => rfl⟩
    -- a schema that is empty declares nothing
    obtain ⟨declared, hdeclared⟩ : ∃ declared, d.inputSchema = .obj declared := by
      have hdict := hschema.isDict
      cases hinput : d.inputSchema with
      | obj declared => exact ⟨declared, rfl⟩
      | _ => simp [hinput, Json.isDict] at hdict
    have hempty : declared = [] := by simpa [hdeclared, Json.truthy] using hfalsy
    rw [hdeclared, hempty]
    exact ⟨nofun, nofun⟩

end Validator

/-! ## What the shown schema requires and declares -/

section Shown

variable {d : ToolDefinition}

theorem strings_filter (shown : String → Bool) (items : List Json) :
    (Json.arr (items.filter fun r => (r.str?.map shown).getD true)).strings =
      (Json.arr items).strings.filter shown := by
  induction items with
  | nil => rfl
  | cons v rest ih =>
    simp only [Json.strings] at ih ⊢
    cases hv : v.str? with
    | none => simp [hv, ih]
    | some s => cases h : shown s <;> simp [hv, h, ih]

/-- The names shown are the names required that are no server fields. -/
theorem requiredNames_parameters (d : ToolDefinition) (name : String) :
    name ∈ (d.parameters false).requiredNames ↔
      name ∈ d.inputSchema.requiredNames ∧ name ∉ serverFields := by
  have hrequired : (d.parameters false).requiredNames =
      (Json.arr ((d.inputSchema.get? "required").getD (.arr [])).items).strings.filter
        fun name => name ∉ serverFields := by
    rw [← strings_filter]
    rfl
  have hitems : ∀ v : Json, (Json.arr v.items).strings = v.strings := by
    intro v
    cases v <;> rfl
  rw [hrequired, hitems, List.mem_filter, Json.requiredNames]
  simp

/-- The properties shown are those that are no server fields. -/
theorem properties_parameters (d : ToolDefinition) (name : String) :
    (d.parameters false).properties.get? name =
      if name ∈ serverFields then none else d.inputSchema.properties.get? name := by
  have hshown : (d.parameters false).properties =
      .obj (d.inputSchema.properties.fields.filter fun f => f.1 ∉ serverFields) := rfl
  have hfields : ∀ v : Json, v.get? name = (Json.obj v.fields).get? name := by
    intro v
    cases v <;> rfl
  rw [hshown, hfields d.inputSchema.properties]
  simp only [Json.get?, List.find?_filter]
  split
  · rename_i hserver
    rw [List.find?_eq_none.mpr]
    · rfl
    · intro f _
      simp only [decide_eq_true_eq, not_and]
      rintro hshown rfl
      exact hshown hserver
  · rename_i hserver
    congr 2
    funext f
    by_cases hf : f.1 = name
    · simp [hf, hserver]
    · simp [hf]

end Shown

/-! ## Objects that conform -/

section Objects

/-- A value of the type with that name. -/
def sampleOf (name : String) : Json :=
  match name with
  | "string" => .str ""
  | "number" => .int 0
  | "integer" => .int 0
  | "boolean" => .bool false
  | "object" => .obj []
  | "array" => .arr []
  | _ => .null

theorem hasType_sampleOf (name : String) : hasType (sampleOf name) name := by
  by_cases h : name ∈ checkedTypes
  · rw [hasType_iff h]
    simp only [checkedTypes, List.mem_cons, List.not_mem_nil, or_false] at h
    rcases h with rfl | rfl | rfl | rfl | rfl | rfl <;> rfl
  · have hsample : sampleOf name = .null := by
      unfold sampleOf
      split <;> simp_all [checkedTypes]
    rw [hasType, hsample]
    split
    · rfl
    · exact checkType_of_unchecked h .null

/-- A value of the type a schema declares. -/
def sample : Option Json → Json
  | none => .null
  | some (.str name) => sampleOf name
  | some type => ((type.strings.head?).map sampleOf).getD .null

/-- An object with a value for each of some names. -/
def objectOf (names : List String) (value : String → Json) : List (String × Json) :=
  names.map fun name => (name, value name)

theorem get?_objectOf (names : List String) (value : String → Json) (name : String) :
    (Json.obj (objectOf names value)).get? name =
      if name ∈ names then some (value name) else none := by
  induction names with
  | nil => rfl
  | cons other names ih =>
    have hcons : (Json.obj (objectOf (other :: names) value)).get? name =
        if other = name then some (value other)
        else (Json.obj (objectOf names value)).get? name := by
      by_cases h : other = name <;> simp [Json.get?, objectOf, h]
    rw [hcons, ih]
    by_cases h : other = name
    · simp [h]
    · simp [h, Ne.symm h]

variable {schema : Json}

/-- A schema is met by an object with a value of the right type for each of its fields. -/
theorem conforms_objectOf {names : List String} {value : String → Json}
    (hnames : ∀ name ∈ schema.requiredNames, name ∈ names)
    (hvalue : ∀ name ∈ names, ∀ prop, schema.properties.get? name = some prop →
      admits (prop.get? "type") (value name)) :
    Conforms schema (objectOf names.dedup value) := by
  refine ⟨?_, fun name hname => ?_, fun f hf prop hprop => ?_⟩
  · simp [objectOf, Function.comp_def, List.nodup_dedup]
  · simp [get?_objectOf, hnames name hname]
  · obtain ⟨name, hname, rfl⟩ := List.mem_map.mp hf
    exact hvalue name (List.mem_dedup.mp hname) prop hprop

/-- The type a schema declares for a field. -/
def declaredType (schema : Json) (name : String) : Option Json :=
  (schema.properties.get? name).bind fun prop => prop.get? "type"

theorem admits_sample {name : String} {prop : Json} (hschema : WellFormed schema)
    (hprop : schema.properties.get? name = some prop) :
    admits (prop.get? "type") (sample (prop.get? "type")) := by
  cases htype : prop.get? "type" with
  | none => trivial
  | some type =>
    rcases hschema.type name prop type hprop htype with ⟨t, rfl⟩ | ⟨t, ts, rfl⟩
    · exact hasType_sampleOf t
    · exact ⟨t, by simp [Json.strings, Json.str?], hasType_sampleOf t⟩

end Objects

/-! ## For which schemas the two agree -/

section Agreement

variable {d : ToolDefinition}

/-- No server field is required, whatever is required has a type that leaves `null` out, the other
properties declare a type, and the server fields have no type the validator knows. -/
structure SchemaAgrees (schema : Json) : Prop where
  required : ∀ name ∈ schema.requiredNames, name ∉ serverFields
  notNull : ∀ name ∈ schema.requiredNames, ∃ prop, schema.properties.get? name = some prop ∧
    ¬ admits (prop.get? "type") .null
  declared : ∀ name ∉ serverFields, ∀ prop, schema.properties.get? name = some prop →
    ∃ type, prop.get? "type" = some type
  server : ∀ name ∈ serverFields, ∀ prop, schema.properties.get? name = some prop →
    ∃ type, prop.get? "type" = some type ∧ ∀ t ∈ checkedTypes, type ≠ .str t

theorem mem_of_get? {fields : List (String × Json)} {name : String} {value : Json}
    (h : (Json.obj fields).get? name = some value) : (name, value) ∈ fields := by
  obtain ⟨f, hfind, rfl⟩ := Option.map_eq_some_iff.mp h
  have hname := List.find?_some hfind
  rw [decide_eq_true_eq] at hname
  rw [← hname]
  exact List.mem_of_find?_eq_some hfind

/-- What has a declared type passes for it. -/
theorem passes_of_admits {type value : Json} (h : admits (some type) value) :
    passes (some type) value := by
  intro name hname
  obtain rfl : type = .str name := hname
  by_cases hchecked : name ∈ checkedTypes
  · exact (hasType_iff hchecked).mp h
  · exact checkType_of_unchecked hchecked value

theorem SchemaAgrees.accepted {fields : List (String × Json)} (h : SchemaAgrees d.inputSchema)
    (hconforms : Conforms (d.parameters false) fields) : Accepted d.inputSchema fields := by
  refine ⟨fun name hname => ?_, fun f hf prop hprop => ?_⟩
  · have hshown := (requiredNames_parameters d name).mpr ⟨hname, h.required name hname⟩
    obtain ⟨value, hvalue⟩ := Option.isSome_iff_exists.mp (hconforms.present name hshown)
    refine ⟨value, hvalue, ?_⟩
    rintro rfl
    obtain ⟨prop, hprop, hnull⟩ := h.notNull name hname
    refine hnull (hconforms.typed _ (mem_of_get? hvalue) prop ?_)
    rw [properties_parameters, if_neg (h.required name hname), hprop]
  · by_cases hserver : f.1 ∈ serverFields
    · obtain ⟨type, htype, hunchecked⟩ := h.server f.1 hserver prop hprop
      rw [htype]
      intro name hname
      exact checkType_of_unchecked (fun hchecked => hunchecked name hchecked hname) f.2
    · obtain ⟨type, htype⟩ := h.declared f.1 hserver prop hprop
      have hadmits := hconforms.typed f hf prop (by rw [properties_parameters, if_neg hserver, hprop])
      rw [htype] at hadmits ⊢
      exact passes_of_admits hadmits

/-- What is required, each with a value of its type, but `null` for one field. -/
def withNull (d : ToolDefinition) (name : String) : List (String × Json) :=
  objectOf (name :: (d.parameters false).requiredNames).dedup fun other =>
    if other = name then .null else sample (declaredType d.inputSchema other)

theorem conforms_withNull (hschema : WellFormed d.inputSchema) {name : String}
    (hnull : ∀ prop, (d.parameters false).properties.get? name = some prop →
      admits (prop.get? "type") .null) :
    Conforms (d.parameters false) (withNull d name) := by
  refine conforms_objectOf (fun other hother => List.mem_cons_of_mem _ hother) ?_
  intro other _ prop hprop
  split
  · rename_i heq
    exact hnull prop (heq ▸ hprop)
  · rw [properties_parameters] at hprop
    split at hprop
    · cases hprop
    · rw [declaredType, hprop]
      exact admits_sample hschema hprop

/-- The validator accepts `null` only where it does not look. -/
theorem null_of_accepted {name : String} (h : Accepted d.inputSchema (withNull d name)) :
    name ∉ d.inputSchema.requiredNames ∧
      ∀ prop, d.inputSchema.properties.get? name = some prop →
        ∀ t ∈ checkedTypes, (prop.get? "type").getD (.str "string") ≠ .str t := by
  have hget : (Json.obj (withNull d name)).get? name = some .null := by
    simp [withNull, get?_objectOf]
  refine ⟨fun hrequired => ?_, fun prop hprop t ht htype => ?_⟩
  · obtain ⟨value, hvalue, hne⟩ := h.present name hrequired
    rw [hget] at hvalue
    exact hne (Option.some_inj.mp hvalue).symm
  · have hpasses := h.typed _ (mem_of_get? hget) prop hprop t htype
    rw [checkType_null ht] at hpasses
    cases hpasses

/-- What is required, each with a value of its type. -/
def requiredOnly (d : ToolDefinition) : List (String × Json) :=
  objectOf (d.parameters false).requiredNames.dedup fun name =>
    sample (declaredType d.inputSchema name)

theorem conforms_requiredOnly (hschema : WellFormed d.inputSchema) :
    Conforms (d.parameters false) (requiredOnly d) := by
  refine conforms_objectOf (fun name hname => hname) ?_
  intro name _ prop hprop
  rw [properties_parameters] at hprop
  split at hprop
  · cases hprop
  · rw [declaredType, hprop]
    exact admits_sample hschema hprop

/-- If whatever conforms is accepted, the two readings agree: missing server fields and `null`
would tell them apart. -/
theorem schemaAgrees_of_accepted (hschema : WellFormed d.inputSchema)
    (h : ∀ fields, Conforms (d.parameters false) fields → Accepted d.inputSchema fields) :
    SchemaAgrees d.inputSchema := by
  refine ⟨fun name hname hserver => ?_, fun name hname => ?_, fun name hserver prop hprop => ?_,
    fun name hserver prop hprop => ?_⟩
  · obtain ⟨value, hvalue, -⟩ := (h _ (conforms_requiredOnly hschema)).present name hname
    have hmem := (mem_of_get? hvalue)
    obtain ⟨other, hother, heq⟩ := List.mem_map.mp hmem
    obtain rfl : other = name := congrArg Prod.fst heq
    exact ((requiredNames_parameters d other).mp (List.mem_dedup.mp hother)).2 hserver
  · by_contra hnone
    refine (null_of_accepted (h _ (conforms_withNull hschema fun prop hprop => ?_))).1 hname
    rw [properties_parameters] at hprop
    split at hprop
    · cases hprop
    · by_contra hnull
      exact hnone ⟨prop, hprop, hnull⟩
  · by_contra hnone
    have htype : prop.get? "type" = none := by
      cases htype : prop.get? "type" with
      | none => rfl
      | some type => exact absurd ⟨type, htype⟩ hnone
    have hconforms : Conforms (d.parameters false) (withNull d name) := by
      refine conforms_withNull hschema fun prop' hprop' => ?_
      rw [properties_parameters, if_neg hserver, hprop] at hprop'
      rw [← Option.some_inj.mp hprop', htype]
      trivial
    have hunchecked := (null_of_accepted (h _ hconforms)).2 prop hprop
    exact hunchecked "string" (by decide) (by rw [htype]; rfl)
  · have hconforms : Conforms (d.parameters false) (withNull d name) := by
      refine conforms_withNull hschema fun prop' hprop' => ?_
      rw [properties_parameters, if_pos hserver] at hprop'
      cases hprop'
    have hunchecked := (null_of_accepted (h _ hconforms)).2 prop hprop
    cases htype : prop.get? "type" with
    | none => exact absurd (by rw [htype]; rfl) (hunchecked "string" (by decide))
    | some type =>
      refine ⟨type, rfl, fun t ht heq => hunchecked t ht ?_⟩
      rw [htype, Option.getD_some, heq]

end Agreement

/-- A tool with one required field of type string. -/
def oneFieldTool (field : String) : ToolDefinition :=
  { name := "get_balance", sideEffect := false, riskLevel := .low,
    inputSchema := .obj [("required", .arr [.str field]),
      ("properties", .obj [(field, .obj [("type", .str "string")])])] }

/-- The registry with that tool. -/
def oneFieldRegistry (field : String) : ToolRegistry :=
  ⟨[oneFieldTool field], List.nodup_singleton _⟩

theorem property_oneFieldTool {field name : String} {prop : Json}
    (hprop : (oneFieldTool field).inputSchema.properties.get? name = some prop) :
    field = name ∧ prop = .obj [("type", .str "string")] := by
  obtain ⟨f, hfind, rfl⟩ := Option.map_eq_some_iff.mp hprop
  have hname := List.find?_some hfind
  obtain rfl := List.mem_singleton.mp (List.mem_of_find?_eq_some hfind)
  exact ⟨of_decide_eq_true hname, rfl⟩

theorem wellFormed_oneFieldTool (field : String) : WellFormed (oneFieldTool field).inputSchema := by
  refine ⟨rfl, fun required h => ⟨[field], (Option.some_inj.mp h).symm⟩,
    fun properties h => Option.some_inj.mp h ▸ rfl,
    fun name prop h => (property_oneFieldTool h).2 ▸ rfl, fun name prop type h htype => ?_⟩
  rw [(property_oneFieldTool h).2] at htype
  exact .inl ⟨"string", (Option.some_inj.mp htype).symm⟩

theorem schemaAgrees_oneFieldTool {field : String} (h : field ∉ serverFields) :
    SchemaAgrees (oneFieldTool field).inputSchema := by
  have hrequired : ∀ name ∈ (oneFieldTool field).inputSchema.requiredNames, name = field :=
    fun name hname => List.mem_singleton.mp hname
  refine ⟨fun name hname => hrequired name hname ▸ h, fun name hname => ?_,
    fun name _ prop hprop => ⟨.str "string", (property_oneFieldTool hprop).2 ▸ rfl⟩,
    fun name hserver prop hprop => absurd hserver ((property_oneFieldTool hprop).1 ▸ h)⟩
  refine ⟨.obj [("type", .str "string")], ?_, ?_⟩
  · rw [hrequired name hname]
    simp [Json.properties, Json.get?, oneFieldTool]
  · change ¬ hasType .null "string"
    rw [hasType_iff (by decide), checkType_null (by decide)]
    exact Bool.false_ne_true

end BankingAgent
