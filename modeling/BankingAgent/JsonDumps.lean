import BankingAgent.JsonText

/-!
# `json.dumps`

The texts that `json.dumps` writes: with or without escapes for what is not ASCII, on one line or
indented. With `sort_keys` it writes `v.sortKeys` in the same way.

* `Json.dumps` — the text of a value.
* `spells_dumps` — it spells the value.
-/

namespace BankingAgent

/-! ## Strings -/

/-- Four hexadecimal digits. -/
def unicodeUnit (n : ℕ) : List Char :=
  [Nat.digitChar (n / 4096 % 16), Nat.digitChar (n / 256 % 16), Nat.digitChar (n / 16 % 16),
    Nat.digitChar (n % 16)]

/-- A character by its number, as a surrogate pair if the number is too large. -/
def unicodeEscape (n : ℕ) : List Char :=
  if n < 0x10000 then backslash :: 'u' :: unicodeUnit n
  else backslash :: 'u' :: (unicodeUnit (0xd800 + (n - 0x10000) / 0x400) ++
    backslash :: 'u' :: unicodeUnit (0xdc00 + (n - 0x10000) % 0x400))

/-- The escape of one character, if there is one; a slash is written as it is. -/
def shortEscape (c : Char) : Option Char :=
  (shortEscapes.find? fun escape => escape.2 = c ∧ escape.1 ≠ '/').map Prod.fst

/-- A character, as it is written in a literal. -/
def escapeChar (ensureAscii : Bool) (c : Char) : List Char :=
  match shortEscape c with
  | some e => [backslash, e]
  | none =>
    if c.toNat < 0x20 ∨ ensureAscii = true ∧ 0x7e < c.toNat then unicodeEscape c.toNat else [c]

section Strings

variable {n : ℕ} {c e : Char} {body s : List Char}

theorem isHex_digitChar : ∀ d < 16, IsHex (Nat.digitChar d) = true := by decide

theorem hexDigit_digitChar : ∀ d < 16, hexDigit (Nat.digitChar d) = d := by decide

/-- `\uXXXX` is written with four hexadecimal digits. -/
theorem isUnit_unicodeUnit (n : ℕ) : IsUnit (unicodeUnit n) := by
  have hdigit (k : ℕ) : IsHex (Nat.digitChar (k % 16)) = true :=
    isHex_digitChar _ (Nat.mod_lt k (by decide))
  refine ⟨rfl, ?_⟩
  simp only [unicodeUnit, List.forall_mem_cons, hdigit, true_and]
  rintro c ⟨⟩

/-- They read back as the number they were made of. -/
theorem hexValue_unicodeUnit (h : n < 0x10000) : hexValue (unicodeUnit n) = n := by
  have hdigit (k : ℕ) : hexDigit (Nat.digitChar (k % 16)) = k % 16 :=
    hexDigit_digitChar _ (Nat.mod_lt k (by decide))
  simp only [hexValue, unicodeUnit, List.foldl_cons, List.foldl_nil, hdigit]
  omega

theorem mem_shortEscapes (h : shortEscape c = some e) : (e, c) ∈ shortEscapes := by
  obtain ⟨escape, hfind, rfl⟩ := Option.map_eq_some_iff.mp h
  have hchar := List.find?_some hfind
  obtain ⟨rfl, -⟩ := of_decide_eq_true hchar
  exact List.mem_of_find?_eq_some hfind

theorem char_toNat_lt (c : Char) : c.toNat < 0x110000 := by
  rcases c.valid with h | ⟨-, h⟩
  · exact h.trans (by decide)
  · exact h

/-- A character written as an escape is read back, above the first plane by its surrogates. -/
theorem Literal.unicode (h : Literal body s) :
    Literal (unicodeEscape c.toNat ++ body) (c :: s) := by
  rw [unicodeEscape]
  split
  · next hsmall => exact .unit (isUnit_unicodeUnit _) (hexValue_unicodeUnit hsmall) h
  · next hlarge =>
    have hlt := char_toNat_lt c
    have hhigh := hexValue_unicodeUnit (n := 0xd800 + (c.toNat - 0x10000) / 0x400) (by omega)
    have hlow := hexValue_unicodeUnit (n := 0xdc00 + (c.toNat - 0x10000) % 0x400) (by omega)
    rw [List.cons_append, List.cons_append, List.append_assoc]
    refine .pair (isUnit_unicodeUnit _) (isUnit_unicodeUnit _) ?_ ?_ ?_ ?_ ?_ h <;> omega

/-- What is written for a character stands for it. -/
theorem Literal.escape (ensureAscii : Bool) (h : Literal body s) :
    Literal (escapeChar ensureAscii c ++ body) (c :: s) := by
  rw [escapeChar]
  cases hshort : shortEscape c with
  | some e => exact .short (mem_shortEscapes hshort) h
  | none =>
    dsimp only
    split
    · exact h.unicode
    · next hplain =>
      have hlow : 0x20 ≤ c.toNat := by omega
      refine .raw ?_ ?_ hlow h <;> rintro rfl <;> exact absurd hshort (by decide)

/-- What is written for a string stands for it. -/
theorem literal_escaped (ensureAscii : Bool) (s : List Char) :
    Literal (s.flatMap (escapeChar ensureAscii)) s := by
  induction s with
  | nil => exact .nil
  | cons c s ih =>
    rw [List.flatMap_cons]
    exact ih.escape ensureAscii

end Strings

/-! ## Numbers -/

section Numbers

variable {n : ℕ}

theorem isDigits_toDigits (n : ℕ) : IsDigits (Nat.toDigits 10 n) :=
  ⟨Nat.toDigits_ne_nil, fun _ hc => Nat.isDigit_of_mem_toDigits (by decide) le_rfl hc⟩

/-- Digits read back as the number they were made of. -/
theorem decimal_toDigits (n : ℕ) : decimal (Nat.toDigits 10 n) = n := Nat.ofDigitChars_ten_toDigits

/-- Only zero is written with a zero in front. -/
theorem eq_zero_of_head?_toDigits (h : (Nat.toDigits 10 n).head? = some '0') : n = 0 := by
  induction n using Nat.strongRecOn with
  | ind n ih =>
    rw [Nat.toDigits_eq_if (by decide)] at h
    split at h
    · next hlt =>
      have hdigit : ∀ d < 10, Nat.digitChar d = '0' → d = 0 := by decide
      exact hdigit n hlt (Option.some.inj h)
    · next hle =>
      rw [List.head?_append_of_ne_nil _ Nat.toDigits_ne_nil] at h
      have hzero := ih (n / 10) (by omega) h
      omega

theorem isNat_toDigits (n : ℕ) : IsNat (Nat.toDigits 10 n) := by
  refine ⟨isDigits_toDigits n, fun hhead => ?_⟩
  rw [eq_zero_of_head?_toDigits hhead]
  rfl

end Numbers

/-! ## Values -/

/-- The options of `json.dumps`. The separators are a comma and a colon, with blanks behind them. -/
structure DumpsOptions : Type where
  ensureAscii : Bool
  indent : Option ℕ
  afterComma : List Char
  afterColon : List Char
  blank_afterComma : Blank afterComma
  blank_afterColon : Blank afterColon

theorem blank_replicate (n : ℕ) : Blank (List.replicate n ' ') := by
  intro c hc
  rw [List.eq_of_mem_replicate hc]
  decide

namespace DumpsOptions

/-- `json.dumps(v)`. -/
def default : DumpsOptions := ⟨true, none, [' '], [' '], blank_replicate 1, blank_replicate 1⟩

/-- The end of a line, and the blanks at the beginning of the next one. -/
def newline (o : DumpsOptions) (level : ℕ) : List Char :=
  match o.indent with
  | none => []
  | some width => '\n' :: List.replicate (width * level) ' '

/-- What is written behind a comma. -/
def itemGap (o : DumpsOptions) (level : ℕ) : List Char := o.afterComma ++ o.newline level

end DumpsOptions

namespace Json

variable (o : DumpsOptions)

mutual

/-- `json.dumps`, at some level of indentation. -/
def dumps (level : ℕ) : Json → List Char
  | .null => "null".toList
  | .bool true => "true".toList
  | .bool false => "false".toList
  | .int n =>
    if n < 0 then '-' :: Nat.toDigits 10 n.natAbs else Nat.toDigits 10 n.natAbs
  | .float repr => repr.toList
  | .str s => quoted (s.toList.flatMap (escapeChar o.ensureAscii))
  | .arr [] => '[' :: ([] ++ [']'])
  | .arr (v :: vs) =>
    '[' :: (o.newline (level + 1) ++ dumps (level + 1) v ++ dumpsItems (level + 1) vs
      ++ o.newline level ++ [']'])
  | .obj [] => openBrace :: ([] ++ [closeBrace])
  | .obj ((k, v) :: fs) =>
    openBrace :: (o.newline (level + 1) ++ quoted (k.toList.flatMap (escapeChar o.ensureAscii)) ++
      ':' :: (o.afterColon ++ dumps (level + 1) v) ++ dumpsFields (level + 1) fs ++
      o.newline level ++ [closeBrace])

/-- The items of an array behind the first one. -/
def dumpsItems (level : ℕ) : List Json → List Char
  | [] => []
  | v :: vs => ',' :: (o.itemGap level ++ dumps level v ++ dumpsItems level vs)

/-- The fields of an object behind the first one. -/
def dumpsFields (level : ℕ) : List (String × Json) → List Char
  | [] => []
  | (k, v) :: fs =>
    ',' :: (o.itemGap level ++ quoted (k.toList.flatMap (escapeChar o.ensureAscii)) ++
      ':' :: (o.afterColon ++ dumps level v) ++ dumpsFields level fs)

end

mutual

/-- The floats of a value, as they are written. -/
def floats : Json → List String
  | .float repr => [repr]
  | .arr items => itemsFloats items
  | .obj fields => fieldsFloats fields
  | _ => []

/-- The floats of the items. -/
def itemsFloats : List Json → List String
  | [] => []
  | v :: rest => floats v ++ itemsFloats rest

/-- The floats of the fields. -/
def fieldsFloats : List (String × Json) → List String
  | [] => []
  | (_, v) :: rest => floats v ++ fieldsFloats rest

end

end Json

/-- The text is that of a float, and stands for itself. -/
def Canonical (canon : List Char → String) (repr : String) : Prop :=
  FloatLiteral repr.toList ∧ canon repr.toList = repr

section Spells

variable {canon : List Char → String} {o : DumpsOptions}

theorem blank_newline (o : DumpsOptions) (level : ℕ) : Blank (o.newline level) := by
  rw [DumpsOptions.newline]
  cases o.indent with
  | none => rintro c ⟨⟩
  | some width => exact List.forall_mem_cons.mpr ⟨by decide, blank_replicate _⟩

theorem Blank.append {s t : List Char} (hs : Blank s) (ht : Blank t) : Blank (s ++ t) :=
  fun c hc => (List.mem_append.mp hc).elim (hs c) (ht c)

theorem blank_itemGap (o : DumpsOptions) (level : ℕ) : Blank (o.itemGap level) :=
  o.blank_afterComma.append (blank_newline o level)

theorem blank_nil : Blank [] := by rintro c ⟨⟩

/-- A whole number is written as JSON spells it. -/
theorem spells_int (n : ℤ) (level : ℕ) :
    Spells canon (.value (.int n)) (Json.dumps o level (.int n)) := by
  change Spells canon _
    (if n < 0 then '-' :: Nat.toDigits 10 n.natAbs else Nat.toDigits 10 n.natAbs)
  split
  · next hneg =>
    have hnat : Spells canon _ _ := .negative (isNat_toDigits n.natAbs)
    rw [decimal_toDigits] at hnat
    have hn : -(n.natAbs : ℤ) = n := by omega
    rwa [hn] at hnat
  · next hnonneg =>
    have hnat : Spells canon _ _ := .nat (isNat_toDigits n.natAbs)
    rw [decimal_toDigits] at hnat
    have hn : (n.natAbs : ℤ) = n := by omega
    rwa [hn] at hnat

mutual

/-- **What `json.dumps` writes** spells the value. -/
theorem spells_dumps : ∀ (v : Json) (level : ℕ), (∀ repr ∈ v.floats, Canonical canon repr) →
    Spells canon (.value v) (v.dumps o level)
  | .null, _, _ => .null
  | .bool true, _, _ => .boolTrue
  | .bool false, _, _ => .boolFalse
  | .int n, level, _ => spells_int n level
  | .float repr, _, h => by
    have hrepr := h repr (List.mem_singleton_self repr)
    have hfloat : Spells canon (.value (.float (canon repr.toList))) repr.toList := .float hrepr.1
    rwa [hrepr.2] at hfloat
  | .str s, _, _ => by
    have hstr : Spells canon (.value (.str (String.ofList s.toList))) _ :=
      .str (literal_escaped o.ensureAscii s.toList)
    rwa [String.ofList_toList] at hstr
  | .arr [], _, _ => .arr (.noItems blank_nil)
  | .arr (v :: vs), level, h => by
    have hitems := spells_dumpsItems vs (level + 1) (fun r hr => h r (List.mem_append_right _ hr))
      (blank_newline o (level + 1))
      (spells_dumps v (level + 1) fun r hr => h r (List.mem_append_left _ hr))
      (blank_newline o level)
    exact .arr hitems
  | .obj [], _, _ => .obj (.noFields blank_nil)
  | .obj ((k, v) :: fs), level, h => by
    have hfields := spells_dumpsFields fs (level + 1)
      (fun r hr => h r (List.mem_append_right _ hr)) (k := k) (blank_newline o (level + 1))
      (spells_dumps v (level + 1) fun r hr => h r (List.mem_append_left _ hr))
      (blank_newline o level)
    exact .obj hfields

/-- The items behind an item. -/
theorem spells_dumpsItems : ∀ (vs : List Json) (level : ℕ),
    (∀ repr ∈ Json.itemsFloats vs, Canonical canon repr) → ∀ {v : Json} {s t u : List Char},
      Blank s → Spells canon (.value v) t → Blank u →
        Spells canon (.items (v :: vs)) (s ++ t ++ Json.dumpsItems o level vs ++ u)
  | [], level, _, v, s, t, u, hs, ht, hu => by
    simpa [Json.dumpsItems] using Spells.lastItem hs ht hu
  | v' :: vs, level, h, v, s, t, u, hs, ht, hu => by
    have hrest := spells_dumpsItems vs level (fun r hr => h r (List.mem_append_right _ hr))
      (blank_itemGap o level) (spells_dumps v' level fun r hr => h r (List.mem_append_left _ hr)) hu
    simpa [Json.dumpsItems] using Spells.item hs ht blank_nil (List.cons_ne_nil v' vs) hrest

/-- The fields behind a field. -/
theorem spells_dumpsFields : ∀ (fs : List (String × Json)) (level : ℕ),
    (∀ repr ∈ Json.fieldsFloats fs, Canonical canon repr) →
      ∀ {k : String} {v : Json} {s t u : List Char}, Blank s → Spells canon (.value v) t →
        Blank u → Spells canon (.fields ((k, v) :: fs))
          (s ++ quoted (k.toList.flatMap (escapeChar o.ensureAscii)) ++
            ':' :: (o.afterColon ++ t) ++ Json.dumpsFields o level fs ++ u)
  | [], level, _, k, v, s, t, u, hs, ht, hu => by
    have hfield := Spells.lastField hs (literal_escaped o.ensureAscii k.toList) blank_nil
      o.blank_afterColon ht hu
    rw [String.ofList_toList] at hfield
    simpa [Json.dumpsFields] using hfield
  | (k', v') :: fs, level, h, k, v, s, t, u, hs, ht, hu => by
    have hrest := spells_dumpsFields fs level (fun r hr => h r (List.mem_append_right _ hr))
      (k := k') (blank_itemGap o level)
      (spells_dumps v' level fun r hr => h r (List.mem_append_left _ hr)) hu
    have hfield := Spells.field hs (literal_escaped o.ensureAscii k.toList) blank_nil
      o.blank_afterColon ht blank_nil (List.cons_ne_nil (k', v') fs) hrest
    rw [String.ofList_toList] at hfield
    simpa [Json.dumpsFields] using hfield

end

end Spells

end BankingAgent
