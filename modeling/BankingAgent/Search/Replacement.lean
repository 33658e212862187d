import BankingAgent.OrderedDict
import Mathlib.Data.Finset.Basic
import Mathlib.Data.List.Induction
import Mathlib.Data.List.Infix
import Mathlib.Data.List.Perm.Basic

/-!
# Replacing placeholders one after the other

A template is a sequence of characters and holes; a hole is written as the mark of its key. Filling
in some of the keys puts their values where their holes are. Replacing the marks of these keys in
the text, one key after the other, comes to the same as long as every step finds its mark at the
holes and nowhere else. A value may bring a mark with it, or make one of what stands around it.

* `replace` — all occurrences of a text are replaced, from the left.
* `Genuine` — a mark is written only where the template has a hole.
* `replace_marks` — then replacing it fills in the holes.
* `replaceAll_marks` — the same for one key after the other.
* `stepwise_iff` — every step finds genuine marks in whatever order, exactly if none arises.
* `genuine_mono` — for names in brackets, filling in more makes no mark genuine.
-/

namespace Replacement

variable {α κ : Type}

/-! ## Replacing a text -/

section Text

variable [DecidableEq α]

/-- Replaces a text from the left, after some characters that are passed over. -/
def replaceFrom (old new : List α) : ℕ → List α → List α
  | _, [] => []
  | skip + 1, _ :: text => replaceFrom old new skip text
  | 0, c :: text =>
    if old.isPrefixOf (c :: text) then new ++ replaceFrom old new (old.length - 1) text
    else c :: replaceFrom old new 0 text

/-- All occurrences of a text replaced, from the left; what is put in is not looked into. -/
def replace (old new text : List α) : List α := replaceFrom old new 0 text

variable {old text l : List α}

theorem replaceFrom_length (old new l text : List α) :
    replaceFrom old new l.length (l ++ text) = replace old new text := by
  induction l with
  | nil => rfl
  | cons c l ih => rw [List.length_cons, List.cons_append, replaceFrom, ih]

/-- An occurrence at the front is replaced. -/
theorem replace_append_old (h : old ≠ []) (new text : List α) :
    replace old new (old ++ text) = new ++ replace old new text := by
  obtain ⟨c, rest, rfl⟩ := List.exists_cons_of_ne_nil h
  rw [replace, List.cons_append, replaceFrom, if_pos (by simp)]
  congr 1
  exact replaceFrom_length (c :: rest) new rest text

/-- What no occurrence begins in stays. -/
theorem replace_append_of_none (h : ∀ front back, l = front ++ back → back ≠ [] →
    ¬ old <+: back ++ text) : replace old new (l ++ text) = l ++ replace old new text := by
  induction l with
  | nil => rfl
  | cons c l ih =>
    have hhead : ¬ old <+: c :: (l ++ text) := h [] (c :: l) rfl (by simp)
    rw [replace, List.cons_append, replaceFrom, if_neg (by simpa using hhead), List.cons_append]
    congr 1
    exact ih fun front back hl hback => h (c :: front) back (by simp [hl]) hback

end Text

/-! ## Templates -/

/-- A piece of a template. -/
inductive Token (κ α : Type) : Type where
  | char (c : α)
  | hole (key : κ)

variable (mark : κ → List α)

/-- How a piece is written. -/
def Token.spell : Token κ α → List α
  | .char c => [c]
  | .hole key => mark key

/-- How the pieces are written. -/
def spell (tokens : List (Token κ α)) : List α := tokens.flatMap (Token.spell mark)

/-- The pieces of a text. -/
def chars (text : List α) : List (Token κ α) := text.map .char

/-- A piece with the values of some keys filled in. -/
def Token.fill (values : κ → Option (List α)) : Token κ α → List (Token κ α)
  | .char c => [.char c]
  | .hole key =>
    match values key with
    | some value => chars value
    | none => [.hole key]

/-- The pieces with the values of some keys filled in. -/
def fill (values : κ → Option (List α)) (tokens : List (Token κ α)) : List (Token κ α) :=
  tokens.flatMap (Token.fill values)

variable {mark} {tokens front back : List (Token κ α)} {t : Token κ α} {key : κ}
  {values values' : κ → Option (List α)} {value pre post : List α}

@[simp] theorem spell_nil : spell mark ([] : List (Token κ α)) = [] := rfl

@[simp] theorem spell_cons : spell mark (t :: tokens) = t.spell mark ++ spell mark tokens := rfl

@[simp] theorem spell_append :
    spell mark (front ++ back) = spell mark front ++ spell mark back := by
  simp [spell]

@[simp] theorem spell_chars (text : List α) :
    spell mark (chars text : List (Token κ α)) = text := by
  induction text with
  | nil => rfl
  | cons c text ih => exact congrArg (c :: ·) ih

@[simp] theorem fill_nil : fill values ([] : List (Token κ α)) = [] := rfl

@[simp] theorem fill_cons : fill values (t :: tokens) = t.fill values ++ fill values tokens := rfl

@[simp] theorem fill_append :
    fill values (front ++ back) = fill values front ++ fill values back := by
  simp [fill]

@[simp] theorem fill_chars (text : List α) :
    fill values (chars text : List (Token κ α)) = chars text := by
  induction text with
  | nil => rfl
  | cons c text ih => exact congrArg (Token.char c :: ·) ih

/-- Nothing is filled in without values. -/
@[simp] theorem fill_none (tokens : List (Token κ α)) : fill (fun _ => none) tokens = tokens := by
  induction tokens with
  | nil => rfl
  | cons t tokens ih => cases t <;> simp [Token.fill, ih]

/-- Filling in one after the other is filling in both, the first where both have a value. -/
theorem fill_fill (values values' : κ → Option (List α)) (tokens : List (Token κ α)) :
    fill values' (fill values tokens) = fill (fun key => (values key).or (values' key)) tokens := by
  induction tokens with
  | nil => rfl
  | cons t tokens ih =>
    rw [fill_cons, fill_append, fill_cons, ih]
    cases t with
    | char c => rfl
    | hole key => cases hkey : values key <;> simp [Token.fill, hkey]

/-- Filling in more afterwards is filling in all at once. -/
theorem fill_fill_of_le (h : ∀ key value, values key = some value → values' key = some value)
    (tokens : List (Token κ α)) : fill values' (fill values tokens) = fill values' tokens := by
  rw [fill_fill]
  congr 1
  funext key
  cases hkey : values key with
  | none => rfl
  | some value => rw [h key value hkey, Option.some_or]

/-- A piece that leaves a hole over is that hole. -/
theorem eq_hole_of_fill {filled filled' : List (Token κ α)}
    (h : t.fill values = filled ++ .hole key :: filled') : t = .hole key ∧ filled = [] := by
  have hmem : .hole key ∈ t.fill values := h ▸ by simp
  cases t with
  | char c => simp [Token.fill] at hmem
  | hole key' =>
    cases hkey : values key' with
    | some value => simp [Token.fill, hkey, chars] at hmem
    | none =>
      simp only [Token.fill, hkey] at h
      rcases List.singleton_eq_append_iff.mp h with ⟨hfilled, hhole⟩ | ⟨-, hhole⟩
      · exact ⟨(List.cons.inj hhole).1.symm, hfilled⟩
      · cases hhole

/-- A hole that is left over is a hole of the template. -/
theorem fill_eq_append_hole {filled filled' : List (Token κ α)}
    (h : fill values tokens = filled ++ .hole key :: filled') :
    ∃ front back, tokens = front ++ .hole key :: back ∧ filled = fill values front := by
  induction tokens generalizing filled with
  | nil => simp at h
  | cons t tokens ih =>
    -- the hole is not among what the first piece is filled with, unless it is that piece
    obtain ⟨rfl, hfirst⟩ | ⟨filled, rfl, hrest⟩ : t = .hole key ∧ filled = [] ∨
        ∃ rest, filled = t.fill values ++ rest ∧
          fill values tokens = rest ++ .hole key :: filled' := by
      rw [fill_cons] at h
      rcases List.append_eq_append_iff.mp h with hbehind | ⟨inside, hinside, hover⟩
      · exact .inr hbehind
      · cases inside with
        | nil => exact .inr ⟨[], by simpa using hinside.symm, hover.symm⟩
        | cons t' inside =>
          obtain ⟨rfl, -⟩ := List.cons.inj hover
          exact .inl (eq_hole_of_fill hinside)
    · exact ⟨[], tokens, rfl, hfirst⟩
    · obtain ⟨front, back, rfl, rfl⟩ := ih hrest
      exact ⟨t :: front, back, rfl, rfl⟩

/-! ## Genuine marks -/

/-- The mark of a key is written in a text only where the template has its hole, behind what stands
before it with the values filled in. -/
def Genuine (mark : κ → List α) (tokens : List (Token κ α)) (values : κ → Option (List α)) (key : κ)
    (text : List α) : Prop :=
  ∀ pre post, text = pre ++ (mark key ++ post) →
    ∃ front back, tokens = front ++ .hole key :: back ∧ pre = spell mark (fill values front)

/-- A mark that is found behind the first piece is found in the others. -/
theorem Genuine.behind (hmark : mark key ≠ []) (hkey : values key = none)
    (h : Genuine mark (t :: tokens) values key (spell mark (fill values (t :: tokens)))) :
    Genuine mark tokens values key (spell mark (fill values tokens)) := by
  intro pre post hfound
  obtain ⟨front, back, hsplit, hpre⟩ :=
    h (spell mark (t.fill values) ++ pre) post (by simp [hfound])
  cases front with
  | nil =>
    -- the first piece would be the hole, and its mark would have no characters
    obtain ⟨rfl, -⟩ := List.cons.inj hsplit
    simp [Token.fill, hkey, Token.spell, hmark] at hpre
  | cons t' front =>
    obtain ⟨rfl, rfl⟩ := List.cons.inj hsplit
    refine ⟨front, back, rfl, ?_⟩
    simpa using hpre

/-- No mark begins in the first piece unless that is the hole. -/
theorem Genuine.not_begins {l₁ l₂ : List α} (ht : t ≠ .hole key)
    (h : Genuine mark (t :: tokens) values key (spell mark (fill values (t :: tokens))))
    (hsplit : spell mark (t.fill values) = l₁ ++ l₂) (hl₂ : l₂ ≠ []) :
    ¬ mark key <+: l₂ ++ spell mark (fill values tokens) := by
  rintro ⟨post, hpost⟩
  obtain ⟨front, back, hfront, hl₁⟩ := h l₁ post (by simp [hsplit, hpost])
  cases front with
  | nil => exact ht (List.cons.inj hfront).1
  | cons t' front =>
    obtain ⟨rfl, -⟩ := List.cons.inj hfront
    rw [hl₁] at hsplit
    have hlength := congrArg List.length hsplit
    have hpos := List.length_pos_of_ne_nil hl₂
    simp only [fill_cons, spell_append, List.length_append] at hlength
    omega

variable [DecidableEq κ]

/-- The value of one key. -/
def single (key : κ) (value : List α) : κ → Option (List α) :=
  fun key' => if key' = key then some value else none

/-- A piece that is not the hole stays as it is. -/
theorem fill_or_single_of_ne (ht : t ≠ .hole key) :
    t.fill (fun key' => (values key').or (single key value key')) = t.fill values := by
  cases t with
  | char c => rfl
  | hole key' =>
    have hne : key' ≠ key := fun heq => ht (by rw [heq])
    simp [Token.fill, single, hne]

section Steps

variable [DecidableEq α]

/-- **Replacing a genuine mark** fills in its holes. -/
theorem replace_marks (hmark : mark key ≠ []) (hkey : values key = none)
    (h : Genuine mark tokens values key (spell mark (fill values tokens))) (value : List α) :
    replace (mark key) value (spell mark (fill values tokens)) =
      spell mark (fill (fun key' => (values key').or (single key value key')) tokens) := by
  induction tokens with
  | nil => rfl
  | cons t tokens ih =>
    have hrest := ih (h.behind hmark hkey)
    by_cases ht : t = .hole key
    · subst ht
      have hold : spell mark (Token.fill values (.hole key)) = mark key := by
        simp [Token.fill, hkey, Token.spell]
      have hnew : Token.fill (fun key' => (values key').or (single key value key')) (.hole key) =
          chars value := by
        simp [Token.fill, hkey, single]
      rw [fill_cons, spell_append, hold, replace_append_old hmark, hrest, fill_cons, hnew,
        spell_append, spell_chars]
    · rw [fill_cons, spell_append, replace_append_of_none fun front back hsplit hback =>
        h.not_begins ht hsplit hback, hrest, fill_cons, spell_append, fill_or_single_of_ne ht]

/-! ## One key after the other -/

/-- The marks of some keys replaced by their values, one key after the other. -/
def replaceAll (mark : κ → List α) (passed : List (κ × List α)) (text : List α) : List α :=
  passed.foldl (fun text e => replace (mark e.1) e.2 text) text

omit [DecidableEq α] in
/-- The values of some keys. -/
def valuesOf (passed : List (κ × List α)) : κ → Option (List α) :=
  fun key => (passed.find? fun e => e.1 = key).map Prod.snd

variable {passed entries : List (κ × List α)}

omit [DecidableEq κ] in
theorem replaceAll_concat (mark : κ → List α) (passed : List (κ × List α)) (key : κ)
    (value text : List α) : replaceAll mark (passed ++ [(key, value)]) text =
      replace (mark key) value (replaceAll mark passed text) := by
  simp [replaceAll]

omit [DecidableEq α] in
theorem valuesOf_concat (passed : List (κ × List α)) (key : κ) (value : List α) :
    valuesOf (passed ++ [(key, value)]) =
      fun key' => (valuesOf passed key').or (single key value key') := by
  funext key'
  rw [valuesOf, List.find?_append, Option.map_or]
  by_cases hkey : key = key'
  · simp [valuesOf, single, hkey]
  · simp [valuesOf, single, hkey, Ne.symm hkey]

omit [DecidableEq α] in
theorem valuesOf_eq_none (h : key ∉ passed.map Prod.fst) : valuesOf passed key = none := by
  rw [valuesOf, Option.map_eq_none_iff, List.find?_eq_none]
  intro e he hkey
  exact h (List.mem_map.mpr ⟨e, he, by simpa using hkey⟩)

/-- **Replacing the marks** of some keys one after the other fills in their holes, if each step
finds genuine marks. -/
theorem replaceAll_marks (hmark : ∀ key, mark key ≠ []) (hnodup : (passed.map Prod.fst).Nodup)
    (h : ∀ front key value back, passed = front ++ (key, value) :: back →
      replaceAll mark front (spell mark tokens) = spell mark (fill (valuesOf front) tokens) →
        Genuine mark tokens (valuesOf front) key (spell mark (fill (valuesOf front) tokens))) :
    replaceAll mark passed (spell mark tokens) = spell mark (fill (valuesOf passed) tokens) := by
  induction passed using List.reverseRecOn with
  | nil =>
    have hnone : valuesOf ([] : List (κ × List α)) = fun _ => none := rfl
    rw [hnone, fill_none]
    rfl
  | append_singleton passed e ih =>
    obtain ⟨key, value⟩ := e
    rw [List.map_append, List.nodup_append] at hnodup
    have hbefore := ih hnodup.1 fun front key' value' back hsplit =>
      h front key' value' (back ++ [(key, value)]) (by simp [hsplit])
    have hkey : valuesOf passed key = none :=
      valuesOf_eq_none fun hmem => hnodup.2.2 key hmem key (by simp) rfl
    rw [replaceAll_concat, hbefore, valuesOf_concat]
    exact replace_marks (hmark key) hkey (h passed key value [] rfl hbefore) value

/-! ## In whatever order -/

/-- The values of the keys of a set. -/
def restrict (values : κ → Option (List α)) (passed : Finset κ) : κ → Option (List α) :=
  fun key => if key ∈ passed then values key else none

/-- In whatever order the keys are passed, each step finds genuine marks. -/
def Stepwise (mark : κ → List α) (tokens : List (Token κ α)) (entries : List (κ × List α)) : Prop :=
  ∀ front key value back, (front ++ (key, value) :: back).Perm entries →
    Genuine mark tokens (valuesOf front) key (replaceAll mark front (spell mark tokens))

/-- Whichever of the keys have been filled in, the mark of another one is genuine. -/
def NoneArises (mark : κ → List α) (tokens : List (Token κ α)) (entries : List (κ × List α)) :
    Prop :=
  ∀ passed key, key ∈ entries.map Prod.fst → key ∉ passed →
    Genuine mark tokens (restrict (valuesOf entries) passed) key
      (spell mark (fill (restrict (valuesOf entries) passed) tokens))

section Orders

variable {order rest : List (κ × List α)} (hmark : ∀ key, mark key ≠ [])
  (hnodup : (entries.map Prod.fst).Nodup)
include hnodup

omit [DecidableEq κ] [DecidableEq α] in
theorem nodup_front (hperm : (passed ++ rest).Perm entries) : (passed.map Prod.fst).Nodup := by
  have hall := (hperm.map Prod.fst).nodup_iff.mpr hnodup
  rw [List.map_append] at hall
  exact (List.nodup_append.mp hall).1

omit [DecidableEq α] in
/-- The key that is passed next is one of the keys, and has not been passed. -/
theorem next_key (hperm : (passed ++ (key, value) :: rest).Perm entries) :
    key ∈ entries.map Prod.fst ∧ key ∉ (passed.map Prod.fst).toFinset := by
  have hall := (hperm.map Prod.fst).nodup_iff.mpr hnodup
  rw [List.map_append, List.map_cons, List.nodup_append] at hall
  refine ⟨(hperm.map Prod.fst).mem_iff.mp (by simp), fun hmem => ?_⟩
  exact hall.2.2 key (List.mem_toFinset.mp hmem) key (by simp) rfl

omit [DecidableEq α] in
theorem valuesOf_eq_some_iff : valuesOf entries key = some value ↔ (key, value) ∈ entries :=
  OrderedDict.get?_eq_some_iff (d := ⟨entries, hnodup⟩)

omit [DecidableEq α] in
/-- The keys passed first have their values, and the others none. -/
theorem valuesOf_front (hperm : (passed ++ rest).Perm entries) :
    valuesOf passed = restrict (valuesOf entries) (passed.map Prod.fst).toFinset := by
  funext key
  ext value
  rw [valuesOf_eq_some_iff (nodup_front hnodup hperm), restrict]
  constructor
  · intro hmem
    have hkey : key ∈ (passed.map Prod.fst).toFinset := by
      simpa using ⟨value, hmem⟩
    rw [if_pos hkey, valuesOf_eq_some_iff hnodup]
    exact hperm.mem_iff.mp (List.mem_append_left _ hmem)
  · intro hvalue
    split at hvalue
    · rename_i hkey
      obtain ⟨⟨key', value'⟩, hmem, rfl⟩ := List.mem_map.mp (List.mem_toFinset.mp hkey)
      have hmem' := hperm.mem_iff.mp (List.mem_append_left rest hmem)
      rw [(valuesOf_eq_some_iff hnodup).mpr hmem'] at hvalue
      obtain rfl := Option.some.inj hvalue
      exact hmem
    · cases hvalue

include hmark

/-- If no mark arises, the keys passed first are filled in. -/
theorem NoneArises.replaceAll_front (h : NoneArises mark tokens entries)
    (hperm : (passed ++ rest).Perm entries) :
    replaceAll mark passed (spell mark tokens) = spell mark (fill (valuesOf passed) tokens) := by
  refine replaceAll_marks hmark (nodup_front hnodup hperm) ?_
  rintro front key value back rfl -
  rw [List.append_assoc, List.cons_append] at hperm
  rw [valuesOf_front hnodup hperm]
  obtain ⟨hkey, hnot⟩ := next_key hnodup hperm
  exact h _ key hkey hnot

/-- **In whatever order** the keys are passed, replacing their marks fills in their holes, if no
mark arises. -/
theorem NoneArises.replaceAll_eq (h : NoneArises mark tokens entries) (hperm : order.Perm entries) :
    replaceAll mark order (spell mark tokens) = spell mark (fill (valuesOf entries) tokens) := by
  have hall : (order ++ []).Perm entries := by simpa using hperm
  rw [h.replaceAll_front hmark hnodup hall]
  have hvalues : valuesOf order = valuesOf entries := by
    funext key
    ext value
    rw [valuesOf_eq_some_iff ((hperm.map _).nodup_iff.mpr hnodup), valuesOf_eq_some_iff hnodup,
      hperm.mem_iff]
  rw [hvalues]

omit [DecidableEq α] hmark in
/-- The keys of a set can be passed first, and another key next. -/
theorem exists_order {set : Finset κ} (hkey : key ∈ entries.map Prod.fst) (hnot : key ∉ set) :
    ∃ front value back, (front ++ (key, value) :: back).Perm entries ∧
      valuesOf front = restrict (valuesOf entries) set := by
  obtain ⟨⟨key, value⟩, hmem, rfl⟩ := List.mem_map.mp hkey
  have hrest : (key, value) ∈ entries.filter fun e => !decide (e.1 ∈ set) := by
    simpa using ⟨hmem, hnot⟩
  obtain ⟨before, after, hbehind⟩ := List.append_of_mem hrest
  have hperm : (entries.filter (fun e => decide (e.1 ∈ set)) ++
      (key, value) :: (before ++ after)).Perm entries := by
    have hsplit := List.filter_append_perm (fun e => decide (e.1 ∈ set)) entries
    refine List.Perm.trans (List.Perm.append_left _ ?_) hsplit
    rw [hbehind]
    exact List.perm_middle.symm
  refine ⟨_, value, before ++ after, hperm, ?_⟩
  funext key'
  ext value'
  rw [valuesOf_eq_some_iff (nodup_front hnodup hperm), List.mem_filter, restrict]
  by_cases hin : key' ∈ set
  · simp [hin, valuesOf_eq_some_iff hnodup]
  · simp [hin]

/-- If each step finds genuine marks, the keys passed first are filled in. -/
theorem Stepwise.replaceAll_front (h : Stepwise mark tokens entries)
    (hperm : (passed ++ rest).Perm entries) :
    replaceAll mark passed (spell mark tokens) = spell mark (fill (valuesOf passed) tokens) := by
  refine replaceAll_marks hmark (nodup_front hnodup hperm) ?_
  rintro front key value back rfl hbefore
  rw [List.append_assoc, List.cons_append] at hperm
  rw [← hbefore]
  exact h front key value _ hperm

/-- **Each step** finds genuine marks in whatever order, exactly if no mark arises. -/
theorem stepwise_iff : Stepwise mark tokens entries ↔ NoneArises mark tokens entries := by
  constructor
  · intro h passed key hkey hnot
    obtain ⟨front, value, back, hperm, hvalues⟩ := exists_order hnodup hkey hnot
    have hgenuine := h front key value back hperm
    rwa [h.replaceAll_front hmark hnodup hperm, hvalues] at hgenuine
  · intro h front key value back hperm
    rw [h.replaceAll_front hmark hnodup hperm, valuesOf_front hnodup hperm]
    obtain ⟨hkey, hnot⟩ := next_key hnodup hperm
    exact h _ key hkey hnot

end Orders

/-! ## Reading a template -/

/-- The pieces of a template, after some characters that are passed over. -/
def parseFrom (mark : κ → List α) (keys : List κ) : ℕ → List α → List (Token κ α)
  | _, [] => []
  | skip + 1, _ :: text => parseFrom mark keys skip text
  | 0, c :: text =>
    match keys.find? fun key => (mark key).isPrefixOf (c :: text) with
    | some key => .hole key :: parseFrom mark keys ((mark key).length - 1) text
    | none => .char c :: parseFrom mark keys 0 text

/-- The pieces of a template, read from the left: the marks of the keys are holes. -/
def parse (mark : κ → List α) (keys : List κ) (text : List α) : List (Token κ α) :=
  parseFrom mark keys 0 text

variable {keys : List κ} {text : List α} {c : α}

omit [DecidableEq κ] in
theorem parseFrom_length (mark : κ → List α) (keys : List κ) (l text : List α) :
    parseFrom mark keys l.length (l ++ text) = parse mark keys text := by
  induction l with
  | nil => rfl
  | cons c l ih => rw [List.length_cons, List.cons_append, parseFrom, ih]

omit [DecidableEq κ] in
/-- A template begins with a hole, or with a character at which no mark begins. -/
theorem parse_cases (hmark : ∀ key, mark key ≠ []) (keys : List κ) (c : α) (text : List α) :
    (∃ key ∈ keys, ∃ rest, c :: text = mark key ++ rest ∧
      parse mark keys (c :: text) = .hole key :: parse mark keys rest) ∨
    (∀ key ∈ keys, ¬ mark key <+: c :: text) ∧
      parse mark keys (c :: text) = .char c :: parse mark keys text := by
  rw [parse, parseFrom]
  cases hfind : keys.find? fun key => (mark key).isPrefixOf (c :: text) with
  | none =>
    refine .inr ⟨fun key hkey hprefix => ?_, rfl⟩
    have hnot := List.find?_eq_none.mp hfind key hkey
    exact hnot (by simpa using hprefix)
  | some key =>
    obtain ⟨rest, hrest⟩ : mark key <+: c :: text := by
      simpa using List.find?_some hfind
    obtain ⟨d, name, hname⟩ := List.exists_cons_of_ne_nil (hmark key)
    rw [hname, List.cons_append] at hrest
    obtain ⟨rfl, rfl⟩ := List.cons.inj hrest
    refine .inl ⟨key, List.mem_of_find?_eq_some hfind, rest, by rw [hname, List.cons_append], ?_⟩
    simp only [hname, List.length_cons, Nat.add_sub_cancel, parseFrom_length]

omit [DecidableEq κ] in
/-- What holds of the pieces of a template holds if every piece in front keeps it. -/
theorem parse_induction (hmark : ∀ key, mark key ≠ []) (keys : List κ)
    {motive : List α → List (Token κ α) → Prop} (nil : motive [] [])
    (hole : ∀ key ∈ keys, ∀ rest, motive rest (parse mark keys rest) →
      motive (mark key ++ rest) (.hole key :: parse mark keys rest))
    (char : ∀ c text, (∀ key ∈ keys, ¬ mark key <+: c :: text) →
      motive text (parse mark keys text) → motive (c :: text) (.char c :: parse mark keys text))
    (text : List α) : motive text (parse mark keys text) := by
  induction hlength : text.length using Nat.strongRecOn generalizing text with
  | ind n ih =>
    cases text with
    | nil => exact nil
    | cons c text =>
      rcases parse_cases hmark keys c text with ⟨key, hkey, rest, htext, hparse⟩ | ⟨hnone, hparse⟩
      · have hpos := List.length_pos_of_ne_nil (hmark key)
        have hshort : rest.length < n := by
          rw [← hlength, htext, List.length_append]
          omega
        rw [hparse, htext]
        exact hole key hkey rest (ih _ hshort rest rfl)
      · rw [hparse]
        exact char c text hnone (ih _ (by simp [← hlength]) text rfl)

omit [DecidableEq κ] in
/-- **Reading** a template changes nothing in how it is written. -/
theorem spell_parse (hmark : ∀ key, mark key ≠ []) (keys : List κ) (text : List α) :
    spell mark (parse mark keys text) = text := by
  refine parse_induction hmark keys (motive := fun text tokens => spell mark tokens = text) rfl
    (fun key _ rest ih => ?_) (fun c text _ ih => ?_) text
  · rw [spell_cons, ih]
    rfl
  · rw [spell_cons, ih]
    rfl

omit [DecidableEq κ] in
/-- The holes are those of the keys. -/
theorem mem_keys_of_hole (hmark : ∀ key, mark key ≠ []) (text : List α) :
    ∀ key, .hole key ∈ parse mark keys text → key ∈ keys := by
  refine parse_induction hmark keys
    (motive := fun _ tokens => ∀ key, .hole key ∈ tokens → key ∈ keys) (by simp)
    (fun key' hkey' rest ih key hmem => ?_) (fun c text _ ih key hmem => ?_) text
  · rcases List.mem_cons.mp hmem with heq | hmem
    · cases heq
      exact hkey'
    · exact ih key hmem
  · rcases List.mem_cons.mp hmem with heq | hmem
    · cases heq
    · exact ih key hmem

omit [DecidableEq κ] in
/-- No mark begins at a piece that is a character. -/
theorem not_begins_of_char (hmark : ∀ key, mark key ≠ []) (hkey : key ∈ keys) (text : List α) :
    ∀ front c back, parse mark keys text = front ++ .char c :: back →
      ¬ mark key <+: c :: spell mark back := by
  refine parse_induction hmark keys (motive := fun _ tokens => ∀ front c back,
      tokens = front ++ .char c :: back → ¬ mark key <+: c :: spell mark back) (by simp)
    (fun key' _ rest ih front c back hsplit => ?_)
    (fun d text hnone ih front c back hsplit => ?_) text
  · cases front with
    | nil => simp at hsplit
    | cons t front => exact ih front c back (List.cons.inj hsplit).2
  · cases front with
    | nil =>
      obtain ⟨heq, rfl⟩ := List.cons.inj hsplit
      obtain rfl : d = c := by simpa using heq
      rw [spell_parse hmark]
      exact hnone key hkey
    | cons t front => exact ih front c back (List.cons.inj hsplit).2

end Steps

/-! ## Marks in brackets -/

section Brackets

variable {opening closing : α} {name : κ → List α} {text run l l' : List α}

/-- A name in brackets. -/
def bracketed (opening closing : α) (name : κ → List α) (key : κ) : List α :=
  opening :: (name key ++ [closing])

omit [DecidableEq κ] in
theorem bracketed_ne_nil (key : κ) : bracketed opening closing name key ≠ [] :=
  List.cons_ne_nil _ _

/-- The brackets are no part of the name. -/
def Plain (opening closing : α) (name : κ → List α) (key : κ) : Prop :=
  opening ∉ name key ∧ closing ∉ name key

/-- What stands before the first closing bracket is determined. -/
theorem eq_of_append_closing (hl : closing ∉ l) (hl' : closing ∉ l')
    (h : l ++ closing :: text = l' ++ closing :: post) : l = l' := by
  induction l generalizing l' with
  | nil =>
    cases l' with
    | nil => rfl
    | cons c l' => exact absurd (List.cons.inj h).1 (List.ne_of_not_mem_cons hl')
  | cons c l ih =>
    cases l' with
    | nil => exact absurd (List.cons.inj h).1.symm (List.ne_of_not_mem_cons hl)
    | cons c' l' =>
      obtain ⟨rfl, hrest⟩ := List.cons.inj h
      rw [ih (List.not_mem_of_not_mem_cons hl) (List.not_mem_of_not_mem_cons hl') hrest]

omit [DecidableEq κ] in
/-- A run of characters without an opening bracket stands in no hole. -/
theorem exists_chars_of_run (hrun : opening ∉ run)
    (h : spell (bracketed opening closing name) tokens = run ++ text) :
    ∃ rest, tokens = chars run ++ rest := by
  induction run generalizing tokens with
  | nil => exact ⟨tokens, rfl⟩
  | cons c run ih =>
    cases tokens with
    | nil => simp at h
    | cons t tokens =>
      cases t with
      | char d =>
        obtain ⟨rfl, htext⟩ := List.cons.inj h
        obtain ⟨rest, rfl⟩ := ih (List.not_mem_of_not_mem_cons hrun) htext
        exact ⟨rest, rfl⟩
      | hole key' => exact absurd (List.cons.inj h).1 (List.ne_of_not_mem_cons hrun)

/-- What begins with a bracket that a run of characters does not have begins behind the run. -/
theorem exists_behind_run (hrun : opening ∉ run) (h : run ++ text = pre ++ opening :: post) :
    ∃ pre', pre = run ++ pre' ∧ text = pre' ++ opening :: post := by
  rcases List.append_eq_append_iff.mp h with hafter | ⟨inside, rfl, hover⟩
  · exact hafter
  · cases inside with
    | nil => exact ⟨[], by simp, hover.symm⟩
    | cons c inside =>
      obtain ⟨rfl, -⟩ := List.cons.inj hover
      exact absurd (by simp) hrun

omit [DecidableEq κ] in
/-- **Where a mark is written**, there is its hole or a run of characters. -/
theorem exists_hole_or_chars (hne : opening ≠ closing) (hname : Function.Injective name)
    (hkey : Plain opening closing name key)
    (hplain : ∀ key', .hole key' ∈ tokens → Plain opening closing name key')
    (h : spell (bracketed opening closing name) tokens =
      pre ++ (bracketed opening closing name key ++ post)) :
    ∃ front back, pre = spell (bracketed opening closing name) front ∧
      (tokens = front ++ .hole key :: back ∨
        tokens = front ++ (chars (bracketed opening closing name key) ++ back)) := by
  induction tokens generalizing pre with
  | nil => simp [bracketed] at h
  | cons t tokens ih =>
    have hrest := fun key' hmem => hplain key' (List.mem_cons_of_mem t hmem)
    cases t with
    | char c =>
      cases pre with
      | nil =>
        obtain ⟨rfl, htext⟩ := List.cons.inj h
        rw [List.append_eq] at htext
        have hrun : c ∉ name key ++ [closing] := by
          simpa using ⟨hkey.1, hne⟩
        obtain ⟨back, rfl⟩ := exists_chars_of_run hrun htext
        exact ⟨[], back, rfl, .inr rfl⟩
      | cons d pre =>
        obtain ⟨rfl, htext⟩ := List.cons.inj h
        obtain ⟨front, back, rfl, hsplit⟩ := ih hrest htext
        refine ⟨.char c :: front, back, rfl, ?_⟩
        exact hsplit.imp (congrArg (Token.char c :: ·)) (congrArg (Token.char c :: ·))
    | hole key' =>
      have hkey' := hplain key' List.mem_cons_self
      cases pre with
      | nil =>
        have htext := (List.cons.inj h).2
        simp only [List.append_eq, List.append_assoc, List.singleton_append] at htext
        obtain rfl := hname (eq_of_append_closing hkey'.2 hkey.2 htext)
        exact ⟨[], tokens, rfl, .inl rfl⟩
      | cons d pre =>
        obtain ⟨rfl, htext⟩ := List.cons.inj h
        have hrun : opening ∉ name key' ++ [closing] := by
          simpa using ⟨hkey'.1, hne⟩
        -- the mark that is found begins behind the hole
        obtain ⟨pre', rfl, hbehind⟩ := exists_behind_run hrun htext
        obtain ⟨front, back, rfl, hsplit⟩ := ih hrest hbehind
        refine ⟨.hole key' :: front, back, rfl, ?_⟩
        exact hsplit.imp (congrArg (Token.hole key' :: ·)) (congrArg (Token.hole key' :: ·))

omit [DecidableEq κ] in
/-- Behind what is written the same, there is the same piece. -/
theorem eq_of_spell_fill_eq {mark : κ → List α} {front' back' : List (Token κ α)} {t' : Token κ α}
    (h : front ++ t :: back = front' ++ t' :: back') (ht : spell mark (t.fill values) ≠ [])
    (ht' : spell mark (t'.fill values) ≠ [])
    (hspell : spell mark (fill values front) = spell mark (fill values front')) : t = t' := by
  rcases List.append_eq_append_iff.mp h with ⟨between, rfl, hbetween⟩ | ⟨between, rfl, hbetween⟩
  · cases between with
    | nil => exact (List.cons.inj hbetween).1
    | cons t₀ between =>
      obtain ⟨rfl, -⟩ := List.cons.inj hbetween
      simp [ht] at hspell
  · cases between with
    | nil => exact (List.cons.inj hbetween).1.symm
    | cons t₀ between =>
      obtain ⟨rfl, -⟩ := List.cons.inj hbetween
      simp [ht'] at hspell

section Plain

variable (hne : opening ≠ closing) (hname : Function.Injective name)
  (hkey : Plain opening closing name key)
include hne hname hkey
omit [DecidableEq κ]

/-- **In a template** as it is read, every mark is genuine. -/
theorem genuine_parse [DecidableEq α] {keys : List κ} (hmem : key ∈ keys)
    (hplain : ∀ key ∈ keys, Plain opening closing name key) (text : List α) :
    Genuine (bracketed opening closing name) (parse (bracketed opening closing name) keys text)
      (fun _ => none) key text := by
  intro pre post hfound
  have hspell : spell (bracketed opening closing name)
      (parse (bracketed opening closing name) keys text) = text :=
    spell_parse bracketed_ne_nil keys text
  obtain ⟨front, back, rfl, hhole | hchars⟩ := exists_hole_or_chars hne hname hkey
    (fun key' hkey' => hplain key' (mem_keys_of_hole bracketed_ne_nil text key' hkey'))
    (hspell.trans hfound)
  · exact ⟨front, back, hhole, by rw [fill_none]⟩
  · -- the mark would begin at a piece that is a character
    refine absurd ?_ (not_begins_of_char bracketed_ne_nil hmem text front opening _ hchars)
    have hback : spell (bracketed opening closing name)
        (chars (bracketed opening closing name key) ++ back) =
          bracketed opening closing name key ++ spell (bracketed opening closing name) back := by
      rw [spell_append, spell_chars]
    exact ⟨_, hback.symm⟩

/-- **Filling in more** makes no mark genuine. -/
theorem genuine_mono (hplain : ∀ key', .hole key' ∈ tokens → Plain opening closing name key')
    (hvalues : ∀ key value, values key = some value → values' key = some value)
    (hnone : values' key = none)
    (h : Genuine (bracketed opening closing name) tokens values' key
      (spell (bracketed opening closing name) (fill values' tokens))) :
    Genuine (bracketed opening closing name) tokens values key
      (spell (bracketed opening closing name) (fill values tokens)) := by
  intro pre post hfound
  have hholes : ∀ key', .hole key' ∈ fill values tokens → Plain opening closing name key' := by
    intro key' hmem
    obtain ⟨filled, filled', hsplit⟩ := List.append_of_mem hmem
    obtain ⟨front, back, rfl, -⟩ := fill_eq_append_hole hsplit
    exact hplain key' (by simp)
  obtain ⟨filled, filled', rfl, hhole | hchars⟩ := exists_hole_or_chars hne hname hkey hholes hfound
  · obtain ⟨front, back, htokens, rfl⟩ := fill_eq_append_hole hhole
    exact ⟨front, back, htokens, rfl⟩
  · -- the characters of the mark stay when more is filled in
    have hmore := fill_fill_of_le hvalues tokens
    rw [hchars, fill_append, fill_append, fill_chars] at hmore
    obtain ⟨front, back, rfl, hpre⟩ := h _ (spell _ (fill values' filled')) (by
      rw [← hmore, spell_append, spell_append, spell_chars])
    have hkey' : values key = none := by
      cases hvalue : values key with
      | none => rfl
      | some value => exact hnone ▸ (hvalues key value hvalue).symm
    rw [fill_append, fill_cons] at hchars
    simp only [Token.fill, hkey'] at hchars
    rw [← fill_fill_of_le hvalues front] at hpre
    have hsame := eq_of_spell_fill_eq hchars (by simp [Token.fill, hnone, Token.spell, bracketed])
      (by simp [Token.fill, Token.spell]) hpre.symm
    cases hsame

end Plain

/-- Nothing is filled in for no key. -/
theorem restrict_empty (values : κ → Option (List α)) : restrict values ∅ = fun _ => none := by
  funext key
  simp [restrict]

/-- For keys with plain names, **no mark arises** exactly if the mark of each key is genuine when
all the others have been filled in. -/
theorem noneArises_iff_of_plain {entries : List (κ × List α)} (hne : opening ≠ closing)
    (hname : Function.Injective name)
    (hkeys : ∀ key ∈ entries.map Prod.fst, Plain opening closing name key)
    (hplain : ∀ key, .hole key ∈ tokens → Plain opening closing name key) :
    NoneArises (bracketed opening closing name) tokens entries ↔
      ∀ key ∈ entries.map Prod.fst, Genuine (bracketed opening closing name) tokens
        (restrict (valuesOf entries) ((entries.map Prod.fst).toFinset.erase key)) key
        (spell (bracketed opening closing name) (fill
          (restrict (valuesOf entries) ((entries.map Prod.fst).toFinset.erase key)) tokens)) := by
  constructor
  · intro h key hkey
    exact h _ key hkey (Finset.notMem_erase key _)
  · intro h passed key hkey hnot
    refine genuine_mono hne hname (hkeys key hkey) hplain (fun key' value hvalue => ?_)
      (by simp [restrict]) (h key hkey)
    rw [restrict] at hvalue ⊢
    split at hvalue
    · rename_i hpassed
      have hmem : key' ∈ entries.map Prod.fst := by
        by_contra hout
        rw [valuesOf_eq_none hout] at hvalue
        cases hvalue
      have hne' : key' ≠ key := by
        rintro rfl
        exact hnot hpassed
      rw [if_pos (Finset.mem_erase.mpr ⟨hne', List.mem_toFinset.mpr hmem⟩)]
      exact hvalue
    · cases hvalue

/-- **One key** with a plain name: no mark arises in a template, whatever the value. -/
theorem noneArises_singleton [DecidableEq α] (hne : opening ≠ closing)
    (hname : Function.Injective name) (hkey : Plain opening closing name key)
    (value text : List α) : NoneArises (bracketed opening closing name)
      (parse (bracketed opening closing name) [key] text) [(key, value)] := by
  have hkeys : ∀ key' ∈ [key], Plain opening closing name key' := by simpa using hkey
  refine (noneArises_iff_of_plain hne hname (by simpa using hkey) fun key' hmem =>
    hkeys key' (mem_keys_of_hole bracketed_ne_nil text key' hmem)).mpr fun key' hmem => ?_
  obtain rfl : key' = key := by simpa using hmem
  have hothers : ([(key', value)].map Prod.fst).toFinset.erase key' = ∅ := by simp
  rw [hothers, restrict_empty, fill_none, spell_parse bracketed_ne_nil]
  exact genuine_parse hne hname hkey List.mem_cons_self hkeys text

end Brackets

end Replacement
