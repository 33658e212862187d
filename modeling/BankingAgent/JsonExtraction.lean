import BankingAgent.JsonDumps
import BankingAgent.Orchestration
import BankingAgent.Recording
import Mathlib.Data.List.DropRight

/-!
# `_extract_json_block` and `_extract_json`

The two look for a fence first, and only then for braces. A fence may also stand in a string of the
object itself, and then what is between is taken for the answer.

* `extract_keeps_iff` — a rendering with text around it, bare or in a fence, is extracted as what it
  was, exactly if its strings do not make a block: two fences where it is bare, and one in a fence.
-/

namespace BankingAgent

/-! ## Fences -/

section Split

variable {α : Type} {x : α} {m p q s : List α}

/-- What begins with a character that is not in front is found behind. -/
theorem infix_of_append_left (hp : x ∉ p) (h : x :: m <:+: p ++ q) : x :: m <:+: q := by
  induction p with
  | nil => exact h
  | cons y p ih =>
    obtain ⟨hxy, hp⟩ := not_or.mp (mt List.mem_cons.mpr hp)
    rw [List.cons_append, List.infix_cons_iff, List.cons_prefix_cons] at h
    exact ih hp (h.resolve_left fun hprefix => hxy hprefix.1)

/-- What begins and ends with a character that is only in the middle is found there. -/
theorem infix_of_append_middle (hhead : m.head? = some x) (hlast : m.getLast? = some x)
    (hp : x ∉ p) (hq : x ∉ q) (h : m <:+: p ++ s ++ q) : m <:+: s := by
  obtain ⟨tail, rfl⟩ := List.head?_eq_some_iff.mp hhead
  rw [List.append_assoc] at h
  have hback := infix_of_append_left hp h
  -- the same from the other end
  obtain ⟨init, hinit⟩ := List.getLast?_eq_some_iff.mp hlast
  rw [hinit, ← List.reverse_infix] at hback ⊢
  simp only [List.reverse_append, List.reverse_singleton, List.singleton_append] at hback ⊢
  exact infix_of_append_left (by simpa using hq) hback

end Split

section Fence

variable {sep s t a b : List Char} {c : Char}

theorem splitFirst_sound (h : splitFirst sep t = some (a, b)) : t = a ++ sep ++ b := by
  induction t generalizing a with
  | nil =>
    rw [splitFirst] at h
    split at h
    · next hempty =>
      obtain ⟨rfl, rfl⟩ := Prod.mk.inj (Option.some.inj h)
      simpa using hempty
    · cases h
  | cons c t ih =>
    rw [splitFirst] at h
    split at h
    · next hprefix =>
      obtain ⟨rfl, rfl⟩ := Prod.mk.inj (Option.some.inj h)
      exact (List.prefix_iff_eq_append.mp (List.isPrefixOf_iff_prefix.mp hprefix)).symm
    · obtain ⟨parts, hparts, heq⟩ := Option.map_eq_some_iff.mp h
      obtain ⟨rfl, rfl⟩ := Prod.mk.inj heq
      rw [List.cons_append, List.cons_append, ← ih hparts]

/-- What is there is found. -/
theorem exists_splitFirst (h : sep <:+: t) : ∃ a b, splitFirst sep t = some (a, b) := by
  induction t with
  | nil =>
    obtain rfl := List.infix_nil.mp h
    exact ⟨[], [], rfl⟩
  | cons c t ih =>
    rw [splitFirst]
    split
    · exact ⟨_, _, rfl⟩
    · next hprefix =>
      rw [List.isPrefixOf_iff_prefix] at hprefix
      obtain ⟨a, b, hab⟩ := ih ((List.infix_cons_iff.mp h).resolve_left hprefix)
      exact ⟨c :: a, b, by rw [hab]; rfl⟩

/-- What has been found is still found first if more comes behind. -/
theorem splitFirst_append_right (hsep : sep ≠ []) (h : splitFirst sep s = some (a, b)) :
    splitFirst sep (s ++ t) = some (a, b ++ t) := by
  induction s generalizing a with
  | nil =>
    rw [splitFirst, if_neg (by simpa using hsep)] at h
    cases h
  | cons c s ih =>
    rw [List.cons_append, splitFirst]
    rw [splitFirst] at h
    split at h
    · next hprefix =>
      obtain ⟨rfl, rfl⟩ := Prod.mk.inj (Option.some.inj h)
      rw [List.isPrefixOf_iff_prefix] at hprefix
      have hlonger : sep <+: c :: (s ++ t) := hprefix.trans (List.prefix_append (c :: s) t)
      rw [if_pos (List.isPrefixOf_iff_prefix.mpr hlonger), ← List.cons_append,
        List.drop_append_of_le_length hprefix.length_le]
    · next hprefix =>
      obtain ⟨parts, hparts, heq⟩ := Option.map_eq_some_iff.mp h
      obtain ⟨rfl, rfl⟩ := Prod.mk.inj heq
      -- the separator is no longer than what is left, so it cannot reach beyond it
      have hlength : sep.length ≤ (c :: s).length := by
        rw [splitFirst_sound hparts]
        simp only [List.length_cons, List.length_append]
        omega
      have hnot : ¬ sep.isPrefixOf (c :: (s ++ t)) = true := by
        rw [List.isPrefixOf_iff_prefix] at hprefix ⊢
        exact fun hpre => hprefix (List.prefix_of_prefix_length_le hpre
          (List.prefix_append (c :: s) t) hlength)
      rw [if_neg hnot, ih hparts]
      rfl

/-- Text without the first character of the separator is passed. -/
theorem splitFirst_append_left (hs : c ∉ s) : splitFirst (c :: sep) (s ++ t) =
    (splitFirst (c :: sep) t).map fun parts => (s ++ parts.1, parts.2) := by
  induction s with
  | nil => simp
  | cons d s ih =>
    obtain ⟨hcd, hs⟩ := not_or.mp (mt List.mem_cons.mpr hs)
    rw [List.cons_append, splitFirst, if_neg (by simp [hcd]), ih hs, Option.map_map]
    rfl

theorem codeFence_eq : codeFence = [backtick, backtick, backtick] := rfl

/-- A fence behind a text that has none, and does not end in a backtick, is found there. -/
theorem splitFirst_codeFence (hnone : ¬ codeFence <:+: s) (hlast : s.getLast? ≠ some backtick) :
    splitFirst codeFence (s ++ (codeFence ++ t)) = some (s, t) := by
  induction s with
  | nil => rfl
  | cons c s ih =>
    have hnot : ¬ codeFence <+: c :: (s ++ (codeFence ++ t)) := by
      intro hprefix
      rw [codeFence_eq, List.cons_prefix_cons] at hprefix
      obtain ⟨rfl, hprefix⟩ := hprefix
      match s with
      | [] => exact hlast rfl
      | [d] =>
        obtain ⟨rfl, -⟩ := List.cons_prefix_cons.mp hprefix
        exact hlast rfl
      | d :: e :: s =>
        obtain ⟨rfl, htwo⟩ := List.cons_prefix_cons.mp hprefix
        obtain ⟨rfl, -⟩ := List.cons_prefix_cons.mp htwo
        exact hnone ⟨[], s, rfl⟩
    have hlast' : s.getLast? ≠ some backtick := by
      cases s with
      | nil => simp
      | cons d s => simpa [List.getLast?_cons_cons] using hlast
    rw [List.cons_append, splitFirst, if_neg (by rwa [List.isPrefixOf_iff_prefix]),
      ih (fun h => hnone (List.infix_cons h)) hlast']
    rfl

theorem splitFirst_codeFence_left (hs : backtick ∉ s) : splitFirst codeFence (s ++ t) =
    (splitFirst codeFence t).map fun parts => (s ++ parts.1, parts.2) :=
  splitFirst_append_left hs

end Fence

/-! ## Blocks -/

section Blocks

variable {before after text block inner : List Char}

/-- A block stands between two fences, behind the word `json` or not. -/
theorem fencedBlock_sound (h : fencedBlock text = some block) : ∃ front word back,
    text = front ++ (codeFence ++ (word ++ block) ++ codeFence) ++ back ∧
      ∀ c ∈ word, Mode.Plain c := by
  obtain ⟨⟨front, opened⟩, hopen, h⟩ := Option.bind_eq_some_iff.mp h
  obtain ⟨⟨_, back⟩, hclose, rfl⟩ := Option.map_eq_some_iff.mp h
  have htext := splitFirst_sound hopen
  have hopened := splitFirst_sound hclose
  dsimp only at hopened
  split at hopened
  · next hjson =>
    have hword := List.prefix_iff_eq_append.mp (List.isPrefixOf_iff_prefix.mp hjson)
    refine ⟨front, "json".toList, back, ?_, plain_of_all _ (by decide)⟩
    rw [htext, ← hword]
    change _ ++ ("json".toList ++ opened.drop 4) = _
    rw [hopened]
    simp
  · exact ⟨front, [], back, by rw [htext, hopened]; simp, by rintro c ⟨⟩⟩

/-- Two fences make a block. -/
theorem exists_fencedBlock (h : codeFence ++ inner ++ codeFence <:+: text) :
    ∃ block, fencedBlock text = some block := by
  obtain ⟨front, back, rfl⟩ := h
  obtain ⟨a, b, hopen⟩ := exists_splitFirst (List.infix_append front codeFence [])
  rw [List.append_nil] at hopen
  have hopened := splitFirst_append_right (t := inner ++ codeFence ++ back) (by decide) hopen
  -- the second fence is behind the first one, and not in the word `json`
  have hrest : codeFence <:+: b ++ (inner ++ codeFence ++ back) :=
    ⟨b ++ inner, back, by simp⟩
  have hbody : codeFence <:+:
      if "json".toList.isPrefixOf (b ++ (inner ++ codeFence ++ back)) then
        (b ++ (inner ++ codeFence ++ back)).drop 4 else b ++ (inner ++ codeFence ++ back) := by
    split
    · next hjson =>
      have hword := List.prefix_iff_eq_append.mp (List.isPrefixOf_iff_prefix.mp hjson)
      rw [← hword] at hrest
      exact infix_of_append_left (by decide) hrest
    · exact hrest
  obtain ⟨block, back', hclose⟩ := exists_splitFirst hbody
  refine ⟨block, ?_⟩
  have htext : front ++ (codeFence ++ inner ++ codeFence) ++ back =
      front ++ codeFence ++ (inner ++ codeFence ++ back) := by simp
  rw [fencedBlock, htext, hopened, Option.bind_some]
  dsimp only
  rw [hclose]
  rfl

/-- The outermost braces are found. -/
theorem bracedBlock_eq (hbefore : openBrace ∉ before) (hafter : closeBrace ∉ after) :
    bracedBlock (before ++ openBrace :: (inner ++ [closeBrace]) ++ after) =
      some (openBrace :: (inner ++ [closeBrace])) := by
  have hopen : (before ++ openBrace :: (inner ++ [closeBrace]) ++ after).dropWhile
      (· ≠ openBrace) = openBrace :: (inner ++ [closeBrace] ++ after) := by
    rw [List.append_assoc, List.dropWhile_append_of_pos]
    · simp
    · intro c hc
      exact decide_eq_true fun heq => hbefore (heq ▸ hc)
  have hclose : ((openBrace :: (inner ++ [closeBrace] ++ after)).reverse.dropWhile
      (· ≠ closeBrace)).reverse = openBrace :: (inner ++ [closeBrace]) := by
    have hreverse : (openBrace :: (inner ++ [closeBrace] ++ after)).reverse =
        after.reverse ++ closeBrace :: (inner.reverse ++ [openBrace]) := by simp
    rw [hreverse, List.dropWhile_append_of_pos]
    · simp
    · intro c hc
      exact decide_eq_true fun heq => hafter (heq ▸ List.mem_reverse.mp hc)
  change (let toClose := ((List.dropWhile (· ≠ openBrace) _).reverse.dropWhile
    (· ≠ closeBrace)).reverse
    if toClose.isEmpty then none else some toClose) = _
  rw [hopen, hclose]
  rfl

end Blocks

/-! ## Blanks at the ends -/

/-- The whitespace of Python's strings. -/
def IsSpace (c : Char) : Bool :=
  c.toNat ∈ [9, 10, 11, 12, 13, 28, 29, 30, 31, 32, 0x85, 0xa0, 0x1680, 0x2028, 0x2029, 0x202f,
    0x205f, 0x3000] || (0x2000 ≤ c.toNat && c.toNat ≤ 0x200a)

/-- A text without the whitespace at its ends. -/
def trimmed (text : List Char) : List Char := (text.dropWhile IsSpace).rdropWhile IsSpace

/-- `strip` trims. -/
def PyLib.Strips (py : PyLib) : Prop := ∀ text, (py.strip text).toList = trimmed text.toList

section Trim

variable {before after text inner : List Char}

theorem plain_of_isSpace {c : Char} (h : IsSpace c = true) : Mode.Plain c := by
  refine ⟨?_, ?_, ?_⟩ <;> rintro rfl <;> exact absurd h (by decide)

theorem plain_of_spaces (h : ∀ c ∈ text, IsSpace c = true) : ∀ c ∈ text, Mode.Plain c :=
  fun c hc => plain_of_isSpace (h c hc)

theorem trimmed_split (text : List Char) : ∃ before after, text = before ++ trimmed text ++ after ∧
    (∀ c ∈ before, IsSpace c = true) ∧ ∀ c ∈ after, IsSpace c = true := by
  refine ⟨text.takeWhile IsSpace, (text.dropWhile IsSpace).rtakeWhile IsSpace, ?_,
    fun c hc => List.mem_takeWhile_imp hc, fun c hc => List.mem_rtakeWhile_imp hc⟩
  rw [List.append_assoc, trimmed, List.rdropWhile_append_rtakeWhile,
    List.takeWhile_append_dropWhile]

/-- An object has no whitespace at its ends. -/
theorem trimmed_eq (hbefore : ∀ c ∈ before, IsSpace c = true)
    (hafter : ∀ c ∈ after, IsSpace c = true) :
    trimmed (before ++ openBrace :: (inner ++ [closeBrace]) ++ after) =
      openBrace :: (inner ++ [closeBrace]) := by
  have hopen : IsSpace openBrace = false := by decide
  have hclose : IsSpace closeBrace = false := by decide
  rw [trimmed, List.append_assoc, List.dropWhile_append_of_pos hbefore, List.cons_append,
    List.dropWhile_cons_of_neg (by simp [hopen]), List.rdropWhile]
  have hreverse : (openBrace :: (inner ++ [closeBrace] ++ after)).reverse =
      after.reverse ++ closeBrace :: (inner.reverse ++ [openBrace]) := by simp
  rw [hreverse, List.dropWhile_append_of_pos fun c hc => hafter c (List.mem_reverse.mp hc),
    List.dropWhile_cons_of_neg (by simp [hclose])]
  simp

end Trim

/-! ## Extraction -/

/-- How an answer holds a text: as it is, or in a fence, with whitespace around it. -/
inductive Wrapping : Type where
  | bare
  | fenced (before after : List Char) (blank : ∀ c ∈ before ++ after, IsSpace c = true)

namespace Wrapping

/-- The text, as it is held. -/
def wrap : Wrapping → List Char → List Char
  | .bare, r => r
  | .fenced before after _, r =>
    codeFence ++ ("json".toList ++ (before ++ r ++ after) ++ codeFence)

/-- The fences in the text do not make a block: there are no two of them, or, in a fence, none. -/
def Kept : Wrapping → List Char → Prop
  | .bare, r => ¬ ∃ inner, codeFence ++ inner ++ codeFence <:+: r
  | .fenced _ _ _, r => ¬ codeFence <:+: r

end Wrapping

section Extract

variable {py : PyLib} {canon : List Char → String} {fs : List (String × Json)} {r : List Char}
  {front back : List Char}

/-- An object is written in braces. -/
theorem Spells.braces (h : Spells canon (.value (.obj fs)) r) :
    ∃ inner, r = openBrace :: (inner ++ [closeBrace]) := by
  cases h with
  | obj _ => exact ⟨_, rfl⟩

theorem jsonIn_of_block (hstrip : py.Strips) {text block : List Char}
    (h : fencedBlock text = some block) :
    (jsonIn py (String.ofList text)).toList = trimmed block := by
  rw [jsonIn, String.toList_ofList, h]
  dsimp only
  rw [hstrip, String.toList_ofList]

/-- The lexer takes a fence only inside a literal. -/
theorem Mode.run_codeFence {m m' : Mode} (h : m.run codeFence = some m') :
    m = .inside ∧ m' = .inside := by
  cases m with
  | outside => cases h
  | inside => exact ⟨rfl, (Option.some.inj h).symm⟩
  | escaped => cases h

/-- A fence in a rendering is inside a string. -/
theorem Spells.run_front {v : Json} {a b : List Char} (h : Spells canon (.value v) r)
    (hr : r = a ++ codeFence ++ b) :
    Mode.outside.run a = some .inside ∧ (Mode.inside.run b).isSome = true := by
  have hrun := h.layout.run
  rw [hr, Mode.run_append_eq_some] at hrun
  obtain ⟨m, hfence, hb⟩ := hrun
  obtain ⟨m', ha, hfence⟩ := Mode.run_append_eq_some.mp hfence
  obtain ⟨rfl, rfl⟩ := Mode.run_codeFence hfence
  exact ⟨ha, by rw [hb]; rfl⟩

/-- What stands between two fences of a rendering is not read as its value. -/
theorem Spells.not_loads_between {v : Json} {a word block b : List Char}
    (h : Spells canon (.value v) r) (hword : ∀ c ∈ word, Mode.Plain c)
    (hr : r = a ++ (codeFence ++ (word ++ block) ++ codeFence) ++ b) :
    ¬ Loads canon (trimmed block) v := by
  intro hloads
  obtain ⟨before, after, hsplit, hbefore, -⟩ := trimmed_split block
  have hfence : r = a ++ codeFence ++ (word ++ (before ++ (trimmed block ++ (after ++
      (codeFence ++ b))))) := by
    conv_lhs => rw [hr, hsplit]
    simp
  have hrun := (h.run_front hfence).2
  rw [Mode.run_append_plain hword (by decide),
    Mode.run_append_plain (plain_of_spaces hbefore) (by decide)] at hrun
  obtain ⟨m, hm⟩ := Option.isSome_iff_exists.mp hrun
  obtain ⟨m', hm', -⟩ := Mode.run_append_eq_some.mp hm
  have htick : backtick ∈ r := by
    rw [hr]
    simp [codeFence_eq]
  obtain ⟨s, hs, hmem⟩ := h.layout.exists_mem htick
  exact hloads.inverted (by rw [hm']; rfl) s hs hmem

/-- What stands before the first fence of a rendering is not read at all. -/
theorem Spells.not_loads_front {v w : Json} {gap a b : List Char}
    (h : Spells canon (.value v) r) (hgap : ∀ c ∈ gap, IsSpace c = true)
    (hr : r = a ++ codeFence ++ b) : ¬ Loads canon (trimmed (gap ++ a)) w := by
  intro hloads
  obtain ⟨before, after, hsplit, hbefore, hafter⟩ := trimmed_split (gap ++ a)
  have ha : Mode.outside.run (gap ++ a) = some .inside := by
    rw [Mode.run_append_plain (plain_of_spaces hgap) (by decide)]
    exact (h.run_front hr).1
  rw [hsplit, List.append_assoc,
    Mode.run_append_plain (plain_of_spaces hbefore) (by decide),
    Mode.run_append, hloads.run, Option.bind_some,
    Mode.run_plain (plain_of_spaces hafter) (by decide)] at ha
  cases ha

/-- A block in the answer is a block in the rendering. -/
theorem fencedBlock_rendering {block : List Char} (hfront : backtick ∉ front)
    (hback : backtick ∉ back) (h : fencedBlock (front ++ r ++ back) = some block) :
    ∃ a word b, r = a ++ (codeFence ++ (word ++ block) ++ codeFence) ++ b ∧
      ∀ c ∈ word, Mode.Plain c := by
  obtain ⟨a, word, b, htext, hword⟩ := fencedBlock_sound h
  have hsub : codeFence ++ (word ++ block) ++ codeFence <:+: front ++ r ++ back :=
    ⟨a, b, htext.symm⟩
  obtain ⟨a, b, hab⟩ := infix_of_append_middle (by rfl)
    (by rw [List.getLast?_append]; rfl) hfront hback hsub
  exact ⟨a, word, b, hab.symm, hword⟩

/-- A bare rendering. -/
theorem extract_bare_iff (hstrip : py.Strips) (h : Spells canon (.value (.obj fs)) r)
    (hdict : (Json.obj fs).asDict = .obj fs)
    (hfront : ∀ c ∈ front, c ≠ openBrace ∧ c ≠ closeBrace ∧ c ≠ backtick)
    (hback : ∀ c ∈ back, c ≠ openBrace ∧ c ≠ closeBrace ∧ c ≠ backtick) :
    Loads canon (jsonIn py (String.ofList (front ++ r ++ back))).toList (.obj fs) ↔
      Wrapping.bare.Kept r := by
  have htickfront : backtick ∉ front := fun hmem => (hfront _ hmem).2.2 rfl
  have htickback : backtick ∉ back := fun hmem => (hback _ hmem).2.2 rfl
  cases hblock : fencedBlock (front ++ r ++ back) with
  | some block =>
    obtain ⟨a, word, b, hr, hword⟩ := fencedBlock_rendering htickfront htickback hblock
    rw [jsonIn_of_block hstrip hblock]
    exact iff_of_false (h.not_loads_between hword hr)
      (not_not.mpr ⟨word ++ block, a, b, hr.symm⟩)
  | none =>
    obtain ⟨inner, hinner⟩ := h.braces
    have hbraces : bracedBlock (front ++ r ++ back) = some r := by
      rw [hinner]
      exact bracedBlock_eq (fun hmem => (hfront _ hmem).1 rfl) fun hmem => (hback _ hmem).2.1 rfl
    have hextract : (jsonIn py (String.ofList (front ++ r ++ back))).toList = r := by
      rw [jsonIn, String.toList_ofList, hblock, hbraces]
      dsimp only
      rw [hstrip, String.toList_ofList, hinner]
      have hnone : ∀ c ∈ ([] : List Char), IsSpace c = true := by rintro c ⟨⟩
      have htrim : trimmed ([] ++ openBrace :: (inner ++ [closeBrace]) ++ []) = _ :=
        trimmed_eq hnone hnone
      rwa [List.nil_append, List.append_nil] at htrim
    rw [hextract]
    refine iff_of_true (h.loads hdict) ?_
    rintro ⟨inner, hfences⟩
    obtain ⟨block, hsome⟩ := exists_fencedBlock (hfences.trans (List.infix_append front r back))
    rw [hblock] at hsome
    cases hsome

/-- What is behind the fence and the word `json` is a block up to the next fence. -/
theorem fencedBlock_wrap (hfront : backtick ∉ front) {before after block rest : List Char}
    (hblank : ∀ c ∈ before ++ after, IsSpace c = true)
    (hclose : splitFirst codeFence (before ++ r ++ after ++ (codeFence ++ back)) =
      some (block, rest)) :
    fencedBlock (front ++ (Wrapping.fenced before after hblank).wrap r ++ back) = some block := by
  have htext : front ++ (Wrapping.fenced before after hblank).wrap r ++ back = front ++
      (codeFence ++ ("json".toList ++ (before ++ r ++ after ++ (codeFence ++ back)))) := by
    simp [Wrapping.wrap]
  have hopen : splitFirst codeFence
      (codeFence ++ ("json".toList ++ (before ++ r ++ after ++ (codeFence ++ back)))) =
        some ([], "json".toList ++ (before ++ r ++ after ++ (codeFence ++ back))) :=
    splitFirst_codeFence (s := []) (by decide) (by simp)
  rw [htext, fencedBlock, splitFirst_codeFence_left hfront, hopen, Option.map_some,
    Option.bind_some]
  change (splitFirst codeFence (before ++ r ++ after ++ (codeFence ++ back))).map Prod.fst = _
  rw [hclose]
  rfl

/-- A rendering in a fence. -/
theorem extract_fenced_iff (hstrip : py.Strips) (h : Spells canon (.value (.obj fs)) r)
    (hdict : (Json.obj fs).asDict = .obj fs) {before after : List Char}
    (hblank : ∀ c ∈ before ++ after, IsSpace c = true)
    (hfront : ∀ c ∈ front, c ≠ openBrace ∧ c ≠ closeBrace ∧ c ≠ backtick) :
    Loads canon (jsonIn py (String.ofList
        (front ++ (Wrapping.fenced before after hblank).wrap r ++ back))).toList (.obj fs) ↔
      (Wrapping.fenced before after hblank).Kept r := by
  have htickfront : backtick ∉ front := fun hmem => (hfront _ hmem).2.2 rfl
  have hbefore : ∀ c ∈ before, IsSpace c = true :=
    fun c hc => hblank c (List.mem_append_left after hc)
  have hafter : ∀ c ∈ after, IsSpace c = true :=
    fun c hc => hblank c (List.mem_append_right before hc)
  have htickbefore : backtick ∉ before := fun hmem => absurd (hbefore _ hmem) (by decide)
  have htickafter : backtick ∉ after := fun hmem => absurd (hafter _ hmem) (by decide)
  obtain ⟨inner, hinner⟩ := h.braces
  by_cases hkept : codeFence <:+: r
  · -- the block ends in a string of the object
    obtain ⟨a, b, hab⟩ := exists_splitFirst hkept
    have hclose : splitFirst codeFence (before ++ r ++ after ++ (codeFence ++ back)) =
        some (before ++ a, b ++ (after ++ (codeFence ++ back))) := by
      rw [List.append_assoc, List.append_assoc, splitFirst_codeFence_left htickbefore,
        splitFirst_append_right (by decide) hab, Option.map_some]
    rw [jsonIn_of_block hstrip (fencedBlock_wrap htickfront hblank hclose)]
    exact iff_of_false (h.not_loads_front hbefore (splitFirst_sound hab)) (not_not.mpr hkept)
  · have hclose : splitFirst codeFence (before ++ r ++ after ++ (codeFence ++ back)) =
        some (before ++ r ++ after, back) := by
      refine splitFirst_codeFence (fun hsub => hkept ?_) ?_
      · exact infix_of_append_middle rfl rfl htickbefore htickafter hsub
      · rw [List.getLast?_append]
        cases hlast : after.getLast? with
        | none =>
          rw [hinner, Option.none_or, List.getLast?_append, List.getLast?_cons]
          simpa using (by decide : closeBrace ≠ backtick)
        | some c =>
          intro heq
          obtain rfl : c = backtick := Option.some.inj heq
          exact htickafter (List.mem_of_getLast? hlast)
    rw [jsonIn_of_block hstrip (fencedBlock_wrap htickfront hblank hclose), hinner,
      trimmed_eq hbefore hafter, ← hinner]
    exact iff_of_true (h.loads hdict) hkept

end Extract

/-- **Extraction** of an object with text around it, by either function, gives what is read as that
object, exactly if the fences in its strings do not make a block: two of them where it is bare, and
one in a fence. -/
theorem extract_keeps_iff (py : PyLib) (hstrip : py.Strips) (canon : List Char → String)
    (fs : List (String × Json)) (hdict : (Json.obj fs).asDict = .obj fs) (r : List Char)
    (hspells : Spells canon (.value (.obj fs)) r) (w : Wrapping) (front back : List Char)
    (hplain : ∀ c ∈ front ++ back, c ≠ openBrace ∧ c ≠ closeBrace ∧ c ≠ backtick) :
    ∀ extract ∈ [extractJsonBlock py, extractJson py],
      Loads canon (extract (String.ofList (front ++ w.wrap r ++ back))).toList (.obj fs) ↔
        w.Kept r := by
  -- the two functions are the same
  suffices h : Loads canon (jsonIn py (String.ofList (front ++ w.wrap r ++ back))).toList (.obj fs) ↔
      w.Kept r by
    rintro extract hextract
    rcases List.mem_pair.mp hextract with rfl | rfl <;> exact h
  have hfront := fun c hc => hplain c (List.mem_append_left back hc)
  have hback := fun c hc => hplain c (List.mem_append_right front hc)
  cases w with
  | bare => exact extract_bare_iff hstrip hspells hdict hfront hback
  | fenced before after hblank => exact extract_fenced_iff hstrip hspells hdict hblank hfront

/-! ## A note -/

/-- `strip`, as a library has it. -/
def trimPy : PyLib := { demoPy with strip text := String.ofList (trimmed text.toList) }

theorem trimPy_strips : trimPy.Strips := fun _ => String.toList_ofList

/-- An object with one field. -/
def noteObject (note : String) : Json := .obj [("note", .str note)]

/-- What `json.dumps` makes of it. -/
def noteText (note : String) : List Char := (noteObject note).dumps .default 0

theorem spells_noteText {canon : List Char → String} (note : String) :
    Spells canon (.value (noteObject note)) (noteText note) :=
  spells_dumps _ 0 (by rintro repr ⟨⟩)

/-- A note with text around it. -/
def notedReply : String := String.ofList ("So: ".toList ++ noteText "ok" ++ ['.'])

/-- Either function finds it. -/
theorem note_extracted :
    Loads String.ofList (extractJsonBlock trimPy notedReply).toList (noteObject "ok") ∧
      Loads String.ofList (extractJson trimPy notedReply).toList (noteObject "ok") := by
  have hplain : ∀ c ∈ "So: ".toList ++ ['.'], c ≠ openBrace ∧ c ≠ closeBrace ∧ c ≠ backtick := by
    have hall : ("So: ".toList ++ ['.']).all (fun c =>
      decide (c ≠ openBrace ∧ c ≠ closeBrace ∧ c ≠ backtick)) = true := by decide
    exact fun c hc => of_decide_eq_true (List.all_eq_true.mp hall c hc)
  have hkept : Wrapping.bare.Kept (noteText "ok") := by
    rintro ⟨inner, hsub⟩
    have htick : backtick ∈ noteText "ok" := hsub.subset (by simp [codeFence_eq])
    exact absurd htick (by decide)
  have hiff := extract_keeps_iff trimPy trimPy_strips String.ofList _ rfl _
    (spells_noteText "ok") .bare _ _ hplain
  exact ⟨(hiff _ List.mem_cons_self).mpr hkept,
    (hiff _ (List.mem_cons_of_mem _ List.mem_cons_self)).mpr hkept⟩

/-- What a note with a fenced block says. -/
def fencedNote : String := String.ofList (codeFence ++ ' ' :: codeFence)

/-- A note that shows a fenced block is not extracted as it was. -/
theorem fenced_note_lost :
    Spells String.ofList (.value (noteObject fencedNote)) (noteText fencedNote) ∧
      ∀ extract ∈ [extractJsonBlock trimPy, extractJson trimPy],
        ¬ Loads String.ofList (extract (String.ofList (noteText fencedNote))).toList
          (noteObject fencedNote) := by
  have hspells : Spells String.ofList (.value (noteObject fencedNote)) (noteText fencedNote) :=
    spells_noteText fencedNote
  refine ⟨hspells, fun extract hextract hloads => ?_⟩
  have hnone : ∀ c ∈ ([] : List Char), c ≠ openBrace ∧ c ≠ closeBrace ∧ c ≠ backtick := by
    rintro c ⟨⟩
  have hbare := extract_bare_iff trimPy_strips hspells rfl hnone hnone
  rw [List.nil_append, List.append_nil] at hbare
  have hloads : Loads String.ofList (jsonIn trimPy (String.ofList (noteText fencedNote))).toList
      (noteObject fencedNote) := by
    rcases List.mem_pair.mp hextract with rfl | rfl <;> exact hloads
  exact hbare.mp hloads ⟨[' '], openBrace :: (quoted "note".toList ++ [':', ' ', quote]),
    [quote, closeBrace], by decide⟩

end BankingAgent
