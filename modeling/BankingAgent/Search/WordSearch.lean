import Mathlib.Data.List.Induction

/-!
# Words in a text

A word of a text is a maximal run of word characters. A keyword that is such a run is a piece of
the text between two separators; a phrase may have other characters in it, and is found as a whole.

* `Delimited` — a keyword occurs, and no word goes on beyond its ends.
* `mem_splitOnP_iff` — for a word, that is to be one of the pieces.
* `find?_eq_find?_iff` — two readings of a list of rules choose the same one, exactly if the rules
  they differ on come too late.
-/

namespace WordSearch

variable {α : Type}

/-! ## Occurrences -/

/-- At most one of the two neighbours is a word character, if there are two. -/
def Apart (word : α → Bool) (a b : Option α) : Prop :=
  ∀ c ∈ a, ∀ d ∈ b, ¬ (word c = true ∧ word d = true)

/-- The keyword occurs in the text, and no word goes on beyond its ends. -/
def Delimited (word : α → Bool) (keyword text : List α) : Prop :=
  ∃ before after, text = before ++ keyword ++ after ∧
    Apart word before.getLast? keyword.head? ∧ Apart word keyword.getLast? after.head?

variable {word : α → Bool} {keyword text before after : List α} {p : α → Bool}

theorem Delimited.isInfix (h : Delimited word keyword text) : keyword <:+: text := by
  obtain ⟨before, after, rfl, -, -⟩ := h
  exact ⟨before, after, rfl⟩

/-- A text without separators, or the first of them and what is around it. -/
theorem exists_first_separator (p : α → Bool) (text : List α) : (∀ c ∈ text, p c = false) ∨
    ∃ front sep back, text = front ++ sep :: back ∧ p sep = true ∧ ∀ c ∈ front, p c = false := by
  cases hfind : text.find? p with
  | none => exact .inl fun c hc => by simpa using List.find?_eq_none.mp hfind c hc
  | some sep =>
    obtain ⟨hsep, front, back, rfl, hfront⟩ := List.find?_eq_some_iff_append.mp hfind
    exact .inr ⟨front, sep, back, rfl, hsep, fun c hc => by simpa using hfront c hc⟩

/-- A piece of a text stands between separators. -/
theorem exists_of_mem_splitOnP (h : keyword ∈ text.splitOnP p) :
    ∃ before after, text = before ++ keyword ++ after ∧ (∀ c ∈ before.getLast?, p c = true) ∧
      ∀ c ∈ after.head?, p c = true := by
  induction hlength : text.length using Nat.strongRecOn generalizing text with
  | ind n ih =>
    rcases exists_first_separator p text with hnone | ⟨front, sep, back, rfl, hsep, hfront⟩
    · rw [List.splitOnP_eq_singleton hnone, List.mem_singleton] at h
      exact ⟨[], [], by simp [h], by simp, by simp⟩
    · rw [List.splitOnP_append_cons_of_forall_mem hfront sep hsep] at h
      rcases List.mem_cons.mp h with rfl | hmem
      · exact ⟨[], sep :: back, by simp, by simp, by simpa using hsep⟩
      · -- the piece lies behind the first separator
        obtain ⟨before, after, rfl, hbefore, hafter⟩ :=
          ih back.length (by simp [← hlength]; omega) hmem rfl
        refine ⟨front ++ sep :: before, after, by simp, fun c hc => ?_, hafter⟩
        rw [List.getLast?_append, List.getLast?_cons] at hc
        cases hlast : before.getLast? with
        | none =>
          obtain rfl : sep = c := by simpa [hlast] using hc
          exact hsep
        | some d =>
          obtain rfl : d = c := by simpa [hlast] using hc
          exact hbefore _ hlast

/-- A run of word characters that ends before the text goes on with a separator. -/
theorem mem_splitOnP_of_after (hkeyword : ∀ c ∈ keyword, p c = false)
    (hafter : ∀ c ∈ after.head?, p c = true) : keyword ∈ (keyword ++ after).splitOnP p := by
  cases after with
  | nil => simp [List.splitOnP_eq_singleton hkeyword]
  | cons sep after =>
    rw [List.splitOnP_append_cons_of_forall_mem hkeyword sep (hafter sep rfl)]
    exact List.mem_cons_self

/-- What comes before a piece, up to a separator, is no part of it. -/
theorem mem_splitOnP_append (hbefore : ∀ c ∈ before.getLast?, p c = true)
    (h : keyword ∈ text.splitOnP p) : keyword ∈ (before ++ text).splitOnP p := by
  cases before using List.reverseRecOn with
  | nil => exact h
  | append_singleton before sep =>
    rw [List.append_assoc, List.singleton_append,
      List.splitOnP_append_cons _ _ (hbefore sep (by simp))]
    exact List.mem_append_right _ h

/-- **Words**: a run of word characters is a piece of a text exactly if it occurs delimited. -/
theorem mem_splitOnP_iff (hkeyword : keyword ≠ []) (hword : ∀ c ∈ keyword, word c = true) :
    keyword ∈ text.splitOnP (fun c => !word c) ↔ Delimited word keyword text := by
  constructor
  · intro h
    obtain ⟨before, after, rfl, hbefore, hafter⟩ := exists_of_mem_splitOnP h
    refine ⟨before, after, rfl, fun c hc d _ hboth => ?_, fun c _ d hd hboth => ?_⟩
    · simpa [hboth.1] using hbefore c hc
    · simpa [hboth.2] using hafter d hd
  · rintro ⟨before, after, rfl, hbefore, hafter⟩
    have hhead : keyword.head hkeyword ∈ keyword.head? := List.head_mem_head? hkeyword
    have hlast : keyword.getLast hkeyword ∈ keyword.getLast? := List.getLast_mem_getLast? hkeyword
    rw [List.append_assoc]
    refine mem_splitOnP_append (fun c hc => ?_) (mem_splitOnP_of_after (fun c hc => ?_)
      fun c hc => ?_)
    · have hnot := hbefore c hc _ hhead
      simpa [hword _ (List.head_mem hkeyword)] using hnot
    · simp [hword c hc]
    · have hnot := hafter _ hlast c hc
      simpa [hword _ (List.getLast_mem hkeyword)] using hnot

/-! ## Trimmed texts -/

/-- What does not begin with what is trimmed off the front begins behind it. -/
theorem infix_of_trimmed_front (hkeyword : keyword ≠ [])
    (hbefore : ∀ c ∈ keyword.head?, c ∉ before) (h : keyword <:+: before ++ text) :
    keyword <:+: text := by
  obtain ⟨front, back, heq⟩ := h
  rw [List.append_assoc, List.append_eq_append_iff] at heq
  rcases heq with ⟨rest, rfl, hrest⟩ | ⟨rest, -, hrest⟩
  · cases rest with
    | nil => exact ⟨[], back, by simpa using hrest⟩
    | cons c rest =>
      -- the keyword would begin with something that is trimmed off
      obtain ⟨d, keyword', rfl⟩ := List.exists_cons_of_ne_nil hkeyword
      obtain ⟨rfl, -⟩ := List.cons.inj hrest
      exact absurd (by simp) (hbefore d rfl)
  · exact ⟨rest, back, by rw [hrest, List.append_assoc]⟩

theorem infix_of_trimmed_back (hkeyword : keyword ≠ [])
    (hafter : ∀ c ∈ keyword.getLast?, c ∉ after) (h : keyword <:+: text ++ after) :
    keyword <:+: text := by
  rw [← List.reverse_infix, List.reverse_append] at h
  rw [← List.reverse_infix]
  refine infix_of_trimmed_front (by simpa using hkeyword) (fun c hc hmem => ?_) h
  exact hafter c (by simpa using hc) (by simpa using hmem)

/-- **Trimming** loses no occurrence of what neither begins nor ends with what is trimmed off. -/
theorem infix_of_trimmed (hkeyword : keyword ≠ []) (hbefore : ∀ c ∈ keyword.head?, c ∉ before)
    (hafter : ∀ c ∈ keyword.getLast?, c ∉ after) (h : keyword <:+: before ++ text ++ after) :
    keyword <:+: text :=
  infix_of_trimmed_front hkeyword hbefore (infix_of_trimmed_back hkeyword hafter h)

theorem splitOnP_separators (h : ∀ c ∈ text, p c = true) : ∀ w ∈ text.splitOnP p, w = [] := by
  induction text with
  | nil => simp
  | cons c text ih =>
    obtain ⟨hc, htext⟩ := List.forall_mem_cons.mp h
    have hsplit := List.splitOnP_append_cons (p := p) [] text hc
    intro w hw
    rw [← List.nil_append (c :: text), hsplit] at hw
    rcases List.mem_append.mp hw with hw | hw
    · simpa using hw
    · exact ih htext w hw

/-- **Trimming** separators loses no word. -/
theorem mem_splitOnP_trimmed (hkeyword : keyword ≠ []) (hbefore : ∀ c ∈ before, p c = true)
    (hafter : ∀ c ∈ after, p c = true) :
    keyword ∈ (before ++ text ++ after).splitOnP p ↔ keyword ∈ text.splitOnP p := by
  have hback : keyword ∈ (text ++ after).splitOnP p ↔ keyword ∈ text.splitOnP p := by
    cases after with
    | nil => simp
    | cons sep after =>
      obtain ⟨hsep, hrest⟩ := List.forall_mem_cons.mp hafter
      rw [List.splitOnP_append_cons text after hsep, List.mem_append]
      exact or_iff_left fun hmem => hkeyword (splitOnP_separators hrest _ hmem)
  rw [List.append_assoc, ← hback]
  cases before using List.reverseRecOn with
  | nil => simp
  | append_singleton before sep =>
    have hall : ∀ c ∈ before, p c = true := fun c hc => hbefore c (by simp [hc])
    rw [List.append_assoc, List.singleton_append,
      List.splitOnP_append_cons before _ (hbefore sep (by simp)), List.mem_append]
    exact or_iff_right fun hmem => hkeyword (splitOnP_separators hall _ hmem)

/-! ## Rules in order -/

/-- A rule that both readings accept settles the matter for all that come after it. -/
theorem agree_of_accepted {q : α → Bool} {rule : α} {rules : List α} (hp : p rule = true)
    (hq : q rule = true) : ∀ front r back, rule :: rules = front ++ r :: back → p r ≠ q r →
      ∃ r' ∈ front, p r' = true ∧ q r' = true := by
  intro front r back hsplit hdiffer
  cases front with
  | nil =>
    obtain ⟨rfl, -⟩ := List.cons.inj hsplit
    exact absurd (hp.trans hq.symm) hdiffer
  | cons r' front =>
    obtain ⟨rfl, -⟩ := List.cons.inj hsplit
    exact ⟨rule, List.mem_cons_self, hp, hq⟩

/-- A rule that neither accepts may as well not be there. -/
theorem agree_of_refused {q : α → Bool} {rule : α} {rules : List α} (hp : p rule = false)
    (hq : q rule = false) : (∀ front r back, rule :: rules = front ++ r :: back → p r ≠ q r →
      ∃ r' ∈ front, p r' = true ∧ q r' = true) ↔
    ∀ front r back, rules = front ++ r :: back → p r ≠ q r →
      ∃ r' ∈ front, p r' = true ∧ q r' = true := by
  constructor
  · intro h front r back hsplit hdiffer
    obtain ⟨r', hmem, hp', hq'⟩ := h (rule :: front) r back (by rw [hsplit]; rfl) hdiffer
    rcases List.mem_cons.mp hmem with rfl | hmem
    · rw [hp] at hp'
      cases hp'
    · exact ⟨r', hmem, hp', hq'⟩
  · intro h front r back hsplit hdiffer
    cases front with
    | nil =>
      obtain ⟨rfl, -⟩ := List.cons.inj hsplit
      exact absurd (hp.trans hq.symm) hdiffer
    | cons r' front =>
      obtain ⟨-, hrules⟩ := List.cons.inj hsplit
      obtain ⟨r', hmem, hboth⟩ := h front r back hrules hdiffer
      exact ⟨r', List.mem_cons_of_mem _ hmem, hboth⟩

/-- **Two readings** choose the same rule, or both none, exactly if each rule they differ on comes
after one they both accept. -/
theorem find?_eq_find?_iff {q : α → Bool} {rules : List α} : rules.find? p = rules.find? q ↔
    ∀ front r back, rules = front ++ r :: back → p r ≠ q r →
      ∃ r' ∈ front, p r' = true ∧ q r' = true := by
  induction rules with
  | nil => simp
  | cons rule rules ih =>
    cases hp : p rule <;> cases hq : q rule
    · rw [agree_of_refused hp hq, ← ih, List.find?_cons_of_neg (by simp [hp]),
        List.find?_cons_of_neg (by simp [hq])]
    · refine iff_of_false (fun h => ?_)
        fun h => by simpa using h [] rule rules rfl (by simp [hp, hq])
      rw [List.find?_cons_of_neg (by simp [hp]), List.find?_cons_of_pos hq] at h
      exact absurd (List.find?_some h) (by simp [hp])
    · refine iff_of_false (fun h => ?_)
        fun h => by simpa using h [] rule rules rfl (by simp [hp, hq])
      rw [List.find?_cons_of_neg (p := q) (by simp [hq]), List.find?_cons_of_pos hp] at h
      exact absurd (List.find?_some h.symm) (by simp [hq])
    · rw [List.find?_cons_of_pos hp, List.find?_cons_of_pos hq]
      exact iff_of_true rfl (agree_of_accepted hp hq)

end WordSearch
