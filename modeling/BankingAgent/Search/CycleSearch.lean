import Mathlib.Data.List.Chain
import Mathlib.Data.List.Nodup
import Mathlib.Data.List.Perm.Subperm
import Mathlib.Logic.Function.Basic
import Mathlib.Logic.Relation

/-!
# A depth-first search for cycles

The search colours the nodes of a graph: white before it comes to them, gray while it is at them,
black once it has left them. A gray neighbour closes a cycle; then the whole search from that root
ends, and the nodes on its path stay gray. The next root starts with an empty path. So a gray
neighbour may be one of an earlier search, and then there is no cycle to be read off the path.

* `visit`, `visitAll` — the search, in the order of the lists of neighbours and roots.
* `visitAll_exact` — if it returns, it has found cycles only, and one if there is one.
* `visitAll_returns` — it returns if nothing leads into a cycle from outside, and the paths are no
  longer than the search can be deep.
* `exists_order_stuck`, `exists_order_deep` — else there is an order in which it does not.
* `visitAll_finds_only_iff` — it returns in every order, and what it finds is of one kind.
* `visitAll_finds_none_iff` — it finds nothing, in whatever order, if there is no cycle.
-/

namespace CycleSearch

variable {V : Type}

/-! ## Cycles and paths -/

theorem transGen_of_isChain {edge : V → V → Prop} {v w : V} {mid : List V}
    (h : (v :: mid ++ [w]).IsChain edge) : Relation.TransGen edge v w := by
  induction mid generalizing v with
  | nil =>
    exact .single (List.isChain_pair.mp h)
  | cons u mid ih =>
    obtain ⟨hedge, hrest⟩ := List.isChain_cons_cons.mp h
    exact .head hedge (ih hrest)

/-- Nothing comes back to where nothing goes on forever. -/
theorem not_transGen_of_acc {edge : V → V → Prop} {v : V} (h : Acc (fun b a => edge a b) v) :
    ¬ Relation.TransGen edge v v := by
  intro hcycle
  have hswap : Relation.TransGen (fun b a => edge a b) v v := Relation.transGen_swap.mpr hcycle
  have hacc := h.transGen
  clear h hcycle
  induction hacc with
  | intro v _ ih => exact ih v hswap hswap

/-- Where a way leads, one leads that comes to no node twice before its end. -/
theorem exists_nodup_isChain {edge : V → V → Prop} {v w : V} (h : Relation.TransGen edge v w) :
    ∃ mid, (v :: mid).Nodup ∧ (v :: mid ++ [w]).IsChain edge := by
  induction h using Relation.TransGen.head_induction_on with
  | single hedge => exact ⟨[], List.nodup_singleton _, List.isChain_pair.mpr hedge⟩
  | @head a b hedge _ ih =>
    obtain ⟨mid, hnodup, hchain⟩ := ih
    by_cases hmem : a ∈ b :: mid
    · -- the way comes back to its start, and is cut there
      obtain ⟨before, after, hsplit⟩ := List.append_of_mem hmem
      rw [hsplit] at hnodup hchain
      rw [List.append_assoc] at hchain
      exact ⟨after, hnodup.of_append_right, hchain.right_of_append⟩
    · exact ⟨b :: mid, List.nodup_cons.mpr ⟨hmem, hnodup⟩,
        List.isChain_cons_cons.mpr ⟨hedge, hchain⟩⟩

/-- Whatever is on a cycle comes back to itself. -/
theorem transGen_of_mem_cycle {edge : V → V → Prop} {v w : V} {mid : List V}
    (h : (v :: mid ++ [v]).IsChain edge) (hw : w ∈ v :: mid ++ [v]) :
    Relation.TransGen edge w w := by
  have hself : Relation.TransGen edge v v := transGen_of_isChain h
  rcases List.mem_append.mp hw with hw | hw
  · rcases List.mem_cons.mp hw with rfl | hw
    · exact hself
    · -- around the cycle, from the node to the end and from the start to the node
      obtain ⟨before, after, rfl⟩ := List.append_of_mem hw
      have hto : (v :: before ++ [w]).IsChain edge := by
        have hsplit : v :: (before ++ w :: after) ++ [v] =
            (v :: before ++ [w]) ++ (after ++ [v]) := by simp
        rw [hsplit] at h
        exact h.left_of_append
      have hfrom : (w :: after ++ [v]).IsChain edge := by
        have hsplit : v :: (before ++ w :: after) ++ [v] =
            v :: before ++ (w :: after ++ [v]) := by simp
        rw [hsplit] at h
        exact h.right_of_append
      exact (transGen_of_isChain hfrom).trans (transGen_of_isChain hto)
  · obtain rfl := List.mem_singleton.mp hw
    exact hself

theorem isChain_concat_concat {edge : V → V → Prop} {path : List V} {node dep : V}
    (h : (path ++ [node]).IsChain edge) (hedge : edge node dep) :
    (path ++ [node] ++ [dep]).IsChain edge := by
  refine List.isChain_append.mpr ⟨h, List.isChain_singleton dep, fun a ha b hb => ?_⟩
  rw [List.getLast?_concat] at ha
  obtain rfl := Option.mem_some_iff.mp ha
  obtain rfl := Option.mem_some_iff.mp hb
  exact hedge

variable [DecidableEq V]

/-! ## The search -/

/-- The colours. -/
inductive Color : Type where
  | white
  | gray
  | black
  deriving DecidableEq, Repr

/-- How the search fails. -/
inductive Failure : Type where
  /-- the search is deeper than it can be -/
  | depth
  /-- a gray neighbour is not on the path -/
  | notOnPath
  deriving DecidableEq, Repr

/-- The colours of the nodes, none for a node that is not in the graph, and the cycles found, each
with its first node at both ends. -/
structure State (V : Type) : Type where
  color : V → Option Color
  cycles : List (List V)

/-- Give a node a colour. -/
def State.paint (s : State V) (node : V) (c : Color) : State V :=
  { s with color := Function.update s.color node (some c) }

/-- The neighbours of the last node of a path, one after the other: whether a cycle was found. -/
def scan (enter : V → State V → Except Failure (Bool × State V)) (path : List V) :
    List V → State V → Except Failure (Bool × State V)
  | [], s => .ok (false, s)
  | dep :: deps, s =>
    match s.color dep with
    | some .gray =>
      if dep ∈ path then
        .ok (true, { s with cycles := s.cycles ++ [path.drop (path.idxOf dep) ++ [dep]] })
      else .error .notOnPath
    | some .white =>
      match enter dep s with
      | .error e => .error e
      | .ok (true, s') => .ok (true, s')
      | .ok (false, s') => scan enter path deps s'
    | _ => scan enter path deps s

/-- The search from a node, with the depth that is left. -/
def visit (next : V → List V) : ℕ → List V → V → State V → Except Failure (Bool × State V)
  | 0, _, _, _ => .error .depth
  | depth + 1, path, node, s =>
    match scan (visit next depth (path ++ [node])) (path ++ [node]) (next node)
        (s.paint node .gray) with
    | .error e => .error e
    | .ok (true, s') => .ok (true, s')
    | .ok (false, s') => .ok (false, s'.paint node .black)

/-- The search from each root that is still white. -/
def visitAll (next : V → List V) (depth : ℕ) : List V → State V → Except Failure (State V)
  | [], s => .ok s
  | root :: roots, s =>
    if s.color root = some .white then
      match visit next depth [] root s with
      | .error e => .error e
      | .ok (_, s') => visitAll next depth roots s'
    else visitAll next depth roots s

namespace State

variable (s : State V) (node : V) (c : Color)

@[simp] theorem paint_cycles : (s.paint node c).cycles = s.cycles := rfl

@[simp] theorem paint_color_self : (s.paint node c).color node = some c :=
  Function.update_self ..

theorem paint_color_of_ne {other : V} (h : other ≠ node) :
    (s.paint node c).color other = s.color other := Function.update_of_ne h ..

end State

/-! ## What is found -/

/-- A sequence that follows the edges and comes back to where it starts. -/
def IsCycle (edge : V → V → Prop) (cycle : List V) : Prop :=
  ∃ v mid, cycle = v :: mid ++ [v] ∧ cycle.IsChain edge

/-- The part of a path from a node on, and the node again. -/
theorem drop_idxOf (before after : List V) {dep : V} (h : dep ∉ before) :
    (before ++ dep :: after).drop ((before ++ dep :: after).idxOf dep) = dep :: after := by
  have hindex : (before ++ dep :: after).idxOf dep = before.length := by
    rw [List.idxOf_append_of_notMem h, List.idxOf_cons_self, Nat.add_zero]
  rw [hindex, List.drop_left]

theorem exists_split_of_mem {path : List V} {dep : V} (h : dep ∈ path) :
    ∃ before after, dep ∉ before ∧ path = before ++ dep :: after := by
  obtain ⟨before, after, hbefore, hpath, -⟩ := List.exists_erase_eq h
  exact ⟨before, after, hbefore, hpath⟩

/-- What a gray neighbour on the path closes is a cycle. -/
theorem isCycle_of_gray {edge : V → V → Prop} {path : List V} {dep : V}
    (hpath : (path ++ [dep]).IsChain edge) (h : dep ∈ path) :
    IsCycle edge (path.drop (path.idxOf dep) ++ [dep]) := by
  obtain ⟨before, after, hbefore, rfl⟩ := exists_split_of_mem h
  rw [drop_idxOf before after hbefore]
  refine ⟨dep, after, rfl, ?_⟩
  rw [List.append_assoc] at hpath
  exact hpath.right_of_append

/-! ## Whatever it finds is there, and something is found -/

section Sound

variable (next : V → List V) (known : V → Prop)

/-- An edge between two nodes of the graph. -/
def Edge (a b : V) : Prop := known a ∧ known b ∧ b ∈ next a

/-- The nodes have colours, nothing goes on forever from a black one, and the cycles are cycles. -/
structure Sound (s : State V) : Prop where
  colored : ∀ v, s.color v ≠ none ↔ known v
  black : ∀ v, s.color v = some .black → Acc (fun b a => Edge next known a b) v
  cycles : ∀ c ∈ s.cycles, IsCycle (Edge next known) c

/-- What the search leaves behind: black nodes stay black, cycles stay found, and without a new
cycle no more nodes are gray. -/
structure Step (s : State V) (r : Bool × State V) : Prop where
  sound : Sound next known r.2
  black : ∀ v, s.color v = some .black → r.2.color v = some .black
  cycles : ∀ c ∈ s.cycles, c ∈ r.2.cycles
  found : r.1 = true → r.2.cycles ≠ []
  gray : r.1 = false → ∀ v, r.2.color v = some .gray → s.color v = some .gray

variable {next known}

omit [DecidableEq V] in
theorem Step.refl {s : State V} (h : Sound next known s) : Step next known s (false, s) :=
  ⟨h, fun _ => id, fun _ => id, nofun, fun _ _ => id⟩

omit [DecidableEq V] in
theorem Step.trans {s s' : State V} {r : Bool × State V} (h : Step next known s (false, s'))
    (h' : Step next known s' r) : Step next known s r :=
  ⟨h'.sound, fun v hv => h'.black v (h.black v hv), fun c hc => h'.cycles c (h.cycles c hc), h'.found,
    fun hr v hv => h.gray rfl v (h'.gray hr v hv)⟩

omit [DecidableEq V] in
/-- Where nothing is found in the end, nothing was found before. -/
theorem Step.cycles_eq_nil {s : State V} {r : Bool × State V} (h : Step next known s r)
    (hnone : r.2.cycles = []) : s.cycles = [] := by
  refine List.eq_nil_iff_forall_not_mem.mpr fun c hc => ?_
  have hmem := h.cycles c hc
  rw [hnone] at hmem
  exact List.not_mem_nil hmem

/-- Scanning the neighbours: if no cycle is found, all of them are black in the end. -/
theorem scan_step {enter : V → State V → Except Failure (Bool × State V)} {path deps : List V}
    {s : State V} {r : Bool × State V}
    (henter : ∀ dep s r, Sound next known s → s.color dep = some .white →
      (path ++ [dep]).IsChain (Edge next known) → enter dep s = .ok r →
        Step next known s r ∧ (r.1 = false → r.2.color dep = some .black))
    (hchain : ∀ dep ∈ deps, known dep → (path ++ [dep]).IsChain (Edge next known))
    (hs : Sound next known s) (h : scan enter path deps s = .ok r) :
    Step next known s r ∧
      (r.1 = false → ∀ dep ∈ deps, known dep → r.2.color dep = some .black) := by
  induction deps generalizing s with
  | nil =>
    obtain rfl := Except.ok.inj h
    exact ⟨.refl hs, nofun⟩
  | cons dep deps ih =>
    have hrest := fun d hd => hchain d (List.mem_cons_of_mem _ hd)
    -- from a state in which the neighbour is black the rest is scanned
    have hgo : ∀ s', Step next known s (false, s') → (known dep → s'.color dep = some .black) →
        scan enter path deps s' = .ok r → Step next known s r ∧
          (r.1 = false → ∀ d ∈ dep :: deps, known d → r.2.color d = some .black) := by
      intro s' hstep hblack hscan
      obtain ⟨hstep', hdeps⟩ := ih hrest hstep.sound hscan
      refine ⟨hstep.trans hstep', fun hr => List.forall_mem_cons.mpr ⟨fun hknown => ?_, hdeps hr⟩⟩
      exact hstep'.black dep (hblack hknown)
    rw [scan] at h
    cases hcolor : s.color dep with
    | none =>
      rw [hcolor] at h
      exact hgo s (.refl hs) (fun hknown => absurd hcolor ((hs.colored dep).mpr hknown)) h
    | some c =>
      have hknown : known dep := (hs.colored dep).mp (by simp [hcolor])
      have hpath := hchain dep (List.mem_cons_self ..) hknown
      cases c with
      | black =>
        rw [hcolor] at h
        exact hgo s (.refl hs) (fun _ => hcolor) h
      | gray =>
        simp only [hcolor] at h
        split at h
        · rename_i hmem
          obtain rfl := Except.ok.inj h
          refine ⟨⟨⟨hs.colored, hs.black, ?_⟩, fun _ => id, ?_, ?_, nofun⟩, nofun⟩
          · intro c hc
            rcases List.mem_append.mp hc with hc | hc
            · exact hs.cycles c hc
            · obtain rfl := List.mem_singleton.mp hc
              exact isCycle_of_gray hpath hmem
          · exact fun c hc => List.mem_append_left _ hc
          · simp
        · cases h
      | white =>
        simp only [hcolor] at h
        cases henter' : enter dep s with
        | error e => simp [henter'] at h
        | ok r' =>
          obtain ⟨hstep, hblack⟩ := henter dep s r' hs hcolor hpath henter'
          obtain ⟨found, s'⟩ := r'
          rw [henter'] at h
          cases found with
          | true =>
            obtain rfl := Except.ok.inj h
            exact ⟨hstep, nofun⟩
          | false => exact hgo s' hstep (fun _ => hblack rfl) h

theorem Sound.paint_gray {s : State V} {node : V} (hs : Sound next known s) (hnode : known node) :
    Sound next known (s.paint node .gray) := by
  refine ⟨fun v => ?_, fun v hv => ?_, hs.cycles⟩
  · by_cases hv : v = node
    · subst hv
      simp [hnode]
    · rw [State.paint_color_of_ne _ _ _ hv, hs.colored]
  · by_cases hv' : v = node
    · subst hv'
      simp at hv
    · rw [State.paint_color_of_ne _ _ _ hv'] at hv
      exact hs.black v hv

/-- A node whose neighbours are black is painted black. -/
theorem Sound.paint_black {s : State V} {node : V} (hs : Sound next known s) (hnode : known node)
    (hdeps : ∀ dep ∈ next node, known dep → s.color dep = some .black) :
    Sound next known (s.paint node .black) := by
  refine ⟨fun v => ?_, fun v hv => ?_, hs.cycles⟩
  · by_cases hv : v = node
    · subst hv
      simp [hnode]
    · rw [State.paint_color_of_ne _ _ _ hv, hs.colored]
  · by_cases hv' : v = node
    · subst hv'
      exact Acc.intro _ fun b hb => hs.black b (hdeps b hb.2.2 hb.2.1)
    · rw [State.paint_color_of_ne _ _ _ hv'] at hv
      exact hs.black v hv

/-- **One visit.** -/
theorem visit_step {depth : ℕ} {path : List V} {node : V} {s : State V} {r : Bool × State V}
    (hs : Sound next known s) (hwhite : s.color node = some .white)
    (hchain : (path ++ [node]).IsChain (Edge next known)) (h : visit next depth path node s = .ok r) :
    Step next known s r ∧ (r.1 = false → r.2.color node = some .black) := by
  induction depth generalizing path node s r with
  | zero => cases h
  | succ depth ih =>
    have hnode : known node := (hs.colored node).mp (by simp [hwhite])
    rw [visit] at h
    cases hscan : scan (visit next depth (path ++ [node])) (path ++ [node]) (next node)
        (s.paint node .gray) with
    | error e => simp [hscan] at h
    | ok r' =>
      obtain ⟨hstep, hdeps⟩ := scan_step (fun dep s r hs hw hc hv => ih hs hw hc hv)
        (fun dep hdep hknown => isChain_concat_concat hchain ⟨hnode, hknown, hdep⟩)
        (hs.paint_gray hnode) hscan
      have hne : ∀ v, s.color v = some .black → v ≠ node := by
        rintro v hv rfl
        rw [hwhite] at hv
        cases hv
      have hblack : ∀ v, s.color v = some .black → r'.2.color v = some .black := fun v hv =>
        hstep.black v ((State.paint_color_of_ne _ _ _ (hne v hv)).trans hv)
      obtain ⟨found, s'⟩ := r'
      rw [hscan] at h
      cases found with
      | true =>
        obtain rfl := Except.ok.inj h
        exact ⟨⟨hstep.sound, hblack, hstep.cycles, hstep.found, nofun⟩, nofun⟩
      | false =>
        obtain rfl := Except.ok.inj h
        refine ⟨⟨hstep.sound.paint_black hnode (hdeps rfl), fun v hv => ?_, hstep.cycles, nofun,
          fun _ v hv => ?_⟩, fun _ => State.paint_color_self ..⟩
        · exact (State.paint_color_of_ne _ _ _ (hne v hv)).trans (hblack v hv)
        · by_cases hv' : v = node
          · subst hv'
            simp at hv
          · have hgray := hstep.gray rfl v ((State.paint_color_of_ne _ _ _ hv').symm.trans hv)
            rwa [State.paint_color_of_ne _ _ _ hv'] at hgray

/-- **The whole search**: the cycles are cycles, and without one every root is black. -/
theorem visitAll_step {depth : ℕ} {roots : List V} {s s' : State V} (hs : Sound next known s)
    (hroots : ∀ root ∈ roots, known root)
    (hgray : s.cycles = [] → ∀ v, s.color v ≠ some .gray)
    (h : visitAll next depth roots s = .ok s') :
    Sound next known s' ∧ (∀ v, s.color v = some .black → s'.color v = some .black) ∧
      (∀ c ∈ s.cycles, c ∈ s'.cycles) ∧
      (s'.cycles = [] → s.cycles = [] ∧ ∀ root ∈ roots, s'.color root = some .black) := by
  induction roots generalizing s with
  | nil =>
    obtain rfl := Except.ok.inj h
    exact ⟨hs, fun _ => id, fun _ => id, fun hnone => ⟨hnone, nofun⟩⟩
  | cons root roots ih =>
    obtain ⟨hroot, hrest⟩ := List.forall_mem_cons.mp hroots
    rw [visitAll] at h
    split at h
    · rename_i hwhite
      cases hvisit : visit next depth [] root s with
      | error e => simp [hvisit] at h
      | ok r =>
        obtain ⟨hstep, hblack⟩ := visit_step hs hwhite (List.isChain_singleton root) hvisit
        obtain ⟨found, s₁⟩ := r
        rw [hvisit] at h
        have hfound : s₁.cycles = [] → found = false := by
          intro hnone
          cases found with
          | false => rfl
          | true => exact absurd hnone (hstep.found rfl)
        have hgray' : s₁.cycles = [] → ∀ v, s₁.color v ≠ some .gray := fun hnone v hv =>
          hgray (hstep.cycles_eq_nil hnone) v (hstep.gray (hfound hnone) v hv)
        obtain ⟨hsound, hmono, hkept, hall⟩ := ih hstep.sound hrest hgray' h
        refine ⟨hsound, fun v hv => hmono v (hstep.black v hv),
          fun c hc => hkept c (hstep.cycles c hc), fun hnone => ?_⟩
        obtain ⟨hnone₁, hblacks⟩ := hall hnone
        exact ⟨hstep.cycles_eq_nil hnone₁,
          List.forall_mem_cons.mpr ⟨hmono root (hblack (hfound hnone₁)), hblacks⟩⟩
    · rename_i hnotWhite
      obtain ⟨hsound, hmono, hkept, hall⟩ := ih hs hrest hgray h
      refine ⟨hsound, hmono, hkept, fun hnone => ?_⟩
      obtain ⟨hnone', hblacks⟩ := hall hnone
      refine ⟨hnone', List.forall_mem_cons.mpr ⟨?_, hblacks⟩⟩
      -- the root is neither white nor gray
      cases hcolor : s.color root with
      | none => exact absurd hcolor ((hs.colored root).mpr hroot)
      | some c =>
        cases c with
        | white => exact absurd hcolor hnotWhite
        | gray => exact absurd hcolor (hgray hnone' root)
        | black => exact hmono root hcolor

end Sound

/-! ## From the start -/

/-- The state the search starts in. -/
def start (roots : List V) : State V :=
  ⟨fun v => if v ∈ roots then some .white else none, []⟩

theorem start_sound {next : V → List V} {roots : List V} :
    Sound next (· ∈ roots) (start roots) := by
  refine ⟨fun v => ?_, fun v hv => ?_, nofun⟩
  · by_cases hv : v ∈ roots <;> simp [start, hv]
  · by_cases hv' : v ∈ roots <;> simp [start, hv'] at hv

/-- **What is found are cycles, and one is found if there is one.** -/
theorem visitAll_exact {next : V → List V} {depth : ℕ} {roots : List V} {s : State V}
    (h : visitAll next depth roots (start roots) = .ok s) :
    (s.cycles ≠ [] ↔ ∃ v, Relation.TransGen (Edge next (· ∈ roots)) v v) ∧
      ∀ cycle ∈ s.cycles, IsCycle (Edge next (· ∈ roots)) cycle := by
  have hgray : (start roots).cycles = [] → ∀ v, (start roots).color v ≠ some .gray := by
    intro _ v
    by_cases hv : v ∈ roots <;> simp [start, hv]
  obtain ⟨hsound, -, -, hall⟩ := visitAll_step start_sound (fun _ => id) hgray h
  refine ⟨⟨fun hne => ?_, fun ⟨v, hv⟩ hnone => ?_⟩, hsound.cycles⟩
  · obtain ⟨cycle, hcycle⟩ := List.exists_mem_of_ne_nil _ hne
    obtain ⟨v, mid, rfl, hchain⟩ := hsound.cycles cycle hcycle
    exact ⟨v, transGen_of_isChain hchain⟩
  · obtain ⟨w, hedge, -⟩ := Relation.TransGen.head'_iff.mp hv
    exact not_transGen_of_acc (hsound.black v ((hall hnone).2 v hedge.1)) hv

/-! ## Where it returns -/

section Returns

variable (next : V → List V) (known : V → Prop)

/-- A path that comes to no node twice. -/
structure SimplePath (path : List V) : Prop where
  inGraph : ∀ v ∈ path, known v
  nodup : path.Nodup
  chain : path.IsChain (Edge next known)

/-- A cycle that comes to no node twice; its first node is not repeated at the end. -/
structure SimpleCycle (v : V) (mid : List V) : Prop where
  nodup : (v :: mid).Nodup
  chain : (v :: mid ++ [v]).IsChain (Edge next known)

omit [DecidableEq V] in
variable {next known} in
/-- The nodes of a cycle are in the graph. -/
theorem SimpleCycle.inGraph {v : V} {mid : List V} (h : SimpleCycle next known v mid) :
    ∀ w ∈ v :: mid, known w := by
  intro w hw
  obtain ⟨before, after, hsplit⟩ := List.append_of_mem hw
  have hchain := h.chain
  rw [hsplit, List.append_assoc] at hchain
  cases after with
  | nil => exact (List.isChain_cons_cons.mp hchain.right_of_append).1.1
  | cons x after => exact (List.isChain_cons_cons.mp hchain.right_of_append).1.1

/-- No edge leads into these nodes from outside. -/
def Sealed (nodes : V → Prop) : Prop := ∀ u c, ¬ nodes u → nodes c → ¬ Edge next known u c

/-- No edge leads into a cycle from outside. -/
def SealedCycles : Prop := ∀ v mid, SimpleCycle next known v mid → Sealed next known (· ∈ v :: mid)

/-- The gray nodes are those that were left behind and those of the path. -/
structure GrayAt (left : V → Prop) (path : List V) (s : State V) : Prop where
  colored : ∀ v, s.color v ≠ none → known v
  gray : ∀ v, s.color v = some .gray ↔ left v ∨ v ∈ path

/-- How a search that returns leaves the gray nodes. -/
structure Left (left : V → Prop) (path : List V) (r : Bool × State V) : Prop where
  notFound : r.1 = false → GrayAt known left path r.2
  found : r.1 = true → ∃ left', Sealed next known left' ∧ GrayAt known left' [] r.2

variable {next known}

/-- The path of a search that finds a cycle is the cycle, from its beginning. -/
theorem sealed_of_gray (hcycles : SealedCycles next known) {path : List V} {a dep : V}
    (hpath : SimplePath next known (path ++ [a])) (hedge : Edge next known a dep)
    (h : dep ∈ path ++ [a]) : Sealed next known (· ∈ path ++ [a]) := by
  have hclosed := isChain_concat_concat hpath.chain hedge
  have hnodup := hpath.nodup
  obtain ⟨before, after, hbefore, hsplit⟩ := exists_split_of_mem h
  rw [hsplit] at hclosed hnodup ⊢
  have hsuffix : SimpleCycle next known dep after := by
    refine ⟨hnodup.of_append_right, ?_⟩
    rw [List.append_assoc] at hclosed
    exact hclosed.right_of_append
  rcases List.eq_nil_or_concat' before with rfl | ⟨front, b, rfl⟩
  · exact hcycles dep after hsuffix
  · -- the node before the cycle would lead into it
    exfalso
    have hb : b ∉ dep :: after := fun hmem =>
      (List.disjoint_of_nodup_append hnodup) (List.mem_append_right _ (List.mem_singleton_self b))
        hmem
    have hbdep : Edge next known b dep := by
      rw [List.append_assoc, List.append_assoc] at hclosed
      exact (List.isChain_cons_cons.mp hclosed.right_of_append).1
    exact hcycles dep after hsuffix b dep hb (List.mem_cons_self ..) hbdep

/-- Scanning returns. -/
theorem scan_returns (hcycles : SealedCycles next known) {left : V → Prop}
    {enter : V → State V → Except Failure (Bool × State V)} {path deps : List V} {a : V}
    {s : State V} (hleft : Sealed next known left)
    (hpath : SimplePath next known (path ++ [a])) (hapart : ∀ v ∈ path ++ [a], ¬ left v)
    (henter : ∀ dep s, s.color dep = some .white → GrayAt known left (path ++ [a]) s →
      SimplePath next known (path ++ [a] ++ [dep]) →
        ∃ r, enter dep s = .ok r ∧ Left next known left (path ++ [a]) r)
    (hdeps : ∀ dep ∈ deps, dep ∈ next a) (hs : GrayAt known left (path ++ [a]) s) :
    ∃ r, scan enter (path ++ [a]) deps s = .ok r ∧ Left next known left (path ++ [a]) r := by
  have ha : known a := hpath.inGraph a (by simp)
  induction deps generalizing s with
  | nil => exact ⟨_, rfl, fun _ => hs, nofun⟩
  | cons dep deps ih =>
    obtain ⟨hdep, hrest⟩ := List.forall_mem_cons.mp hdeps
    rw [scan]
    cases hcolor : s.color dep with
    | none => exact ih hrest hs
    | some c =>
      have hedge : Edge next known a dep := ⟨ha, hs.colored dep (by simp [hcolor]), hdep⟩
      cases c with
      | black => exact ih hrest hs
      | gray =>
        have hmem : dep ∈ path ++ [a] :=
          ((hs.gray dep).mp hcolor).resolve_left fun hl => hleft a dep (hapart a (by simp)) hl hedge
        simp only [if_pos hmem]
        refine ⟨_, rfl, nofun, fun _ => ⟨fun v => left v ∨ v ∈ path ++ [a], ?_, hs.colored, ?_⟩⟩
        · intro u c hu hc
          obtain ⟨hul, hup⟩ := not_or.mp hu
          exact hc.elim (hleft u c hul) (sealed_of_gray hcycles hpath hedge hmem u c hup)
        · intro v
          simpa using hs.gray v
      | white =>
        have hnew : dep ∉ path ++ [a] := by
          intro hmem
          have hgray := (hs.gray dep).mpr (.inr hmem)
          rw [hcolor] at hgray
          cases hgray
        have hlonger : SimplePath next known (path ++ [a] ++ [dep]) := by
          refine ⟨fun v hv => ?_, ?_, isChain_concat_concat hpath.chain hedge⟩
          · rcases List.mem_append.mp hv with hv | hv
            · exact hpath.inGraph v hv
            · exact List.mem_singleton.mp hv ▸ hedge.2.1
          · exact List.nodup_append_comm.mp (List.nodup_cons.mpr ⟨hnew, hpath.nodup⟩)
        obtain ⟨⟨found, s'⟩, hr, hleft'⟩ := henter dep s hcolor hs hlonger
        simp only [hr]
        cases found with
        | true => exact ⟨_, rfl, nofun, fun _ => hleft'.found rfl⟩
        | false => exact ih hrest (hleft'.notFound rfl)

theorem GrayAt.paint_gray {left : V → Prop} {path : List V} {s : State V} {node : V}
    (hs : GrayAt known left path s) (hnode : known node) :
    GrayAt known left (path ++ [node]) (s.paint node .gray) := by
  refine ⟨fun v hv => ?_, fun v => ?_⟩
  · by_cases hv' : v = node
    · exact hv' ▸ hnode
    · rw [State.paint_color_of_ne _ _ _ hv'] at hv
      exact hs.colored v hv
  · by_cases hv : v = node
    · subst hv
      simp
    · rw [State.paint_color_of_ne _ _ _ hv, hs.gray]
      simp [hv]

theorem GrayAt.paint_black {left : V → Prop} {path : List V} {s : State V} {node : V}
    (hs : GrayAt known left (path ++ [node]) s) (hnode : known node) (hleft : ¬ left node)
    (hpath : node ∉ path) : GrayAt known left path (s.paint node .black) := by
  refine ⟨fun v hv => ?_, fun v => ?_⟩
  · by_cases hv' : v = node
    · exact hv' ▸ hnode
    · rw [State.paint_color_of_ne _ _ _ hv'] at hv
      exact hs.colored v hv
  · by_cases hv : v = node
    · subst hv
      simp [hleft, hpath]
    · rw [State.paint_color_of_ne _ _ _ hv, hs.gray]
      simp [hv]

/-- **A visit returns** if the path can grow no longer than the depth that is left. -/
theorem visit_returns (hcycles : SealedCycles next known) {total depth : ℕ}
    (hshort : ∀ path, SimplePath next known path → path.length ≤ total) {left : V → Prop}
    {path : List V} {node : V} {s : State V} (hleft : Sealed next known left)
    (hpath : SimplePath next known (path ++ [node])) (hapart : ∀ v ∈ path, ¬ left v)
    (hwhite : s.color node = some .white) (hs : GrayAt known left path s)
    (hdepth : path.length + depth = total) :
    ∃ r, visit next depth path node s = .ok r ∧ Left next known left path r := by
  induction depth generalizing path node s with
  | zero =>
    have hlong := hshort _ hpath
    rw [List.length_append, List.length_singleton] at hlong
    omega
  | succ depth ih =>
    have hnode : known node := hpath.inGraph node (by simp)
    have hnotGray : ¬ (left node ∨ node ∈ path) := by
      rw [← hs.gray, hwhite]
      nofun
    obtain ⟨hnotLeft, hnotPath⟩ := not_or.mp hnotGray
    have hapart' : ∀ v ∈ path ++ [node], ¬ left v := by
      intro v hv
      rcases List.mem_append.mp hv with hv | hv
      · exact hapart v hv
      · exact List.mem_singleton.mp hv ▸ hnotLeft
    obtain ⟨⟨found, s'⟩, hscan, hr⟩ := scan_returns hcycles hleft hpath hapart'
      (fun dep s hw hg hp => ih hp hapart' hw hg (by simp; omega)) (fun _ => id)
      (hs.paint_gray hnode)
    rw [visit, hscan]
    cases found with
    | true => exact ⟨_, rfl, nofun, fun _ => hr.found rfl⟩
    | false =>
      exact ⟨_, rfl, fun _ => (hr.notFound rfl).paint_black hnode hnotLeft hnotPath, nofun⟩

/-- **The search returns.** -/
theorem visitAll_returns (hcycles : SealedCycles next known) {depth : ℕ}
    (hshort : ∀ path, SimplePath next known path → path.length ≤ depth) {left : V → Prop}
    {roots : List V} {s : State V} (hroots : ∀ root ∈ roots, known root)
    (hleft : Sealed next known left) (hs : GrayAt known left [] s) :
    ∃ s', visitAll next depth roots s = .ok s' := by
  induction roots generalizing s left with
  | nil => exact ⟨s, rfl⟩
  | cons root roots ih =>
    obtain ⟨hroot, hrest⟩ := List.forall_mem_cons.mp hroots
    rw [visitAll]
    split
    · rename_i hwhite
      have hpath : SimplePath next known ([] ++ [root]) :=
        ⟨fun v hv => List.mem_singleton.mp hv ▸ hroot, List.nodup_singleton root,
          List.isChain_singleton root⟩
      obtain ⟨⟨found, s'⟩, hvisit, hr⟩ := visit_returns hcycles hshort hleft hpath nofun hwhite hs
        (Nat.zero_add depth)
      rw [hvisit]
      cases found with
      | true =>
        obtain ⟨left', hleft', hs'⟩ := hr.found rfl
        exact ih hrest hleft' hs'
      | false => exact ih hrest hleft (hr.notFound rfl)
    · exact ih hrest hleft hs

end Returns

/-! ## Orders in which it does not return -/

section Orders

variable {next base : V → List V}

/-- The second node is the first neighbour of the first one. -/
def Leads (next : V → List V) (a b : V) : Prop := (next a).head? = some b

/-- A list with one of its items in front. -/
theorem perm_front {l : List V} {a : V} (h : a ∈ l) : (a :: l.erase a).Perm l :=
  (List.perm_cons_erase h).symm

/-- Another order at a node that nothing on the way starts from. -/
theorem isChain_leads_update {l : List V} {a : V} (x : List V) (ha : a ∉ l.dropLast)
    (h : l.IsChain (Leads next)) : l.IsChain (Leads (Function.update next a x)) := by
  induction l with
  | nil => exact .nil
  | cons v l ih =>
    cases l with
    | nil => exact List.isChain_singleton v
    | cons w l =>
      obtain ⟨hvw, hrest⟩ := List.isChain_cons_cons.mp h
      rw [List.dropLast_cons_cons, List.mem_cons, not_or] at ha
      refine List.isChain_cons_cons.mpr ⟨?_, ih ha.2 hrest⟩
      rw [Leads, Function.update_of_ne (Ne.symm ha.1)]
      exact hvw

/-- There is an order in which the search follows a given way. -/
theorem exists_leads {l : List V} (hnodup : l.dropLast.Nodup)
    (hl : l.IsChain fun a b => b ∈ base a) :
    ∃ next : V → List V, (∀ v, (next v).Perm (base v)) ∧ l.IsChain (Leads next) := by
  induction l with
  | nil => exact ⟨base, fun _ => .refl _, .nil⟩
  | cons a l ih =>
    cases l with
    | nil => exact ⟨base, fun _ => .refl _, List.isChain_singleton a⟩
    | cons b l =>
      obtain ⟨hab, hrest⟩ := List.isChain_cons_cons.mp hl
      rw [List.dropLast_cons_cons, List.nodup_cons] at hnodup
      obtain ⟨next, hperm, hleads⟩ := ih hnodup.2 hrest
      refine ⟨Function.update next a (b :: (base a).erase b), fun v => ?_,
        List.isChain_cons_cons.mpr ⟨?_, isChain_leads_update _ hnodup.1 hleads⟩⟩
      · by_cases hv : v = a
        · rw [hv, Function.update_self]
          exact perm_front hab
        · rw [Function.update_of_ne hv]
          exact hperm v
      · rw [Leads, Function.update_self]
        rfl

theorem white_paint {s : State V} {v : V} {vs : List V} (hv : v ∉ vs)
    (h : ∀ u ∈ vs, s.color u = some .white) :
    ∀ u ∈ vs, (s.paint v .gray).color u = some .white := by
  intro u hu
  have hne : u ≠ v := by
    rintro rfl
    exact hv hu
  rw [State.paint_color_of_ne _ _ _ hne]
  exact h u hu

/-- A way that is too long ends the search. -/
theorem visit_deep {depth : ℕ} {v : V} {vs path : List V} {s : State V}
    (hleads : (v :: vs).IsChain (Leads next)) (hnodup : (v :: vs).Nodup)
    (hwhite : ∀ u ∈ v :: vs, s.color u = some .white) (hlong : depth < (v :: vs).length) :
    visit next depth path v s = .error .depth := by
  induction depth generalizing v vs path s with
  | zero => rfl
  | succ depth ih =>
    cases vs with
    | nil => simp at hlong
    | cons w vs =>
      obtain ⟨hvw, hrest⟩ := List.isChain_cons_cons.mp hleads
      obtain ⟨hv, hnodup'⟩ := List.nodup_cons.mp hnodup
      obtain ⟨deps, hnext⟩ := List.head?_eq_some_iff.mp hvw
      have hwhite' := white_paint hv (List.forall_mem_cons.mp hwhite).2
      have hdeep : visit next depth (path ++ [v]) w (s.paint v .gray) = .error .depth :=
        ih hrest hnodup' hwhite' (by simpa using hlong)
      rw [visit, hnext, scan, hwhite' w (List.mem_cons_self ..)]
      simp only [hdeep]

/-- A way that comes back to its path is found as a cycle, and stays gray. -/
theorem visit_cycle {depth : ℕ} {v c : V} {vs path : List V} {s : State V}
    (hleads : (v :: vs ++ [c]).IsChain (Leads next)) (hnodup : (v :: vs).Nodup)
    (hwhite : ∀ u ∈ v :: vs, s.color u = some .white) (hmem : c ∈ path ++ v :: vs)
    (hgray : c ∈ v :: vs ∨ s.color c = some .gray) (hshort : (v :: vs).length ≤ depth) :
    ∃ s', visit next depth path v s = .ok (true, s') ∧
      (∀ u, s'.color u = if u ∈ v :: vs then some .gray else s.color u) ∧
      s'.cycles = s.cycles ++ [(path ++ v :: vs).drop ((path ++ v :: vs).idxOf c) ++ [c]] := by
  induction depth generalizing v vs path s with
  | zero => simp at hshort
  | succ depth ih =>
    cases vs with
    | nil =>
      have hvc : Leads next v c := List.isChain_pair.mp hleads
      obtain ⟨deps, hnext⟩ := List.head?_eq_some_iff.mp hvc
      have hcolor : (s.paint v .gray).color c = some .gray := by
        by_cases hcv : c = v
        · rw [hcv, State.paint_color_self]
        · rw [State.paint_color_of_ne _ _ _ hcv]
          exact hgray.resolve_left fun h => hcv (List.mem_singleton.mp h)
      rw [visit, hnext, scan, hcolor]
      simp only [if_pos hmem]
      refine ⟨_, rfl, fun u => ?_, rfl⟩
      by_cases hu : u = v
      · simp [State.paint, hu]
      · simp [State.paint, hu]
    | cons w vs =>
      obtain ⟨hvw, hrest⟩ := List.isChain_cons_cons.mp hleads
      obtain ⟨hv, hnodup'⟩ := List.nodup_cons.mp hnodup
      obtain ⟨deps, hnext⟩ := List.head?_eq_some_iff.mp hvw
      have hwhite' := white_paint hv (List.forall_mem_cons.mp hwhite).2
      have hgray' : c ∈ w :: vs ∨ (s.paint v .gray).color c = some .gray := by
        by_cases hcv : c = v
        · exact .inr (hcv ▸ State.paint_color_self ..)
        · rw [State.paint_color_of_ne _ _ _ hcv]
          exact hgray.imp_left fun h => (List.mem_cons.mp h).resolve_left hcv
      have hmem' : c ∈ (path ++ [v]) ++ w :: vs := by simpa using hmem
      obtain ⟨s', hvisit, hcolor, hfound⟩ :=
        ih hrest hnodup' hwhite' hmem' hgray' (by simpa using hshort)
      rw [visit, hnext, scan, hwhite' w (List.mem_cons_self ..)]
      simp only [hvisit]
      refine ⟨s', rfl, fun u => ?_, by simpa using hfound⟩
      rw [hcolor]
      by_cases hu : u = v
      · simp [hu, hv]
      · simp [hu, State.paint_color_of_ne]

/-- An order of the graph: of its nodes and of the neighbours of each. -/
structure Order (ids : List V) (base : V → List V) : Type where
  roots : List V
  next : V → List V
  roots_perm : roots.Perm ids
  next_perm : ∀ v, (next v).Perm (base v)

variable {ids : List V}

omit [DecidableEq V] in
/-- The edges do not depend on the order. -/
theorem Order.edge_iff (o : Order ids base) (a b : V) :
    Edge o.next (· ∈ o.roots) a b ↔ Edge base (· ∈ ids) a b := by
  simp only [Edge, o.roots_perm.mem_iff, (o.next_perm a).mem_iff]

omit [DecidableEq V] in
/-- A way out of the graph's edges is one along its neighbours. -/
theorem isChain_mem {l : List V} (h : l.IsChain (Edge base (· ∈ ids))) :
    l.IsChain fun a b => b ∈ base a := h.imp fun _ _ hedge => hedge.2.2

/-- Start at the beginning of a way that is too long. -/
theorem exists_order_deep {depth : ℕ} {path : List V} (hpath : SimplePath base (· ∈ ids) path)
    (hlong : depth < path.length) :
    ∃ o : Order ids base, ∃ e, visitAll o.next depth o.roots (start o.roots) = .error e := by
  cases path with
  | nil => simp at hlong
  | cons v vs =>
    obtain ⟨next, hperm, hleads⟩ :=
      exists_leads (hpath.nodup.sublist (List.dropLast_sublist _)) (isChain_mem hpath.chain)
    have hv := hpath.inGraph v (List.mem_cons_self ..)
    refine ⟨⟨v :: ids.erase v, next, perm_front hv, hperm⟩, .depth, ?_⟩
    have hwhite : ∀ u ∈ v :: vs, (start (v :: ids.erase v)).color u = some .white := by
      intro u hu
      exact if_pos ((perm_front hv).mem_iff.mpr (hpath.inGraph u hu))
    rw [visitAll, if_pos (hwhite v (List.mem_cons_self ..)),
      visit_deep hleads hpath.nodup hwhite hlong]

/-- Go around a cycle first, and then come from outside. -/
theorem exists_order_stuck {depth : ℕ} {v u c : V} {mid : List V}
    (hcycle : SimpleCycle base (· ∈ ids) v mid) (hu : u ∉ v :: mid) (hc : c ∈ v :: mid)
    (hedge : Edge base (· ∈ ids) u c) :
    ∃ o : Order ids base, ∃ e, visitAll o.next depth o.roots (start o.roots) = .error e := by
  have hdrop : (v :: mid ++ [v]).dropLast = v :: mid := List.dropLast_concat
  have hknown := hcycle.inGraph
  by_cases hdepth : (v :: mid).length ≤ depth
  · have hnodup : (v :: mid ++ [v]).dropLast.Nodup := hdrop.symm ▸ hcycle.nodup
    have hudrop : u ∉ (v :: mid ++ [v]).dropLast := hdrop.symm ▸ hu
    obtain ⟨next₀, hperm₀, hleads₀⟩ := exists_leads hnodup (isChain_mem hcycle.chain)
    have hleads := isChain_leads_update (c :: (base u).erase c) hudrop hleads₀
    have hne : u ≠ v := fun h => hu (h ▸ List.mem_cons_self ..)
    have hv := hknown v (List.mem_cons_self ..)
    have huids : u ∈ ids.erase v := (List.mem_erase_of_ne hne).mpr hedge.1
    have hroots : (v :: u :: (ids.erase v).erase u).Perm ids :=
      ((perm_front huids).cons v).trans (perm_front hv)
    refine ⟨⟨v :: u :: (ids.erase v).erase u,
      Function.update next₀ u (c :: (base u).erase c), hroots, fun w => ?_⟩, .notOnPath, ?_⟩
    · by_cases hw : w = u
      · rw [hw, Function.update_self]
        exact perm_front hedge.2.2
      · rw [Function.update_of_ne hw]
        exact hperm₀ w
    · have hwhite : ∀ w ∈ ids,
          (start (v :: u :: (ids.erase v).erase u)).color w = some .white := fun w hw =>
        if_pos (hroots.mem_iff.mpr hw)
      obtain ⟨s', hvisit, hcolor, -⟩ := visit_cycle hleads hcycle.nodup
        (fun w hw => hwhite w (hknown w hw)) (List.mem_append_right [] (List.mem_cons_self ..))
        (.inl (List.mem_cons_self ..)) hdepth
      -- the node outside is still white, and its first neighbour is gray
      have hwhiteu : s'.color u = some .white := by
        rw [hcolor, if_neg hu, hwhite u hedge.1]
      have hne' : c ≠ u := by
        rintro rfl
        exact hu hc
      have hgrayc : (s'.paint u .gray).color c = some .gray := by
        rw [State.paint_color_of_ne _ _ _ hne', hcolor, if_pos hc]
      have hcu : c ∉ ([] : List V) ++ [u] := fun h => hne' (List.mem_singleton.mp h)
      obtain ⟨depth, rfl⟩ : ∃ d, depth = d + 1 := Nat.exists_eq_add_one.mpr (by simp at hdepth; omega)
      rw [visitAll, if_pos (hwhite v hv), hvisit]
      simp only
      rw [visitAll, if_pos hwhiteu, visit, Function.update_self, scan, hgrayc]
      simp only [if_neg hcu]
  · exact exists_order_deep ⟨hknown, hcycle.nodup, hcycle.chain.left_of_append⟩ (not_le.mp hdepth)

/-- Go around a cycle first, and it is found. -/
theorem exists_order_finds {depth : ℕ} {v : V} {mid : List V}
    (hcycle : SimpleCycle base (· ∈ ids) v mid) (hdepth : (v :: mid).length ≤ depth) :
    ∃ o : Order ids base, ∀ s, visitAll o.next depth o.roots (start o.roots) = .ok s →
      v :: mid ++ [v] ∈ s.cycles := by
  have hdrop : (v :: mid ++ [v]).dropLast = v :: mid := List.dropLast_concat
  obtain ⟨next, hperm, hleads⟩ := exists_leads (hdrop.symm ▸ hcycle.nodup) (isChain_mem hcycle.chain)
  have hroots := perm_front (hcycle.inGraph v (List.mem_cons_self ..))
  have hwhite : ∀ u ∈ v :: mid, (start (v :: ids.erase v)).color u = some .white := fun u hu =>
    if_pos (hroots.mem_iff.mpr (hcycle.inGraph u hu))
  obtain ⟨s₁, hvisit, -, hfound⟩ := visit_cycle hleads hcycle.nodup hwhite
    (List.mem_append_right [] (List.mem_cons_self ..)) (.inl (List.mem_cons_self ..)) hdepth
  have hmem : v :: mid ++ [v] ∈ s₁.cycles := by
    rw [hfound, List.nil_append, List.idxOf_cons_self]
    exact List.mem_append_right _ (List.mem_singleton_self _)
  refine ⟨⟨v :: ids.erase v, next, hroots, hperm⟩, fun s hs => ?_⟩
  rw [visitAll, if_pos (hwhite v (List.mem_cons_self ..)), hvisit] at hs
  -- the searches from the other roots keep it
  obtain ⟨hstep, -⟩ := visit_step start_sound (hwhite v (List.mem_cons_self ..))
    (List.isChain_singleton v) hvisit
  obtain ⟨-, -, hkept, -⟩ := visitAll_step hstep.sound (fun r hr => List.mem_cons_of_mem _ hr)
    (fun hnone => absurd hnone (List.ne_nil_of_mem hmem)) hs
  exact hkept _ hmem

/-- **The search returns in every order** exactly if no edge leads into a cycle from outside and no
path is longer than the search can be deep. -/
theorem visitAll_returns_iff (ids : List V) (base : V → List V) (depth : ℕ) :
    (∀ o : Order ids base, ∃ s, visitAll o.next depth o.roots (start o.roots) = .ok s) ↔
      SealedCycles base (· ∈ ids) ∧
        ∀ path, SimplePath base (· ∈ ids) path → path.length ≤ depth := by
  have hfails : (∃ o : Order ids base, ∃ e,
      visitAll o.next depth o.roots (start o.roots) = .error e) →
        ¬ ∀ o : Order ids base, ∃ s, visitAll o.next depth o.roots (start o.roots) = .ok s := by
    rintro ⟨o, e, he⟩ h
    obtain ⟨s, hs⟩ := h o
    rw [he] at hs
    cases hs
  constructor
  · intro h
    refine ⟨fun v mid hcycle u c hu hc hedge => ?_, fun path hpath => ?_⟩
    · exact hfails (exists_order_stuck hcycle hu hc hedge) h
    · by_contra hlong
      exact hfails (exists_order_deep hpath (not_le.mp hlong)) h
  · rintro ⟨hcycles, hshort⟩ o
    have hsealed : SealedCycles o.next (· ∈ o.roots) := by
      intro v mid hcycle u c hu hc hedge
      refine hcycles v mid ⟨hcycle.nodup, ?_⟩ u c hu hc ((o.edge_iff u c).mp hedge)
      exact hcycle.chain.imp fun a b => (o.edge_iff a b).mp
    have hshort' : ∀ path, SimplePath o.next (· ∈ o.roots) path → path.length ≤ depth :=
      fun path hpath => hshort path ⟨fun v hv => o.roots_perm.mem_iff.mp (hpath.inGraph v hv),
        hpath.nodup, hpath.chain.imp fun a b => (o.edge_iff a b).mp⟩
    have hnone : Sealed o.next (· ∈ o.roots) fun _ => False := nofun
    refine visitAll_returns hsealed hshort' (fun _ => id) hnone ⟨?_, ?_⟩
    · intro v hv
      by_contra hmem
      exact hv (if_neg hmem)
    · intro v
      by_cases hmem : v ∈ o.roots <;> simp [start, hmem]

/-- **The search returns in every order, and finds only such cycles**, if in addition every node
that comes back to itself is of that kind. -/
theorem visitAll_finds_only_iff (ids : List V) (base : V → List V) (depth : ℕ) (P : V → Prop) :
    (∀ o : Order ids base, ∃ s, visitAll o.next depth o.roots (start o.roots) = .ok s ∧
        ∀ cycle ∈ s.cycles, ∀ v ∈ cycle, P v) ↔
      (SealedCycles base (· ∈ ids) ∧
        ∀ path, SimplePath base (· ∈ ids) path → path.length ≤ depth) ∧
      ∀ v, Relation.TransGen (Edge base (· ∈ ids)) v v → P v := by
  rw [← visitAll_returns_iff]
  constructor
  · intro h
    have hreturns := fun o => (h o).imp fun _ hs => hs.1
    refine ⟨hreturns, fun v hv => ?_⟩
    obtain ⟨-, hshort⟩ := (visitAll_returns_iff ids base depth).mp hreturns
    obtain ⟨mid, hnodup, hchain⟩ := exists_nodup_isChain hv
    have hcycle : SimpleCycle base (· ∈ ids) v mid := ⟨hnodup, hchain⟩
    have hdepth := hshort _ ⟨hcycle.inGraph, hnodup, hchain.left_of_append⟩
    obtain ⟨o, hfinds⟩ := exists_order_finds hcycle hdepth
    obtain ⟨s, hs, hall⟩ := h o
    exact hall _ (hfinds s hs) v (List.mem_cons_self ..)
  · rintro ⟨hreturns, hall⟩ o
    obtain ⟨s, hs⟩ := hreturns o
    refine ⟨s, hs, fun cycle hcycle v hv => hall v ?_⟩
    obtain ⟨w, mid, rfl, hchain⟩ := (visitAll_exact hs).2 cycle hcycle
    exact .mono (fun a b => (o.edge_iff a b).mp) _ _ (transGen_of_mem_cycle hchain hv)

/-- **Nothing is found**, in whatever order, exactly if there is no cycle, provided that the search
may nest a call for each node. -/
theorem visitAll_finds_none_iff (o : Order ids base) {depth : ℕ} (hroom : ids.length ≤ depth) :
    (∃ s, visitAll o.next depth o.roots (start o.roots) = .ok s ∧ s.cycles = []) ↔
      ∀ v, ¬ Relation.TransGen (Edge base (· ∈ ids)) v v := by
  have hedge : Edge o.next (· ∈ o.roots) = Edge base (· ∈ ids) := by
    funext a b
    exact propext (o.edge_iff a b)
  have hfound : ∀ {s}, visitAll o.next depth o.roots (start o.roots) = .ok s →
      (s.cycles = [] ↔ ∀ v, ¬ Relation.TransGen (Edge base (· ∈ ids)) v v) := by
    intro s hs
    rw [← not_exists, ← hedge, ← (visitAll_exact hs).1, not_not]
  constructor
  · rintro ⟨s, hs, hnone⟩
    exact (hfound hs).mp hnone
  · intro hacyclic
    have hreturns := (visitAll_returns_iff ids base depth).mpr ⟨fun v mid hcycle => ?_, ?_⟩
    · obtain ⟨s, hs⟩ := hreturns o
      exact ⟨s, hs, (hfound hs).mpr hacyclic⟩
    · exact absurd (transGen_of_isChain hcycle.chain) (hacyclic v)
    · intro path hpath
      exact (List.subperm_of_subset hpath.nodup hpath.inGraph).length_le.trans hroom

end Orders

end CycleSearch
