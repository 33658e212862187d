import BankingAgent.DispatchOnce
import BankingAgent.SessionLock

/-!
# The life of a session

Decisions and sweeps run at the same time, and every one of them writes the session it has read
some awaits ago. Whatever they do, the session moves along

    PENDING → EXPIRED                                              (the sweep)
    PENDING | EXPIRED | RESUMED
      → APPROVED | REJECTED | EXPIRED | RECONCILIATION_REQUIRED    (a decision)
    APPROVED → RESUMED | FAILED                                    (the call that approved it)

and its version counts the steps that are not the sweep's. `EXPIRED` is left by a decision that
read `PENDING` before, `RESUMED` by one that came too late. A session that was rejected, has
failed or was handed to reconciliation is never written again.
-/

namespace BankingAgent

open Async

/-! ## Edges -/

/-- The edges of the life of a session, on its status and its version. -/
inductive SessionEdge : HITLSessionStatus × ℕ → HITLSessionStatus × ℕ → Prop
  | sweep (v : ℕ) : SessionEdge (.pending, v) (.expired, v)
  | decide {s s' : HITLSessionStatus} (v : ℕ) (undecided : s ∈ [.pending, .expired, .resumed])
      (decision : s' ∈ [.approved, .rejected, .expired, .reconciliationRequired]) :
      SessionEdge (s, v) (s', v + 1)
  | close {s' : HITLSessionStatus} (v : ℕ) (outcome : s' = .failed ∨ s' = .resumed) :
      SessionEdge (.approved, v) (s', v + 1)

theorem HITLRecord.SameOperation.trans {Args : Type} {s s' s'' : HITLRecord Args}
    (h : s.SameOperation s') (h' : s'.SameOperation s'') : s.SameOperation s'' where
  user := h.user.trans h'.user
  thread := h.thread.trans h'.thread
  call := h.call.trans h'.call
  tool := h.tool.trans h'.tool
  args := h.args.trans h'.args
  key := h.key.trans h'.key
  deadline := h.deadline.trans h'.deadline

/-- The status of a session and its version. -/
def HITLRecord.standing {Args : Type} (s : HITLRecord Args) : HITLSessionStatus × ℕ :=
  (s.status, s.version)

/-- What one step may do to a session: nothing, or follow an edge. -/
structure HITLRow.Evolves (row row' : HITLRow) : Prop where
  /-- the operation is the same -/
  same : HITLRecord.SameOperation row row'
  change : row' = row ∨ SessionEdge row.standing row'.standing

theorem HITLRow.Evolves.refl (row : HITLRow) : row.Evolves row := ⟨.refl row, .inl rfl⟩

/-- What is final is left by no edge. -/
theorem HITLSessionStatus.Final.no_edge {s : HITLSessionStatus} {v : ℕ}
    {x : HITLSessionStatus × ℕ} (h : s.Final) : ¬ SessionEdge (s, v) x := by
  rintro (_ | ⟨_, hundecided, _⟩ | _)
  · simp [HITLSessionStatus.Final] at h
  · rcases h with rfl | rfl | rfl <;> simp at hundecided
  · simp [HITLSessionStatus.Final] at h

theorem HITLRow.Evolves.of_final {row row' : HITLRow} (h : row.Evolves row')
    (hfinal : row.status.Final) : row' = row :=
  h.change.resolve_right hfinal.no_edge

/-! ## The moves -/

section Moves

variable {py : PyLib} {sid now : String} {status : HITLSessionStatus} {v : ℕ} {call : Call}
  {p q : Pos} {o : Op} {r : o.Res} {db : Db} {row row' : HITLRow}

/-- What a call that has not decided yet decides. -/
theorem Move.decision {s : HITLSession} {hit : Bool}
    (move : Move py call p (.hitl (.updateStatus sid status now v)) hit q)
    (here : p.fresh? = some s) :
    status ∈ [HITLSessionStatus.approved, .rejected, .expired, .reconciliationRequired] := by
  cases move with
  | idle r quiet => exact quiet.elim
  | denySession => cases here
  | markSession => cases here
  | _ => simp

/-- A call that may rely on the lock follows an edge. -/
theorem RowChange.evolves (h : RowChange sid call p o row row') (move : Move py call p o r q)
    (hlock : call.Decides sid → p.Lock sid db) (hrow : db.hitl.get sid = some row) :
    row.Evolves row' := by
  cases h with
  | same => exact .refl row
  | swept now hpending =>
    refine ⟨⟨rfl, rfl, rfl, rfl, rfl, rfl, rfl⟩, .inr ?_⟩
    rw [HITLRecord.standing, hpending]
    exact .sweep row.version
  | @decided s status now dec here op_eq _ hversion =>
    subst op_eq
    refine ⟨⟨rfl, rfl, rfl, rfl, rfl, rfl, rfl⟩, .inr ?_⟩
    have hfresh := (hlock dec).fresh s here
    have hundecided : row.status ∈ [HITLSessionStatus.pending, .expired, .resumed] := by
      rcases hfresh.status hrow hversion with hst | ⟨-, hst⟩
      · rw [hst]
        rcases hfresh.1 with hs | hs <;> simp [hs]
      · simp [hst]
    rw [← hversion]
    exact .decide row.version hundecided (move.decision here)
  | @closed s status now dec here op_eq hstatus hversion =>
    refine ⟨⟨rfl, rfl, rfl, rfl, rfl, rfl, rfl⟩, .inr ?_⟩
    obtain ⟨row₁, hrow₁, happroved, -⟩ := (hlock dec).owner s here
    obtain rfl := Option.some.inj (hrow.symm.trans hrow₁)
    rw [← hversion, HITLRecord.standing, happroved]
    exact .close row.version hstatus

end Moves

/-! ## Runs -/

section Runs

variable {dep : Deployment} {D : Discipline Db Call (LogEntry Call)} {db : Db}
  {c c' : (service dep).Config} {sid : String} {row : HITLRow}

/-- **One step**: no session is removed, and each evolves. -/
theorem HITLRow.evolves_of_step (hD : ∀ call, D.start call → call.IsDecision)
    (run : (service dep).Reach D (Pool.init db) c) (h : (service dep).Step D c c')
    (hrow : c.shared.hitl.get sid = some row) :
    ∃ row', c'.shared.hitl.get sid = some row' ∧ row.Evolves row' := by
  cases h with
  | spawn => exact ⟨row, hrow, .refl row⟩
  | crash => exact ⟨row, hrow, .refl row⟩
  | @step i call o k env r db' here hexec ok =>
    obtain ⟨p, hfollows, hlock⟩ := (lockOutline dep D sid).sound_at
      (fun call hstart => decision_follows dep call (hD call hstart)) trivial run here
    obtain ⟨q, move, -⟩ := hfollows r
    obtain ⟨row', hrow', hchange⟩ := move.row hexec hrow
    exact ⟨row', hrow', hchange.evolves move hlock hrow⟩

/-- **A run**: the operation stays, the session moves along edges, and what is final stays. -/
theorem HITLRow.evolves_of_reach (hD : ∀ call, D.start call → call.IsDecision)
    (run : (service dep).Reach D (Pool.init db) c) (h : (service dep).Reach D c c')
    (hrow : c.shared.hitl.get sid = some row) :
    ∃ row', c'.shared.hitl.get sid = some row' ∧ HITLRecord.SameOperation row row' ∧
      Relation.ReflTransGen SessionEdge row.standing row'.standing ∧
      (row.status.Final → row' = row) := by
  induction h with
  | refl => exact ⟨row, hrow, .refl row, .refl, fun _ => rfl⟩
  | tail hreach hs ih =>
    obtain ⟨row₁, hrow₁, hsame, hedges, hfinal⟩ := ih
    obtain ⟨row₂, hrow₂, hevolves⟩ := HITLRow.evolves_of_step hD (run.trans hreach) hs hrow₁
    refine ⟨row₂, hrow₂, hsame.trans hevolves.same, ?_, fun hf => ?_⟩
    · rcases hevolves.change with rfl | hedge
      · exact hedges
      · exact hedges.tail hedge
    · obtain rfl := hfinal hf
      exact hevolves.of_final hf

end Runs

/-- **The session lifecycle.** In every run of decisions and sweeps, with any answers, any
interleaving and crashes anywhere, from every database: every step keeps every session, its
operation, and its status and version up to an edge; over any stretch of a run, the session moves
along edges, and stays as it is from the moment on at which it is rejected, has failed or was
handed to reconciliation. -/
theorem session_lifecycle (dep : Deployment) {db : Db} {c : (service dep).Config}
    (run : (service dep).Reach (.crashing Call.IsDecision) (Pool.init db) c) :
    (∀ c' sid row, (service dep).Step (.crashing Call.IsDecision) c c' →
      c.shared.hitl.get sid = some row →
        ∃ row', c'.shared.hitl.get sid = some row' ∧ row.Evolves row') ∧
    ∀ c' sid row, (service dep).Reach (.crashing Call.IsDecision) c c' →
      c.shared.hitl.get sid = some row →
        ∃ row', c'.shared.hitl.get sid = some row' ∧ HITLRecord.SameOperation row row' ∧
          Relation.ReflTransGen SessionEdge row.standing row'.standing ∧
          (row.status.Final → row' = row) :=
  ⟨fun _ _ _ hs hrow => HITLRow.evolves_of_step (fun _ h => h) run hs hrow,
    fun _ _ _ hreach hrow => HITLRow.evolves_of_reach (fun _ h => h) run hreach hrow⟩

/-- The session is at its third version, and its operation was carried out. -/
def resumedTwiceWritten (c : (service demo).Config) : Bool :=
  match c.shared.hitl.get "s" with
  | some row => row.status = .resumed && row.version = 3
  | none => false

/-- Two operators race, one wins, and the process dies: the session was written twice. -/
theorem session_lifecycle_in_race :
    ∃ row' : HITLRow, row'.standing = (.resumed, 3) ∧
      Relation.ReflTransGen SessionEdge (.pending, 1) row'.standing := by
  have hrun : (((service demo).run? (.crashing Call.IsDecision) raceSchedule
    (Pool.init demoDb)).map resumedTwiceWritten).getD false = true := rfl
  obtain ⟨c, run, hc⟩ := Machine.exists_reach_of_run? hrun
  have start : (service demo).Reach (.crashing Call.IsDecision) (Pool.init demoDb) _ := .refl
  obtain ⟨row', hrow', -, hedges, -⟩ := (session_lifecycle demo start).2 c "s"
    ((demoOperation.session "t0").toRow demoPy) run rfl
  rw [resumedTwiceWritten, hrow'] at hc
  refine ⟨row', ?_, hedges⟩
  simpa [HITLRecord.standing, Prod.ext_iff] using hc

end BankingAgent
