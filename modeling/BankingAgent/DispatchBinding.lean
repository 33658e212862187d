import BankingAgent.DispatchOnce
import BankingAgent.Recording
import BankingAgent.Async.Outline

/-!
# What is dispatched is what was approved

A session and a grant describe the same operation in two ways, and `atomic_consume`
compares them: the columns one by one, the arguments by the hash of their sorted
text. What is dispatched is read back from that text. So a dispatch for a session
is a call of the recorded tool with the recorded arguments, and there is none where
session and grant disagree.
-/

namespace BankingAgent

open Async

/-- Session and grant describe the same operation. -/
structure Agrees (py : PyLib) (s : HITLSession) (g : GrantRecord) : Prop where
  call : s.toolCallId = g.toolCallId
  tool : s.toolName = g.toolName
  args : ∃ args, py.loads g.canonicalToolArgs = some args ∧ args.Same s.toolArgs
  thread : s.threadId = g.threadId
  user : s.userId = g.requestingUserId
  key : s.grantKey = g.idempotencyKey

/-- The grant passed the comparison of `atomic_consume`. -/
structure Matched (py : PyLib) (s : HITLSession) (g : GrantRecord) : Prop where
  user : g.requestingUserId = s.userId
  thread : g.threadId = s.threadId
  call : g.toolCallId = s.toolCallId
  tool : g.toolName = s.toolName
  digest : g.argumentDigest = py.digest s.toolArgs
  key : g.idempotencyKey = s.grantKey

theorem matched_of_consume {py : PyLib} {s : HITLSession} {sid actorId now : String}
    {g : GrantRecord}
    (h : (GrantRecord.consume (s.consumeParams py sid actorId) now).guard g = true) :
    Matched py s g := by
  obtain ⟨hu, ht, hc, hn, hd, hk⟩ := GrantRecord.consume_guard h
  exact ⟨hu, ht, hc, hn, hd, hk⟩

/-- The comparison does not see what a statement may change. -/
theorem Matched.congr {py : PyLib} {s s' : HITLSession} {g g' : GrantRecord}
    (h : Matched py s g) (hs : s'.SameOperation s) (hg : g'.SameOperation g) :
    Matched py s' g' where
  user := hg.user.trans (h.user.trans hs.user.symm)
  thread := hg.thread.trans (h.thread.trans hs.thread.symm)
  call := hg.call.trans (h.call.trans hs.call.symm)
  tool := hg.tool.trans (h.tool.trans hs.tool.symm)
  digest := by rw [hg.digest, h.digest, hs.args]
  key := by
    rw [hg.key, h.key, HITLRecord.grantKey, HITLRecord.grantKey, hs.key]

/-- **The digest stands for the arguments.** If the hash is that of the grant's own
text and hashing is injective, a grant that matches agrees, and its text is the
sorted text of the arguments. -/
theorem Matched.agrees {py : PyLib} {s : HITLSession} {g : GrantRecord} (h : Matched py s g)
    (inj : Function.Injective py.sha256) (trip : py.RoundTrips s.toolArgs.sortKeys)
    (digest : g.argumentDigest = py.sha256 g.canonicalToolArgs) :
    Agrees py s g ∧ py.loads g.canonicalToolArgs = some s.toolArgs.sortKeys := by
  have htext : g.canonicalToolArgs = py.dumpsSorted s.toolArgs :=
    inj (digest.symm.trans h.digest)
  have hloads : py.loads g.canonicalToolArgs = some s.toolArgs.sortKeys := by
    rw [htext]
    exact trip
  exact ⟨⟨h.call.symm, h.tool.symm, ⟨_, hloads, Json.sortKeys_sortKeys _⟩, h.thread.symm,
    h.user.symm, h.key.symm⟩, hloads⟩

section Binding

variable (dep : Deployment) (sid : String) {row₀ : HITLRow} {s₀ : HITLSession} {g₀ : GrantRecord}

/-- What an `approve` call knows about the operation, position by position. -/
def Pos.Knows (py : PyLib) (s₀ : HITLSession) (g₀ : GrantRecord) : Pos → Prop
  | loaded s => s₀.SameOperation s
  | granted s _ => s₀.SameOperation s
  | approved s _ => s₀.SameOperation s
  | consuming _ => Matched py s₀ g₀
  | claimed _ g => Matched py s₀ g₀ ∧ g₀.SameOperation g
  | looked _ g _ => Matched py s₀ g₀ ∧ g₀.SameOperation g
  | reserving _ g _ => Matched py s₀ g₀ ∧ g₀.SameOperation g
  | reserved _ g _ => Matched py s₀ g₀ ∧ g₀.SameOperation g
  | _ => True

/-- The entry is no dispatch for the session, or one of the granted operation. -/
def BoundEntry (py : PyLib) (s₀ : HITLSession) (g₀ : GrantRecord) (e : LogEntry Call) : Prop :=
  IsDispatch sid e = true → Matched py s₀ g₀ ∧
    ∃ site args, e.op = .callTool site ⟨.str g₀.toolName, args⟩ ∧
      py.loads g₀.canonicalToolArgs = some args

/-- The database holds `row₀` and `g₀`, as far as the operation goes. -/
def SameStored (row₀ : HITLRow) (g₀ : GrantRecord) (db : Db) : Prop :=
  (∃ row, db.hitl.get sid = some row ∧ HITLRecord.SameOperation row₀ row) ∧
    ∃ g, db.grants.get sid = some g ∧ g₀.SameOperation g

theorem SameStored.exec {sid : String} {o : Op} {env : Env} {r : o.Res} {db db' : Db}
    (h : SameStored sid row₀ g₀ db) (he : exec o env db = some (r, db')) :
    SameStored sid row₀ g₀ db' := by
  obtain ⟨⟨row, hrow, hr⟩, g, hg, hs⟩ := h
  refine ⟨?_, ?_⟩
  · rw [exec_hitlAfter he]
    cases o with
    | hitl o => exact HITLOp.sameOperation hrow hr
    | _ => exact ⟨row, hrow, hr⟩
  · rw [exec_grantsAfter he]
    cases o with
    | grant o => exact GrantOp.sameOperation hg hs
    | _ => exact ⟨g, hg, hs⟩

/-- One step of an `approve` call for the session: what it knows afterwards. -/
theorem Move.knows (hrow₀ : row₀.toSession dep.py = some s₀) {call : Call} {p q : Pos} {o : Op}
    {r : o.Res} {env : Env} {db db' : Db} {i : ℕ} (hdb : SameStored sid row₀ g₀ db)
    (hp : ∀ ctx, call = .approve sid ctx → p.Knows dep.py s₀ g₀)
    (move : Move dep.py call p o r q) (he : exec o env db = some (r, db')) :
    BoundEntry sid dep.py s₀ g₀ ⟨i, call, o, env, r⟩ ∧
      ∀ ctx, call = .approve sid ctx → q.Knows dep.py s₀ g₀ := by
  refine ⟨fun hd => ?_, ?_⟩
  · obtain ⟨⟨ctx, rfl⟩, site, tc, ho⟩ := isDispatch_iff.mp hd
    cases move with
    | @dispatch _ _ s g retry args answer hargs =>
      obtain ⟨hm, hg⟩ := hp _ rfl
      refine ⟨hm, .executor sid s.idemKey, args, ?_, ?_⟩
      · rw [hg.tool]
      · rw [hg.args]
        exact hargs
    | idle r quiet => subst ho; exact quiet.elim
    | _ => cases ho
  · rintro ctx rfl
    obtain ⟨⟨row, hrow, hsame⟩, g', hg', hsg⟩ := hdb
    cases move with
    | idle => exact hp _ rfl
    | load dec row_eq live =>
      obtain rfl := dec
      obtain ⟨hr, -⟩ := exec_hitl he
      obtain rfl := Option.some.inj (hrow.symm.trans hr.symm)
      exact HITLRow.toSession_sameOperation hsame hrow₀ row_eq
    | grant => exact hp _ rfl
    | approve => exact hp _ rfl
    | consume now =>
      obtain ⟨hr, -⟩ := exec_grant he
      obtain ⟨g, hg, hguard, -, -⟩ := GrantUpdate.get_of_hit hr.symm
      obtain rfl := Option.some.inj (hg'.symm.trans hg)
      exact (matched_of_consume hguard).congr (hp _ rfl) hsg
    | claim g =>
      obtain ⟨hr, -⟩ := exec_grant he
      obtain ⟨hg, -⟩ := Option.filter_eq_some_iff.mp hr.symm
      obtain rfl := Option.some.inj (hg'.symm.trans hg)
      exact ⟨hp _ rfl, hsg⟩
    | lookupNone => exact hp _ rfl
    | lookupFailed => exact hp _ rfl
    | reserve => exact hp _ rfl
    | reread => exact hp _ rfl
    | _ => trivial

/-- The outline: what is stored stays the same operation, and what `approve` knows
about it does not depend on anybody else. -/
def bindingOutline (D : Discipline Db Call (LogEntry Call))
    (hrow₀ : row₀.toSession dep.py = some s₀) :
    (service dep).Outline D (Move dep.py) (fun _ => .start) where
  inv db h := SameStored sid row₀ g₀ db ∧ ∀ e ∈ h, BoundEntry sid dep.py s₀ g₀ e
  asserts _ _ _ call p := ∀ ctx, call = .approve sid ctx → p.Knows dep.py s₀ g₀
  owns _ _ := False
  entry _ _ _ := ⟨fun _ _ => trivial, id⟩
  step hinv hp move he _ := by
    obtain ⟨hdb, hh⟩ := hinv
    obtain ⟨hentry, hq⟩ := Move.knows dep sid hrow₀ hdb hp move he
    exact ⟨⟨hdb.exec he, List.forall_mem_cons.mpr ⟨hentry, hh⟩⟩, hq⟩
  free _ _ h _ _ _ _ _ := h
  excl _ _ _ _ _ h _ := h.elim

/-- **Dispatch binding**, for any stored session and grant whose digest is that of
its text: a dispatch happens only if they agree, and then it is a call of the
session's tool with the session's arguments. -/
theorem dispatch_bound {D : Discipline Db Call (LogEntry Call)} {db : Db}
    {c : (service dep).Config} (decisions : ∀ call, D.start call → call.IsDecision)
    (inj : Function.Injective dep.py.sha256)
    (hrow : db.hitl.get sid = some row₀) (hs : row₀.toSession dep.py = some s₀)
    (trip : dep.py.RoundTrips s₀.toolArgs.sortKeys) (hg : db.grants.get sid = some g₀)
    (digest : g₀.argumentDigest = dep.py.sha256 g₀.canonicalToolArgs)
    (run : (service dep).Reach D (Pool.init db) c) :
    ∀ e ∈ c.hist, IsDispatch sid e = true → Agrees dep.py s₀ g₀ ∧
      ∃ site args, e.op = .callTool site ⟨.str s₀.toolName, args⟩ ∧ args.Same s₀.toolArgs := by
  have hstored : SameStored sid row₀ g₀ db := ⟨⟨row₀, hrow, .refl row₀⟩, g₀, hg, .refl g₀⟩
  have hinv := (bindingOutline dep sid D hs).sound_inv
    (fun call h => decision_follows dep call (decisions call h))
    ⟨hstored, fun _ he => absurd he List.not_mem_nil⟩ run
  intro e he hd
  obtain ⟨hm, site, args, hop, hargs⟩ := hinv.2 e he hd
  obtain ⟨hagree, hloads⟩ := hm.agrees inj trip digest
  obtain rfl := Option.some.inj (hargs.symm.trans hloads)
  exact ⟨hagree, site, _, by rw [hop, hm.tool], Json.sortKeys_sortKeys _⟩

end Binding

/-- An interrupt whose arguments are the object `fields` is recorded with them. -/
theorem PendingOperation.toolArgs_ofInterrupt {py : PyLib} {payload : Option String}
    {subject : String} {info : Json} {fields : List (String × Json)}
    (h : info.get? "tool_args" = some (.obj fields)) :
    (PendingOperation.ofInterrupt py payload subject info).toolArgs = .obj fields := by
  rw [PendingOperation.ofInterrupt, h]
  rfl

/-- **Dispatch binding.** For every interrupt with an object of arguments, recorded as
a session and a grant, every tool call `approve` makes for it, in any interleaving of
decisions and sweeps, calls the recorded tool with arguments equal to the recorded
ones. And for every stored session and grant whose digest is that of its text, there
is no tool call where they disagree. -/
theorem approve_dispatches_what_was_recorded (dep : Deployment)
    (inj : Function.Injective dep.py.sha256) :
    (∀ (payload : Option String) (subject : String) (info : Json)
        (fields : List (String × Json)) (db : Db) (c : (service dep).Config),
      let p := PendingOperation.ofInterrupt dep.py payload subject info
      info.get? "tool_args" = some (.obj fields) →
      dep.py.RoundTrips (.obj fields) → dep.py.RoundTrips (Json.obj fields).sortKeys →
      p.Recorded dep.py db →
      (service dep).Reach (.crashing Call.IsDecision) (Pool.init db) c →
      ∀ e ∈ c.hist, IsDispatch p.sessionId e = true →
        ∃ site args,
          e.op = .callTool site ⟨.str (infoString dep.py info "tool_name" "unknown"), args⟩ ∧
            args.Same (.obj fields)) ∧
    (∀ (sid : String) (db : Db) (row : HITLRow) (s : HITLSession) (g : GrantRecord)
        (c : (service dep).Config),
      db.hitl.get sid = some row → row.toSession dep.py = some s →
      dep.py.RoundTrips s.toolArgs.sortKeys → db.grants.get sid = some g →
      g.argumentDigest = dep.py.sha256 g.canonicalToolArgs → ¬ Agrees dep.py s g →
      (service dep).Reach (.crashing Call.IsDecision) (Pool.init db) c →
      dispatches sid c.hist = 0) := by
  refine ⟨?_, ?_⟩
  · intro payload subject info fields db c p hargs htrip hsorted hrec run e he hd
    have hp : p.toolArgs = .obj fields := PendingOperation.toolArgs_ofInterrupt hargs
    obtain ⟨⟨now, hrow⟩, now', hg⟩ := hrec
    have hs : ((p.session now).toRow dep.py).toSession dep.py = some (p.session now) := by
      simp only [HITLRow.toSession, HITLSession.toRow, PendingOperation.session, hp]
      rw [htrip]
      rfl
    have htrip' : dep.py.RoundTrips (p.session now).toolArgs.sortKeys := by
      rw [PendingOperation.session, hp]
      exact hsorted
    obtain ⟨-, site, args, hop, hsame⟩ :=
      dispatch_bound dep p.sessionId (fun _ h => h) inj hrow hs htrip' hg rfl run e he hd
    refine ⟨site, args, hop, ?_⟩
    rw [← hp]
    exact hsame
  · intro sid db row s g c hrow hs htrip hg hdigest hdis run
    refine List.countP_eq_zero.mpr fun e he hd => hdis ?_
    exact (dispatch_bound dep sid (fun _ h => h) inj hrow hs htrip hg hdigest run e he hd).1

/-- In the race, the one tool call is the recorded one, with the recorded arguments. -/
theorem approve_dispatches_recorded_in_race :
    ∃ c : (service demo).Config, ∃ e ∈ c.hist, IsDispatch "s" e = true ∧
      ∃ site args, e.op = .callTool site ⟨.str "submit_transfer", args⟩ ∧ args.Same demoArgs := by
  have hrun : (((service demo).run? (.crashing Call.IsDecision) raceSchedule
    (Pool.init demoDb)).map fun c => c.hist.any (IsDispatch "s")).getD false = true := rfl
  obtain ⟨c, run, hc⟩ := Machine.exists_reach_of_run? hrun
  obtain ⟨e, he, hd⟩ := List.any_eq_true.mp hc
  exact ⟨c, e, he, hd, (approve_dispatches_what_was_recorded demo demoPy_sha256_injective).1
    (some "s") "alice" demoInterrupt _ demoDb c rfl demoPy_roundTrips demoPy_roundTrips_sorted
    demoDb_recorded run e he hd⟩

end BankingAgent
