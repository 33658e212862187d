import BankingAgent.OrderedDict
import BankingAgent.Recording
import Mathlib.Data.List.Induction

/-!
# `conversation_service.py`: the registry of threads

A thread is created, touched, archived and deleted. A deleted one stays in the registry under its
status, is not found any more, and may be created anew. `touch_thread` looks at the status before
it changes anything; `archive_thread` does not, and makes an archived thread out of a deleted one.

* `get?_step` — each thread of the registry is a machine of its own.
* `thread_registry_iff` — the answers are those of the calls since the latest creation, throughout a
  run, exactly if none of its calls archives a deleted thread.
-/

namespace BankingAgent

/-! ## The model -/

/-- `ThreadInfo.status`. -/
inductive ThreadStatus : Type where
  | active
  | archived
  | deleted
  deriving DecidableEq, Repr

/-- `ThreadInfo`. -/
structure ThreadInfo : Type where
  threadId : String
  createdAt : String
  updatedAt : String
  messageCount : ℕ
  status : ThreadStatus
  deriving DecidableEq

/-- `ThreadService`. -/
structure ThreadService : Type where
  threads : OrderedDict String ThreadInfo

/-- The calls of the service, with what the clock shows at those that read it. -/
inductive ThreadCall : Type where
  | create (threadId : String) (now : Instant)
  | touch (threadId : String) (now : Instant)
  | archive (threadId : String)
  | delete (threadId : String)
  | get (threadId : String)
  | list
  deriving DecidableEq

namespace ThreadService

variable (py : PyLib) (service : ThreadService)

/-- `create_thread`; an error is the message of its `ValueError`. -/
def createThread (threadId : String) (now : Instant) : Except String ThreadInfo × ThreadService :=
  let time := py.isoformat now
  let info : ThreadInfo := ⟨threadId, time, time, 0, .active⟩
  if (service.threads.get? threadId).any fun existing => existing.status ≠ .deleted then
    (.error ("Thread already exists: " ++ py.repr threadId), service)
  else (.ok info, ⟨service.threads.set threadId info⟩)

/-- `get_thread`. -/
def getThread (threadId : String) : Option ThreadInfo :=
  match service.threads.get? threadId with
  | none => none
  | some info => if info.status = .deleted then none else some info

/-- `touch_thread`. -/
def touchThread (threadId : String) (now : Instant) : Bool × ThreadService :=
  match service.threads.get? threadId with
  | none => (false, service)
  | some info =>
    if info.status = .deleted then (false, service)
    else
      let info :=
        { info with updatedAt := py.isoformat now, messageCount := info.messageCount + 1 }
      (true, ⟨service.threads.set threadId info⟩)

/-- `archive_thread`. -/
def archiveThread (threadId : String) : Bool × ThreadService :=
  match service.threads.get? threadId with
  | none => (false, service)
  | some info => (true, ⟨service.threads.set threadId { info with status := .archived }⟩)

/-- `delete_thread`. -/
def deleteThread (threadId : String) : Bool × ThreadService :=
  match service.threads.get? threadId with
  | none => (false, service)
  | some info => (true, ⟨service.threads.set threadId { info with status := .deleted }⟩)

/-- `list_active_threads`. -/
def listActiveThreads : List ThreadInfo :=
  service.threads.values.filter fun info => info.status ≠ .deleted && info.status ≠ .archived

/-- The service after a call. -/
def step : ThreadCall → ThreadService
  | .create threadId now => (service.createThread py threadId now).2
  | .touch threadId now => (service.touchThread py threadId now).2
  | .archive threadId => (service.archiveThread threadId).2
  | .delete threadId => (service.deleteThread threadId).2
  | .get _ | .list => service

/-- The call succeeds: it does not raise, and does not answer `False` or `None`. -/
def succeeds : ThreadCall → Bool
  | .create threadId now => (service.createThread py threadId now).1.toBool
  | .touch threadId now => (service.touchThread py threadId now).1
  | .archive threadId => (service.archiveThread threadId).1
  | .delete threadId => (service.deleteThread threadId).1
  | .get threadId => (service.getThread threadId).isSome
  | .list => true

end ThreadService

/-- A call that has been made, and whether it succeeded. -/
structure ThreadEvent : Type where
  call : ThreadCall
  ok : Bool
  deriving DecidableEq

/-- A service and the calls made of it, the latest first. -/
structure ThreadRun : Type where
  service : ThreadService
  events : List ThreadEvent

/-- One more call. -/
def ThreadRun.call (py : PyLib) (run : ThreadRun) (call : ThreadCall) : ThreadRun :=
  ⟨run.service.step py call, ⟨call, run.service.succeeds py call⟩ :: run.events⟩

/-- The calls, made of a new service one after the other. -/
def ThreadRun.of (py : PyLib) (calls : List ThreadCall) : ThreadRun :=
  calls.foldl (ThreadRun.call py) ⟨⟨.empty⟩, []⟩

/-! ## What the calls say about a thread -/

namespace ThreadEvent

variable (threadId : String) (e : ThreadEvent)

/-- A successful `create_thread` of the thread. -/
def creates : Bool :=
  match e.call with
  | .create t _ => e.ok && t = threadId
  | _ => false

/-- A successful `touch_thread` of the thread. -/
def touches : Bool :=
  match e.call with
  | .touch t _ => e.ok && t = threadId
  | _ => false

/-- A successful `archive_thread` of the thread. -/
def archives : Bool :=
  match e.call with
  | .archive t => e.ok && t = threadId
  | _ => false

/-- A successful `delete_thread` of the thread. -/
def deletes : Bool :=
  match e.call with
  | .delete t => e.ok && t = threadId
  | _ => false

end ThreadEvent

/-- The events since the latest successful creation of a thread, if there was one. -/
def since (threadId : String) : List ThreadEvent → Option (List ThreadEvent)
  | [] => none
  | e :: events =>
    if e.creates threadId then some [] else (since threadId events).map (e :: ·)

/-- The thread was created, and not deleted since. -/
def Live (threadId : String) (events : List ThreadEvent) : Prop :=
  ∃ later, since threadId events = some later ∧ ∀ e ∈ later, e.deletes threadId = false

/-- The thread was created, and neither archived nor deleted since. -/
def Listed (threadId : String) (events : List ThreadEvent) : Prop :=
  ∃ later, since threadId events = some later ∧
    ∀ e ∈ later, e.deletes threadId = false ∧ e.archives threadId = false

/-- **The law of the registry**: what it answers follows from the calls. -/
structure ThreadRun.Lawful (py : PyLib) (run : ThreadRun) : Prop where
  /-- `get_thread` finds the live threads -/
  found : ∀ t, run.service.getThread t ≠ none ↔ Live t run.events
  /-- `list_active_threads` has the threads that are neither archived nor deleted -/
  listed : ∀ t, t ∈ run.service.listActiveThreads.map ThreadInfo.threadId ↔ Listed t run.events
  /-- each of them once -/
  once : (run.service.listActiveThreads.map ThreadInfo.threadId).Nodup
  /-- `message_count` is the number of successful touches -/
  counted : ∀ t later, since t run.events = some later →
    (run.service.threads.get? t).map ThreadInfo.messageCount =
      some (later.countP (ThreadEvent.touches t))
  /-- `create_thread` raises if the thread is found -/
  raises : ∀ t now, (∃ message, (run.service.createThread py t now).1 = .error message) ↔
    run.service.getThread t ≠ none

/-- No call archives a thread that is deleted at the time. -/
def NeverArchivesDeleted (py : PyLib) (calls : List ThreadCall) : Prop :=
  ∀ pre t post, calls = pre ++ .archive t :: post →
    ∀ info, (ThreadRun.of py pre).service.threads.get? t = some info → info.status ≠ .deleted

/-! ## One thread -/

section Thread

variable {py : PyLib} {service : ThreadService} {run : ThreadRun} {call : ThreadCall}
  {calls : List ThreadCall} {t : String} {info : ThreadInfo} {later events : List ThreadEvent}

/-- What a call can make of the record of a thread, and how it ends. -/
inductive ThreadStep (t : String) : Option ThreadInfo → ThreadEvent → Option ThreadInfo → Prop
  | idle {e : ThreadEvent} (record : Option ThreadInfo) (hcreate : e.creates t = false)
      (htouch : e.touches t = false) (harchive : e.archives t = false)
      (hdelete : e.deletes t = false) : ThreadStep t record e record
  | created (record : Option ThreadInfo) (now : Instant) (time : String)
      (hgone : ∀ info ∈ record, info.status = .deleted) :
      ThreadStep t record ⟨.create t now, true⟩ (some ⟨t, time, time, 0, .active⟩)
  | touched (info : ThreadInfo) (now : Instant) (time : String) (hlive : info.status ≠ .deleted) :
      ThreadStep t (some info) ⟨.touch t now, true⟩
        (some { info with updatedAt := time, messageCount := info.messageCount + 1 })
  | archived (info : ThreadInfo) :
      ThreadStep t (some info) ⟨.archive t, true⟩ (some { info with status := .archived })
  | deleted (info : ThreadInfo) :
      ThreadStep t (some info) ⟨.delete t, true⟩ (some { info with status := .deleted })

/-- **Each thread** is a machine of its own, with these steps. -/
theorem threadStep (py : PyLib) (service : ThreadService) (call : ThreadCall) (t : String) :
    ThreadStep t (service.threads.get? t) ⟨call, service.succeeds py call⟩
      ((service.step py call).threads.get? t) := by
  cases call with
  | create t' now =>
    simp only [ThreadService.step, ThreadService.succeeds, ThreadService.createThread]
    by_cases hthere : (service.threads.get? t').any fun existing => existing.status ≠ .deleted
    · rw [if_pos hthere]
      exact .idle _ (by simp [ThreadEvent.creates, Except.toBool]) rfl rfl rfl
    · rw [if_neg hthere]
      by_cases ht : t' = t
      · subst ht
        rw [OrderedDict.get?_set_self]
        refine .created _ now _ fun info hinfo => ?_
        rw [Option.mem_def.mp hinfo] at hthere
        simpa using hthere
      · rw [OrderedDict.get?_set_of_ne (Ne.symm ht)]
        exact .idle _ (by simp [ThreadEvent.creates, ht]) rfl rfl rfl
  | touch t' now =>
    simp only [ThreadService.step, ThreadService.succeeds, ThreadService.touchThread]
    cases hold : service.threads.get? t' with
    | none => exact .idle _ rfl (by simp [ThreadEvent.touches]) rfl rfl
    | some info =>
      by_cases hdeleted : info.status = .deleted
      · simp only [if_pos hdeleted]
        exact .idle _ rfl (by simp [ThreadEvent.touches]) rfl rfl
      · simp only [if_neg hdeleted]
        by_cases ht : t' = t
        · subst ht
          rw [OrderedDict.get?_set_self, hold]
          exact .touched info now _ hdeleted
        · rw [OrderedDict.get?_set_of_ne (Ne.symm ht)]
          exact .idle _ rfl (by simp [ThreadEvent.touches, ht]) rfl rfl
  | archive t' =>
    simp only [ThreadService.step, ThreadService.succeeds, ThreadService.archiveThread]
    cases hold : service.threads.get? t' with
    | none => exact .idle _ rfl rfl (by simp [ThreadEvent.archives]) rfl
    | some info =>
      by_cases ht : t' = t
      · subst ht
        rw [OrderedDict.get?_set_self, hold]
        exact .archived info
      · rw [OrderedDict.get?_set_of_ne (Ne.symm ht)]
        exact .idle _ rfl rfl (by simp [ThreadEvent.archives, ht]) rfl
  | delete t' =>
    simp only [ThreadService.step, ThreadService.succeeds, ThreadService.deleteThread]
    cases hold : service.threads.get? t' with
    | none => exact .idle _ rfl rfl rfl (by simp [ThreadEvent.deletes])
    | some info =>
      by_cases ht : t' = t
      · subst ht
        rw [OrderedDict.get?_set_self, hold]
        exact .deleted info
      · rw [OrderedDict.get?_set_of_ne (Ne.symm ht)]
        exact .idle _ rfl rfl rfl (by simp [ThreadEvent.deletes, ht])
  | get t' => exact .idle _ rfl rfl rfl rfl
  | list => exact .idle _ rfl rfl rfl rfl

/-- What the registry holds of a thread is what the events since its creation say. -/
structure Mirrors (t : String) (info : ThreadInfo) (later : List ThreadEvent) : Prop where
  own : info.threadId = t
  deleted : info.status = .deleted ↔ ∃ e ∈ later, e.deletes t = true
  active : info.status = .active ↔ ∀ e ∈ later, e.deletes t = false ∧ e.archives t = false
  counted : info.messageCount = later.countP (ThreadEvent.touches t)

/-- The record of a thread, and the events since its creation. -/
def Reflects (t : String) (record : Option ThreadInfo) (events : List ThreadEvent) : Prop :=
  Option.Rel (Mirrors t) record (since t events)

/-- A thread that has a record was created. -/
theorem Reflects.exists_later {record : Option ThreadInfo} (h : Reflects t record events)
    (hrecord : record = some info) :
    ∃ later, since t events = some later ∧ Mirrors t info later := by
  rw [Reflects, hrecord] at h
  generalize since t events = created at h
  cases h with
  | some hmatch => exact ⟨_, rfl, hmatch⟩

/-- A thread that was created has a record. -/
theorem Reflects.exists_record {record : Option ThreadInfo} (h : Reflects t record events)
    (hsince : since t events = some later) :
    ∃ info, record = some info ∧ Mirrors t info later := by
  rw [Reflects, hsince] at h
  cases h with
  | some hmatch => exact ⟨_, rfl, hmatch⟩

/-- An event that does not create the thread is one more since it was created. -/
theorem Reflects.cons {e : ThreadEvent} {record record' : Option ThreadInfo}
    (h : Reflects t record events) (hcreate : e.creates t = false)
    (hnone : record = none → record' = none)
    (hsome : ∀ info later, record = some info → Mirrors t info later →
      ∃ info', record' = some info' ∧ Mirrors t info' (e :: later)) :
    Reflects t record' (e :: events) := by
  rw [Reflects, since, if_neg (by simp [hcreate])]
  rw [Reflects] at h
  generalize since t events = later at h
  cases h with
  | none =>
    rw [hnone rfl]
    exact .none
  | some hmatch =>
    obtain ⟨info', rfl, hmatch'⟩ := hsome _ _ rfl hmatch
    exact .some hmatch'

/-- **One step** keeps the record in line with the events, unless it archives a deleted thread. -/
theorem Reflects.step {e : ThreadEvent} {record record' : Option ThreadInfo}
    (h : Reflects t record events) (hstep : ThreadStep t record e record')
    (hlive : e.archives t = true → ∀ info ∈ record, info.status ≠ .deleted) :
    Reflects t record' (e :: events) := by
  cases hstep with
  | idle record hcreate htouch harchive hdelete =>
    refine h.cons hcreate id fun info later hinfo hmatch => ⟨info, hinfo, hmatch.own, ?_, ?_, ?_⟩
    · simp [hmatch.deleted, hdelete]
    · simp [hmatch.active, hdelete, harchive]
    · simp [hmatch.counted, htouch]
  | created record now time hgone =>
    rw [Reflects, since, if_pos (by simp [ThreadEvent.creates])]
    exact .some ⟨rfl, by simp, by simp, rfl⟩
  | touched info now time hnot =>
    refine h.cons rfl nofun fun info' later hinfo hmatch => ⟨_, rfl, ?_⟩
    obtain rfl := Option.some.inj hinfo
    refine ⟨hmatch.own, ?_, ?_, ?_⟩
    · simp [hmatch.deleted, ThreadEvent.deletes]
    · simp [hmatch.active, ThreadEvent.deletes, ThreadEvent.archives]
    · simp [hmatch.counted, ThreadEvent.touches]
  | archived info =>
    refine h.cons rfl nofun fun info' later hinfo hmatch => ⟨_, rfl, ?_⟩
    obtain rfl := Option.some.inj hinfo
    refine ⟨hmatch.own, ?_, ?_, ?_⟩
    · -- the thread was not deleted, so no event since its creation deletes it
      have hnot := hlive (by simp [ThreadEvent.archives]) info rfl
      rw [ne_eq, hmatch.deleted] at hnot
      simpa [ThreadEvent.deletes] using hnot
    · simp [ThreadEvent.archives]
    · simp [hmatch.counted, ThreadEvent.touches]
  | deleted info =>
    refine h.cons rfl nofun fun info' later hinfo hmatch => ⟨_, rfl, ?_⟩
    obtain rfl := Option.some.inj hinfo
    refine ⟨hmatch.own, ?_, ?_, ?_⟩
    · simp [ThreadEvent.deletes]
    · simp [ThreadEvent.deletes]
    · simp [hmatch.counted, ThreadEvent.touches]

/-! ## Runs -/

theorem ThreadRun.of_concat (py : PyLib) (calls : List ThreadCall) (call : ThreadCall) :
    ThreadRun.of py (calls ++ [call]) = (ThreadRun.of py calls).call py call := by
  simp [ThreadRun.of]

theorem NeverArchivesDeleted.of_append {post : List ThreadCall}
    (h : NeverArchivesDeleted py (calls ++ post)) : NeverArchivesDeleted py calls := by
  intro pre t rest hcalls
  exact h pre t (rest ++ post) (by simp [hcalls])

/-- **Throughout a run** that archives no deleted thread, every record follows the events. -/
theorem NeverArchivesDeleted.reflects (h : NeverArchivesDeleted py calls) (t : String) :
    Reflects t ((ThreadRun.of py calls).service.threads.get? t) (ThreadRun.of py calls).events := by
  induction calls using List.reverseRecOn with
  | nil => exact .none
  | append_singleton calls call ih =>
    rw [ThreadRun.of_concat]
    refine (ih h.of_append).step (threadStep py _ call t) fun harchives info hinfo => ?_
    cases call with
    | archive t' =>
      obtain rfl : t' = t := by
        simp only [ThreadEvent.archives, Bool.and_eq_true, decide_eq_true_eq] at harchives
        exact harchives.2
      exact h calls t' [] (by simp) info hinfo
    | create t' now => cases harchives
    | touch t' now => cases harchives
    | delete t' => cases harchives
    | get t' => cases harchives
    | list => cases harchives

theorem getThread_ne_none_iff : service.getThread t ≠ none ↔
    ∃ info, service.threads.get? t = some info ∧ info.status ≠ .deleted := by
  rw [ThreadService.getThread]
  cases service.threads.get? t with
  | none => simp
  | some info => by_cases hdeleted : info.status = .deleted <;> simp [hdeleted]

/-- `create_thread` refuses the threads `get_thread` finds, in whatever state the registry is. -/
theorem createThread_error_iff (py : PyLib) (service : ThreadService) (t : String) (now : Instant) :
    (∃ message, (service.createThread py t now).1 = .error message) ↔
      service.getThread t ≠ none := by
  rw [getThread_ne_none_iff, ThreadService.createThread]
  cases service.threads.get? t with
  | none => simp
  | some info => by_cases hdeleted : info.status = .deleted <;> simp [hdeleted]

theorem mem_listActiveThreads_iff : info ∈ service.listActiveThreads ↔
    (∃ t, service.threads.get? t = some info) ∧ info.status = .active := by
  rw [ThreadService.listActiveThreads, List.mem_filter, OrderedDict.mem_values_iff]
  cases info.status <;> simp

section Records

variable (h : ∀ t, Reflects t (run.service.threads.get? t) run.events)
include h

/-- A record of the registry bears the name it is found under. -/
theorem threadId_of_reflects (hinfo : run.service.threads.get? t = some info) :
    info.threadId = t := by
  obtain ⟨later, -, hmatch⟩ := (h t).exists_later hinfo
  exact hmatch.own

theorem found_of_reflects : run.service.getThread t ≠ none ↔ Live t run.events := by
  rw [getThread_ne_none_iff, Live]
  constructor
  · rintro ⟨info, hinfo, hnot⟩
    obtain ⟨later, hsince, hmatch⟩ := (h t).exists_later hinfo
    refine ⟨later, hsince, ?_⟩
    simpa [hmatch.deleted] using hnot
  · rintro ⟨later, hsince, hnone⟩
    obtain ⟨info, hinfo, hmatch⟩ := (h t).exists_record hsince
    refine ⟨info, hinfo, ?_⟩
    simpa [hmatch.deleted] using hnone

theorem listed_of_reflects :
    t ∈ run.service.listActiveThreads.map ThreadInfo.threadId ↔ Listed t run.events := by
  rw [List.mem_map, Listed]
  constructor
  · rintro ⟨info, hinfo, rfl⟩
    obtain ⟨⟨t, hrecord⟩, hactive⟩ := mem_listActiveThreads_iff.mp hinfo
    rw [threadId_of_reflects h hrecord]
    obtain ⟨later, hsince, hmatch⟩ := (h t).exists_later hrecord
    exact ⟨later, hsince, hmatch.active.mp hactive⟩
  · rintro ⟨later, hsince, hnone⟩
    obtain ⟨info, hrecord, hmatch⟩ := (h t).exists_record hsince
    exact ⟨info, mem_listActiveThreads_iff.mpr ⟨⟨t, hrecord⟩, hmatch.active.mpr hnone⟩, hmatch.own⟩

theorem once_of_reflects : (run.service.listActiveThreads.map ThreadInfo.threadId).Nodup := by
  have hkeys : run.service.threads.values.map ThreadInfo.threadId =
      run.service.threads.entries.map Prod.fst := by
    rw [OrderedDict.values, List.map_map]
    exact List.map_congr_left fun e he =>
      threadId_of_reflects h (OrderedDict.get?_eq_some_iff.mpr he)
  have hnodup := run.service.threads.nodup
  rw [← hkeys] at hnodup
  exact hnodup.sublist (List.filter_sublist.map _)

theorem counted_of_reflects (hsince : since t run.events = some later) :
    (run.service.threads.get? t).map ThreadInfo.messageCount =
      some (later.countP (ThreadEvent.touches t)) := by
  obtain ⟨info, hinfo, hmatch⟩ := (h t).exists_record hsince
  rw [hinfo, Option.map_some, hmatch.counted]

/-- In a registry whose records follow the events, the answers do. -/
theorem lawful_of_reflects : run.Lawful py where
  found _ := found_of_reflects h
  listed _ := listed_of_reflects h
  once := once_of_reflects h
  counted _ _ := counted_of_reflects h
  raises := createThread_error_iff py _

end Records

end Thread

/-- **The registry of threads** answers by the calls since the latest creation of each thread,
throughout a run, exactly if no call of the run archives a deleted thread. -/
theorem thread_registry_iff (py : PyLib) (calls : List ThreadCall) :
    (∀ pre, pre <+: calls → (ThreadRun.of py pre).Lawful py) ↔ NeverArchivesDeleted py calls := by
  constructor
  · rintro hlawful pre t post rfl info hinfo hdeleted
    -- after the call the thread is found, though it was not found before
    have hbefore := (hlawful pre (List.prefix_append _ _)).found t
    have hafter := (hlawful (pre ++ [.archive t]) ⟨post, by simp⟩).found t
    rw [ThreadRun.of_concat] at hafter
    have hgone : ¬ Live t (ThreadRun.of py pre).events := by
      rw [← hbefore, getThread_ne_none_iff, hinfo]
      simp [hdeleted]
    have hback : Live t ((ThreadRun.of py pre).call py (.archive t)).events := by
      rw [← hafter, getThread_ne_none_iff]
      exact ⟨{ info with status := .archived },
        by simp [ThreadRun.call, ThreadService.step, ThreadService.archiveThread, hinfo], by simp⟩
    obtain ⟨later, hsince, hnone⟩ := hback
    rw [ThreadRun.call, since, if_neg (by simp [ThreadEvent.creates]), Option.map_eq_some_iff]
      at hsince
    obtain ⟨later, hsince, rfl⟩ := hsince
    exact hgone ⟨later, hsince, fun e he => hnone e (List.mem_cons_of_mem _ he)⟩
  · rintro hnever pre ⟨post, rfl⟩
    exact lawful_of_reflects hnever.of_append.reflects

/-- A thread is created, deleted and archived. -/
def revivedThread : List ThreadCall :=
  [.create "thread-1" 0, .delete "thread-1", .archive "thread-1"]

/-- The deleted thread is found again. -/
theorem deleted_thread_found : ¬ ∀ pre, pre <+: revivedThread →
    (ThreadRun.of demoPy pre).Lawful demoPy := by
  intro hlawful
  have hfound := (hlawful revivedThread (List.prefix_refl _)).found "thread-1"
  obtain ⟨later, hsince, hnone⟩ := hfound.mp (by decide)
  obtain rfl : [⟨.archive "thread-1", true⟩, ⟨.delete "thread-1", true⟩] = later :=
    Option.some.inj (hsince ▸ by decide)
  exact absurd (hnone ⟨.delete "thread-1", true⟩ (by simp)) (by decide)

end BankingAgent
