import Taskflow.Lifecycle

/-!
# What every job value keeps, in every run

A `Job` value lives in a broker record, a store row, or the locals of a
goroutine. Every value of a later state is one of the earlier state's, or is
built from them by one of a few functions of the code: `NewJob`, the lease,
the records `FailJob` and `CompleteJob` write, what `json.Marshal` and
`json.Unmarshal` make of a record, the rows `processNextJob` mirrors, the
columns of a row as the store reads them back, the row `UpdateJob` leaves,
and the copy `cancelJob` mirrors.
`JobClosed P` says that each of them keeps `P`, and `everywhere_reachable`
concludes that `P` holds of every job value of every state of every run,
cancellations and failing commands included.

* `Job.Budget` (`1 ≤ max_attempts`, `0 ≤ attempts`) is such a property.
* `attempt_bound` — every record keeps its budget in every run, and stays
  within it (`attempts ≤ max_attempts`, failed when exhausted) in the runs
  without cancellation; `attempt_bound_counterexample` overruns it with a
  cancel.
-/

namespace Taskflow

/-! ## Where job values live -/

/-- The job values a worker's locals hold. -/
def WorkerPhase.locals : WorkerPhase → List Job
  | .leasing j | .counting j | .announcing j | .running j | .failing j _ | .completing j _ | .mirroring j _ => [j]
  | .failWriting j _ r | .completeWriting j _ r => [j, r]
  | _ => []

/-- The job values a `createJob` request holds. -/
def CreatePhase.locals : CreatePhase → List Job
  | .storing j | .enqueuing j => [j]
  | .responded _ _ => []

/-- The job values a `cancelJob` request holds. -/
def CancelPhase.locals : CancelPhase → List Job
  | .failing _ j | .mirroring j => [j]
  | .failWriting _ j r => [j, r]
  | _ => []

/-- The job values a goroutine holds. -/
def Thread.locals : Thread → List Job
  | .free => []
  | .worker w => w.phase.locals
  | .create c => c.locals
  | .cancel c => c.locals

/-- A property of job values that every function of the code deriving a job
value keeps. -/
structure JobClosed (P : Job → Prop) : Prop where
  new : ∀ req rand now, P (newJob req (generateJobID rand) now)
  lease : ∀ j wid now, P j → P (RedisQueue.leaseJob j wid now)
  fail : ∀ j msg now later, P j → P (RedisQueue.failRecord j msg now later)
  complete : ∀ j res now, P j → P (RedisQueue.completeRecord j res now)
  marshal : ∀ j r, P j → j.marshal = some r → P r
  failed_row : ∀ j msg now, P j → P (failedRow j msg now)
  completed_row : ∀ j res now, P j → P (completedRow j res now)
  insert_row : ∀ j r, P j → PostgresStorage.insertRow j = some r → P r
  columns : ∀ j r, P j → PostgresStorage.updateColumns j = some r → P r
  updated_row : ∀ row j, P row → P j → P (PostgresStorage.updatedRow row j)
  cancelled : ∀ j, P j → P { j with status := .failed, error := cancelMessage }

/-- `P` holds of every record and every row. -/
structure World.Everywhere (P : Job → Prop) (W : World) : Prop where
  records : ∀ x r, W.redis.jobs x = some r → P r
  rows : ∀ x r, W.db.jobs x = some r → P r

/-- `P` holds of every job value of the deployment. -/
structure Sys.Everywhere (P : Job → Prop) (s : Sys) : Prop where
  world : s.toWorld.Everywhere P
  locals : ∀ t, ∀ j ∈ (s.threads t).locals, P j

/-! ## The world's commands -/

namespace World.Everywhere

variable {P : Job → Prop} {W : World} (hW : W.Everywhere P)
include hW

theorem redis_getJob {x : JobId} {ok : Bool} {j : Job} (h : RedisQueue.getJob W.redis x ok = .ok j) : P j := by
  unfold RedisQueue.getJob at h
  split at h <;> [split at h; cases h]
  · cases h; exact hW.records x j ‹_›
  · cases h

theorem db_getJob {x : JobId} {ok : Bool} {j : Job} (h : PostgresStorage.getJob W.db x ok = .ok j) : P j := by
  unfold PostgresStorage.getJob at h
  split at h <;> [split at h; cases h]
  · cases h; exact hW.rows x j ‹_›
  · cases h

theorem of_jobs {W' : World} (hr : W'.redis.jobs = W.redis.jobs) (hd : W'.db.jobs = W.db.jobs) :
    W'.Everywhere P :=
  ⟨hr ▸ hW.records, hd ▸ hW.rows⟩

theorem storeJob (hP : JobClosed P) {W' : World} {j : Job} (hj : P j) (hr : W'.redis.jobs = (W.redis.storeJob j).jobs)
    (hd : W'.db.jobs = W.db.jobs) : W'.Everywhere P := by
  refine ⟨fun x r h => ?_, hd ▸ hW.rows⟩
  rw [hr, Redis.storeJob_jobs] at h
  split at h
  · exact hP.marshal j r hj h
  · exact hW.records x r h

theorem updateJob (hP : JobClosed P) {j : Job} (hj : P j) {db : Postgres}
    (h : PostgresStorage.updateJob W.db j = .ok db) : { W with db }.Everywhere P := by
  obtain ⟨cols, hcols, hx⟩ := PostgresStorage.updateJob_ok h
  refine ⟨hW.records, fun x r h => ?_⟩
  dsimp only at h
  rw [hx] at h
  split at h
  · obtain ⟨row, hrow, rfl⟩ := Option.map_eq_some'.1 h
    exact hP.updated_row row cols (hW.rows _ row hrow) (hP.columns j cols hj hcols)
  · exact hW.rows x r h

theorem storeOr (hP : JobClosed P) {j : Job} (hj : P j) (ok : Bool) :
    (W.storeOr ok (PostgresStorage.updateJob W.db j)).Everywhere P := by
  unfold World.storeOr
  split
  · exact hW.updateJob hP hj ‹_›
  · exact hW

theorem createJob (hP : JobClosed P) {j : Job} {db : Postgres} (hj : P j)
    (h : PostgresStorage.createJob W.db j = .ok db) : { W with db := db }.Everywhere P := by
  obtain ⟨row, hrow, -, hjobs, -⟩ := PostgresStorage.createJob_ok h
  refine ⟨hW.records, fun x r hx => ?_⟩
  dsimp only at hx
  rw [hjobs] at hx
  split at hx
  · cases hx; exact hP.insert_row j _ hj hrow
  · exact hW.rows x r hx

end World.Everywhere

/-! ## Preservation -/

/-- The request `cancelCheck` leads to holds the job it checked. -/
theorem cancelCheck_locals (jobId : JobId) (job : Job) : ∀ j ∈ (cancelCheck jobId job).locals, j = job := by
  unfold cancelCheck; split <;> simp [CancelPhase.locals]

/-- Slot `t` takes a thread and a world that keep `P`. -/
theorem Sys.Everywhere.put {P : Job → Prop} {s : Sys} (h : s.Everywhere P) {t : Nat} {th : Thread} {W : World}
    (hW : W.Everywhere P) (hl : ∀ j ∈ th.locals, P j) : (s.put t th W).Everywhere P := by
  refine ⟨hW, fun u => ?_⟩
  rw [Sys.put_threads]; split
  · exact hl
  · exact h.locals u

section
variable {P : Job → Prop} (hP : JobClosed P)
include hP

/-- One command of a `createJob` request keeps `P` of every job value. -/
theorem CreatePhase.step_everywhere (c : CreatePhase) (e : Env) {W : World} (hW : W.Everywhere P)
    (hl : ∀ j ∈ c.locals, P j) :
    (c.step e W).2.Everywhere P ∧ ∀ j ∈ (c.step e W).1.locals, P j := by
  cases c with
  | storing j =>
    have hj : P j := hl j (by simp [CreatePhase.locals])
    simp only [CreatePhase.step]; split
    · exact ⟨hW.createJob hP hj ‹_›, by simpa [CreatePhase.locals] using hj⟩
    · exact ⟨hW, by simp [CreatePhase.locals]⟩
  | enqueuing j =>
    have hj : P j := hl j (by simp [CreatePhase.locals])
    simp only [CreatePhase.step]; split
    · obtain ⟨-, rfl⟩ := RedisQueue.enqueueJob_ok ‹_›
      exact ⟨hW.storeJob hP hj (by simp) rfl, by simp [CreatePhase.locals]⟩
    · exact ⟨hW, by simp [CreatePhase.locals]⟩
  | responded => exact ⟨hW, by simp [CreatePhase.step, CreatePhase.locals]⟩

/-- One command of a worker keeps `P` of every job value. -/
theorem WorkerThread.next_everywhere (w : WorkerThread) (e : Env) {W : World} (hW : W.Everywhere P)
    (hl : ∀ j ∈ w.phase.locals, P j) :
    (w.next e W).2.Everywhere P ∧ ∀ j ∈ (w.next e W).1.locals, P j := by
  rcases w with ⟨id, types, p⟩
  cases p with
  | registering =>
    simp only [WorkerThread.next]; split
    · exact ⟨hW.of_jobs rfl (PostgresStorage.registerWorker_jobs ‹_›), by simp [WorkerPhase.locals]⟩
    · exact ⟨hW, by simp [WorkerPhase.locals]⟩
  | idle =>
    simp only [WorkerThread.next]; split
    · exact ⟨hW.of_jobs (Redis.brpoplpush_spec ‹_›).2.2 rfl, by simp [WorkerPhase.locals]⟩
    · exact ⟨hW, by simp [WorkerPhase.locals]⟩
  | fetched x =>
    simp only [WorkerThread.next]; split
    · exact ⟨hW, by simpa [WorkerPhase.locals] using hP.lease _ id e.now (hW.redis_getJob ‹_›)⟩
    · exact ⟨hW, by simp [WorkerPhase.locals]⟩
  | dropping x =>
    simp only [WorkerThread.next]; split
    · exact ⟨hW.of_jobs (by simp) rfl, by simp [WorkerPhase.locals]⟩
    · exact ⟨hW, by simp [WorkerPhase.locals]⟩
  | leasing j =>
    have hj : P j := hl j (by simp [WorkerPhase.locals])
    simp only [WorkerThread.next]; split
    · obtain ⟨-, rfl⟩ := RedisQueue.updateJob_ok ‹_›
      exact ⟨hW.storeJob hP hj rfl rfl, by simpa [WorkerPhase.locals] using hj⟩
    · exact ⟨hW, by simp [WorkerPhase.locals]⟩
  | counting j =>
    simp only [WorkerThread.next]
    exact ⟨by split <;> [exact hW.of_jobs (by simp) rfl; exact hW], by simpa [WorkerPhase.locals] using hl⟩
  | announcing j =>
    exact ⟨hW.of_jobs (by simp [WorkerThread.next]) (by simp [WorkerThread.next]),
      by simpa [WorkerThread.next, WorkerPhase.locals] using hl⟩
  | running j =>
    simp only [WorkerThread.next]; split <;> exact ⟨hW, by simpa [WorkerPhase.locals] using hl⟩
  | failing j msg =>
    have hj : P j := hl j (by simp [WorkerPhase.locals])
    simp only [WorkerThread.next]; split
    · exact ⟨hW, by simpa [WorkerPhase.locals, hj] using hW.redis_getJob ‹_›⟩
    · exact ⟨hW, by simpa [WorkerPhase.locals] using hj⟩
  | failWriting j msg r =>
    have hj : P j := hl j (by simp [WorkerPhase.locals])
    have hr : P r := hl r (by simp [WorkerPhase.locals])
    simp only [WorkerThread.next]
    refine ⟨?_, by simpa [WorkerPhase.locals] using hj⟩
    rcases World.brokerOr_redis W e.ok (RedisQueue.failJob W.redis j.id r msg e.now e.later) with h | ⟨-, h⟩
    · exact hW.of_jobs (by rw [h]) (by simp)
    · exact hW.storeJob hP (hP.fail r msg e.now e.later hr) (RedisQueue.failJob_jobs h) (by simp)
  | completing j res =>
    have hj : P j := hl j (by simp [WorkerPhase.locals])
    simp only [WorkerThread.next]; split
    · exact ⟨hW, by simpa [WorkerPhase.locals, hj] using hW.redis_getJob ‹_›⟩
    · exact ⟨hW, by simpa [WorkerPhase.locals] using hj⟩
  | completeWriting j res r =>
    have hj : P j := hl j (by simp [WorkerPhase.locals])
    have hr : P r := hl r (by simp [WorkerPhase.locals])
    simp only [WorkerThread.next]
    refine ⟨?_, by simpa [WorkerPhase.locals] using hj⟩
    split
    · exact hW.storeJob hP (hP.complete r res e.now hr) (by simp [RedisQueue.completeJob_eq]) rfl
    · exact hW
  | mirroring j out =>
    have hj : P j := hl j (by simp [WorkerPhase.locals])
    have hrow : P (mirrorRow j out e.now) := by
      cases out
      · exact hP.failed_row j _ e.now hj
      · exact hP.completed_row j _ e.now hj
    exact ⟨hW.storeOr hP hrow e.ok, by simp [WorkerThread.next, WorkerPhase.locals]⟩
  | settling =>
    exact ⟨hW.of_jobs (by simp [WorkerThread.next]) (by simp [WorkerThread.next]),
      by simp [WorkerThread.next, WorkerPhase.locals]⟩
  | stopped => exact ⟨hW, by simp [WorkerThread.next, WorkerPhase.locals]⟩

/-- One command of a `cancelJob` request keeps `P` of every job value. -/
theorem CancelPhase.step_everywhere (c : CancelPhase) (e : Env) {W : World} (hW : W.Everywhere P)
    (hl : ∀ j ∈ c.locals, P j) :
    (c.step e W).2.Everywhere P ∧ ∀ j ∈ (c.step e W).1.locals, P j := by
  cases c with
  | lookup x =>
    simp only [CancelPhase.step]; split
    · exact ⟨hW, by simp [CancelPhase.locals]⟩
    · split
      · exact ⟨hW, fun j hj => cancelCheck_locals _ _ j hj ▸ hW.redis_getJob ‹_›⟩
      · exact ⟨hW, by simp [CancelPhase.locals]⟩
  | storeLookup x =>
    simp only [CancelPhase.step]; split
    · exact ⟨hW, fun j hj => cancelCheck_locals _ _ j hj ▸ hW.db_getJob ‹_›⟩
    · exact ⟨hW, by simp [CancelPhase.locals]⟩
  | failing x j =>
    have hj : P j := hl j (by simp [CancelPhase.locals])
    simp only [CancelPhase.step]; split
    · exact ⟨hW, by simpa [CancelPhase.locals, hj] using hW.redis_getJob ‹_›⟩
    · exact ⟨hW, by simp [CancelPhase.locals]⟩
  | failWriting x j r =>
    have hj : P j := hl j (by simp [CancelPhase.locals])
    have hr : P r := hl r (by simp [CancelPhase.locals])
    simp only [CancelPhase.step]; split
    · exact ⟨hW.storeJob hP (hP.fail r cancelMessage e.now e.later hr) (RedisQueue.failJob_jobs ‹_›) rfl,
        by simpa [CancelPhase.locals] using hP.cancelled j hj⟩
    · exact ⟨hW, by simp [CancelPhase.locals]⟩
  | mirroring j =>
    have hj : P j := hl j (by simp [CancelPhase.locals])
    exact ⟨hW.storeOr hP hj e.ok, by simp [CancelPhase.step, CancelPhase.locals]⟩
  | responded => exact ⟨hW, by simp [CancelPhase.step, CancelPhase.locals]⟩

/-- Every move keeps `P` of every job value. -/
theorem Sys.Everywhere.step {s : Sys} (h : s.Everywhere P) (a : Act) : (Taskflow.step s a).Everywhere P := by
  cases a with
  | startWorker t uuid types =>
    simp only [Taskflow.step]; split
    · refine ⟨h.world, (h.put h.world ?_).locals⟩
      simp [Thread.locals, WorkerPhase.locals]
    · exact h
  | submit t req rand now =>
    simp only [Taskflow.step]; split
    · exact h.put h.world (by simpa [Thread.locals, CreatePhase.locals] using hP.new req rand now)
    · exact h
  | cancel t x =>
    simp only [Taskflow.step]; split
    · exact h.put h.world (by simp [Thread.locals, CancelPhase.locals])
    · exact h
  | exec t e =>
    have hl := h.locals t
    simp only [Taskflow.step, Sys.exec]
    split <;> rename_i hth <;> rw [hth] at hl
    · exact h
    · exact h.put (WorkerThread.next_everywhere hP _ e h.world hl).1
        (WorkerThread.next_everywhere hP _ e h.world hl).2
    · exact h.put (CreatePhase.step_everywhere hP _ e h.world hl).1
        (CreatePhase.step_everywhere hP _ e h.world hl).2
    · exact h.put (CancelPhase.step_everywhere hP _ e h.world hl).1
        (CancelPhase.step_everywhere hP _ e h.world hl).2
  | beat t e =>
    simp only [Taskflow.step]; split
    · rename_i w hth
      exact h.put (h.world.of_jobs (by simp) (by simp)) (hth ▸ h.locals t)
    · exact h
  | halt t =>
    simp only [Taskflow.step]; split
    · rename_i w hth
      refine h.put h.world ?_
      have hl := h.locals t
      rw [hth] at hl
      unfold WorkerThread.halt; split
      · simp [Thread.locals, WorkerPhase.locals]
      · exact hl
    · exact h

/-- `P` holds of every job value of every state of every run. -/
theorem everywhere_reachable {allow : Act → Prop} {s : Sys} (hs : Reachable allow s) : s.Everywhere P := by
  induction hs with
  | init => refine ⟨⟨?_, ?_⟩, ?_⟩ <;> simp [Sys.empty, Redis.empty, Postgres.empty, Thread.locals]
  | step _ _ ih => exact ih.step hP _

end

/-! ## The attempt budget -/

/-- At least one attempt is allowed, and none is counted below zero. -/
structure Job.Budget (j : Job) : Prop where
  max_pos : 1 ≤ j.maxAttempts
  attempts_nonneg : 0 ≤ j.attempts

theorem budget_closed : JobClosed Job.Budget where
  new req _ now := ⟨newJob_maxAttempts_pos req _ now, by simp⟩
  lease _ _ _ h := ⟨h.1, h.2⟩
  fail _ _ _ _ h := ⟨by simpa using h.1, by have := h.2; simp only [RedisQueue.failRecord_attempts]; omega⟩
  complete _ _ _ h := ⟨h.1, h.2⟩
  marshal j r h hm := by obtain ⟨p, q, -, -, rfl⟩ := Job.marshal_eq_some hm; exact ⟨h.1, h.2⟩
  insert_row j r h hr := by
    obtain ⟨hs, hm⟩ := PostgresStorage.insertRow_stores hr
    exact ⟨hm ▸ h.1, hs.attempts ▸ h.2⟩
  failed_row j msg now h := by
    have := h.2
    unfold failedRow; dsimp only; split <;> exact ⟨h.1, by dsimp only; omega⟩
  completed_row _ _ _ h := ⟨h.1, h.2⟩
  columns _ _ h hr :=
    ⟨(PostgresStorage.updateColumns_maxAttempts hr) ▸ h.1, (PostgresStorage.updateColumns_stores hr).attempts ▸ h.2⟩
  updated_row _ _ hrow hj := ⟨hrow.1, hj.2⟩
  cancelled _ h := ⟨h.1, h.2⟩

/-- Every record keeps its attempt budget in every run; in a run without
cancellation it also stays within it, and an exhausted record is failed. -/
theorem attempt_bound {allow : Act → Prop} {s : Sys} (hs : Reachable allow s) :
    (∀ x r, s.redis.jobs x = some r → 1 ≤ r.maxAttempts ∧ 0 ≤ r.attempts) ∧
      ((∀ a, allow a → a.noCancel) → ∀ x r, s.redis.jobs x = some r →
        r.attempts ≤ r.maxAttempts ∧ (r.attempts = r.maxAttempts → r.status = .failed)) := by
  refine ⟨fun x r hr => ?_, fun hc x r hr => ?_⟩
  · have := (everywhere_reachable budget_closed hs).world.records x r hr
    exact ⟨this.max_pos, this.attempts_nonneg⟩
  · have := ((inv_noCancel hc hs).records x r hr).2
    exact ⟨this.attempts_le, this.exhausted⟩

theorem attempt_bound_mixed :
    Reachable Act.nominal mixedState ∧
      (mixedState.redis.jobs jobA).map (fun j => (j.status, j.attempts, j.maxAttempts)) = some (.failed, 1, 1) ∧
      (∀ x r, mixedState.redis.jobs x = some r → 1 ≤ r.maxAttempts ∧ 0 ≤ r.attempts) ∧
      ((∀ a, Act.nominal a → a.noCancel) → ∀ x r, mixedState.redis.jobs x = some r →
        r.attempts ≤ r.maxAttempts ∧ (r.attempts = r.maxAttempts → r.status = .failed)) :=
  ⟨mixedState_reachable, mixedState_records.2.1, attempt_bound mixedState_reachable⟩

/-! ## Job ids -/

/-- The id fits the `VARCHAR(255)` columns that hold it (`jobs.id`,
`workers.current_job`) as it is. -/
def Job.IdFits (j : Job) : Prop := PostgresStorage.varchar 255 j.id = some j.id

/-- Every job id is one `GenerateJobID` drew, and every function of the code
keeps the id. -/
theorem idFits_closed : JobClosed Job.IdFits where
  new _ rand _ := PostgresStorage.varchar_generateJobID rand
  lease _ _ _ h := h
  fail j msg now later h := by simpa [Job.IdFits] using h
  complete _ _ _ h := h
  marshal _ _ h hm := by rw [Job.IdFits, Job.marshal_id hm]; exact h
  insert_row j r h hr := by
    have e : r.id = j.id := Option.some.inj ((PostgresStorage.insertRow_some hr).1.symm.trans h)
    rw [Job.IdFits, e]; exact h
  failed_row j msg now h := by simpa [Job.IdFits] using h
  completed_row _ _ _ h := h
  columns _ _ h hr := by rw [Job.IdFits, PostgresStorage.updateColumns_id hr]; exact h
  updated_row _ _ hrow _ := hrow
  cancelled _ h := h

/-- A job with one attempt is leased, cancelled (failed, one attempt spent),
and then failed by its worker: two attempts are counted against one allowed. -/
theorem attempt_bound_counterexample :
    ((run Sys.empty (setupRun 1 ++ leaseRun 0 1 ++ cancelRun 2 ++ failRun 0 3)).redis.jobs jobA).map
      (fun j => (j.attempts, j.maxAttempts)) = some (2, 1) := by
  decide

end Taskflow
