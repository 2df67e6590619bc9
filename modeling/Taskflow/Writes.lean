import Taskflow.System

/-!
# What one move does to the job records and rows

`step_jobs` says, once and for every run (cancellations and failing commands
included), what a move can do to the broker's records: nothing, unless it is
a goroutine's command that writes a record, and then what `Job.marshal` makes
of the job `Thread.write` names, under its id. The commands that write a record
are the lease (`DequeueJob`'s `UpdateJob`), the writes of `FailJob` and
`CompleteJob`, and `EnqueueJob`. Where `Marshal` fails, a command that checks
the error writes nothing, and one that drops it (`CompleteJob`, the last
`FailJob`) leaves a value that reads as no record. Every record property of
the later files is derived from `step_jobs_cases` rather than from the step
functions.

`rowStep_step` does the same for the store's rows: a move leaves them, inserts
the row of the job a `createJob` request holds, or updates the row of the job
a worker's or `cancelJob`'s mirror writes (`Thread.rowWrite`).
-/

namespace Taskflow

/-- The job the next command of a goroutine marshals into a record, if it
writes one. -/
def Thread.write (e : Env) : Thread → Option Job
  | .worker ⟨_, _, .leasing j⟩ => some j
  | .worker ⟨_, _, .failWriting _ msg r⟩ => some (RedisQueue.failRecord r msg e.now e.later)
  | .worker ⟨_, _, .completeWriting _ res r⟩ => some (RedisQueue.completeRecord r res e.now)
  | .create (.enqueuing j) => some j
  | .cancel (.failWriting _ _ r) => some (RedisQueue.failRecord r cancelMessage e.now e.later)
  | _ => none

/-- Whether that command drops `Marshal`'s error and writes anyway. -/
def Thread.dropsMarshalError : Thread → Bool
  | .worker ⟨_, _, .completeWriting ..⟩ => true
  | .worker ⟨_, _, .failWriting _ _ r⟩ | .cancel (.failWriting _ _ r) => !decide (r.attempts + 1 < r.maxAttempts)
  | _ => false

/-- The records after goroutine `th`'s next command, when they were `jobs`. -/
def Thread.written (th : Thread) (e : Env) (jobs : JobId → Option Job) : JobId → Option Job :=
  match e.ok, th.write e with
  | true, some j =>
    if j.marshal.isNone && !th.dropsMarshalError then jobs else fun y => if y = j.id then j.marshal else jobs y
  | _, _ => jobs

/-- `FailJob`'s write, as `Thread.written` states it. -/
theorem written_failJob (r : Redis) (x : JobId) (j : Job) (msg : String) (now later : Time) :
    (match RedisQueue.failJob r x j msg now later with | .ok r' => r'.jobs | .error _ => r.jobs) =
      if (RedisQueue.failRecord j msg now later).marshal.isNone && decide (j.attempts + 1 < j.maxAttempts) then r.jobs
      else fun y => if y = j.id then (RedisQueue.failRecord j msg now later).marshal else r.jobs y := by
  by_cases h : j.attempts + 1 < j.maxAttempts
  · rw [RedisQueue.failJob_retry h]
    cases hm : (RedisQueue.failRecord j msg now later).marshal <;> simp [h, hm, Redis.storeJob]
  · rw [RedisQueue.failJob_final h]
    simp [h, Redis.storeJob]

theorem WorkerThread.next_jobs (w : WorkerThread) (e : Env) (W : World) :
    (w.next e W).2.redis.jobs = (Thread.worker w).written e W.redis.jobs := by
  rcases w with ⟨id, types, p⟩
  rcases e with ⟨_ | _, now, later, out, hout⟩ <;> cases p <;>
    simp only [WorkerThread.next, Thread.written, Thread.write, Thread.dropsMarshalError, World.brokerOr]
  case true.idle =>
    split
    · exact (Redis.brpoplpush_spec ‹_›).2.2
    · rfl
  case true.leasing j =>
    unfold RedisQueue.updateJob
    cases hm : j.marshal <;> simp [hm, Redis.storeJob]
  case true.failWriting j msg r =>
    have h := written_failJob W.redis j.id r msg now later
    cases hf : RedisQueue.failJob W.redis j.id r msg now later <;> simpa [hf] using h
  case true.completeWriting j res r =>
    simp [Redis.storeJob, RedisQueue.completeJob_eq]
  all_goals first | (split <;> rfl) | simp

theorem CreatePhase.step_jobs (c : CreatePhase) (e : Env) (W : World) :
    (c.step e W).2.redis.jobs = (Thread.create c).written e W.redis.jobs := by
  rcases e with ⟨_ | _, now, later, out, hout⟩ <;> cases c <;>
    simp only [CreatePhase.step, Thread.written, Thread.write, Thread.dropsMarshalError]
  case true.enqueuing j =>
    unfold RedisQueue.enqueueJob
    cases hm : j.marshal <;> simp [hm, Redis.storeJob]
  all_goals split <;> rfl

theorem CancelPhase.step_jobs (c : CancelPhase) (e : Env) (W : World) :
    (c.step e W).2.redis.jobs = (Thread.cancel c).written e W.redis.jobs := by
  rcases e with ⟨_ | _, now, later, out, hout⟩ <;> cases c <;>
    simp only [CancelPhase.step, Thread.written, Thread.write, Thread.dropsMarshalError]
  case true.failWriting x j r =>
    have h := written_failJob W.redis x r cancelMessage now later
    cases hf : RedisQueue.failJob W.redis x r cancelMessage now later <;> simpa [hf] using h
  all_goals first | (split <;> (try split) <;> rfl) | rfl | simp

theorem Sys.exec_jobs (s : Sys) (t : Nat) (e : Env) :
    (s.exec t e).redis.jobs = (s.threads t).written e s.redis.jobs := by
  unfold Sys.exec
  split <;> rename_i h <;> simp only [h, put_redis]
  · simp [Thread.written, Thread.write]
  · exact WorkerThread.next_jobs _ _ _
  · exact CreatePhase.step_jobs _ _ _
  · exact CancelPhase.step_jobs _ _ _

/-- The inversion lemma for records: only a goroutine's write changes one. -/
theorem step_jobs (s : Sys) (a : Act) :
    (step s a).redis.jobs = match a with
      | .exec t e => (s.threads t).written e s.redis.jobs
      | _ => s.redis.jobs := by
  cases a with
  | exec t e => exact Sys.exec_jobs s t e
  | startWorker => simp only [step]; split <;> rfl
  | submit | cancel => simp only [step]; split <;> rfl
  | beat t e => simp only [step]; split <;> simp
  | halt => simp only [step]; split <;> rfl

/-- A record changes only to the record a goroutine writes under that id. -/
theorem step_jobs_cases (s : Sys) (a : Act) (y : JobId) :
    (step s a).redis.jobs y = s.redis.jobs y ∨
      ∃ t e j, a = .exec t e ∧ e.ok = true ∧ (s.threads t).write e = some j ∧ j.id = y ∧
        (step s a).redis.jobs y = j.marshal := by
  rw [step_jobs]
  cases a with
  | exec t e =>
    simp only [Thread.written]
    rcases hok : e.ok with _ | _ <;> rcases hw : (s.threads t).write e with _ | j <;> simp only [true_or]
    split
    · exact .inl rfl
    by_cases hy : y = j.id
    · exact .inr ⟨t, e, j, rfl, hok, hw, hy.symm, by simp [hy]⟩
    · exact .inl (by simp [hy])
  | _ => exact .inl rfl

/-! ## Rows -/

/-- What one command can do to the store's job rows: leave them, insert the
row of `w` (`CreateJob`), or update the row of `w`'s id (`UpdateJob`). -/
inductive Postgres.RowStep (db : Postgres) (w : Option Job) : Postgres → Prop
  | same {db' : Postgres} : db'.jobs = db.jobs → db.RowStep w db'
  | insert {db' : Postgres} (j : Job) : w = some j → PostgresStorage.createJob db j = .ok db' →
      db.RowStep w db'
  | update {db' db'' : Postgres} (j : Job) : w = some j → PostgresStorage.updateJob db j = .ok db'' →
      db'.jobs = db''.jobs → db.RowStep w db'

/-- The job whose row the next command of a goroutine inserts or updates, if
it writes one: the insert of `createJob`, and the `UpdateJob` of the worker's
mirror, stamped with the step's clock, and of `cancelJob`'s. -/
def Thread.rowWrite (e : Env) : Thread → Option Job
  | .worker ⟨_, _, .mirroring j out⟩ => some (mirrorRow j out e.now)
  | .create (.storing j) => some j
  | .cancel (.mirroring j) => some j
  | _ => none

/-- The job whose row a move inserts or updates, if it writes one. -/
def Sys.rowWrite (s : Sys) : Act → Option Job
  | .exec t e => (s.threads t).rowWrite e
  | _ => none

theorem Postgres.RowStep.storeOr {db : Postgres} {W : World} (hW : W.db = db) (ok : Bool) (j : Job) :
    db.RowStep (some j) (W.storeOr ok (PostgresStorage.updateJob db j)).db := by
  unfold World.storeOr
  split
  · exact .update j rfl ‹_› rfl
  · exact .same (hW ▸ rfl)

theorem WorkerThread.next_rowStep (w : WorkerThread) (e : Env) (W : World) :
    W.db.RowStep ((Thread.worker w).rowWrite e) (w.next e W).2.db := by
  rcases w with ⟨id, types, p⟩
  cases p
  case mirroring j out => exact .storeOr rfl _ _
  case registering =>
    simp only [WorkerThread.next]
    split
    · exact .same (PostgresStorage.registerWorker_jobs ‹_›)
    · exact .same rfl
  all_goals simp only [WorkerThread.next]; (try split) <;> exact .same (by simp)

theorem CreatePhase.step_rowStep (c : CreatePhase) (e : Env) (W : World) :
    W.db.RowStep ((Thread.create c).rowWrite e) (c.step e W).2.db := by
  cases c <;> simp only [CreatePhase.step] <;> (try split) <;> first
    | exact .same rfl
    | exact .insert _ rfl ‹_›

theorem CancelPhase.step_rowStep (c : CancelPhase) (e : Env) (W : World) :
    W.db.RowStep ((Thread.cancel c).rowWrite e) (c.step e W).2.db := by
  cases c
  case mirroring j => exact .storeOr rfl _ _
  all_goals simp only [CancelPhase.step]; (try split) <;> (try split) <;> exact .same rfl

/-- The inversion lemma for rows: only a goroutine's insert or update changes
one, and it writes the job the goroutine holds for it. -/
theorem rowStep_step (s : Sys) (a : Act) : s.db.RowStep (s.rowWrite a) (step s a).db := by
  cases a with
  | exec t e =>
    simp only [step, Sys.exec, Sys.rowWrite]
    split <;> rename_i h <;> rw [h]
    · exact .same rfl
    · exact WorkerThread.next_rowStep _ _ _
    · exact CreatePhase.step_rowStep _ _ _
    · exact CancelPhase.step_rowStep _ _ _
  | beat t e => simp only [step]; split <;> exact .same (by simp)
  | startWorker | submit | cancel | halt => simp only [step]; split <;> exact .same rfl

end Taskflow
