import Taskflow.Queue
import Taskflow.Storage

/-!
# The worker loop (`internal/worker`)

`Worker.Start` registers the worker, starts the heartbeat goroutine and then
calls `processNextJob` until its context is cancelled. Goroutines interleave
at broker and store commands, so `processNextJob` is cut into one phase per
command: the phase names the command the goroutine runs next, and carries the
locals the code holds at that point.

* `WorkerThread.step` runs one command of one worker;
* `WorkerThread.beat` is one tick of its heartbeat goroutine;
* `processNextJob` is one pass of the loop with no other goroutine in between:
  the worker's own steps run back to back from `idle` until it is `idle`
  again, with a choice per call of whether that call fails.

Each step reads its environment from an `Env`: whether the command succeeds
(a failed command, including one on a cancelled context, has no effect), the
clock, and for the handler call the processor's result or error message.
A step whose command reports an error the code only logs goes on as the code
does; the store mirror reads the clock itself, after the broker write.
-/

namespace Taskflow

/-- What the goroutines share: the broker and the store. -/
structure World where
  redis : Redis
  db : Postgres

/-- The environment's choices for one step: whether its command succeeds, the
clock at `now` and, where the code reads it a second time, at `later`, and the
processor's result or error message. A result is `json.Marshal` of the
processor's result struct, so it is one JSON value. -/
structure Env where
  ok : Bool
  now : Time
  later : Time
  outcome : Except String RawMessage
  outcome_json : ∀ res, outcome = .ok res → (Json.parse res).isSome

/-- `NewWorker`'s id: `worker-` and the first 8 characters of
`uuid.New().String()`, which are the 8 leading hex digits of the UUID's 128
bits. -/
def newWorkerId (uuid : Nat) : String := "worker-" ++ String.mk (hexDigits 8 (uuid / Nat.pow 2 96))

example : newWorkerId (Nat.pow 2 127) = "worker-80000000" := by decide

theorem newWorkerId_ne_empty (uuid : Nat) : newWorkerId uuid ≠ "" := by
  intro h
  have := congrArg String.length h
  simp only [newWorkerId, String.length_append, String.length] at this
  exact absurd this (by simp)

/-- A worker id fits its `VARCHAR(255)` column as it is. -/
theorem varchar_newWorkerId (uuid : Nat) : PostgresStorage.varchar 255 (newWorkerId uuid) = some (newWorkerId uuid) := by
  have hn : PostgresStorage.hasNul (newWorkerId uuid) = false := by
    simpa [PostgresStorage.hasNul, newWorkerId] using nul_not_mem_hexDigits 8 (uuid / Nat.pow 2 96)
  have hl : (newWorkerId uuid).length ≤ 255 := by simp [newWorkerId, String.length]
  simp only [PostgresStorage.varchar, hn, hl, Bool.false_eq_true, if_false, if_true]

/-- Where a worker goroutine is: the command it runs next, with its locals. -/
inductive WorkerPhase where
  /-- `Start`: `registerWorker`. -/
  | registering
  /-- Top of the loop: `DequeueJob`'s `BRPOPLPUSH`. -/
  | idle
  /-- `DequeueJob`'s `GetJob` of the id it moved. -/
  | fetched (jobId : JobId)
  /-- `DequeueJob`'s `LREM` after that `GetJob` failed. -/
  | dropping (jobId : JobId)
  /-- `DequeueJob`'s `UpdateJob` of the leased record. -/
  | leasing (job : Job)
  /-- `DequeueJob`'s stats pipeline. -/
  | counting (job : Job)
  /-- `updateWorkerStatus("processing", job.ID)`. -/
  | announcing (job : Job)
  /-- `registry.ProcessJob`. -/
  | running (job : Job)
  /-- `FailJob`'s `GetJob`. -/
  | failing (job : Job) (msg : String)
  /-- `FailJob`'s write, with the record it read. -/
  | failWriting (job : Job) (msg : String) (record : Job)
  /-- `CompleteJob`'s `GetJob`. -/
  | completing (job : Job) (result : RawMessage)
  /-- `CompleteJob`'s pipeline, with the record it read. -/
  | completeWriting (job : Job) (result : RawMessage) (record : Job)
  /-- `storage.UpdateJob` of the leased job, rewritten after the handler's
  outcome. -/
  | mirroring (job : Job) (outcome : Except String RawMessage)
  /-- `updateWorkerStatus("idle", "")`. -/
  | settling
  /-- `Start` has returned. -/
  | stopped
deriving DecidableEq, Repr

/-- A worker goroutine. -/
structure WorkerThread where
  id : String
  supportedTypes : List JobType
  phase : WorkerPhase
deriving DecidableEq, Repr

/-- A store write the code only logs the error of: the new store where it
succeeds, the old one where it fails. -/
def World.storeOr (W : World) (ok : Bool) (db : Except String Postgres) : World :=
  match ok, db with
  | true, .ok db => { W with db }
  | _, _ => W

/-- A broker write the code only logs the error of. -/
def World.brokerOr (W : World) (ok : Bool) (r : Except String Redis) : World :=
  match ok, r with
  | true, .ok r => { W with redis := r }
  | _, _ => W

@[simp] theorem World.storeOr_redis (W : World) (ok : Bool) (db : Except String Postgres) :
    (W.storeOr ok db).redis = W.redis := by
  unfold World.storeOr; split <;> rfl

@[simp] theorem World.brokerOr_db (W : World) (ok : Bool) (r : Except String Redis) :
    (W.brokerOr ok r).db = W.db := by
  unfold World.brokerOr; split <;> rfl

theorem World.storeOr_db (W : World) (ok : Bool) (db : Except String Postgres) :
    (W.storeOr ok db).db = W.db ∨ ok = true ∧ db = .ok (W.storeOr ok db).db := by
  unfold World.storeOr; split <;> simp

theorem World.brokerOr_redis (W : World) (ok : Bool) (r : Except String Redis) :
    (W.brokerOr ok r).redis = W.redis ∨ ok = true ∧ r = .ok (W.brokerOr ok r).redis := by
  unfold World.brokerOr; split <;> simp

/-- A store `UpdateJob` whose error is only logged never adds or removes a row. -/
theorem World.storeOr_updateJob_isSome (W : World) (ok : Bool) (row : Job) (x : JobId) :
    ((W.storeOr ok (PostgresStorage.updateJob W.db row)).db.jobs x).isSome = (W.db.jobs x).isSome := by
  rcases World.storeOr_db W ok (PostgresStorage.updateJob W.db row) with h | ⟨-, h⟩
  · rw [h]
  · exact PostgresStorage.updateJob_jobs_isSome h x

/-- `updateWorkerStatus`: upsert the worker row; a failure is only logged. -/
def updateWorkerStatus (W : World) (w : WorkerThread) (status currentJob : String) (e : Env) : World :=
  W.storeOr e.ok (PostgresStorage.registerWorker W.db ⟨w.id, status, e.now, w.supportedTypes, currentJob⟩)

@[simp] theorem updateWorkerStatus_redis (W : World) (w : WorkerThread) (status currentJob : String)
    (e : Env) : (updateWorkerStatus W w status currentJob e).redis = W.redis :=
  World.storeOr_redis ..

@[simp] theorem updateWorkerStatus_db_jobs (W : World) (w : WorkerThread) (status currentJob : String)
    (e : Env) : (updateWorkerStatus W w status currentJob e).db.jobs = W.db.jobs := by
  rcases World.storeOr_db W e.ok (PostgresStorage.registerWorker W.db ⟨w.id, status, e.now, w.supportedTypes, currentJob⟩)
    with h | ⟨-, h⟩
  · exact congrArg Postgres.jobs h
  · exact PostgresStorage.registerWorker_jobs h

/-- The store row `processNextJob` writes after a failed handler call
(webhook_processor.go:348-356). -/
def failedRow (job : Job) (msg : String) (now : Time) : Job :=
  let job := { job with status := .failed, error := msg, attempts := job.attempts + 1, updatedAt := now }
  if job.attempts ≥ job.maxAttempts then { job with completedAt := some now } else job

/-- The store row `processNextJob` writes after a successful handler call
(webhook_processor.go:366-371). -/
def completedRow (job : Job) (result : RawMessage) (now : Time) : Job :=
  { job with status := .completed, result := result, updatedAt := now, completedAt := some now }

/-- The store row of the mirror, from the handler's outcome. -/
def mirrorRow (job : Job) (outcome : Except String RawMessage) (now : Time) : Job :=
  match outcome with
  | .error msg => failedRow job msg now
  | .ok result => completedRow job result now

@[simp] theorem failedRow_id (job : Job) (msg : String) (now : Time) : (failedRow job msg now).id = job.id := by
  unfold failedRow; dsimp only; split <;> rfl

@[simp] theorem failedRow_status (job : Job) (msg : String) (now : Time) :
    (failedRow job msg now).status = .failed := by
  unfold failedRow; dsimp only; split <;> rfl

@[simp] theorem failedRow_attempts (job : Job) (msg : String) (now : Time) :
    (failedRow job msg now).attempts = job.attempts + 1 := by
  unfold failedRow; dsimp only; split <;> rfl

theorem failedRow_completedAt (job : Job) (msg : String) (now : Time) :
    (failedRow job msg now).completedAt =
      if job.attempts + 1 ≥ job.maxAttempts then some now else job.completedAt := by
  unfold failedRow; dsimp only; split <;> simp_all

namespace WorkerThread

/-- The next phase and the world after one command of `w`. -/
def next (w : WorkerThread) (e : Env) (W : World) : WorkerPhase × World :=
  match w.phase with
  | .registering =>
    match e.ok, PostgresStorage.registerWorker W.db ⟨w.id, "starting", e.now, w.supportedTypes, ""⟩ with
    | true, .ok db => (.idle, { W with db })
    | _, _ => (.stopped, W)
  | .idle =>
    match e.ok, W.redis.brpoplpush with
    | true, some (x, r) => (.fetched x, { W with redis := r })
    | _, _ => (.idle, W)
  | .fetched x =>
    match RedisQueue.getJob W.redis x e.ok with
    | .ok job => (.leasing (RedisQueue.leaseJob job w.id e.now), W)
    | .error _ => (.dropping x, W)
  | .dropping x => (.idle, if e.ok then { W with redis := W.redis.lremProcessing x } else W)
  | .leasing job =>
    match e.ok, RedisQueue.updateJob W.redis job with
    | true, .ok r => (.counting job, { W with redis := r })
    | _, _ => (.idle, W)
  | .counting job =>
    (.announcing job, if e.ok then { W with redis := RedisQueue.dequeueStats W.redis } else W)
  | .announcing job => (.running job, updateWorkerStatus W w "processing" job.id e)
  | .running job =>
    match e.outcome with
    | .error msg => (.failing job msg, W)
    | .ok result => (.completing job result, W)
  | .failing job msg =>
    match RedisQueue.getJob W.redis job.id e.ok with
    | .ok record => (.failWriting job msg record, W)
    | .error _ => (.mirroring job (.error msg), W)
  | .failWriting job msg record =>
    (.mirroring job (.error msg), W.brokerOr e.ok (RedisQueue.failJob W.redis job.id record msg e.now e.later))
  | .completing job result =>
    match RedisQueue.getJob W.redis job.id e.ok with
    | .ok record => (.completeWriting job result record, W)
    | .error _ => (.mirroring job (.ok result), W)
  | .completeWriting job result record =>
    (.mirroring job (.ok result),
      if e.ok then { W with redis := RedisQueue.completeJob W.redis job.id record result e.now } else W)
  | .mirroring job outcome =>
    (.settling, W.storeOr e.ok (PostgresStorage.updateJob W.db (mirrorRow job outcome e.now)))
  | .settling => (.idle, updateWorkerStatus W w "idle" "" e)
  | .stopped => (.stopped, W)

/-- One command of a worker goroutine. -/
def step (w : WorkerThread) (e : Env) (W : World) : WorkerThread × World :=
  ({ w with phase := (w.next e W).1 }, (w.next e W).2)

/-- The heartbeat goroutine's tick (webhook_processor.go:403-404): it runs from
registration until `Start` returns. -/
def beat (w : WorkerThread) (e : Env) (W : World) : World :=
  match w.phase with
  | .registering | .stopped => W
  | _ => updateWorkerStatus W w "idle" "" e

@[simp] theorem beat_redis (w : WorkerThread) (e : Env) (W : World) : (w.beat e W).redis = W.redis := by
  unfold beat; split <;> simp

@[simp] theorem beat_db_jobs (w : WorkerThread) (e : Env) (W : World) : (w.beat e W).db.jobs = W.db.jobs := by
  unfold beat; split <;> simp

/-- `Start`'s `select` on a cancelled context or a closed `shutdown` channel,
taken at the top of the loop. -/
def halt (w : WorkerThread) : WorkerThread :=
  match w.phase with
  | .idle => { w with phase := .stopped }
  | _ => w

end WorkerThread

/-! ## One pass of the loop -/

/-- The call a phase makes, to say which call of a pass fails. -/
inductive Call where
  | register | brpoplpush | getLeased | lremLeased | setLeased | leaseStats | announce | handler
  | getOutcome | writeOutcome | mirror | settle | none
deriving DecidableEq, Repr

/-- The call each phase makes next. -/
def WorkerPhase.call : WorkerPhase → Call
  | .registering => .register
  | .idle => .brpoplpush
  | .fetched _ => .getLeased
  | .dropping _ => .lremLeased
  | .leasing _ => .setLeased
  | .counting _ => .leaseStats
  | .announcing _ => .announce
  | .running _ => .handler
  | .failing _ _ | .completing _ _ => .getOutcome
  | .failWriting _ _ _ | .completeWriting _ _ _ => .writeOutcome
  | .mirroring _ _ => .mirror
  | .settling => .settle
  | .stopped => .none

/-- The worker's steps back to back until it is `idle` again, each call taking
its environment from `env`; `fuel` bounds the number of calls. -/
def WorkerThread.runSolo (env : Call → Env) : Nat → WorkerThread → World → WorkerThread × World
  | 0, w, W => (w, W)
  | fuel + 1, w, W =>
    let p := w.step (env w.phase.call) W
    if p.1.phase = .idle then p else WorkerThread.runSolo env fuel p.1 p.2

/-- `processNextJob`, run by an idle worker while no other goroutine moves;
`env` says, call by call, whether it fails, the clock, and the handler's
result. Ten calls is the longest pass. -/
def processNextJob (env : Call → Env) (w : WorkerThread) (W : World) : WorkerThread × World :=
  WorkerThread.runSolo env 10 { w with phase := .idle } W

end Taskflow
