import Taskflow.Lifecycle

/-!
# Outcome writes: `FailJob` from a worker and from `cancelJob`

`FailJob` reads the record with `GetJob` and writes it back from a pipeline:
two commands, between which other goroutines move.

* `fail_write_increments` — in a run without cancellation nothing can come
  between: the record a worker's `FailJob` writes has exactly one attempt
  more than the record it replaces. `lost_attempt_update` is the run with a
  cancel request where two `FailJob` calls read the same count, both write one
  attempt, and the job is leased three times with two attempts allowed.
* `cancel_write` — what `cancelJob` does to the record: `FailJob` with the
  cancel message, so a job within its budget is retried. Nothing tells a
  worker still running the job: `cancel_counterexample` is the run where the
  cancelled job stays in `processing` and is then completed.
-/

namespace Taskflow

/-- In a run without cancellation, a worker's `FailJob` write raises the
record's attempts by exactly one. -/
theorem fail_write_increments {allow : Act → Prop} {s : Sys} (hs : Reachable allow s)
    (hc : ∀ a, allow a → a.noCancel) {t : Nat} {id : String} {types : List JobType} {j rec : Job}
    {msg : String} (ht : s.threads t = .worker ⟨id, types, .failWriting j msg rec⟩) {e : Env}
    (he : e.ok = true) {r : Job} (hr : s.redis.jobs j.id = some r) :
    ((step s (.exec t e)).redis.jobs j.id).map Job.attempts = some (r.attempts + 1) := by
  have hok := (inv_noCancel hc hs).threads_ok t
  rw [ht] at hok
  obtain ⟨-, hj, -, rfl⟩ := hok
  rw [hr] at hj; cases hj
  have hm := RedisQueue.failRecord_marshal (s.redis.normal _ _ hr) msg e.now e.later
  simp [step_jobs, Thread.written, Thread.write, Thread.dropsMarshalError, ht, he, hm]

/-- Job `x` with two attempts is leased by worker 0. A cancel request reads
the record, worker 0's handler fails and `FailJob` reads it too, both at zero
attempts; both write one attempt and push `x` back. The cancel answers 200,
and workers 0 and 1 lease `x` again. -/
def lostUpdateRun : List Act :=
  setupRun 2 ++ leaseRun 0 1 ++ [.cancel 3 jobA] ++ Act.execs 3 (.succeed 2) 2 ++
    [.exec 0 (.handlerError "boom" 2), .exec 0 (.succeed 2), .exec 3 (.succeed 3), .exec 0 (.succeed 3),
     .exec 3 (.succeed 3)] ++ Act.execs 0 (.succeed 4) 2 ++ leaseRun 0 5 ++ leaseRun 1 5

/-- Two `FailJob` calls returned, the record counts one attempt of two, and
the job is held by two workers after its first lease: three leases. -/
theorem lost_attempt_update :
    ((run Sys.empty lostUpdateRun).redis.jobs jobA).map (fun j => (j.attempts, j.maxAttempts)) = some (1, 2) ∧
      (run Sys.empty lostUpdateRun).threads 3 = .cancel (.responded 200 "") ∧
      ((run Sys.empty lostUpdateRun).threads 0).leased = some jobA ∧
      ((run Sys.empty lostUpdateRun).threads 1).leased = some jobA := by
  decide

/-! ## Cancellation -/

/-- The write of a `cancelJob` request: `FailJob` with the cancel message on the
record it read, as `GetJob` returns it. A job within its budget is retried and
pushed back onto `pending`; a job at its last attempt is failed and leaves
`processing` once. The request answers 200 at its next command. -/
theorem cancel_write {s : Sys} {t : Nat} {x : JobId} {job r : Job}
    (ht : s.threads t = .cancel (.failWriting x job r)) (hr : r.marshal = some r) {e : Env} (he : e.ok = true) :
    (step s (.exec t e)).redis.jobs r.id = some (RedisQueue.failRecord r cancelMessage e.now e.later) ∧
      (RedisQueue.failRecord r cancelMessage e.now e.later).error = cancelMessage ∧
      (RedisQueue.failRecord r cancelMessage e.now e.later).attempts = r.attempts + 1 ∧
      (if r.attempts + 1 < r.maxAttempts then
        (RedisQueue.failRecord r cancelMessage e.now e.later).status = .retrying ∧
          (step s (.exec t e)).redis.pending = r.id :: s.redis.pending
      else
        (RedisQueue.failRecord r cancelMessage e.now e.later).status = .failed ∧
          (step s (.exec t e)).redis.processing = s.redis.processing.erase x) ∧
      ∀ e', (step (step s (.exec t e)) (.exec t e')).threads t = .cancel (.responded 200 "") := by
  have hexec : step s (.exec t e) =
      s.put t (.cancel (.mirroring { job with status := .failed, error := cancelMessage }))
        { s.toWorld with redis := if r.attempts + 1 < r.maxAttempts then
            (s.redis.storeJob (RedisQueue.failRecord r cancelMessage e.now e.later)).lpushPending r.id
          else (((s.redis.storeJob (RedisQueue.failRecord r cancelMessage e.now e.later)).lremProcessing x).hincrBy
            "processing" (-1)).hincrBy "failed" 1 } := by
    simp [step, Sys.exec, ht, CancelPhase.step, he, RedisQueue.failJob_of_marshal hr]
  have hm := RedisQueue.failRecord_marshal hr cancelMessage e.now e.later
  refine ⟨?_, by simp, by simp, ?_, fun e' => by rw [hexec]; simp [step, Sys.exec, Sys.put_threads, CancelPhase.step]⟩
  · rw [hexec]; split <;> simp [Redis.storeJob_jobs, hm]
  · rw [hexec, RedisQueue.failRecord_status]
    split <;> simp [*]

/-- A cancel request for `jobA`, which worker 0 is running, has read the record. -/
def cancelReadState : Sys :=
  run Sys.empty (setupRun 3 ++ leaseRun 0 1 ++ [.cancel 3 jobA] ++ Act.execs 3 (.succeed 2) 2)

theorem cancel_write_leased :
    cancelReadState.threads 3 = .cancel (.failWriting jobA leasedRecord leasedRecord) ∧
      leasedRecord.marshal = some leasedRecord ∧ (Env.succeed 3).ok = true ∧
      (step cancelReadState (.exec 3 (.succeed 3))).redis.jobs leasedRecord.id =
          some (RedisQueue.failRecord leasedRecord cancelMessage (Env.succeed 3).now (Env.succeed 3).later) ∧
        (RedisQueue.failRecord leasedRecord cancelMessage (Env.succeed 3).now (Env.succeed 3).later).error =
          cancelMessage ∧
        (RedisQueue.failRecord leasedRecord cancelMessage (Env.succeed 3).now (Env.succeed 3).later).attempts =
          leasedRecord.attempts + 1 ∧
        (if leasedRecord.attempts + 1 < leasedRecord.maxAttempts then
          (RedisQueue.failRecord leasedRecord cancelMessage (Env.succeed 3).now (Env.succeed 3).later).status =
              .retrying ∧
            (step cancelReadState (.exec 3 (.succeed 3))).redis.pending =
              leasedRecord.id :: cancelReadState.redis.pending
        else
          (RedisQueue.failRecord leasedRecord cancelMessage (Env.succeed 3).now (Env.succeed 3).later).status =
              .failed ∧
            (step cancelReadState (.exec 3 (.succeed 3))).redis.processing =
              cancelReadState.redis.processing.erase jobA) ∧
        ∀ e', (step (step cancelReadState (.exec 3 (.succeed 3))) (.exec 3 e')).threads 3 =
          .cancel (.responded 200 "") :=
  have ht : cancelReadState.threads 3 = .cancel (.failWriting jobA leasedRecord leasedRecord) := by decide
  have hr : leasedRecord.marshal = some leasedRecord := by decide
  ⟨ht, hr, rfl, cancel_write ht hr rfl⟩

/-- A cancel of a running job within its budget answers 200 and leaves `jobA`
in `processing`; the worker then completes the job. -/
theorem cancel_counterexample :
    (run Sys.empty (setupRun 3 ++ leaseRun 0 1 ++ cancelRun 2)).threads 3 = .cancel (.responded 200 "") ∧
      jobA ∈ (run Sys.empty (setupRun 3 ++ leaseRun 0 1 ++ cancelRun 2)).redis.processing ∧
      ((run Sys.empty (setupRun 3 ++ leaseRun 0 1 ++ cancelRun 2 ++ Act.execs 0 (.succeed 3) 3)).redis.jobs jobA).map
        Job.status = some .completed := by
  decide

end Taskflow
