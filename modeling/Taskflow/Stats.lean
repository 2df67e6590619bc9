import Taskflow.Lifecycle

/-!
# The counters of `taskflow:stats`

The stats hash is a side effect of the broker's transitions, not a count of
the lists. Each pipeline either adds a job to `total` and `pending` or moves
one unit from one counter to another, so

* `balanced_reachable` — `pending + processing + completed + failed = total`
  in every state of every run, cancellations and failing commands included.

What the counters do not do is follow the lists. `FailJob`'s retry path
returns before its pipeline, so a retried job is back in the `pending` list
without being counted there: `stats_pending_drift` is the run where the
counter falls one below the list, and then below zero.
-/

namespace Taskflow

/-- Every job counted in `total` is counted in exactly one of the other four
counters. -/
def Redis.Balanced (r : Redis) : Prop :=
  r.stats "pending" + r.stats "processing" + r.stats "completed" + r.stats "failed" = r.stats "total"

theorem Redis.Balanced.of_stats {r r' : Redis} (h : r.Balanced) (hs : r'.stats = r.stats) : r'.Balanced := by
  unfold Redis.Balanced; rw [hs]; exact h

/-! ## The pipelines -/

namespace RedisQueue

variable {r : Redis} (h : r.Balanced)
include h

theorem enqueueJob_balanced {job : Job} {r' : Redis} (he : enqueueJob r job = .ok r') : r'.Balanced := by
  obtain ⟨-, rfl⟩ := enqueueJob_ok he
  unfold Redis.Balanced at *; simp; omega

theorem dequeueStats_balanced : (dequeueStats r).Balanced := by
  unfold Redis.Balanced at *; simp [dequeueStats]; omega

theorem completeJob_balanced (jobId : JobId) (job : Job) (result : RawMessage) (now : Time) :
    (completeJob r jobId job result now).Balanced := by
  unfold Redis.Balanced at *; simp [completeJob]; omega

theorem failJob_balanced {jobId : JobId} {job : Job} {msg : String} {now later : Time} {r' : Redis}
    (hf : failJob r jobId job msg now later = .ok r') : r'.Balanced := by
  by_cases hlt : job.attempts + 1 < job.maxAttempts
  · -- the retry path touches no counter
    rw [failJob_retry hlt] at hf
    split at hf <;> cases hf
    exact h.of_stats rfl
  · rw [failJob_final hlt] at hf
    cases hf
    unfold Redis.Balanced at *; simp; omega

end RedisQueue

/-! ## Every move -/

section
variable {W : World} (h : W.redis.Balanced)
include h

theorem World.brokerOr_balanced {ok : Bool} {r : Except String Redis} (hr : ∀ r', r = .ok r' → r'.Balanced) :
    (W.brokerOr ok r).redis.Balanced := by
  rcases World.brokerOr_redis W ok r with e | ⟨-, e⟩
  · rw [e]; exact h
  · exact hr _ e

theorem WorkerThread.next_balanced (w : WorkerThread) (e : Env) : (w.next e W).2.redis.Balanced := by
  rcases w with ⟨id, types, p⟩
  cases p with
  | idle =>
    simp only [WorkerThread.next]; split
    · exact h.of_stats (Redis.brpoplpush_stats ‹_›)
    · exact h
  | leasing j =>
    simp only [WorkerThread.next]; split
    · obtain ⟨-, rfl⟩ := RedisQueue.updateJob_ok ‹_›
      exact h.of_stats rfl
    · exact h
  | counting j => simp only [WorkerThread.next]; split <;> [exact RedisQueue.dequeueStats_balanced h; exact h]
  | failWriting j msg r => exact World.brokerOr_balanced h fun _ hf => RedisQueue.failJob_balanced h hf
  | completeWriting j res r =>
    simp only [WorkerThread.next]; split <;> [exact RedisQueue.completeJob_balanced h _ _ _ _; exact h]
  | fetched x | failing j msg | completing j res | registering => simp only [WorkerThread.next]; split <;> exact h
  | dropping _ => simp only [WorkerThread.next]; split <;> simpa using h
  | mirroring _ _ | announcing _ | running _ | settling | stopped =>
    simp only [WorkerThread.next]; (try split) <;> simpa using h

theorem CreatePhase.step_balanced (c : CreatePhase) (e : Env) : (c.step e W).2.redis.Balanced := by
  cases c with
  | storing j => simp only [CreatePhase.step]; split <;> exact h
  | enqueuing j => simp only [CreatePhase.step]; split <;> [exact RedisQueue.enqueueJob_balanced h ‹_›; exact h]
  | responded => exact h

theorem CancelPhase.step_balanced (c : CancelPhase) (e : Env) : (c.step e W).2.redis.Balanced := by
  cases c with
  | lookup x => simp only [CancelPhase.step]; split <;> [exact h; split <;> exact h]
  | storeLookup x | failing x j => simp only [CancelPhase.step]; split <;> exact h
  | failWriting x j r =>
    simp only [CancelPhase.step]; split <;> [exact RedisQueue.failJob_balanced h ‹_›; exact h]
  | mirroring j => simpa [CancelPhase.step] using h
  | responded => exact h

end

theorem balanced_step {s : Sys} (h : s.redis.Balanced) (a : Act) : (step s a).redis.Balanced := by
  cases a with
  | exec t e =>
    simp only [step, Sys.exec]
    split
    · exact h
    · exact WorkerThread.next_balanced h _ e
    · exact CreatePhase.step_balanced h _ e
    · exact CancelPhase.step_balanced h _ e
  | beat t e => simp only [step]; split <;> simpa using h
  | startWorker | submit | cancel | halt => simp only [step]; split <;> exact h

/-- The counters balance in every state of every run. -/
theorem balanced_reachable {allow : Act → Prop} {s : Sys} (hs : Reachable allow s) : s.redis.Balanced := by
  induction hs with
  | init => simp [Redis.Balanced, Sys.empty, Redis.empty]
  | step _ _ ih => exact balanced_step ih _

/-- In the state with a failed, a completed and a pending job, the counters
read three jobs, one of each. -/
theorem balanced_mixed :
    Reachable Act.nominal mixedState ∧ RedisQueue.getStats mixedState.redis = ⟨3, 1, 0, 1, 1⟩ ∧
      mixedState.redis.Balanced :=
  have hstats : RedisQueue.getStats mixedState.redis = ⟨3, 1, 0, 1, 1⟩ := by decide
  ⟨mixedState_reachable, hstats, balanced_reachable mixedState_reachable⟩

/-- A failed attempt that is retried leaves the `pending` counter at zero with
one id in the `pending` list; the next lease takes the counter to `-1`. -/
theorem stats_pending_drift :
    (RedisQueue.getStats (run Sys.empty (setupRun 3 ++ leaseRun 0 1 ++ failRun 0 2)).redis).pending = 0 ∧
      (run Sys.empty (setupRun 3 ++ leaseRun 0 1 ++ failRun 0 2)).redis.pending.length = 1 ∧
      (RedisQueue.getStats (run Sys.empty (setupRun 3 ++ leaseRun 0 1 ++ failRun 0 2 ++
        Act.execs 0 (.succeed 2) 2 ++ leaseRun 0 3)).redis).pending = -1 := by
  decide

end Taskflow
