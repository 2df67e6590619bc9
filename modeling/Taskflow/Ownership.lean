import Taskflow.System

/-!
# Lease ownership in runs without cancellation

In a run with no cancel request, every job id is, at each moment, in at most
one place: queued once in `pending`, answered for by one goroutine (a worker
between its `BRPOPLPUSH` and its outcome write, or the `createJob` request
about to enqueue it), or neither. `Inv clean` states this together with the
shape of every broker record; `clean` adds, for runs in which no command has
failed, that a queued record is always in `pending` or answered for. A failed
command can leave a queued record with neither (`DequeueJob`'s `LREM` after a
failed `GetJob`, a failed lease): this is the only fact faults break.
`inv_reachable` proves the invariant of every reachable state.

The `processing` list is not part of the invariant: `FailJob`'s retry path
returns before its `LREM`, so a retried id stays in `processing` after its
outcome.

The consequences drawn in `Lifecycle.lean` are that no two workers hold the
same id, that a finished record never changes again, and the attempt and
timestamp bounds of a record.
-/

namespace Taskflow

/-- The id a goroutine answers for: a worker from the `BRPOPLPUSH` that handed
it the id to its outcome write, a `createJob` request between its insert and
its enqueue. -/
def WorkerPhase.holding : WorkerPhase → Option JobId
  | .fetched x | .dropping x => some x
  | .leasing j | .counting j | .announcing j | .running j | .failing j _ | .failWriting j _ _
  | .completing j _ | .completeWriting j _ _ => some j.id
  | _ => none

/-- See `WorkerPhase.holding`. -/
def Thread.about : Thread → Option JobId
  | .worker w => w.phase.holding
  | .create (.enqueuing j) => some j.id
  | _ => none

/-- The shape of a broker record in runs without cancellation: the attempt
budget, and which fields are set in which status. -/
structure Job.Shape (j : Job) : Prop where
  max_pos : 1 ≤ j.maxAttempts
  attempts_nonneg : 0 ≤ j.attempts
  attempts_le : j.attempts ≤ j.maxAttempts
  exhausted : j.attempts = j.maxAttempts → j.status = .failed
  completed_at : j.completedAt.isSome = j.status.isFinal
  started_at : j.startedAt.isSome ↔ j.status ≠ .pending
  worker_id : j.workerId ≠ "" ↔ j.status ≠ .pending
  result : j.result ≠ [] ↔ j.status = .completed
  error : j.error ≠ "" → 1 ≤ j.attempts

/-- What a worker's locals say about the broker; `clean` says that no command
has failed so far. -/
def WorkerPhase.Ok (clean : Bool) (W : World) : WorkerPhase → Prop
  | .fetched x => ∃ r, W.redis.jobs x = some r ∧ r.status.isQueued
  | .dropping x => (∃ r, W.redis.jobs x = some r ∧ r.status.isQueued) ∧ clean = false
  | .leasing j =>
    (∃ r, W.redis.jobs j.id = some r ∧ r.status.isQueued) ∧ j.status = .processing ∧ j.Shape ∧ j.marshal = some j
  | .counting j | .announcing j | .running j | .failing j _ =>
    W.redis.jobs j.id = some j ∧ j.status = .processing
  | .completing j res => W.redis.jobs j.id = some j ∧ j.status = .processing ∧ (Json.parse res).isSome
  | .failWriting j _ r => W.redis.jobs j.id = some j ∧ j.status = .processing ∧ r = j
  | .completeWriting j res r =>
    W.redis.jobs j.id = some j ∧ j.status = .processing ∧ r = j ∧ (Json.parse res).isSome
  | .mirroring j out => j.status = .processing ∧ j.Shape ∧ ∀ res, out = .ok res → (Json.parse res).isSome
  | _ => True

/-- What a goroutine's locals say about the broker and the store. -/
def Thread.Ok (clean : Bool) (W : World) : Thread → Prop
  | .free => True
  | .worker w => w.id ≠ "" ∧ w.phase.Ok clean W
  | .create (.storing j) => j.status = .pending ∧ j.Shape ∧ j.id.length ≤ 255
  | .create (.enqueuing j) =>
    j.status = .pending ∧ j.Shape ∧ W.redis.jobs j.id = none ∧ (W.db.jobs j.id).isSome ∧ j.marshal.isSome
  | .create (.responded _ _) => True
  | .cancel _ => False

/-- The ownership invariant; `clean` says that no command has failed so far. -/
structure Inv (clean : Bool) (s : Sys) : Prop where
  nodup : s.redis.pending.Nodup
  pending_queued : ∀ x ∈ s.redis.pending, ∃ r, s.redis.jobs x = some r ∧ r.status.isQueued
  pending_free : ∀ x ∈ s.redis.pending, ∀ t, (s.threads t).about ≠ some x
  unique : ∀ t u x, (s.threads t).about = some x → (s.threads u).about = some x → t = u
  queued_placed : clean → ∀ x r, s.redis.jobs x = some r → r.status.isQueued →
    x ∈ s.redis.pending ∨ ∃ t, (s.threads t).about = some x
  records : ∀ x r, s.redis.jobs x = some r → r.id = x ∧ r.Shape
  stored : ∀ x, (s.redis.jobs x).isSome → (s.db.jobs x).isSome
  threads_ok : ∀ t, (s.threads t).Ok clean s.toWorld

/-! ## Record shapes -/

/-- `Marshal` keeps a shape: it changes only the payload and the result, and
keeps the result empty or not. -/
theorem Job.Shape.marshal {j r : Job} (h : j.Shape) (hm : j.marshal = some r) : r.Shape := by
  have he := Job.marshal_result_eq_nil hm
  obtain ⟨p, q, -, -, rfl⟩ := Job.marshal_eq_some hm
  exact ⟨h.max_pos, h.attempts_nonneg, h.attempts_le, h.exhausted, h.completed_at, h.started_at, h.worker_id,
    by simp only [ne_eq, he]; exact h.result, h.error⟩

theorem Job.Shape.attempts_lt {j : Job} (h : j.Shape) (hs : j.status = .processing) :
    j.attempts < j.maxAttempts :=
  lt_of_le_of_ne h.attempts_le fun e => by simp [h.exhausted e] at hs

theorem newJob_shape (req : JobRequest) (id : JobId) (now : Time) : (newJob req id now).Shape where
  max_pos := newJob_maxAttempts_pos req id now
  attempts_nonneg := le_rfl
  attempts_le := by have := newJob_maxAttempts_pos req id now; simp only [newJob_attempts]; omega
  exhausted := fun e => by have := newJob_maxAttempts_pos req id now; simp at e; omega
  completed_at := rfl
  started_at := by simp [newJob]
  worker_id := by simp [newJob]
  result := by simp [newJob]
  error := by simp [newJob]

/-- The lease of a queued record keeps its shape. -/
theorem Job.Shape.lease {r : Job} (h : r.Shape) (hq : r.status.isQueued) {wid : String} (hw : wid ≠ "")
    (now : Time) : (RedisQueue.leaseJob r wid now).Shape := by
  have hfin : r.status.isFinal = false := by cases hs : r.status <;> simp_all [JobStatus.isQueued, JobStatus.isFinal]
  have hres : r.result = [] := by
    by_contra hr; have := h.result.1 hr; simp [this, JobStatus.isQueued] at hq
  have hne : r.attempts ≠ r.maxAttempts := fun e => by simp [h.exhausted e, JobStatus.isQueued] at hq
  have hca : r.completedAt = none := by simpa [hfin] using h.completed_at
  refine ⟨h.max_pos, h.attempts_nonneg, h.attempts_le, fun e => absurd e hne, ?_, ?_, ?_, ?_, h.error⟩ <;>
    simp [RedisQueue.leaseJob, JobStatus.isFinal, hw, hres, hca]

/-- The record `FailJob` writes for a leased job keeps the shape. -/
theorem Job.Shape.fail {j : Job} (h : j.Shape) (hs : j.status = .processing) (msg : String) (now later : Time) :
    (RedisQueue.failRecord j msg now later).Shape := by
  have hlt := h.attempts_lt hs
  have hst : j.startedAt.isSome := h.started_at.2 (by simp [hs])
  have hwk : j.workerId ≠ "" := h.worker_id.2 (by simp [hs])
  have hca : j.completedAt = none := by simpa [hs, JobStatus.isFinal] using h.completed_at
  have hres : j.result = [] := by by_contra hr; simp [h.result.1 hr] at hs
  unfold RedisQueue.failRecord
  split
  · exact ⟨h.max_pos, by dsimp only; have := h.attempts_nonneg; omega, by dsimp only; omega,
      fun e => by dsimp only at e; omega, by simp [hca, JobStatus.isFinal], by simp [hst], by simp [hwk],
      by simp [hres], fun _ => by dsimp only; have := h.attempts_nonneg; omega⟩
  · exact ⟨h.max_pos, by dsimp only; have := h.attempts_nonneg; omega, by dsimp only; omega, fun _ => rfl,
      by simp [JobStatus.isFinal], by simp [hst], by simp [hwk], by simp [hres],
      fun _ => by dsimp only; have := h.attempts_nonneg; omega⟩

/-- The record `CompleteJob` writes for a leased job keeps the shape. -/
theorem Job.Shape.complete {j : Job} (h : j.Shape) (hs : j.status = .processing) {result : RawMessage}
    (hres : result ≠ []) (now : Time) : (RedisQueue.completeRecord j result now).Shape := by
  have hlt := h.attempts_lt hs
  exact ⟨h.max_pos, h.attempts_nonneg, h.attempts_le, fun e => by simp [RedisQueue.completeRecord] at e; omega,
    by simp [RedisQueue.completeRecord, JobStatus.isFinal],
    by simp [RedisQueue.completeRecord, h.started_at.2 (by simp [hs])],
    by simp [RedisQueue.completeRecord, h.worker_id.2 (by simp [hs])], by simp [RedisQueue.completeRecord, hres],
    h.error⟩

/-! ## Frame lemmas -/

section
variable {c : Bool}

/-- A goroutine's `Ok` reads the world only at the id it answers for. -/
theorem Thread.ok_congr {W W' : World} (th : Thread)
    (h : ∀ x, th.about = some x → W.redis.jobs x = W'.redis.jobs x ∧ (W.db.jobs x).isSome = (W'.db.jobs x).isSome) :
    th.Ok c W ↔ th.Ok c W' := by
  rcases th with _ | ⟨id, types, p⟩ | p | p
  · rfl
  · cases p <;> simp only [Thread.Ok, WorkerPhase.Ok] <;> rw [(h _ rfl).1]
  · cases p <;> simp only [Thread.Ok]
    rw [(h _ rfl).1, (h _ rfl).2]
  · rfl

theorem Sys.put_about (s : Sys) (t : Nat) (th : Thread) (W : World) (u : Nat) :
    ((s.put t th W).threads u).about = if u = t then th.about else (s.threads u).about := by
  rw [Sys.put_threads]; split <;> rfl

/-- A slot that takes only ids no other slot answers for keeps every id
answered for by one slot. -/
theorem Inv.unique_put {s : Sys} (h : Inv c s) {t : Nat} {th : Thread} {W : World}
    (hfree : ∀ x, th.about = some x → ∀ u, u ≠ t → (s.threads u).about ≠ some x) (u v : Nat) (x : JobId)
    (hu : ((s.put t th W).threads u).about = some x) (hv : ((s.put t th W).threads v).about = some x) : u = v := by
  rw [Sys.put_about] at hu hv
  split at hu <;> split at hv <;> rename_i hut hvt
  · rw [hut, hvt]
  · exact absurd hv (hfree x hu v hvt)
  · exact absurd hu (hfree x hv u hut)
  · exact h.unique u v x hu hv

/-- Goroutine `t` moves without touching `pending` or any record, and answers
for the same id as before or, once a command has failed, for nothing. -/
theorem Inv.put_shrink {s : Sys} (h : Inv c s) {t : Nat} {th : Thread} {W : World}
    (hp : W.redis.pending = s.redis.pending) (hj : W.redis.jobs = s.redis.jobs)
    (hd : ∀ x, (W.db.jobs x).isSome = (s.db.jobs x).isSome)
    (ha : th.about = (s.threads t).about ∨ th.about = none ∧ c = false) (hok : th.Ok c W) :
    Inv c (s.put t th W) := by
  have hsub : ∀ u x, ((s.put t th W).threads u).about = some x → (s.threads u).about = some x := by
    intro u x; rw [Sys.put_threads]; split
    · subst u; rcases ha with ha | ⟨ha, -⟩ <;> simp [ha]
    · exact id
  refine ⟨?_, ?_, fun x hx u hu => h.pending_free x (hp ▸ hx) u (hsub u x hu),
    fun u v x hu hv => h.unique u v x (hsub u x hu) (hsub v x hv), fun hc => ?_, ?_, ?_, fun u => ?_⟩
  · simpa [hp] using h.nodup
  · simpa [hp, hj] using h.pending_queued
  · -- in a clean run nothing is released
    have hab : ∀ u, ((s.put t th W).threads u).about = (s.threads u).about := by
      have := ha.resolve_right fun h' => by simp [hc] at h'
      intro u; rw [Sys.put_threads]; split <;> simp_all
    simpa [hp, hj, hab] using h.queued_placed hc
  · simpa [hj] using h.records
  · simpa [hj, hd] using h.stored
  · rw [Sys.put_toWorld, Sys.put_threads]
    split
    · exact hok
    · exact (Thread.ok_congr _ fun x _ => ⟨hj.symm ▸ rfl, (hd x).symm⟩).1 (h.threads_ok u)

/-- Goroutine `t` moves without touching `pending` or any record, and answers
for the same id as before. -/
theorem Inv.put_quiet {s : Sys} (h : Inv c s) {t : Nat} {th : Thread} {W : World}
    (hp : W.redis.pending = s.redis.pending) (hj : W.redis.jobs = s.redis.jobs)
    (hd : ∀ x, (W.db.jobs x).isSome = (s.db.jobs x).isSome)
    (ha : th.about = (s.threads t).about) (hok : th.Ok c W) :
    Inv c (s.put t th W) :=
  h.put_shrink hp hj hd (.inl ha) hok

/-- The goroutine answering for `x` writes `x`'s record, pushes `x` back onto
`pending` when `push` holds, and answers for `x` afterwards or for nothing. -/
theorem Inv.put_write {s : Sys} (h : Inv c s) {t : Nat} {x : JobId} (ht : (s.threads t).about = some x)
    {th : Thread} {W : World} (r : Job) (push : Bool)
    (hj : ∀ y, W.redis.jobs y = if y = x then some r else s.redis.jobs y)
    (hp : W.redis.pending = if push then x :: s.redis.pending else s.redis.pending)
    (hdb : W.db = s.db) (hstored : (s.db.jobs x).isSome)
    (hth : th.about = some x ∨ th.about = none)
    (hpush : push → th.about = none ∧ r.status.isQueued)
    (hq : r.status.isQueued → push ∨ th.about = some x)
    (hr : r.id = x ∧ r.Shape) (hok : th.Ok c W) :
    Inv c (s.put t th W) := by
  have hxp : x ∉ s.redis.pending := fun hx => h.pending_free x hx t ht
  have hother : ∀ u, u ≠ t → (s.threads u).about ≠ some x := fun u hu hu' => hu (h.unique u t x hu' ht)
  have hmem : ∀ y, y ∈ W.redis.pending ↔ (push ∧ y = x) ∨ y ∈ s.redis.pending := by
    intro y; rw [hp]; cases push <;> simp
  have hab := Sys.put_about s t th W
  refine ⟨?_, ?_, ?_, h.unique_put fun y hy u hu => ?_, ?_, ?_, ?_, fun u => ?_⟩
  · -- the pushed id was answered for, so it was not queued yet
    simp only [Sys.put_redis, hp]
    cases push
    · exact h.nodup
    · exact List.nodup_cons.2 ⟨hxp, h.nodup⟩
  · intro y hy
    simp only [Sys.put_redis, hj] at hy ⊢
    rcases (hmem y).1 hy with ⟨hpu, rfl⟩ | hy
    · exact ⟨r, by simp, (hpush hpu).2⟩
    · simpa [show y ≠ x from fun e => hxp (e ▸ hy)] using h.pending_queued y hy
  · intro y hy u
    simp only [Sys.put_redis, hab] at hy ⊢
    split
    · rcases (hmem y).1 hy with ⟨hpu, rfl⟩ | hy
      · simp [(hpush hpu).1]
      · rcases hth with h' | h' <;> rw [h'] <;> simp
        exact fun e => hxp (e ▸ hy)
    · rename_i hu
      rcases (hmem y).1 hy with ⟨-, rfl⟩ | hy
      · exact hother u hu
      · exact h.pending_free y hy u
  · rcases hth with h' | h' <;> rw [h'] at hy <;> cases hy
    exact hother u hu
  · intro hc z r' hz hzq
    simp only [Sys.put_redis, hj] at hz
    by_cases hzx : z = x
    · subst hzx
      simp only [if_true, Option.some.injEq] at hz
      subst hz
      rcases hq hzq with hpu | h'
      · exact .inl ((hmem z).2 (.inl ⟨hpu, rfl⟩))
      · exact .inr ⟨t, by simp [hab, h']⟩
    · rw [if_neg hzx] at hz
      rcases h.queued_placed hc z r' hz hzq with hz' | ⟨u, hu⟩
      · exact .inl ((hmem z).2 (.inr hz'))
      · refine .inr ⟨u, ?_⟩
        have hut : u ≠ t := fun e => hzx (Option.some.inj ((e ▸ hu).symm.trans ht))
        simpa [hab, hut] using hu
  · intro z r' hz
    simp only [Sys.put_redis, hj] at hz
    split at hz
    · rename_i hzx; cases hz; exact hzx ▸ hr
    · exact h.records z r' hz
  · intro z hz
    simp only [Sys.put_redis, Sys.put_db, hj, hdb] at hz ⊢
    split at hz
    · subst z; exact hstored
    · exact h.stored z hz
  · rw [Sys.put_toWorld, Sys.put_threads]
    split
    · exact hok
    · rename_i hut
      refine (Thread.ok_congr _ fun y hy => ?_).1 (h.threads_ok u)
      have hyx : y ≠ x := fun e => hother u hut (e ▸ hy)
      simp [hj, hdb, hyx]

/-- A goroutine that answers for an id has a record of it in the broker or a
row of it in the store. -/
theorem Thread.Ok.about_isSome {W : World} {th : Thread} (h : th.Ok c W) {x : JobId} (hx : th.about = some x) :
    (W.redis.jobs x).isSome ∨ (W.db.jobs x).isSome := by
  rcases th with _ | ⟨id, types, p⟩ | p | p
  · cases hx
  · obtain ⟨-, hp⟩ := h
    cases p <;> simp only [Thread.about, WorkerPhase.holding, Option.some.injEq, reduceCtorEq] at hx <;>
      subst hx <;> simp only [WorkerPhase.Ok] at hp <;> refine .inl ?_
    all_goals first
      | (obtain ⟨r, hr, -⟩ := hp; simp [hr])
      | (obtain ⟨⟨r, hr, -⟩, -⟩ := hp; simp [hr])
      | simp [hp.1]
  · cases p <;> simp_all [Thread.about, Thread.Ok]
  · cases hx

theorem Inv.about_stored {s : Sys} (h : Inv c s) {t : Nat} {x : JobId} (hx : (s.threads t).about = some x) :
    (s.db.jobs x).isSome :=
  ((h.threads_ok t).about_isSome hx).elim (h.stored x) id

/-- A worker that answers for nothing takes the tail of `pending`. -/
theorem Inv.put_pop {s : Sys} (h : Inv c s) {t : Nat} (ht : (s.threads t).about = none)
    {w : WorkerThread} (hid : w.id ≠ "") {x : JobId} {r : Redis} (hpop : s.redis.brpoplpush = some (x, r)) :
    Inv c (s.put t (.worker { w with phase := .fetched x }) { s.toWorld with redis := r }) := by
  obtain ⟨hp, -, hj⟩ := Redis.brpoplpush_spec hpop
  have hnd : (x :: r.pending).Nodup := List.nodup_append_comm.1 (hp ▸ h.nodup)
  have hxr : x ∉ r.pending := (List.nodup_cons.1 hnd).1
  have hmem : ∀ y, y ∈ s.redis.pending ↔ y ∈ r.pending ∨ y = x := by intro y; simp [hp]
  have hxs : x ∈ s.redis.pending := (hmem x).2 (.inr rfl)
  have hab : ∀ u, ((s.put t (.worker { w with phase := .fetched x }) { s.toWorld with redis := r }).threads u).about =
      if u = t then some x else (s.threads u).about := Sys.put_about _ _ _ _
  refine ⟨(List.nodup_cons.1 hnd).2, ?_, ?_, h.unique_put fun y hy u _ => ?_, ?_, ?_, ?_, fun u => ?_⟩
  · intro y hy
    simpa [hj] using h.pending_queued y ((hmem y).2 (.inl hy))
  · intro y hy u
    simp only [Sys.put_redis, hab] at hy ⊢
    split
    · simpa using by rintro rfl; exact hxr hy
    · exact h.pending_free y ((hmem y).2 (.inl hy)) u
  · cases hy; exact h.pending_free x hxs u
  · intro hc z r' hz hzq
    simp only [Sys.put_redis, hj] at hz ⊢
    rcases h.queued_placed hc z r' hz hzq with hz' | ⟨u, hu⟩
    · rcases (hmem z).1 hz' with hz' | rfl
      · exact .inl hz'
      · exact .inr ⟨t, by simp [hab]⟩
    · refine .inr ⟨u, ?_⟩
      have hut : u ≠ t := fun e => by simp [e, ht] at hu
      simpa [hab, hut] using hu
  · simpa [hj] using h.records
  · simpa [hj] using h.stored
  · rw [Sys.put_toWorld, Sys.put_threads]
    split
    · exact ⟨hid, by simpa [WorkerPhase.Ok, hj] using h.pending_queued x hxs⟩
    · exact (@Thread.ok_congr c s.toWorld ⟨r, s.db⟩ _ fun y _ => ⟨by simp [hj], rfl⟩).1 (h.threads_ok u)

/-- A `createJob` request inserts its row, and from then on answers for the id. -/
theorem Inv.put_insert {s : Sys} (h : Inv c s) {t : Nat} {j : Job} (ht : s.threads t = .create (.storing j))
    {db : Postgres} (hdb : PostgresStorage.createJob s.db j = .ok db) :
    Inv c (s.put t (.create (.enqueuing j)) { s.toWorld with db := db }) := by
  have hok := h.threads_ok t
  rw [ht] at hok
  obtain ⟨row, hrow, hfresh, hjobs, -⟩ := PostgresStorage.createJob_ok hdb
  rw [PostgresStorage.insertRow_id hrow hok.2.2] at hfresh hjobs
  have hnone : s.redis.jobs j.id = none := by
    cases hr : s.redis.jobs j.id
    · rfl
    · have := h.stored j.id (by simp [hr]); simp [hfresh] at this
  have hfree : ∀ u, (s.threads u).about ≠ some j.id := fun u hu => by
    have := h.about_stored hu; simp [hfresh] at this
  have hpj : j.id ∉ s.redis.pending := fun hp => by
    obtain ⟨r, hr, -⟩ := h.pending_queued j.id hp; simp [hnone] at hr
  have hab : ∀ u, ((s.put t (.create (.enqueuing j)) { s.toWorld with db := db }).threads u).about =
      if u = t then some j.id else (s.threads u).about := Sys.put_about _ _ _ _
  refine ⟨h.nodup, h.pending_queued, ?_, h.unique_put fun y hy u _ => ?_, ?_, h.records, ?_, fun u => ?_⟩
  · intro y hy u
    simp only [Sys.put_redis, hab] at hy ⊢
    split
    · simpa using by rintro rfl; exact hpj hy
    · exact h.pending_free y hy u
  · cases hy; exact hfree u
  · intro hc z r' hz hzq
    rcases h.queued_placed hc z r' hz hzq with hz' | ⟨u, hu⟩
    · exact .inl hz'
    · refine .inr ⟨u, ?_⟩
      have hut : u ≠ t := fun e => by simp [e, ht, Thread.about] at hu
      simpa [hab, hut] using hu
  · intro z hz
    simp only [Sys.put_db, hjobs]
    split
    · simp
    · exact h.stored z hz
  · rw [Sys.put_toWorld, Sys.put_threads]
    split
    · exact ⟨hok.1, hok.2.1, hnone, by simp [hjobs], insertRow_marshal hrow⟩
    · refine (@Thread.ok_congr c s.toWorld ⟨s.redis, db⟩ _ fun y hy => ⟨rfl, ?_⟩).1 (h.threads_ok u)
      have : y ≠ j.id := by rintro rfl; exact hfree u hy
      simp [hjobs, this]

/-! ## Preservation -/

/-- One command of a worker keeps the invariant; a command fails only in a
run that is not clean. -/
theorem Inv.exec_worker {s : Sys} (h : Inv c s) {t : Nat} {w : WorkerThread} (hw : s.threads t = .worker w)
    {e : Env} (hf : e.ok = false → c = false) : Inv c (s.exec t e) := by
  obtain ⟨hid, hph⟩ : w.id ≠ "" ∧ w.phase.Ok c s.toWorld := by simpa [hw, Thread.Ok] using h.threads_ok t
  rw [Sys.exec, hw]
  rcases w with ⟨id, types, p⟩
  -- a failed command that drops the id the worker answered for
  have release : ∀ {q : WorkerPhase}, q.holding = none → q.Ok c s.toWorld → e.ok = false →
      Inv c (s.put t (.worker ⟨id, types, q⟩) s.toWorld) := fun ha hq hok =>
    h.put_shrink rfl rfl (fun _ => rfl) (.inr ⟨ha, hf hok⟩) ⟨hid, hq⟩
  have ht : (s.threads t).about = p.holding := by simp [hw, Thread.about]
  cases p with
  | registering =>
    simp only [WorkerThread.step, WorkerThread.next]
    split
    · exact h.put_quiet rfl rfl (by simp [PostgresStorage.registerWorker_jobs ‹_›]) ht.symm ⟨hid, trivial⟩
    · exact h.put_quiet rfl rfl (fun _ => rfl) ht.symm ⟨hid, trivial⟩
  | idle =>
    simp only [WorkerThread.step, WorkerThread.next]
    split
    · exact h.put_pop ht hid ‹_›
    · exact h.put_quiet rfl rfl (fun _ => rfl) ht.symm ⟨hid, trivial⟩
  | fetched x =>
    obtain ⟨r, hr, hq⟩ := hph
    have hrid := (h.records x r hr).1
    cases hok : e.ok
    · -- `GetJob` fails: `DequeueJob` will remove the id
      simp only [WorkerThread.step, WorkerThread.next, RedisQueue.getJob, hok, Bool.false_eq_true, ↓reduceIte]
      exact h.put_quiet rfl rfl (fun _ => rfl) ht.symm ⟨hid, ⟨r, hr, hq⟩, hf hok⟩
    · simp only [WorkerThread.step, WorkerThread.next, RedisQueue.getJob, hok, if_true, hr]
      exact h.put_quiet rfl rfl (fun _ => rfl)
        (by simp [hw, Thread.about, WorkerPhase.holding, RedisQueue.leaseJob, hrid])
        ⟨hid, ⟨r, by simp [RedisQueue.leaseJob, hrid, hr], hq⟩, rfl, (h.records x r hr).2.lease hq hid e.now,
          Job.marshal_congr (s.redis.normal x r hr) rfl rfl⟩
  | dropping x =>
    simp only [WorkerThread.step, WorkerThread.next]
    exact h.put_shrink (by split <;> simp) (by split <;> simp) (fun _ => by split <;> rfl)
      (.inr ⟨rfl, hph.2⟩) ⟨hid, trivial⟩
  | leasing j =>
    obtain ⟨⟨r, hr, -⟩, hs, hj, hm⟩ := hph
    cases hok : e.ok
    · simp only [WorkerThread.step, WorkerThread.next, hok]
      exact release rfl trivial hok
    · simp only [WorkerThread.step, WorkerThread.next, hok, RedisQueue.updateJob_of_marshal hm]
      exact h.put_write ht j false (fun y => by simp [Redis.storeJob_jobs, hm]) (by simp)
        rfl (h.stored _ (by simp [hr])) (.inl rfl) (by simp) (by simp [hs, JobStatus.isQueued]) ⟨rfl, hj⟩
        ⟨hid, by simp [hs, hm, WorkerPhase.Ok]⟩
  | counting j =>
    simp only [WorkerThread.step, WorkerThread.next]
    split <;> exact h.put_quiet (by simp) (by simp) (fun _ => rfl) ht.symm
      ⟨hid, hph⟩
  | announcing j =>
    simp only [WorkerThread.step, WorkerThread.next]
    exact h.put_quiet (by simp) (by simp) (by simp) ht.symm
      ⟨hid, by simpa [WorkerPhase.Ok] using hph⟩
  | running j =>
    simp only [WorkerThread.step, WorkerThread.next]
    cases hout : e.outcome with
    | error msg => exact h.put_quiet rfl rfl (fun _ => rfl) ht.symm ⟨hid, hph⟩
    | ok res => exact h.put_quiet rfl rfl (fun _ => rfl) ht.symm ⟨hid, hph.1, hph.2, e.outcome_json res hout⟩
  | failing j msg =>
    obtain ⟨hr, hs⟩ := hph
    cases hok : e.ok
    · simp only [WorkerThread.step, WorkerThread.next, RedisQueue.getJob, hok, Bool.false_eq_true, ↓reduceIte]
      exact release rfl ⟨hs, (h.records _ _ hr).2, by simp⟩ hok
    · simp only [WorkerThread.step, WorkerThread.next, RedisQueue.getJob, hok, if_true, hr]
      exact h.put_quiet rfl rfl (fun _ => rfl) ht.symm ⟨hid, hr, hs, rfl⟩
  | failWriting _ msg j =>
    obtain ⟨hr, hs, rfl⟩ := hph
    have hj := (h.records _ _ hr).2
    have hn := s.redis.normal _ _ hr
    have hmir : (WorkerPhase.mirroring j (.error msg)).Ok c s.toWorld := ⟨hs, hj, by simp⟩
    cases hok : e.ok
    · simp only [WorkerThread.step, WorkerThread.next, hok, World.brokerOr]
      exact release rfl hmir hok
    simp only [WorkerThread.step, WorkerThread.next, hok, RedisQueue.failJob_of_marshal hn, World.brokerOr]
    have hw : ∀ y, (s.redis.storeJob (RedisQueue.failRecord j msg e.now e.later)).jobs y =
        if y = j.id then some (RedisQueue.failRecord j msg e.now e.later) else s.redis.jobs y := fun y => by
      simp [Redis.storeJob_jobs, RedisQueue.failRecord_marshal hn]
    by_cases hlt : j.attempts + 1 < j.maxAttempts
    · -- a retry: the record goes back to `pending`
      rw [if_pos hlt]
      exact h.put_write ht _ true (by simpa using hw) (by simp) rfl (h.stored _ (by simp [hr]))
        (.inr rfl) (fun _ => ⟨rfl, by simp [RedisQueue.failRecord_status, hlt, JobStatus.isQueued]⟩)
        (fun _ => .inl rfl) ⟨by simp, hj.fail hs msg e.now e.later⟩ ⟨hid, hmir⟩
    · -- the last attempt: the record is failed
      rw [if_neg hlt]
      exact h.put_write ht _ false (by simpa using hw) (by simp) rfl (h.stored _ (by simp [hr]))
        (.inr rfl) (by simp) (by simp [RedisQueue.failRecord_status, hlt, JobStatus.isQueued])
        ⟨by simp, hj.fail hs msg e.now e.later⟩ ⟨hid, hmir⟩
  | completing j res =>
    obtain ⟨hr, hs, hres⟩ := hph
    cases hok : e.ok
    · simp only [WorkerThread.step, WorkerThread.next, RedisQueue.getJob, hok, Bool.false_eq_true, ↓reduceIte]
      exact release rfl ⟨hs, (h.records _ _ hr).2, by rintro _ ⟨⟩; exact hres⟩ hok
    · simp only [WorkerThread.step, WorkerThread.next, RedisQueue.getJob, hok, if_true, hr]
      exact h.put_quiet rfl rfl (fun _ => rfl) ht.symm ⟨hid, hr, hs, rfl, hres⟩
  | completeWriting _ res j =>
    obtain ⟨hr, hs, rfl, hres⟩ := hph
    have hj := (h.records _ _ hr).2
    obtain ⟨c', hc, hc'⟩ := marshalResult_of_parse hres
    have hm := RedisQueue.completeRecord_marshal (s.redis.normal _ _ hr) hc e.now
    have hmir : (WorkerPhase.mirroring j (.ok res)).Ok c s.toWorld := ⟨hs, hj, by rintro _ ⟨⟩; exact hres⟩
    cases hok : e.ok
    · simp only [WorkerThread.step, WorkerThread.next, hok, Bool.false_eq_true, ↓reduceIte]
      exact release rfl hmir hok
    · simp only [WorkerThread.step, WorkerThread.next, hok, if_true, RedisQueue.completeJob_eq]
      exact h.put_write ht (RedisQueue.completeRecord j c' e.now) false
        (fun y => by simp [Redis.storeJob_jobs, hm]) (by simp)
        rfl (h.stored _ (by simp [hr])) (.inr rfl) (by simp)
        (by simp [RedisQueue.completeRecord, JobStatus.isQueued]) ⟨by simp, hj.complete hs hc' e.now⟩
        ⟨hid, hmir⟩
  | mirroring job outcome =>
    simp only [WorkerThread.step, WorkerThread.next]
    exact h.put_quiet (by simp) (by simp) (World.storeOr_updateJob_isSome _ _ _) ht.symm ⟨hid, trivial⟩
  | settling =>
    simp only [WorkerThread.step, WorkerThread.next]
    exact h.put_quiet (by simp) (by simp) (by simp) ht.symm ⟨hid, trivial⟩
  | stopped =>
    simp only [WorkerThread.step, WorkerThread.next]
    exact h.put_quiet rfl rfl (fun _ => rfl) ht.symm ⟨hid, trivial⟩

/-- One command of a `createJob` request keeps the invariant. -/
theorem Inv.exec_create {s : Sys} (h : Inv c s) {t : Nat} {cp : CreatePhase} (hc : s.threads t = .create cp)
    {e : Env} (hf : e.ok = false → c = false) : Inv c (s.exec t e) := by
  have hok := h.threads_ok t
  rw [hc] at hok
  rw [Sys.exec, hc]
  cases cp with
  | storing j =>
    simp only [CreatePhase.step]
    split
    · exact h.put_insert hc ‹_›
    · exact h.put_quiet rfl rfl (fun _ => rfl) (by simp [hc, Thread.about]) trivial
  | enqueuing j =>
    obtain ⟨hpend, hshape, -, hdb, hm⟩ := hok
    obtain ⟨rec, hrec⟩ := Option.isSome_iff_exists.1 hm
    have ht : (s.threads t).about = some j.id := by simp [hc, Thread.about]
    cases he : e.ok
    · -- `EnqueueJob` fails: the request answers 500 and the id is left with a row only
      simp only [CreatePhase.step, he]
      exact h.put_shrink rfl rfl (fun _ => rfl) (.inr ⟨rfl, hf he⟩) trivial
    · simp only [CreatePhase.step, he, RedisQueue.enqueueJob_of_marshal hrec]
      have hshape' := hshape.marshal hrec
      obtain ⟨p, q, -, -, rfl⟩ := Job.marshal_eq_some hrec
      exact h.put_write ht { j with payload := p, result := q } true (fun y => by simp [Redis.storeJob_jobs, hrec])
        (by simp) rfl hdb
        (.inr rfl) (fun _ => ⟨rfl, by simp [hpend, JobStatus.isQueued]⟩) (fun _ => .inl rfl) ⟨rfl, hshape'⟩ trivial
  | responded status code =>
    exact h.put_quiet rfl rfl (fun _ => rfl) (by simp [hc, CreatePhase.step]) trivial

theorem Inv.workerIds {s : Sys} (h : Inv c s) (ids : List String) : Inv c { s with workerIds := ids } :=
  ⟨h.nodup, h.pending_queued, h.pending_free, h.unique, h.queued_placed, h.records, h.stored, h.threads_ok⟩

/-- Every move of a run without cancellation keeps the invariant; a command
fails only in a run that is not clean. -/
theorem inv_step {s : Sys} (h : Inv c s) {a : Act} (hc : a.noCancel) (hf : a.faultFree ∨ c = false) :
    Inv c (step s a) := by
  cases a with
  | startWorker t uuid types =>
    simp only [Taskflow.step]
    split
    · rename_i hg
      have h' : Inv c (s.put t (.worker ⟨newWorkerId uuid, types, .registering⟩) s.toWorld) :=
        h.put_quiet rfl rfl (fun _ => rfl) (by simp [hg.1, Thread.about, WorkerPhase.holding])
          ⟨newWorkerId_ne_empty uuid, trivial⟩
      exact h'.workerIds _
    · exact h
  | submit t req rand now =>
    simp only [Taskflow.step]
    split
    · rename_i hg
      exact h.put_quiet rfl rfl (fun _ => rfl) (by simp [hg, Thread.about])
        ⟨rfl, newJob_shape req _ now, by simp [generateJobID]⟩
    · exact h
  | cancel t jobId => exact hc.elim
  | exec t e =>
    have hf' : e.ok = false → c = false := fun he => hf.resolve_left (by simp [Act.faultFree, he])
    cases hth : s.threads t with
    | free => simpa [Taskflow.step, Sys.exec, hth] using h
    | worker w => simpa [Taskflow.step] using h.exec_worker hth hf'
    | create cp => simpa [Taskflow.step] using h.exec_create hth hf'
    | cancel cp => have := h.threads_ok t; rw [hth] at this; exact this.elim
  | beat t e =>
    simp only [Taskflow.step]
    split
    · rename_i w hth
      exact h.put_quiet (by simp) (by simp) (by simp) (by simp [hth])
        ((@Thread.ok_congr c s.toWorld (w.beat e s.toWorld) _ fun _ _ => by simp).1 (hth ▸ h.threads_ok t))
    · exact h
  | halt t =>
    simp only [Taskflow.step]
    split
    · rename_i w hth
      have hok : w.id ≠ "" ∧ w.phase.Ok c s.toWorld := by simpa [hth, Thread.Ok] using h.threads_ok t
      unfold WorkerThread.halt
      split
      · exact h.put_quiet rfl rfl (fun _ => rfl) (by simp_all [Thread.about, WorkerPhase.holding]) ⟨hok.1, trivial⟩
      · exact h.put_quiet rfl rfl (fun _ => rfl) (by simp [hth]) (hth ▸ h.threads_ok t)
    · exact h

theorem inv_empty : Inv c Sys.empty := by
  refine ⟨?_, ?_, ?_, ?_, ?_, ?_, ?_, ?_⟩ <;>
    simp [Sys.empty, Redis.empty, Postgres.empty, Thread.about, Thread.Ok]

end

/-- A nominal move: no command fails and no cancel request arrives. -/
def Act.nominal (a : Act) : Prop := a.faultFree ∧ a.noCancel

instance (a : Act) : Decidable a.nominal := inferInstanceAs (Decidable (a.faultFree ∧ a.noCancel))

/-- The ownership invariant holds in every state of every run without
cancellation, and is clean when no command of the run fails. -/
theorem inv_reachable {allow : Act → Prop} {c : Bool} (hc : ∀ a, allow a → a.noCancel)
    (hf : ∀ a, allow a → a.faultFree ∨ c = false) {s : Sys} (hs : Reachable allow s) : Inv c s := by
  induction hs with
  | init => exact inv_empty
  | step _ ha ih => exact inv_step ih (hc _ ha) (hf _ ha)

/-- The invariant of a run without cancellation, whose commands may fail. -/
theorem inv_noCancel {allow : Act → Prop} (hc : ∀ a, allow a → a.noCancel) {s : Sys} (hs : Reachable allow s) :
    Inv false s :=
  inv_reachable hc (fun _ _ => .inr rfl) hs

end Taskflow
