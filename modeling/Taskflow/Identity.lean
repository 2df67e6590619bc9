import Taskflow.JobValues

/-!
# One id, one record

`NewJob` sets a job's id, type, payload, attempt budget and creation time,
and no later write of the broker changes them: the lease, `FailJob` and
`CompleteJob` rewrite the record they read, and a record read back marshals to
itself (`Redis.normal`). Only `EnqueueJob` brings a job to the broker, and a
`createJob` request enqueues only after its insert, which the store's primary
key admits once per id. So the record of an id, once written, stays a copy of
one job, and every job a worker holds, and the record `cancelJob`'s `FailJob`
read, is a copy of the record of its id. `Sys.Coherent` states this, and
`coherent_reachable` proves it of every state of every run, cancellations and
failing commands included.

* `records_persist` — from any state, every run keeps every record, as a copy
  of the same job: no record is lost, and none becomes another job's. The
  writes that drop `Marshal`'s error never store the empty value, since what
  they marshal is a record read back and a result that is one JSON value;
* `Sys.Coherent.outcomeWrite_ident` — the record a worker's `FailJob` or
  `CompleteJob` rewrites is a copy of the job the worker ran.

Rows are not copies in this sense: a `jsonb` column keeps the payload in its
own normal form (`Jsonb.text`), not as the broker's compacted bytes, and
`cancelJob` falls back on the row when its broker read fails. What the store
and the broker share is the insert: every record has a row under its id.
-/

namespace Taskflow

/-! ## The fields a job keeps -/

/-- The fields `NewJob` sets and no later write of the broker changes: id,
type, payload, attempt budget and creation time. -/
def Job.ident (j : Job) : JobId × JobType × RawMessage × Int × Time :=
  (j.id, j.type, j.payload, j.maxAttempts, j.createdAt)

@[simp] theorem RedisQueue.leaseJob_ident (j : Job) (workerId : String) (now : Time) :
    (RedisQueue.leaseJob j workerId now).ident = j.ident := rfl

@[simp] theorem RedisQueue.failRecord_ident (j : Job) (msg : String) (now later : Time) :
    (RedisQueue.failRecord j msg now later).ident = j.ident := by
  unfold RedisQueue.failRecord; split <;> rfl

@[simp] theorem RedisQueue.completeRecord_ident (j : Job) (result : RawMessage) (now : Time) :
    (RedisQueue.completeRecord j result now).ident = j.ident := rfl

theorem RedisQueue.getJob_eq_ok {r : Redis} {x : JobId} {ok : Bool} {j : Job}
    (h : RedisQueue.getJob r x ok = .ok j) : r.jobs x = some j := by
  unfold RedisQueue.getJob at h
  split at h <;> [split at h; cases h]
  · cases h; assumption
  · cases h

/-! ## Records keep their job -/

namespace Redis

/-- The broker has a record at `j`'s id, and it is a copy of the same job. -/
def Roots (r : Redis) (j : Job) : Prop := (r.jobs j.id).map Job.ident = some j.ident

/-- No record of `r` is gone from `r'` or has become another job's. -/
def Keeps (r r' : Redis) : Prop :=
  ∀ x i, (r.jobs x).map Job.ident = some i → (r'.jobs x).map Job.ident = some i

theorem Keeps.refl (r : Redis) : r.Keeps r := fun _ _ h => h

theorem Keeps.trans {r₁ r₂ r₃ : Redis} (h₁ : r₁.Keeps r₂) (h₂ : r₂.Keeps r₃) : r₁.Keeps r₃ :=
  fun x i h => h₂ x i (h₁ x i h)

theorem Roots.keeps {r r' : Redis} {j : Job} (h : r.Roots j) (hk : r.Keeps r') : r'.Roots j :=
  hk _ _ h

/-- `Roots` reads only the identity of the job. -/
theorem Roots.congr {r : Redis} {j j' : Job} (h : r.Roots j) (he : j'.ident = j.ident) : r.Roots j' := by
  have hid : j'.id = j.id := congrArg Prod.fst he
  rw [Roots, hid, he]
  exact h

/-- Two copies of records with one id are copies of one job. -/
theorem Roots.ident_eq {r : Redis} {a b : Job} (ha : r.Roots a) (hb : r.Roots b) (hid : a.id = b.id) :
    a.ident = b.ident := by
  rw [Roots, hid, hb] at ha
  exact (Option.some.inj ha).symm

theorem Roots.isSome {r : Redis} {j : Job} (h : r.Roots j) : (r.jobs j.id).isSome := by
  unfold Roots at h
  cases hx : r.jobs j.id <;> simp_all

/-- A record filed under its own id roots itself. -/
theorem roots_of_jobs {r : Redis} {x : JobId} {j : Job} (hx : r.jobs x = some j) (hid : j.id = x) : r.Roots j := by
  rw [Roots, hid, hx]
  rfl

/-- A record `GetJob` returns is filed under the id asked for, roots itself,
and marshals to itself. -/
theorem getJob_rooted {r : Redis} (hk : ∀ x j, r.jobs x = some j → j.id = x) {x : JobId} {ok : Bool} {j : Job}
    (h : RedisQueue.getJob r x ok = .ok j) : j.id = x ∧ r.Roots j ∧ j.marshal = some j := by
  have hx := RedisQueue.getJob_eq_ok h
  exact ⟨hk x j hx, roots_of_jobs hx (hk x j hx), r.normal x j hx⟩

end Redis

/-- A command never removes a row. -/
theorem Postgres.RowStep.isSome {db db' : Postgres} {w : Option Job} (h : db.RowStep w db') {x : JobId}
    (hx : (db.jobs x).isSome) : (db'.jobs x).isSome := by
  cases h with
  | same hj => rwa [hj]
  | insert j _ hc =>
    obtain ⟨row, -, -, hjobs, -⟩ := PostgresStorage.createJob_ok hc
    rw [hjobs]
    split <;> simp [hx]
  | update j _ hu hj => rw [hj, PostgresStorage.updateJob_jobs_isSome hu]; exact hx

/-! ## What a goroutine holds -/

/-- The broker's job values a goroutine holds: a worker's locals, and the
record `cancelJob`'s `FailJob` read. -/
def Thread.held : Thread → List Job
  | .worker w => w.phase.locals
  | .cancel (.failWriting _ _ r) => [r]
  | _ => []

/-- What a worker knows of what it read and will write: the record its
`FailJob` or `CompleteJob` read is filed under the job's id, and the handler
result it reports is one JSON value. -/
def Thread.Reads : Thread → Prop
  | .worker ⟨_, _, .completing _ res⟩ => (Json.parse res).isSome
  | .worker ⟨_, _, .failWriting j _ r⟩ => r.id = j.id
  | .worker ⟨_, _, .completeWriting j res r⟩ => r.id = j.id ∧ (Json.parse res).isSome
  | _ => True

/-- Every record is filed under its own id and has a row; every job a
goroutine holds is a copy of its id's record and marshals to itself; and a
`createJob` request about to enqueue has inserted a row for an id no record and
no other such request has. -/
structure Sys.Coherent (s : Sys) : Prop where
  keyed : ∀ x r, s.redis.jobs x = some r → r.id = x
  rowed : ∀ x r, s.redis.jobs x = some r → (s.db.jobs x).isSome
  held : ∀ t, ∀ j ∈ (s.threads t).held, s.redis.Roots j ∧ j.marshal = some j
  reads : ∀ t, (s.threads t).Reads
  fresh : ∀ t j, s.threads t = .create (.enqueuing j) → s.redis.jobs j.id = none ∧ (s.db.jobs j.id).isSome
  fresh_unique : ∀ t u j k, s.threads t = .create (.enqueuing j) → s.threads u = .create (.enqueuing k) →
    j.id = k.id → t = u

/-! ## What each command writes -/

/-- The record a worker or `cancelJob` writes is a copy of a job it holds, and
marshals to a copy of itself. -/
theorem Thread.write_rooted {th : Thread} {e : Env} {r : Redis} {j : Job}
    (hl : ∀ k ∈ th.held, r.Roots k ∧ k.marshal = some k) (hr : th.Reads) (hw : th.write e = some j)
    (hc : ∀ k, th ≠ .create (.enqueuing k)) : r.Roots j ∧ ∃ j', j.marshal = some j' ∧ j'.ident = j.ident := by
  have second : ∀ {a b : Job}, b ∈ [a, b] := List.mem_cons_of_mem _ (List.mem_singleton_self _)
  unfold Thread.write at hw
  split at hw <;> cases hw
  · -- the lease
    obtain ⟨hroot, hm⟩ := hl _ (List.mem_singleton_self _)
    exact ⟨hroot, _, hm, rfl⟩
  · -- a worker's `FailJob`
    obtain ⟨hroot, hm⟩ := hl _ second
    exact ⟨hroot.congr (by simp), _, RedisQueue.failRecord_marshal hm .., rfl⟩
  · -- `CompleteJob`: the result compacts
    obtain ⟨hroot, hm⟩ := hl _ second
    obtain ⟨c, hc', -⟩ := marshalResult_of_parse (hr : _ ∧ _).2
    exact ⟨hroot.congr (by simp), _, RedisQueue.completeRecord_marshal hm hc' _, rfl⟩
  · exact absurd rfl (hc _)
  · -- `cancelJob`'s `FailJob`
    obtain ⟨hroot, hm⟩ := hl _ (List.mem_singleton_self _)
    exact ⟨hroot.congr (by simp), _, RedisQueue.failRecord_marshal hm .., rfl⟩

/-- A worker's next locals are copies of records it read and marshal to
themselves, and what it read is as `Thread.Reads` says. -/
theorem WorkerThread.next_held (w : WorkerThread) (e : Env) {W : World}
    (hk : ∀ x r, W.redis.jobs x = some r → r.id = x)
    (hl : ∀ j ∈ w.phase.locals, W.redis.Roots j ∧ j.marshal = some j) (hr : (Thread.worker w).Reads) :
    (∀ j ∈ (w.next e W).1.locals, W.redis.Roots j ∧ j.marshal = some j) ∧ (Thread.worker (w.step e W).1).Reads := by
  rcases w with ⟨id, types, p⟩
  have first : ∀ {a b : Job}, a ∈ [a, b] := List.mem_cons_self _ _
  cases p with
  | fetched x =>
    simp only [WorkerThread.step, WorkerThread.next]; split
    · obtain ⟨-, hroot, hm⟩ := Redis.getJob_rooted hk ‹_›
      exact ⟨by simpa [WorkerPhase.locals] using ⟨hroot.congr (by simp), Job.marshal_congr hm rfl rfl⟩, trivial⟩
    · exact ⟨by simp [WorkerPhase.locals], trivial⟩
  | running j =>
    have hj := hl j (by simp [WorkerPhase.locals])
    simp only [WorkerThread.step, WorkerThread.next]; split
    · exact ⟨by simpa [WorkerPhase.locals] using hj, trivial⟩
    · exact ⟨by simpa [WorkerPhase.locals] using hj, e.outcome_json _ ‹_›⟩
  | failing j msg =>
    have hj := hl j (by simp [WorkerPhase.locals])
    simp only [WorkerThread.step, WorkerThread.next]; split
    · obtain ⟨hid, hroot, hm⟩ := Redis.getJob_rooted hk ‹_›
      exact ⟨by simpa [WorkerPhase.locals, hj] using ⟨hroot, hm⟩, hid⟩
    · exact ⟨by simpa [WorkerPhase.locals] using hj, trivial⟩
  | completing j res =>
    have hj := hl j (by simp [WorkerPhase.locals])
    simp only [WorkerThread.step, WorkerThread.next]; split
    · obtain ⟨hid, hroot, hm⟩ := Redis.getJob_rooted hk ‹_›
      exact ⟨by simpa [WorkerPhase.locals, hj] using ⟨hroot, hm⟩, hid, hr⟩
    · exact ⟨by simpa [WorkerPhase.locals] using hj, trivial⟩
  | failWriting j msg r => exact ⟨by simpa [WorkerThread.next, WorkerPhase.locals] using hl j first, trivial⟩
  | completeWriting j res r => exact ⟨by simpa [WorkerThread.next, WorkerPhase.locals] using hl j first, trivial⟩
  | _ =>
    simp only [WorkerThread.step, WorkerThread.next]
    (try split) <;> exact ⟨fun j hj => hl j (by revert hj; simp [WorkerPhase.locals]), trivial⟩

/-- `cancelJob`'s next broker value is the record its `FailJob` read. -/
theorem CancelPhase.step_held (c : CancelPhase) (e : Env) {W : World}
    (hk : ∀ x r, W.redis.jobs x = some r → r.id = x) :
    ∀ j ∈ (Thread.cancel (c.step e W).1).held, W.redis.Roots j ∧ j.marshal = some j := by
  cases c with
  | lookup x =>
    simp only [CancelPhase.step]; split
    · simp [Thread.held]
    · split
      · unfold cancelCheck; split <;> simp [Thread.held]
      · simp [Thread.held]
  | storeLookup x =>
    simp only [CancelPhase.step]; split
    · unfold cancelCheck; split <;> simp [Thread.held]
    · simp [Thread.held]
  | failing x j =>
    simp only [CancelPhase.step]; split
    · obtain ⟨-, hroot, hm⟩ := Redis.getJob_rooted hk ‹_›
      simpa [Thread.held] using ⟨hroot, hm⟩
    · simp [Thread.held]
  | failWriting x j r => simp only [CancelPhase.step]; split <;> simp [Thread.held]
  | mirroring j | responded => simp [CancelPhase.step, Thread.held]

/-! ## How a request reaches `EnqueueJob` -/

/-- A slot holds a `createJob` request about to enqueue after a move only if it
held it before and did not move, or it just inserted its row. -/
theorem step_threads_enqueuing {s : Sys} {a : Act} {u : Nat} {k : Job}
    (h : (step s a).threads u = .create (.enqueuing k)) :
    s.threads u = .create (.enqueuing k) ∧ (∀ e, a ≠ .exec u e) ∨
      ∃ e, a = .exec u e ∧ s.threads u = .create (.storing k) ∧
        ∃ db, PostgresStorage.createJob s.db k = .ok db ∧ (step s a).db = db := by
  cases a with
  | exec t e =>
    by_cases hu : u = t
    · subst hu
      simp only [step, Sys.exec] at h
      split at h <;> rename_i hth <;> simp [Sys.put_threads, hth] at h
      rename_i c
      cases c with
      | storing j =>
        simp only [CreatePhase.step] at h
        split at h
        · cases h; exact .inr ⟨e, rfl, hth, _, ‹_›, by simp [step, Sys.exec, hth, CreatePhase.step, *]⟩
        · cases h
      | enqueuing j => simp only [CreatePhase.step] at h; split at h <;> cases h
      | responded => cases h
    · have hne : ∀ e', Act.exec t e ≠ .exec u e' := fun _ he => hu (Act.exec.inj he).1.symm
      simp only [step, Sys.exec] at h
      split at h <;> (try simp [Sys.put_threads, hu] at h) <;> exact .inl ⟨h, hne⟩
  | startWorker t | submit t | cancel t =>
    simp only [step] at h
    split at h
    · by_cases hu : u = t
      · subst hu; simp [Sys.put_threads] at h
      · simp [Sys.put_threads, hu] at h; exact .inl ⟨h, nofun⟩
    · exact .inl ⟨h, nofun⟩
  | beat t e | halt t =>
    simp only [step] at h
    split at h
    · by_cases hu : u = t
      · subst hu; simp [Sys.put_threads] at h
      · simp [Sys.put_threads, hu] at h; exact .inl ⟨h, nofun⟩
    · exact .inl ⟨h, nofun⟩

/-- An insert of a job whose id fits its column finds no row at that id, and
leaves one. -/
theorem createJob_absent {db db' : Postgres} {k : Job} (hc : PostgresStorage.createJob db k = .ok db')
    (hk : k.IdFits) : db.jobs k.id = none ∧ (db'.jobs k.id).isSome := by
  obtain ⟨row, hrow, hn, hjobs, -⟩ := PostgresStorage.createJob_ok hc
  have hid : row.id = k.id := Option.some.inj ((PostgresStorage.insertRow_some hrow).1.symm.trans hk)
  rw [← hid]
  exact ⟨hn, by simp [hjobs]⟩

/-! ## Every move keeps it -/

namespace Sys.Coherent

variable {s : Sys} (h : s.Coherent)
include h

/-- A move rewrites a record only with a copy of it: an enqueue writes where
no record is, and every other write writes a copy of a job its goroutine
holds. -/
theorem keeps_step (a : Act) : s.redis.Keeps (step s a).redis := by
  intro x i hx
  rcases step_jobs_cases s a x with hs | ⟨t, e, j, -, -, hw, hid, hj⟩
  · rwa [hs]
  by_cases hc : ∃ k, s.threads t = .create (.enqueuing k)
  · obtain ⟨k, hk⟩ := hc
    rw [hk] at hw
    cases hw
    rw [← hid, (h.fresh t _ hk).1] at hx
    cases hx
  · obtain ⟨hroot, j', hm, he⟩ := Thread.write_rooted (h.held t) (h.reads t) hw fun k hk => hc ⟨k, hk⟩
    rw [Redis.Roots, hid, hx] at hroot
    rw [hj, hm, Option.map_some', he]
    exact hroot.symm

/-- A record after a move is a copy of the record its id had before, unless the
move is the enqueue of a request for that id, and the record its job. -/
theorem record_step (a : Act) {x : JobId} {r' : Job} (hx : (step s a).redis.jobs x = some r') :
    (∃ r, s.redis.jobs x = some r ∧ r'.ident = r.ident) ∨
      ∃ t e k, a = .exec t e ∧ s.threads t = .create (.enqueuing k) ∧ k.id = x ∧ k.marshal = some r' := by
  rcases step_jobs_cases s a x with hs | ⟨t, e, j, rfl, -, hw, hid, hj⟩
  · exact .inl ⟨r', hs ▸ hx, rfl⟩
  by_cases hc : ∃ k, s.threads t = .create (.enqueuing k)
  · obtain ⟨k, hk⟩ := hc
    rw [hk] at hw
    cases hw
    exact .inr ⟨t, e, _, rfl, hk, hid, hj ▸ hx⟩
  · obtain ⟨hroot, j', hm, he⟩ := Thread.write_rooted (h.held t) (h.reads t) hw fun k hk => hc ⟨k, hk⟩
    rw [hj, hm] at hx
    cases hx
    rw [Redis.Roots, hid] at hroot
    obtain ⟨r, hr, hre⟩ := Option.map_eq_some'.1 hroot
    exact .inl ⟨r, hr, he.trans hre.symm⟩

theorem keyed_step (a : Act) : ∀ x r, (step s a).redis.jobs x = some r → r.id = x := by
  intro x r hx
  rcases step_jobs_cases s a x with hs | ⟨t, e, j, -, -, -, hid, hj⟩
  · exact h.keyed x r (hs ▸ hx)
  · rw [hj] at hx
    rw [Job.marshal_id hx, hid]

theorem rowed_step (a : Act) : ∀ x r, (step s a).redis.jobs x = some r → ((step s a).db.jobs x).isSome := by
  intro x r hx
  apply (rowStep_step s a).isSome
  rcases step_jobs_cases s a x with hs | ⟨t, e, j, -, -, hw, hid, -⟩
  · exact h.rowed x r (hs ▸ hx)
  by_cases hc : ∃ k, s.threads t = .create (.enqueuing k)
  · obtain ⟨k, hk⟩ := hc
    rw [hk] at hw
    cases hw
    exact hid ▸ (h.fresh t _ hk).2
  · obtain ⟨hroot, -⟩ := Thread.write_rooted (h.held t) (h.reads t) hw fun k hk => hc ⟨k, hk⟩
    obtain ⟨r₀, hr₀⟩ := Option.isSome_iff_exists.1 hroot.isSome
    exact h.rowed x r₀ (hid ▸ hr₀)

/-- Every goroutine of the next state holds copies of the new records. -/
theorem threads_step (a : Act) (u : Nat) :
    (∀ j ∈ ((step s a).threads u).held, (step s a).redis.Roots j ∧ j.marshal = some j) ∧
      ((step s a).threads u).Reads := by
  have hk := h.keeps_step a
  suffices hs : (∀ j ∈ ((step s a).threads u).held, s.redis.Roots j ∧ j.marshal = some j) ∧
      ((step s a).threads u).Reads from
    ⟨fun j hj => ⟨(hs.1 j hj).1.keeps hk, (hs.1 j hj).2⟩, hs.2⟩
  have same : (∀ j ∈ (s.threads u).held, s.redis.Roots j ∧ j.marshal = some j) ∧ (s.threads u).Reads :=
    ⟨h.held u, h.reads u⟩
  cases a with
  | startWorker t uuid types =>
    simp only [step]; split
    · rw [Sys.put_threads]; split
      · exact ⟨by simp [Thread.held, WorkerPhase.locals], trivial⟩
      · exact same
    · exact same
  | submit t req rand now =>
    simp only [step]; split
    · rw [Sys.put_threads]; split
      · exact ⟨by simp [Thread.held], trivial⟩
      · exact same
    · exact same
  | cancel t x =>
    simp only [step]; split
    · rw [Sys.put_threads]; split
      · exact ⟨by simp [Thread.held], trivial⟩
      · exact same
    · exact same
  | exec t e =>
    have hlt := h.held t
    have hrt := h.reads t
    simp only [step, Sys.exec]
    split <;> rename_i hth <;> rw [hth] at hlt hrt
    · exact same
    all_goals rw [Sys.put_threads]; split
    all_goals try exact same
    · exact WorkerThread.next_held _ e h.keyed hlt hrt
    · exact ⟨by simp [Thread.held], trivial⟩
    · exact ⟨CancelPhase.step_held _ e h.keyed, trivial⟩
  | beat t e =>
    simp only [step]; split
    · rename_i w hth
      rw [Sys.put_threads]; split
      · rw [← hth]; exact ⟨h.held t, h.reads t⟩
      · exact same
    · exact same
  | halt t =>
    simp only [step]; split
    · rename_i w hth
      rw [Sys.put_threads]; split
      · have hlt := h.held t
        rw [hth] at hlt
        unfold WorkerThread.halt; split
        · exact ⟨by simp [Thread.held, WorkerPhase.locals], trivial⟩
        · exact ⟨hlt, hth ▸ h.reads t⟩
      · exact same
    · exact same

/-- A request about to enqueue finds no record at its id after any move. -/
theorem fresh_step (hv : s.Everywhere Job.IdFits) (a : Act) :
    ∀ u k, (step s a).threads u = .create (.enqueuing k) →
      (step s a).redis.jobs k.id = none ∧ ((step s a).db.jobs k.id).isSome := by
  intro u k hu
  rcases step_threads_enqueuing hu with ⟨hs, hne⟩ | ⟨e, rfl, hs, db, hc, hdb⟩
  · -- a request still waiting: no goroutine writes a record at its id
    refine ⟨?_, (rowStep_step s a).isSome (h.fresh u k hs).2⟩
    rcases step_jobs_cases s a k.id with hj | ⟨t, e, j, rfl, -, hw, hid, -⟩
    · rw [hj]; exact (h.fresh u k hs).1
    exfalso
    by_cases hc : ∃ k', s.threads t = .create (.enqueuing k')
    · obtain ⟨k', hk'⟩ := hc
      rw [hk'] at hw
      cases hw
      exact hne e (by rw [h.fresh_unique t u _ k hk' hs hid])
    · obtain ⟨hroot, -⟩ := Thread.write_rooted (h.held t) (h.reads t) hw fun k hk => hc ⟨k, hk⟩
      have := hroot.isSome
      rw [hid, (h.fresh u k hs).1] at this
      cases this
  · -- the request just inserted its row, where no row, so no record, was
    have hk : k.IdFits := hv.locals u k (by simp [hs, Thread.locals, CreatePhase.locals])
    obtain ⟨hn, hdb'⟩ := createJob_absent hc hk
    have hr : (step s (.exec u e)).redis = s.redis := by
      simp only [step, Sys.exec, hs, Sys.put_redis, CreatePhase.step]; split <;> rfl
    refine ⟨?_, hdb ▸ hdb'⟩
    rw [hr]
    cases hx : s.redis.jobs k.id with
    | none => rfl
    | some r => simpa [hn] using h.rowed _ r hx

/-- Two requests about to enqueue never share an id. -/
theorem fresh_unique_step (hv : s.Everywhere Job.IdFits) (a : Act) :
    ∀ t u j k, (step s a).threads t = .create (.enqueuing j) → (step s a).threads u = .create (.enqueuing k) →
      j.id = k.id → t = u := by
  intro t u j k ht hu hid
  have inserted : ∀ {t' u' : Nat} {j' k' : Job} {db : Postgres}, s.threads t' = .create (.enqueuing j') →
      s.threads u' = .create (.storing k') → PostgresStorage.createJob s.db k' = .ok db → j'.id ≠ k'.id := by
    intro t' u' j' k' db ht' hu' hc' hid'
    have hk : k'.IdFits := hv.locals u' k' (by simp [hu', Thread.locals, CreatePhase.locals])
    have := (h.fresh _ _ ht').2
    rw [hid', (createJob_absent hc' hk).1] at this
    cases this
  rcases step_threads_enqueuing ht with ⟨hs, -⟩ | ⟨e, rfl, hs, db, hc, -⟩ <;>
    rcases step_threads_enqueuing hu with ⟨hs', -⟩ | ⟨e', he, hs', db', hc', -⟩
  · exact h.fresh_unique t u j k hs hs' hid
  · exact absurd hid (inserted hs hs' hc')
  · exact absurd hid.symm (inserted hs' hs hc)
  · exact (Act.exec.inj he).1

/-- Every move keeps the deployment coherent. -/
theorem step (hv : s.Everywhere Job.IdFits) (a : Act) : (Taskflow.step s a).Coherent :=
  ⟨h.keyed_step a, h.rowed_step a, fun u => (h.threads_step a u).1, fun u => (h.threads_step a u).2,
    h.fresh_step hv a, h.fresh_unique_step hv a⟩

end Sys.Coherent

/-- Every state of every run is coherent, cancellations and failing commands
included. -/
theorem coherent_reachable {allow : Act → Prop} {s : Sys} (hs : Reachable allow s) : s.Coherent := by
  induction hs with
  | init =>
    refine ⟨?_, ?_, ?_, fun _ => trivial, ?_, ?_⟩ <;>
      simp [Sys.empty, Redis.empty, Thread.held]
  | step hs' _ ih => exact ih.step (everywhere_reachable idFits_closed hs') _

theorem keeps_run {s : Sys} (hc : s.Coherent) (hv : s.Everywhere Job.IdFits) :
    ∀ acts, s.redis.Keeps (run s acts).redis
  | [] => .refl _
  | a :: acts => (hc.keeps_step a).trans (keeps_run (hc.step hv a) (hv.step idFits_closed a) acts)

/-- The job a worker's outcome write acts on, and the record that write
rewrites: its `FailJob` or `CompleteJob` after the `GetJob`. -/
def Thread.outcomeWrite : Thread → Option (Job × Job)
  | .worker ⟨_, _, .failWriting j _ r⟩ | .worker ⟨_, _, .completeWriting j _ r⟩ => some (j, r)
  | _ => none

/-- An outcome write rewrites a record of the job the worker ran. -/
theorem Sys.Coherent.outcomeWrite_ident {s : Sys} (hc : s.Coherent) {t : Nat} {j r : Job}
    (h : (s.threads t).outcomeWrite = some (j, r)) : r.ident = j.ident := by
  have hl := hc.held t
  have hr := hc.reads t
  have first : ∀ {a b : Job}, a ∈ [a, b] := List.mem_cons_self _ _
  have second : ∀ {a b : Job}, b ∈ [a, b] := List.mem_cons_of_mem _ (List.mem_singleton_self _)
  unfold Thread.outcomeWrite at h
  split at h <;> cases h <;> rename_i hth <;> rw [hth] at hl hr
  · exact (hl r second).1.ident_eq (hl j first).1 hr
  · exact (hl r second).1.ident_eq (hl j first).1 hr.1

end Taskflow
