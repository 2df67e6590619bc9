import Taskflow.JobValues
import Taskflow.Outcomes

/-!
# The worker rows (`workers` table)

A worker's row is written by three commands of its loop, `registerWorker`
(`starting`), `updateWorkerStatus("processing", job.ID)` and
`updateWorkerStatus("idle", "")`, and by every tick of its heartbeat
goroutine, which writes `idle` with no current job whatever the loop is doing.
Each is `RegisterWorker`'s upsert, which stores the row as its columns read it
back, or fails as a whole when one of them refuses its value.

* `step_workers_cases` — what one move can do to the table: nothing, or upsert
  the row of the moving worker (its command or its heartbeat), under its id.
* `RowInv` — worker ids are unique, every row belongs to a started worker and
  reads `starting`, `idle` or `processing`, with a current job only while
  `processing`; it holds in every run (`rowInv_reachable`), and every change
  of a row's status by one move is one of the five `RowStep`s.
* `RowInv.tracks_step` — while a worker runs a job, from its announce to its
  settle, its row names that job, for as long as the worker's own commands
  succeed and its heartbeat does not tick. The announce's upsert cannot be
  refused: worker ids and job ids are hex strings that fit their columns
  (`Job.IdFits`), and the job types passed the same check at registration.

`worker_row_counterexample` is the tick that lands while a handler runs, and
the first lease after registration, which takes the row from `starting`
straight to `processing`. `last_seen` is written by every upsert and read by
`GetWorkers` only; it is kept in the rows but nothing is proved about it.
-/

namespace Taskflow

/-! ## What a move writes to the table -/

/-- The row `updateWorkerStatus` hands to `RegisterWorker` for `w`. -/
def WorkerThread.row (w : WorkerThread) (now : Time) (status currentJob : String) : Worker :=
  ⟨w.id, status, now, w.supportedTypes, currentJob⟩

/-- The status and current job the next command of a worker loop writes to its
row: `registerWorker` and the loop's two `updateWorkerStatus` calls. -/
def WorkerPhase.rowWrite : WorkerPhase → Option (String × String)
  | .registering => some ("starting", "")
  | .announcing job => some ("processing", job.id)
  | .settling => some ("idle", "")
  | _ => none

/-- The heartbeat goroutine runs from registration until `Start` returns. -/
def WorkerPhase.beating : WorkerPhase → Bool
  | .registering | .stopped => false
  | _ => true

/-- The job whose handler the worker runs, from its announce to its settle. -/
def WorkerPhase.handling : WorkerPhase → Option JobId
  | .running j | .failing j _ | .failWriting j _ _ | .completing j _ | .completeWriting j _ _ => some j.id
  | .mirroring j _ => some j.id
  | _ => none

/-- The table after `w` upserts status and current job `sc`: the row as it
reads back, under the id it reads back with; a failed or refused upsert
changes nothing. -/
def WorkerThread.upserted (w : WorkerThread) (e : Env) (sc : Option (String × String))
    (rows : String → Option Worker) : String → Option Worker :=
  match e.ok, sc with
  | true, some (st, cur) =>
    match PostgresStorage.workerRow (w.row e.now st cur) with
    | some R => fun x => if x = R.id then some R else rows x
    | none => rows
  | _, _ => rows

@[simp] theorem WorkerThread.upserted_none (w : WorkerThread) (e : Env) (rows : String → Option Worker) :
    w.upserted e none rows = rows := by
  unfold WorkerThread.upserted; split <;> simp_all

theorem WorkerThread.upserted_cases (w : WorkerThread) (e : Env) (sc : Option (String × String))
    (rows : String → Option Worker) (x : String) :
    w.upserted e sc rows x = rows x ∨
      ∃ st cur R, e.ok = true ∧ sc = some (st, cur) ∧ PostgresStorage.workerRow (w.row e.now st cur) = some R ∧
        R.id = x ∧ w.upserted e sc rows x = some R := by
  unfold WorkerThread.upserted
  rcases hok : e.ok <;> rcases sc with _ | ⟨st, cur⟩ <;> try exact .inl rfl
  dsimp only
  rcases hR : PostgresStorage.workerRow (w.row e.now st cur) with _ | R
  · exact .inl rfl
  by_cases hx : x = R.id
  · exact .inr ⟨st, cur, R, rfl, rfl, hR, hx.symm, by simp [hx]⟩
  · exact .inl (by simp [hx])

/-- `RegisterWorker`'s upsert, as `upserted` states it. -/
theorem WorkerThread.registerWorker_workers (w : WorkerThread) (e : Env) (st cur : String) (db : Postgres) :
    (match e.ok, PostgresStorage.registerWorker db (w.row e.now st cur) with
      | true, .ok db' => db'.workers
      | _, _ => db.workers) = w.upserted e (some (st, cur)) db.workers := by
  unfold PostgresStorage.registerWorker WorkerThread.upserted
  cases e.ok
  · rfl
  · dsimp only
    cases PostgresStorage.workerRow (w.row e.now st cur) <;> rfl

theorem updateWorkerStatus_workers (W : World) (w : WorkerThread) (st cur : String) (e : Env) :
    (updateWorkerStatus W w st cur e).db.workers = w.upserted e (some (st, cur)) W.db.workers := by
  change (W.storeOr e.ok (PostgresStorage.registerWorker W.db (w.row e.now st cur))).db.workers = _
  unfold World.storeOr PostgresStorage.registerWorker WorkerThread.upserted
  cases e.ok
  · rfl
  · dsimp only
    cases PostgresStorage.workerRow (w.row e.now st cur) <;> rfl

@[simp] theorem World.storeOr_updateJob_workers (W : World) (ok : Bool) (j : Job) :
    (W.storeOr ok (PostgresStorage.updateJob W.db j)).db.workers = W.db.workers := by
  rcases World.storeOr_db W ok (PostgresStorage.updateJob W.db j) with h | ⟨-, h⟩
  · rw [h]
  · exact PostgresStorage.updateJob_workers h

theorem WorkerThread.next_workers (w : WorkerThread) (e : Env) (W : World) :
    (w.next e W).2.db.workers = w.upserted e w.phase.rowWrite W.db.workers := by
  rcases w with ⟨id, types, p⟩
  cases p
  case registering =>
    rw [WorkerPhase.rowWrite, ← WorkerThread.registerWorker_workers]
    simp only [WorkerThread.next]
    split <;> simp_all [WorkerThread.row]
  case announcing | settling => exact updateWorkerStatus_workers ..
  all_goals simp only [WorkerThread.next, WorkerPhase.rowWrite, WorkerThread.upserted_none]
  all_goals first | rfl | simp | (split <;> rfl)

theorem WorkerThread.beat_workers (w : WorkerThread) (e : Env) (W : World) :
    (w.beat e W).db.workers = w.upserted e (if w.phase.beating then some ("idle", "") else none) W.db.workers := by
  rcases w with ⟨id, types, p⟩
  cases p
  case registering | stopped => simp [WorkerThread.beat, WorkerPhase.beating]
  all_goals exact updateWorkerStatus_workers ..

theorem CreatePhase.step_workers (c : CreatePhase) (e : Env) (W : World) : (c.step e W).2.db.workers = W.db.workers := by
  cases c with
  | storing j =>
    simp only [CreatePhase.step]; split
    · obtain ⟨-, -, -, -, hw⟩ := PostgresStorage.createJob_ok ‹_›; exact hw
    · rfl
  | enqueuing j => simp only [CreatePhase.step]; split <;> rfl
  | responded => rfl

theorem CancelPhase.step_workers (c : CancelPhase) (e : Env) (W : World) : (c.step e W).2.db.workers = W.db.workers := by
  cases c <;> simp only [CancelPhase.step] <;> (try split) <;> (try split) <;> simp

/-- The inversion lemma for the table: only a worker's command or its
heartbeat's tick upserts a row. -/
theorem step_workers (s : Sys) (a : Act) :
    (step s a).db.workers = match a with
      | .exec t e => match s.threads t with
        | .worker w => w.upserted e w.phase.rowWrite s.db.workers
        | _ => s.db.workers
      | .beat t e => match s.threads t with
        | .worker w => w.upserted e (if w.phase.beating then some ("idle", "") else none) s.db.workers
        | _ => s.db.workers
      | _ => s.db.workers := by
  cases a with
  | exec t e =>
    simp only [step, Sys.exec]
    rcases s.threads t with _ | w | c | c <;> simp only [Sys.put_db]
    · exact WorkerThread.next_workers _ _ _
    · exact CreatePhase.step_workers _ _ _
    · exact CancelPhase.step_workers _ _ _
  | beat t e =>
    simp only [step]
    rcases s.threads t with _ | w | c | c <;> simp only [Sys.put_db]
    exact WorkerThread.beat_workers _ _ _
  | startWorker | submit | cancel => simp only [step]; split <;> rfl
  | halt => simp only [step]; split <;> rfl

/-- A row changes only to the row its own worker upserts: by a command that
writes the row, or by a heartbeat tick, which writes `idle`. -/
theorem step_workers_cases (s : Sys) (a : Act) (x : String) :
    (step s a).db.workers x = s.db.workers x ∨
      ∃ t w e st cur R, s.threads t = .worker w ∧ e.ok = true ∧
        PostgresStorage.workerRow (w.row e.now st cur) = some R ∧ R.id = x ∧ (step s a).db.workers x = some R ∧
        (a = .exec t e ∧ w.phase.rowWrite = some (st, cur) ∨
          a = .beat t e ∧ w.phase.beating = true ∧ st = "idle" ∧ cur = "") := by
  rw [step_workers]
  cases a with
  | exec t e =>
    dsimp only
    rcases hw : s.threads t with _ | w | c | c <;> dsimp only <;> try exact .inl rfl
    rcases w.upserted_cases e w.phase.rowWrite s.db.workers x with hu | ⟨st, cur, R, hok, hsc, hR, hid, hrow⟩
    · exact .inl hu
    · exact .inr ⟨t, w, e, st, cur, R, hw, hok, hR, hid, hrow, .inl ⟨rfl, hsc⟩⟩
  | beat t e =>
    dsimp only
    rcases hw : s.threads t with _ | w | c | c <;> dsimp only <;> try exact .inl rfl
    rcases w.upserted_cases e _ s.db.workers x with hu | ⟨st, cur, R, hok, hsc, hR, hid, hrow⟩
    · exact .inl hu
    · split at hsc
      · cases hsc; exact .inr ⟨t, w, e, _, _, R, hw, hok, hR, hid, hrow, .inr ⟨rfl, ‹_›, rfl, rfl⟩⟩
      · cases hsc
  | _ => exact .inl rfl

theorem step_workers_isSome (s : Sys) (a : Act) {x : String} (h : (s.db.workers x).isSome) :
    ((step s a).db.workers x).isSome := by
  rcases step_workers_cases s a x with hu | ⟨_, _, _, _, _, _, _, _, _, _, hrow, _⟩ <;> simp_all

/-! ## What a move does to the worker goroutines -/

theorem WorkerThread.next_ne_registering (w : WorkerThread) (e : Env) (W : World) :
    (w.next e W).1 ≠ .registering := by
  rcases w with ⟨id, types, p⟩
  cases p <;> simp only [WorkerThread.next] <;> (try split) <;> simp

/-- Only registration starts the heartbeat, and only when its upsert succeeds. -/
theorem WorkerThread.next_beating (w : WorkerThread) (e : Env) (W : World) (h : (w.next e W).1.beating = true) :
    w.phase.beating = true ∨
      w.phase = .registering ∧ e.ok = true ∧ ∃ R, PostgresStorage.workerRow (w.row e.now "starting" "") = some R := by
  rcases w with ⟨id, types, p⟩
  cases p
  case registering =>
    simp only [WorkerThread.next] at h
    split at h
    · obtain ⟨R, hR, -⟩ := PostgresStorage.registerWorker_ok ‹_›
      exact .inr ⟨rfl, ‹_›, R, hR⟩
    · simp [WorkerPhase.beating] at h
  case stopped => simp [WorkerThread.next, WorkerPhase.beating] at h
  all_goals exact .inl rfl

/-- A worker starts running a job only at its announce, and otherwise keeps
the job, writing no row, until it settles. -/
theorem WorkerThread.next_handling (w : WorkerThread) (e : Env) (W : World) {x : JobId}
    (h : (w.next e W).1.handling = some x) :
    w.phase.handling = some x ∧ w.phase.rowWrite = none ∨ ∃ j, w.phase = .announcing j ∧ j.id = x := by
  rcases w with ⟨id, types, p⟩
  cases p <;> simp only [WorkerThread.next] at h <;> (try split at h) <;>
    simp_all [WorkerPhase.handling, WorkerPhase.rowWrite, completedRow]

/-- A worker slot was started by this move, or held the same worker before,
which then ran its command, or kept its phase, or stopped. -/
theorem step_threads_worker {s : Sys} {a : Act} {u : Nat} {w' : WorkerThread}
    (h : (step s a).threads u = .worker w') :
    (∃ uuid types, a = .startWorker u uuid types ∧ (step s a).workerIds = newWorkerId uuid :: s.workerIds ∧
        newWorkerId uuid ∉ s.workerIds ∧ w' = ⟨newWorkerId uuid, types, .registering⟩) ∨
      ∃ w, s.threads u = .worker w ∧ (w'.id = w.id ∧ w'.supportedTypes = w.supportedTypes) ∧
        ((∃ e, a = .exec u e ∧ w'.phase = (w.next e s.toWorld).1) ∨
          (∀ e, a ≠ .exec u e) ∧ (w'.phase = w.phase ∨ w'.phase = .stopped)) := by
  have same : s.threads u = .worker w' → (∀ e, a ≠ .exec u e) → ∃ w, s.threads u = .worker w ∧
      (w'.id = w.id ∧ w'.supportedTypes = w.supportedTypes) ∧
      ((∃ e, a = .exec u e ∧ w'.phase = (w.next e s.toWorld).1) ∨
        (∀ e, a ≠ .exec u e) ∧ (w'.phase = w.phase ∨ w'.phase = .stopped)) := fun hs hne =>
    ⟨w', hs, ⟨rfl, rfl⟩, .inr ⟨hne, .inl rfl⟩⟩
  cases a with
  | startWorker t uuid types =>
    simp only [step] at h
    split at h
    · rename_i hc
      by_cases hu : u = t
      · subst hu; simp [Sys.put_threads] at h; exact .inl ⟨uuid, types, rfl, by simp [step, hc], hc.2, h.symm⟩
      · simp [Sys.put_threads, hu] at h; exact .inr (same h nofun)
    · exact .inr (same h nofun)
  | submit t | cancel t =>
    simp only [step] at h
    split at h
    · by_cases hu : u = t
      · subst hu; simp [Sys.put_threads] at h
      · simp [Sys.put_threads, hu] at h; exact .inr (same h nofun)
    · exact .inr (same h nofun)
  | exec t e =>
    by_cases hu : u = t
    · subst hu
      simp only [step, Sys.exec] at h
      split at h <;> rename_i hw <;> simp [Sys.put_threads, hw] at h
      exact .inr ⟨_, hw, by rw [← h]; exact ⟨rfl, rfl⟩, .inl ⟨e, rfl, by rw [← h]; rfl⟩⟩
    · have hne : ∀ e', Act.exec t e ≠ .exec u e' := fun _ he => hu (Act.exec.inj he).1.symm
      simp only [step, Sys.exec] at h
      split at h <;> (try simp [Sys.put_threads, hu] at h) <;> exact .inr (same h hne)
  | beat t e =>
    simp only [step] at h
    split at h
    · by_cases hu : u = t
      · subst hu; rename_i w hw; simp [Sys.put_threads] at h; subst h; exact .inr (same hw nofun)
      · simp [Sys.put_threads, hu] at h; exact .inr (same h nofun)
    · exact .inr (same h nofun)
  | halt t =>
    simp only [step] at h
    split at h
    · by_cases hu : u = t
      · subst hu; rename_i w hw; simp [Sys.put_threads] at h; subst h
        refine .inr ⟨w, hw, ?_, .inr ⟨nofun, ?_⟩⟩ <;> unfold WorkerThread.halt <;> split <;> simp
      · simp [Sys.put_threads, hu] at h; exact .inr (same h nofun)
    · exact .inr (same h nofun)

theorem step_workerIds_sub (s : Sys) (a : Act) {x : String} (h : x ∈ s.workerIds) : x ∈ (step s a).workerIds := by
  cases a <;> simp only [step, Sys.exec] <;> split <;> simp [h]

/-! ## The row invariant -/

/-- A row the loop or the heartbeat wrote: one of the three statuses, with a
current job only while `processing`. -/
structure Worker.Ok (R : Worker) : Prop where
  status : R.status = "starting" ∨ R.status = "idle" ∨ R.status = "processing"
  current : R.status = "processing" ∨ R.currentJob = ""

section
variable {w : WorkerThread} {now : Time} {st cur : String} {R : Worker}
  (hR : PostgresStorage.workerRow (w.row now st cur) = some R)
include hR

/-- An upserted row is filed under the worker's id when that id fits. -/
theorem WorkerThread.row_id (hw : PostgresStorage.varchar 255 w.id = some w.id) : R.id = w.id :=
  Option.some.inj ((PostgresStorage.workerRow_some hR).1.symm.trans hw)

theorem WorkerThread.row_status (hs : st.length ≤ 20) : R.status = st :=
  PostgresStorage.varchar_of_le (PostgresStorage.workerRow_some hR).2.1 hs

/-- The row stored for one of the three statuses, with a current job only
while `processing`, has the shape `Worker.Ok` asks of it. -/
theorem WorkerThread.row_ok (hs : st = "starting" ∨ st = "idle" ∨ st = "processing")
    (hc : st = "processing" ∨ cur = "") : R.Ok := by
  have hst : R.status = st := WorkerThread.row_status hR (by rcases hs with rfl | rfl | rfl <;> decide)
  refine ⟨hst ▸ hs, ?_⟩
  rcases hc with hc | rfl
  · exact .inl (hst.trans hc)
  · exact .inr (PostgresStorage.varchar_of_le (PostgresStorage.workerRow_some hR).2.2.2 (by decide))

end

theorem WorkerPhase.rowWrite_ok {p : WorkerPhase} {st cur : String} (h : p.rowWrite = some (st, cur))
    {w : WorkerThread} {now : Time} {R : Worker} (hR : PostgresStorage.workerRow (w.row now st cur) = some R) :
    R.Ok := by
  cases p <;> simp [WorkerPhase.rowWrite] at h <;> obtain ⟨rfl, rfl⟩ := h
  exacts [w.row_ok hR (.inl rfl) (.inr rfl), w.row_ok hR (.inr (.inr rfl)) (.inl rfl),
    w.row_ok hR (.inr (.inl rfl)) (.inr rfl)]

/-- The worker table and the worker goroutines agree. -/
structure RowInv (s : Sys) : Prop where
  ids_known : ∀ t w, s.threads t = .worker w → w.id ∈ s.workerIds
  ids_unique : ∀ t u w w', s.threads t = .worker w → s.threads u = .worker w' → w.id = w'.id → t = u
  ids_fit : ∀ t w, s.threads t = .worker w → PostgresStorage.varchar 255 w.id = some w.id
  types_fit : ∀ t w, s.threads t = .worker w → w.phase.beating = true →
    (Jsonb.text (PostgresStorage.marshalStrings w.supportedTypes)).isSome
  rows_known : ∀ x R, s.db.workers x = some R → x ∈ s.workerIds
  rows_ok : ∀ x R, s.db.workers x = some R → R.id = x ∧ R.Ok
  row_new : ∀ t w, s.threads t = .worker w → w.phase = .registering → s.db.workers w.id = none
  row_present : ∀ t w, s.threads t = .worker w → w.phase.beating = true → (s.db.workers w.id).isSome

section
variable {s : Sys} (h : RowInv s)
include h

/-- Only worker `t` itself writes its row. -/
theorem RowInv.step_row {t : Nat} {w : WorkerThread} (hw : s.threads t = .worker w) (a : Act) :
    (step s a).db.workers w.id = s.db.workers w.id ∨
      ∃ e st cur R, e.ok = true ∧ PostgresStorage.workerRow (w.row e.now st cur) = some R ∧
        (step s a).db.workers w.id = some R ∧
        (a = .exec t e ∧ w.phase.rowWrite = some (st, cur) ∨
          a = .beat t e ∧ w.phase.beating = true ∧ st = "idle" ∧ cur = "") := by
  rcases step_workers_cases s a w.id with hu | ⟨t', w', e, st, cur, R, ht', hok, hR, hid, hrow, hk⟩
  · exact .inl hu
  · obtain rfl := h.ids_unique t' t w' w ht' hw ((w'.row_id hR (h.ids_fit t' w' ht')).symm.trans hid)
    rw [hw] at ht'; cases ht'
    exact .inr ⟨e, st, cur, R, hok, hR, hrow, hk⟩

theorem RowInv.present {t : Nat} {w : WorkerThread} (hw : s.threads t = .worker w) (hb : w.phase.beating = true) :
    ∃ R, s.db.workers w.id = some R ∧ R.Ok := by
  obtain ⟨R, hR⟩ := Option.isSome_iff_exists.mp (h.row_present t w hw hb)
  exact ⟨R, hR, (h.rows_ok _ R hR).2⟩

theorem RowInv.ids_step (a : Act) {t : Nat} {w' : WorkerThread} (hw' : (step s a).threads t = .worker w') :
    w'.id ∈ (step s a).workerIds := by
  rcases step_threads_worker hw' with ⟨uuid, types, -, hids, -, rfl⟩ | ⟨w, hw, ⟨hid, -⟩, -⟩
  · rw [hids]; exact List.mem_cons_self _ _
  · rw [hid]; exact step_workerIds_sub s a (h.ids_known t w hw)

theorem RowInv.unique_step (a : Act) {t u : Nat} {w₁ w₂ : WorkerThread} (h₁ : (step s a).threads t = .worker w₁)
    (h₂ : (step s a).threads u = .worker w₂) (hid : w₁.id = w₂.id) : t = u := by
  rcases step_threads_worker h₁ with ⟨uuid, types, rfl, -, hn, rfl⟩ | ⟨w₁, hw₁, ⟨hid₁, -⟩, -⟩ <;>
    rcases step_threads_worker h₂ with ⟨uuid', types', ha, -, hn', rfl⟩ | ⟨w₂, hw₂, ⟨hid₂, -⟩, -⟩
  · cases ha; rfl
  · have := h.ids_known u w₂ hw₂
    rw [← hid₂, ← hid] at this; exact absurd this hn
  · have := h.ids_known t w₁ hw₁
    rw [← hid₁, hid] at this; exact absurd this hn'
  · exact h.ids_unique t u w₁ w₂ hw₁ hw₂ (hid₁.symm.trans (hid.trans hid₂))

theorem RowInv.fit_step (a : Act) {u : Nat} {w' : WorkerThread} (hw' : (step s a).threads u = .worker w') :
    PostgresStorage.varchar 255 w'.id = some w'.id := by
  rcases step_threads_worker hw' with ⟨uuid, types, -, -, -, rfl⟩ | ⟨w, hw, ⟨hid, -⟩, -⟩
  · exact varchar_newWorkerId uuid
  · rw [hid]; exact h.ids_fit u w hw

/-- The job types of a beating worker passed `RegisterWorker`'s check. -/
theorem RowInv.types_step (a : Act) {u : Nat} {w' : WorkerThread} (hw' : (step s a).threads u = .worker w')
    (hb : w'.phase.beating = true) : (Jsonb.text (PostgresStorage.marshalStrings w'.supportedTypes)).isSome := by
  rcases step_threads_worker hw' with ⟨uuid, types, -, -, -, rfl⟩ | ⟨w, hw, ⟨-, htypes⟩, hph⟩
  · simp [WorkerPhase.beating] at hb
  rw [htypes]
  rcases hph with ⟨e, -, hp⟩ | ⟨-, hp | hp⟩
  · rcases WorkerThread.next_beating w e _ (hp ▸ hb) with hb' | ⟨-, -, R, hR⟩
    · exact h.types_fit u w hw hb'
    · exact (PostgresStorage.workerRow_some hR).2.2.1
  · exact h.types_fit u w hw (hp ▸ hb)
  · simp [hp, WorkerPhase.beating] at hb

theorem RowInv.new_step (a : Act) {u : Nat} {w' : WorkerThread} (hw' : (step s a).threads u = .worker w')
    (hreg : w'.phase = .registering) : (step s a).db.workers w'.id = none := by
  rcases step_threads_worker hw' with ⟨uuid, types, rfl, -, hn, rfl⟩ | ⟨w, hw, ⟨hid, -⟩, hph⟩
  · rw [step_workers]; dsimp only
    cases hr : s.db.workers (newWorkerId uuid) with
    | none => rfl
    | some R => exact absurd (h.rows_known _ R hr) hn
  · rcases hph with ⟨e, -, hp⟩ | ⟨hne, hp | hp⟩
    · exact absurd (hp ▸ hreg) (WorkerThread.next_ne_registering _ _ _)
    · rw [hid]
      rw [hp] at hreg
      rcases h.step_row hw a with hu | ⟨e, -, -, -, -, -, -, ⟨rfl, -⟩ | ⟨rfl, hb, -⟩⟩
      · rw [hu]; exact h.row_new u w hw hreg
      · exact absurd rfl (hne e)
      · simp [hreg, WorkerPhase.beating] at hb
    · simp [hp] at hreg

theorem RowInv.present_step (a : Act) {u : Nat} {w' : WorkerThread} (hw' : (step s a).threads u = .worker w')
    (hb : w'.phase.beating = true) : ((step s a).db.workers w'.id).isSome := by
  rcases step_threads_worker hw' with ⟨uuid, types, -, -, -, rfl⟩ | ⟨w, hw, ⟨hid, -⟩, hph⟩
  · simp [WorkerPhase.beating] at hb
  · rw [hid]
    rcases hph with ⟨e, rfl, hp⟩ | ⟨-, hp | hp⟩
    · rcases WorkerThread.next_beating w e _ (hp ▸ hb) with hb' | ⟨hreg, hok, R, hR⟩
      · exact step_workers_isSome s _ (h.row_present u w hw hb')
      · rw [step_workers]
        simp [hw, hreg, hok, hR, WorkerPhase.rowWrite, WorkerThread.upserted, w.row_id hR (h.ids_fit u w hw)]
    · exact step_workers_isSome s a (h.row_present u w hw (hp ▸ hb))
    · simp [hp, WorkerPhase.beating] at hb

theorem rowInv_step (a : Act) : RowInv (step s a) where
  ids_known _ _ hw' := h.ids_step a hw'
  ids_unique _ _ _ _ h₁ h₂ hid := h.unique_step a h₁ h₂ hid
  ids_fit _ _ hw' := h.fit_step a hw'
  types_fit _ _ hw' hb := h.types_step a hw' hb
  rows_known x R hR := by
    rcases step_workers_cases s a x with hu | ⟨t, w, _, _, _, R', hw, -, hR', rfl, -⟩
    · exact step_workerIds_sub s a (h.rows_known x R (hu ▸ hR))
    · rw [w.row_id hR' (h.ids_fit t w hw)]
      exact step_workerIds_sub s a (h.ids_known t w hw)
  rows_ok x R hR := by
    rcases step_workers_cases s a x with hu | ⟨t, w, e, st, cur, R', -, -, hR', rfl, hrow, hk⟩
    · exact h.rows_ok x R (hu ▸ hR)
    · rw [hrow] at hR; cases hR
      refine ⟨rfl, ?_⟩
      rcases hk with ⟨-, hsc⟩ | ⟨-, -, rfl, rfl⟩
      exacts [WorkerPhase.rowWrite_ok hsc hR', w.row_ok hR' (by decide) (by decide)]
  row_new _ _ hw' hreg := h.new_step a hw' hreg
  row_present _ _ hw' hb := h.present_step a hw' hb

end

theorem rowInv_empty : RowInv Sys.empty where
  ids_known _ _ h := nomatch h
  ids_unique _ _ _ _ h := nomatch h
  ids_fit _ _ h := nomatch h
  types_fit _ _ h := nomatch h
  rows_known _ _ h := nomatch h
  rows_ok _ _ h := nomatch h
  row_new _ _ h := nomatch h
  row_present _ _ h := nomatch h

theorem rowInv_reachable {allow : Act → Prop} {s : Sys} (hs : Reachable allow s) : RowInv s := by
  induction hs with
  | init => exact rowInv_empty
  | step _ _ ih => exact rowInv_step ih _

/-! ## How a row's status moves -/

/-- The status changes one move can make to a worker row. -/
inductive RowStep : Option String → Option String → Prop
  | none_starting : RowStep none (some "starting")
  | starting_idle : RowStep (some "starting") (some "idle")
  | starting_processing : RowStep (some "starting") (some "processing")
  | idle_processing : RowStep (some "idle") (some "processing")
  | processing_idle : RowStep (some "processing") (some "idle")

theorem Worker.Ok.to_idle {R : Worker} (h : R.Ok) : some "idle" = some R.status ∨ RowStep (some R.status) (some "idle") := by
  rcases h.status with hs | hs | hs <;> rw [hs]
  exacts [.inr .starting_idle, .inl rfl, .inr .processing_idle]

theorem Worker.Ok.to_processing {R : Worker} (h : R.Ok) :
    some "processing" = some R.status ∨ RowStep (some R.status) (some "processing") := by
  rcases h.status with hs | hs | hs <;> rw [hs]
  exacts [.inr .starting_processing, .inr .idle_processing, .inl rfl]

/-- Every change of a row's status by one move is a `RowStep`. -/
theorem RowInv.row_step {s : Sys} (h : RowInv s) (a : Act) (x : String) :
    ((step s a).db.workers x).map Worker.status = (s.db.workers x).map Worker.status ∨
      RowStep ((s.db.workers x).map Worker.status) (((step s a).db.workers x).map Worker.status) := by
  rcases step_workers_cases s a x with hu | ⟨t, w, e, st, cur, R, hw, -, hR, rfl, hrow, hk⟩
  · exact .inl (by rw [hu])
  · rw [hrow, w.row_id hR (h.ids_fit t w hw)]
    rcases hk with ⟨-, hsc⟩ | ⟨-, hb, rfl, -⟩
    · cases hp : w.phase <;> simp [hp, WorkerPhase.rowWrite] at hsc <;> obtain ⟨rfl, rfl⟩ := hsc <;>
        rw [Option.map_some', w.row_status hR (by decide)]
      · rw [h.row_new t w hw hp]; exact .inr .none_starting
      · obtain ⟨R, hR, hok⟩ := h.present hw (by simp [hp, WorkerPhase.beating])
        rw [hR]; exact hok.to_processing
      · obtain ⟨R, hR, hok⟩ := h.present hw (by simp [hp, WorkerPhase.beating])
        rw [hR]; exact hok.to_idle
    · rw [Option.map_some', w.row_status hR (by decide)]
      obtain ⟨R, hR, hok⟩ := h.present hw hb
      rw [hR]; exact hok.to_idle

/-! ## The row of a worker running a job -/

/-- Worker `t`'s row names the job whose handler it runs. -/
def Tracks (t : Nat) (s : Sys) : Prop :=
  ∀ w, s.threads t = .worker w → ∀ x, w.phase.handling = some x →
    ∃ R, s.db.workers w.id = some R ∧ R.status = "processing" ∧ R.currentJob = x

/-- Worker `t`'s commands succeed and its heartbeat does not tick. -/
def Act.steadyFor (t : Nat) : Act → Prop
  | .exec u e => u = t → e.ok = true
  | .beat u _ => u ≠ t
  | _ => True

instance Act.decSteadyFor (t : Nat) : (a : Act) → Decidable (a.steadyFor t)
  | .exec u e => inferInstanceAs (Decidable (u = t → e.ok = true))
  | .beat u _ => inferInstanceAs (Decidable (u ≠ t))
  | .startWorker .. | .submit .. | .cancel .. | .halt _ => inferInstanceAs (Decidable True)

/-- A move that keeps worker `t` steady keeps its row naming its job: the
announce writes the job, and nothing else writes the row until the settle. -/
theorem RowInv.tracks_step {s : Sys} (h : RowInv s) (hv : s.Everywhere Job.IdFits) {t : Nat} (ht : Tracks t s)
    {a : Act} (ha : a.steadyFor t) : Tracks t (step s a) := by
  intro w' hw' x hx
  rcases step_threads_worker hw' with ⟨uuid, types, -, -, -, rfl⟩ | ⟨w, hw, ⟨hid, -⟩, hph⟩
  · simp [WorkerPhase.handling] at hx
  rw [hid]
  rcases hph with ⟨e, rfl, hp⟩ | ⟨hne, hp | hp⟩
  · rcases WorkerThread.next_handling w e _ (hp ▸ hx) with ⟨hx', hrw⟩ | ⟨j, hj, rfl⟩
    · -- a command between the announce and the settle: the row stays
      obtain ⟨R, hR, hR'⟩ := ht w hw x hx'
      exact ⟨R, by rw [step_workers]; simp [hw, hrw, hR], hR'⟩
    · -- the announce: it succeeds and every column fits, so the row names the job
      have hR := @PostgresStorage.workerRow_of_fits (w.row e.now "processing" j.id) (h.ids_fit t w hw)
        (show PostgresStorage.varchar 20 "processing" = some "processing" by decide)
        (h.types_fit t w hw (by simp [hj, WorkerPhase.beating]))
        (hv.locals t j (by simp [hw, hj, Thread.locals, WorkerPhase.locals]))
      refine ⟨{ w.row e.now "processing" j.id with lastSeen := PostgresStorage.timestamptz e.now }, ?_, rfl, rfl⟩
      rw [step_workers]
      simp only [hw, hj, WorkerPhase.rowWrite, WorkerThread.upserted, ha rfl, hR]
      simp [WorkerThread.row]
  · obtain ⟨R, hR, hR'⟩ := ht w hw x (hp ▸ hx)
    refine ⟨R, ?_, hR'⟩
    rcases h.step_row hw a with hu | ⟨e, -, -, -, -, -, -, ⟨rfl, -⟩ | ⟨rfl, -⟩⟩
    · rw [hu, hR]
    · exact absurd rfl (hne e)
    · exact absurd rfl ha
  · simp [hp, WorkerPhase.handling] at hx

theorem tracks_run {t : Nat} : ∀ {s : Sys} (acts : List Act), RowInv s → s.Everywhere Job.IdFits → Tracks t s →
    (∀ a ∈ acts, a.steadyFor t) → Tracks t (run s acts)
  | _, [], _, _, ht, _ => ht
  | _, a :: acts, h, hv, ht, ha =>
    tracks_run acts (rowInv_step h a) (hv.step idFits_closed a) (h.tracks_step hv ht (ha a (List.mem_cons_self a acts)))
      (fun b hb => ha b (List.mem_cons_of_mem a hb))

/-- In every run, every worker row reads `starting`, `idle` or `processing`
under its own id, with a current job only while `processing`; every change of
a row's status by one move is a `RowStep`; and from any point where worker
`t`'s row names the job it runs (in particular any point where it runs none),
it keeps naming it through every continuation in which `t`'s commands succeed
and its heartbeat does not tick. -/
theorem worker_row {allow : Act → Prop} {s : Sys} (hs : Reachable allow s) :
    (∀ x R, s.db.workers x = some R → R.id = x ∧ R.Ok) ∧
      (∀ a x, ((step s a).db.workers x).map Worker.status = (s.db.workers x).map Worker.status ∨
        RowStep ((s.db.workers x).map Worker.status) (((step s a).db.workers x).map Worker.status)) ∧
      ∀ t, Tracks t s → ∀ acts, (∀ a ∈ acts, a.steadyFor t) → Tracks t (run s acts) :=
  have h := rowInv_reachable hs
  ⟨h.rows_ok, h.row_step, fun _ ht acts => tracks_run acts h (everywhere_reachable idFits_closed hs) ht⟩

theorem worker_row_leased :
    Reachable Act.nominal leasedState ∧
      (∀ x R, leasedState.db.workers x = some R → R.id = x ∧ R.Ok) ∧
      (∀ a x, ((step leasedState a).db.workers x).map Worker.status = (leasedState.db.workers x).map Worker.status ∨
        RowStep ((leasedState.db.workers x).map Worker.status)
          (((step leasedState a).db.workers x).map Worker.status)) ∧
      ∀ t, Tracks t leasedState → ∀ acts, (∀ a ∈ acts, a.steadyFor t) → Tracks t (run leasedState acts) :=
  ⟨leasedState_reachable, worker_row leasedState_reachable⟩

/-- Worker 0's first lease moves its row from `starting` straight to
`processing`; a heartbeat tick while it runs `jobA`'s handler then writes
`idle` with no current job. -/
theorem worker_row_counterexample :
    ((run Sys.empty (setupRun 3 ++ Act.execs 0 (.succeed 1) 4)).db.workers (newWorkerId 0)).map
        Worker.status = some "starting" ∧
      ((step (run Sys.empty (setupRun 3 ++ Act.execs 0 (.succeed 1) 4)) (.exec 0 (.succeed 1))).db.workers
        (newWorkerId 0)).map Worker.status = some "processing" ∧
      (run Sys.empty (setupRun 3 ++ leaseRun 0 1 ++ [.beat 0 (.succeed 2)])).threads 0 =
        .worker ⟨newWorkerId 0, [JobTypeEmail], .running leasedRecord⟩ ∧
      ((run Sys.empty (setupRun 3 ++ leaseRun 0 1 ++ [.beat 0 (.succeed 2)])).db.workers
        (newWorkerId 0)).map (fun R => (R.status, R.currentJob)) = some ("idle", "") := by
  decide

end Taskflow
