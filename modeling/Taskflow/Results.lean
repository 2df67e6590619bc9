import Taskflow.Identity
import Taskflow.ResultJson

/-!
# What a completed job carries

The system model of `System.lean` leaves the outcome of a worker's handler
call to the environment (`Env.outcome`). Here that call is the registry's
`ProcessJob` (`Processors.lean`): `Served` collects the states of the runs
whose every handler call returns what the processor of the job's type returns
for it, under some answers of the world outside the worker (`ProcessorIo`).
They are states of runs of the system (`Served.reachable`), so every theorem
of the earlier files holds of them.

* `completed_result_json` — in every such state, a completed record or row
  carries a result the scanner reads as one object: the broker's compacted
  copy of a processor's result, or the `jsonb` column's;
* `unprocessable_never_completes` — a job whose broker record no run of its
  processor can complete, a data export of another type than `csv`, `json`
  and `xlsx` or a webhook whose method is not an HTTP token, is never
  completed, neither in the broker nor in the store.

`Sys.Honest` is the invariant. A worker writes the result of its handler call
into the record its `CompleteJob` read and into the row its `UpdateJob`
mirrors. The record is a copy of the job it ran (`Sys.Coherent`,
`Identity.lean`), and a handler call reads only the job's type and payload, so
a completed record is one its processor can complete. The store's row is
described through the record of its id rather than through its own payload:
the `jsonb` column keeps an object's members sorted by key, and a payload with
two keys for one field, such as `export_type` and `Export_type`, decodes from
the column to the other value than from the broker's copy the worker ran
(`completed_row_decodes_apart`).
-/

namespace Taskflow

open Json

/-! ## Runs whose handler calls are the processors' -/

/-- The job whose handler call a goroutine makes next. -/
def Thread.running : Thread → Option Job
  | .worker ⟨_, _, .running j⟩ => some j
  | _ => none

/-- The handler call of a move, if it makes one, returns what the processor
of the job's type returns for the job under some answers of the world. -/
def Act.Processed (s : Sys) : Act → Prop
  | .exec t e => ∀ j, (s.threads t).running = some j → ∃ io, e.outcome = processJob io j
  | _ => True

/-- The states of the runs from `Sys.empty` whose every handler call is the
processor's. -/
inductive Served : Sys → Prop where
  | init : Served Sys.empty
  | step {s : Sys} {a : Act} : Served s → a.Processed s → Served (step s a)

theorem Served.reachable {s : Sys} (hs : Served s) : Reachable (fun _ => True) s := by
  induction hs with
  | init => exact .init
  | step _ _ ih => exact ih.step trivial

/-- A move that makes no handler call. -/
def Act.callFree (s : Sys) : Act → Bool
  | .exec t _ => (s.threads t).running.isNone
  | _ => true

/-- No move of the run from `s` makes a handler call. -/
def callFreeRun : Sys → List Act → Bool
  | _, [] => true
  | s, a :: acts => a.callFree s && callFreeRun (step s a) acts

theorem Served.run_callFree {s : Sys} (hs : Served s) :
    ∀ acts, callFreeRun s acts = true → Served (run s acts)
  | [], _ => hs
  | a :: acts, h => by
    simp only [callFreeRun, Bool.and_eq_true] at h
    refine (hs.step ?_).run_callFree acts h.2
    cases a <;> simp only [Act.Processed]
    intro j hj
    simp only [Act.callFree, Option.isNone_iff_eq_none] at h
    rw [h.1] at hj; cases hj

/-- The handler call on `j` at instant `now`, answered by the processor of
its type in the world `io`; a processor's result is one JSON object. -/
def Env.processed (io : ProcessorIo) (j : Job) (now : Time) : Env :=
  ⟨true, now, now, processJob io j, fun _ h => by obtain ⟨ms, hms⟩ := processJob_object h; simp [hms]⟩

theorem Env.processed_processed {s : Sys} {t : Nat} {j : Job} (io : ProcessorIo) (now : Time)
    (h : (s.threads t).running = some j) : (Act.exec t (Env.processed io j now)).Processed s := by
  intro k hk
  rw [h] at hk
  cases hk
  exact ⟨io, rfl⟩

/-! ## Processable jobs -/

/-- Some answers of the world let the processor of the job's type complete
it. -/
def Processable (j : Job) : Prop := ∃ io res, processJob io j = .ok res

/-- A copy of a processable job is processable. -/
theorem Processable.congr {j j' : Job} (h : Processable j) (he : j'.ident = j.ident) : Processable j' := by
  obtain ⟨io, res, hio⟩ := h
  exact ⟨io, res, (processJob_congr io (congrArg (·.2.1) he) (congrArg (·.2.2.1) he)).trans hio⟩

theorem Job.marshal_status {j r : Job} (h : j.marshal = some r) : r.status = j.status := by
  obtain ⟨_, _, -, -, rfl⟩ := Job.marshal_eq_some h
  rfl

/-- The results a goroutine holds were produced for the job it ran, and the
jobs it writes otherwise are not completed. -/
def Thread.Honest : Thread → Prop
  | .worker ⟨_, _, .leasing j⟩ => j.status ≠ .completed
  | .worker ⟨_, _, .completing j res⟩ | .worker ⟨_, _, .completeWriting j res _⟩
  | .worker ⟨_, _, .mirroring j (.ok res)⟩ => ∃ io, processJob io j = .ok res
  | .create (.storing j) | .create (.enqueuing j) | .cancel (.mirroring j) => j.status ≠ .completed
  | _ => True

/-- A completed record is processable and its result is one object; a
completed row has an object for result, and the record of its id is
processable; a `createJob` request about to enqueue has no completed row. -/
structure Sys.Honest (s : Sys) : Prop where
  records : ∀ x r, s.redis.jobs x = some r → r.status = .completed → Processable r ∧ IsObject r.result
  rows : ∀ x row, s.db.jobs x = some row → row.status = .completed →
    IsObject row.result ∧ ∀ r, s.redis.jobs x = some r → Processable r
  threads : ∀ t, (s.threads t).Honest
  fresh : ∀ t j, s.threads t = .create (.enqueuing j) → ∀ row, s.db.jobs j.id = some row → row.status ≠ .completed

/-! ## What each command writes -/

/-- A completed record a goroutine writes is `CompleteJob`'s: a copy of the
job the worker ran, with the handler's result compacted. -/
theorem Thread.write_honest {th : Thread} {e : Env} {j r : Job} (h : th.Honest)
    (hl : ∀ k ∈ th.held, k.marshal = some k) (ho : ∀ j r, th.outcomeWrite = some (j, r) → r.ident = j.ident)
    (hw : th.write e = some j) (hm : j.marshal = some r) (hr : r.status = .completed) :
    Processable r ∧ IsObject r.result := by
  rw [Job.marshal_status hm] at hr
  unfold Thread.write at hw
  split at hw <;> cases hw
  · exact absurd hr h
  · exact absurd hr (by rw [RedisQueue.failRecord_status]; split <;> nofun)
  · rename_i j₀ res r₀
    obtain ⟨io, hio⟩ : ∃ io, processJob io j₀ = .ok res := h
    obtain ⟨ms, hms⟩ := processJob_object hio
    obtain ⟨c, hc, -⟩ := marshalResult_of_parse (by simp [hms] : (Json.parse res).isSome)
    rw [RedisQueue.completeRecord_marshal (hl r₀ (List.mem_cons_of_mem _ (List.mem_singleton_self _))) hc] at hm
    cases hm
    exact ⟨Processable.congr ⟨io, res, hio⟩ (by simp [ho _ _ rfl]), IsObject.marshalResult ⟨ms, hms⟩ hc⟩
  · exact absurd hr h
  · exact absurd hr (by rw [RedisQueue.failRecord_status]; split <;> nofun)

/-- A completed row a goroutine writes is a worker's mirror of a handler
result, for a job the worker holds. -/
theorem Thread.rowWrite_completed {th : Thread} {e : Env} {j : Job} (h : th.Honest) (hw : th.rowWrite e = some j)
    (hj : j.status = .completed) :
    ∃ j₀ res io, j₀ ∈ th.held ∧ j₀ ∈ th.locals ∧ j = completedRow j₀ res e.now ∧ processJob io j₀ = .ok res := by
  unfold Thread.rowWrite at hw
  split at hw <;> cases hw
  · rename_i j₀ out
    cases out with
    | error msg => simp [mirrorRow] at hj
    | ok res =>
      obtain ⟨io, hio⟩ : ∃ io, processJob io j₀ = .ok res := h
      exact ⟨j₀, res, io, List.mem_singleton_self _, List.mem_singleton_self _, rfl, hio⟩
  · exact absurd hj h
  · exact absurd hj h

theorem WorkerThread.step_honest (w : WorkerThread) (e : Env) (W : World) (h : (Thread.worker w).Honest)
    (hp : ∀ j, (Thread.worker w).running = some j → ∃ io, e.outcome = processJob io j) :
    (Thread.worker (w.step e W).1).Honest := by
  rcases w with ⟨id, types, p⟩
  cases p with
  | fetched x =>
    simp only [WorkerThread.step, WorkerThread.next]
    split
    · simp [Thread.Honest]
    · trivial
  | running j =>
    simp only [WorkerThread.step, WorkerThread.next]
    split
    · trivial
    · obtain ⟨io, hio⟩ := hp j rfl
      exact ⟨io, hio.symm.trans ‹_›⟩
  | completing j res => simp only [WorkerThread.step, WorkerThread.next]; split <;> exact h
  | completeWriting j res r => exact h
  | _ => simp only [WorkerThread.step, WorkerThread.next]; (try split) <;> trivial

theorem CreatePhase.step_honest (c : CreatePhase) (e : Env) (W : World) (h : (Thread.create c).Honest) :
    (Thread.create (c.step e W).1).Honest := by
  cases c with
  | storing j => simp only [CreatePhase.step]; split <;> first | exact h | trivial
  | enqueuing j => simp only [CreatePhase.step]; split <;> trivial
  | responded => trivial

theorem cancelCheck_honest (x : JobId) (j : Job) : (Thread.cancel (cancelCheck x j)).Honest := by
  unfold cancelCheck; split <;> trivial

theorem CancelPhase.step_honest (c : CancelPhase) (e : Env) (W : World) :
    (Thread.cancel (c.step e W).1).Honest := by
  cases c with
  | lookup x =>
    simp only [CancelPhase.step]
    split
    · trivial
    · split <;> first | exact cancelCheck_honest _ _ | trivial
  | storeLookup x => simp only [CancelPhase.step]; split <;> first | exact cancelCheck_honest _ _ | trivial
  | failing x j => simp only [CancelPhase.step]; split <;> trivial
  | failWriting x j r => simp only [CancelPhase.step]; split <;> simp [Thread.Honest]
  | mirroring j => trivial
  | responded => trivial

/-! ## Every served move keeps it -/

/-- A record after a move at an id whose records are processable, and which no
request is about to enqueue, is processable. -/
theorem Sys.Coherent.processable_step {s : Sys} (hc : s.Coherent) (a : Act) {x : JobId}
    (hrec : ∀ r, s.redis.jobs x = some r → Processable r)
    (hfresh : ∀ t k, s.threads t = .create (.enqueuing k) → k.id ≠ x) :
    ∀ r', (Taskflow.step s a).redis.jobs x = some r' → Processable r' := by
  intro r' hx
  rcases hc.record_step a hx with ⟨r, hr, he⟩ | ⟨t, e, k, -, hk, hid, -⟩
  · exact (hrec r hr).congr he
  · exact absurd hid (hfresh t k hk)

namespace Sys.Honest

variable {s : Sys} (hh : s.Honest) (hc : s.Coherent)
include hh hc

/-- A completed row a move writes is a worker's mirror of a handler result
for a job whose record is at the row's id. -/
theorem rowWrite_completed {a : Act} {j : Job} (hw : s.rowWrite a = some j) (hj : j.status = .completed) :
    ∃ t j₀ res now, s.redis.Roots j₀ ∧ j₀ ∈ (s.threads t).locals ∧ j = completedRow j₀ res now ∧
      Processable j₀ ∧ IsObject res := by
  cases a with
  | exec t e =>
    obtain ⟨j₀, res, io, hmem, hloc, rfl, hio⟩ := Thread.rowWrite_completed (hh.threads t) hw hj
    exact ⟨t, j₀, res, e.now, (hc.held t j₀ hmem).1, hloc, rfl, ⟨io, res, hio⟩, processJob_object hio⟩
  | _ => cases hw

/-- A completed row after a move was there before it, or the move mirrored a
handler result for a job whose record is at the row's id. -/
theorem completed_row_step (hv : s.Everywhere Job.IdFits) (a : Act) {x : JobId} {row : Job}
    (hx : (step s a).db.jobs x = some row) (hcomp : row.status = .completed) :
    s.db.jobs x = some row ∨ ∃ j₀, s.redis.Roots j₀ ∧ j₀.id = x ∧ Processable j₀ ∧ IsObject row.result := by
  cases rowStep_step s a with
  | same hj => exact .inl (hj ▸ hx)
  | insert j hj hcj =>
    obtain ⟨row', hrow', -, hjobs, -⟩ := PostgresStorage.createJob_ok hcj
    rw [hjobs] at hx
    split at hx
    · -- a completed insert would be of a job whose record, so row, exists
      cases hx
      rw [(PostgresStorage.insertRow_stores hrow').1.status] at hcomp
      obtain ⟨t, j₀, res, now, hroot, hloc, rfl, -⟩ := hh.rowWrite_completed hc hj hcomp
      obtain ⟨r₀, hr₀⟩ := Option.isSome_iff_exists.1 hroot.isSome
      have habs : s.db.jobs j₀.id = none := (createJob_absent hcj (hv.locals t j₀ hloc)).1
      have hrow := hc.rowed _ r₀ hr₀
      rw [habs] at hrow
      cases hrow
    · exact .inl hx
  | update j hj hu hdb =>
    obtain ⟨cols, hcols, hjobs⟩ := PostgresStorage.updateJob_ok hu
    rw [hdb, hjobs] at hx
    split at hx
    · rename_i hxj
      obtain ⟨row₀, -, rfl⟩ := Option.map_eq_some'.1 hx
      have hjc : j.status = .completed := by rw [← (PostgresStorage.updateColumns_stores hcols).status]; exact hcomp
      obtain ⟨t, j₀, res, now, hroot, -, rfl, hp, hres⟩ := hh.rowWrite_completed hc hj hjc
      exact .inr ⟨j₀, hroot, hxj.symm, hp, hres.jsonb (PostgresStorage.updateColumns_result hcols)⟩
    · exact .inl hx

theorem records_step (a : Act) :
    ∀ x r, (step s a).redis.jobs x = some r → r.status = .completed → Processable r ∧ IsObject r.result := by
  intro x r hx hr
  rcases step_jobs_cases s a x with hs | ⟨t, e, j, -, -, hw, -, hj⟩
  · exact hh.records x r (hs ▸ hx) hr
  · rw [hj] at hx
    exact Thread.write_honest (hh.threads t) (fun k hk => (hc.held t k hk).2)
      (fun _ _ ho => hc.outcomeWrite_ident ho) hw hx hr

theorem rows_step (hv : s.Everywhere Job.IdFits) (a : Act) :
    ∀ x row, (step s a).db.jobs x = some row → row.status = .completed →
      IsObject row.result ∧ ∀ r, (step s a).redis.jobs x = some r → Processable r := by
  intro x row hx hcomp
  rcases hh.completed_row_step hc hv a hx hcomp with h₀ | ⟨j₀, hroot, rfl, hp, hres⟩
  · -- the row was completed before, so no request enqueues its id
    obtain ⟨hres, hrec⟩ := hh.rows x row h₀ hcomp
    exact ⟨hres, hc.processable_step a hrec fun t k hk hid => hh.fresh t k hk row (hid ▸ h₀) hcomp⟩
  · -- the mirror's job has a record, so no request enqueues its id
    have hrec : ∀ r, s.redis.jobs j₀.id = some r → Processable r := fun r hr =>
      hp.congr (hroot.ident_eq (Redis.roots_of_jobs hr (hc.keyed _ r hr)) (hc.keyed _ r hr).symm).symm
    refine ⟨hres, hc.processable_step a hrec fun t k hk hid => ?_⟩
    have := hroot.isSome
    rw [← hid, (hc.fresh t k hk).1] at this
    cases this

/-- A request about to enqueue after a move has no completed row. -/
theorem fresh_step (hv : s.Everywhere Job.IdFits) (a : Act) :
    ∀ u k, (step s a).threads u = .create (.enqueuing k) →
      ∀ row, (step s a).db.jobs k.id = some row → row.status ≠ .completed := by
  intro u k hu row hx hcomp
  rcases step_threads_enqueuing hu with ⟨hs, -⟩ | ⟨e, rfl, hs, db, hcj, hdb⟩
  · rcases hh.completed_row_step hc hv a hx hcomp with h₀ | ⟨j₀, hroot, hid, -⟩
    · exact hh.fresh u k hs row h₀ hcomp
    · have := hroot.isSome
      rw [hid, (hc.fresh u k hs).1] at this
      cases this
  · -- the request just inserted the row of its new job
    have hk : k.IdFits := hv.locals u k (by simp [hs, Thread.locals, CreatePhase.locals])
    obtain ⟨row', hrow', -, hjobs, -⟩ := PostgresStorage.createJob_ok hcj
    have hid : row'.id = k.id := Option.some.inj ((PostgresStorage.insertRow_some hrow').1.symm.trans hk)
    rw [hdb, hjobs, if_pos hid.symm] at hx
    cases hx
    rw [(PostgresStorage.insertRow_stores hrow').1.status] at hcomp
    have hnew := hh.threads u
    rw [hs] at hnew
    exact hnew hcomp

omit hc in
/-- Slot `t` takes an honest thread (the threads of `Sys.put`). -/
theorem put_threads {t : Nat} {th : Thread} (h : th.Honest) (u : Nat) :
    (if u = t then th else s.threads u).Honest := by
  split
  · exact h
  · exact hh.threads u

omit hc in
theorem threads_step (a : Act) (hp : a.Processed s) (u : Nat) : ((step s a).threads u).Honest := by
  cases a with
  | startWorker => simp only [step]; split <;> first | exact hh.put_threads (by trivial) u | exact hh.threads u
  | submit => simp only [step]; split <;> first | exact hh.put_threads (by simp [Thread.Honest]) u | exact hh.threads u
  | cancel => simp only [step]; split <;> first | exact hh.put_threads (by trivial) u | exact hh.threads u
  | exec t e =>
    have ht := hh.threads t
    simp only [step, Sys.exec]
    split <;> rename_i hth <;> rw [hth] at ht
    · exact hh.threads u
    · rename_i w
      exact hh.put_threads (WorkerThread.step_honest w e _ ht fun j hj => hp j (by rw [hth]; exact hj)) u
    · exact hh.put_threads (CreatePhase.step_honest _ e _ ht) u
    · exact hh.put_threads (CancelPhase.step_honest _ e _) u
  | beat t e =>
    simp only [step]; split
    · rename_i w hth
      exact hh.put_threads (hth ▸ hh.threads t) u
    · exact hh.threads u
  | halt t =>
    simp only [step]; split
    · rename_i w hth
      refine hh.put_threads ?_ u
      unfold WorkerThread.halt; split
      · trivial
      · exact hth ▸ hh.threads t
    · exact hh.threads u

/-- Every served move keeps the deployment honest. -/
theorem step (hv : s.Everywhere Job.IdFits) {a : Act} (hp : a.Processed s) : (Taskflow.step s a).Honest :=
  ⟨hh.records_step hc a, hh.rows_step hc hv a, hh.threads_step a hp, hh.fresh_step hc hv a⟩

end Sys.Honest

theorem honest_served {s : Sys} (hs : Served s) : s.Honest := by
  induction hs with
  | init => refine ⟨?_, ?_, fun _ => trivial, ?_⟩ <;> simp [Sys.empty, Redis.empty, Postgres.empty]
  | step hs hp ih =>
    exact ih.step (coherent_reachable hs.reachable) (everywhere_reachable idFits_closed hs.reachable) hp

/-! ## Consequences -/

/-- In every state of every run whose handler calls are the processors', a
completed record or row carries a result that the scanner reads as one
object: `json.Marshal` of the job never fails on its result. -/
theorem completed_result_json {s : Sys} (hs : Served s) {x : JobId} {r : Job}
    (hr : s.redis.jobs x = some r ∨ s.db.jobs x = some r) (hc : r.status = .completed) :
    ∃ ms, Json.parse r.result = some (.obj ms) := by
  rcases hr with hr | hr
  · exact ((honest_served hs).records x r hr hc).2
  · exact ((honest_served hs).rows x r hr hc).1

/-- Worker 0's handler call on `jobA`, in the calm world, and its
`CompleteJob` and mirror. -/
def completedState : Sys :=
  run (step leasedState (.exec 0 (Env.processed ProcessorIo.calm leasedRecord 1))) (Act.execs 0 (.succeed 1) 3)

theorem completedState_served : Served completedState := by
  have hl : Served leasedState := Served.init.run_callFree _ (by decide)
  have hr : (leasedState.threads 0).running = some leasedRecord := by decide
  exact (hl.step (Env.processed_processed ProcessorIo.calm 1 hr)).run_callFree _ (by decide)

/-- After worker 0 completes `jobA` with the email processor's result, the
record's result parses as an object. -/
theorem completed_result_json_email :
    ∃ r, completedState.redis.jobs jobA = some r ∧ r.status = .completed ∧
      ∃ ms, Json.parse r.result = some (.obj ms) := by
  have h : (completedState.redis.jobs jobA).map Job.status = some .completed := by decide
  obtain ⟨r, hr, hc⟩ := Option.map_eq_some'.1 h
  exact ⟨r, hr, hc, completed_result_json completedState_served (.inl hr) hc⟩

/-- A data export of a type outside `csv`, `json` and `xlsx`, and a webhook
whose upper-cased method has a rune that is not a token character, are never
completed, in the broker or in the store, in any state of any run whose
handler calls are the processors'. -/
theorem unprocessable_never_completes {s : Sys} (hs : Served s) {x : JobId} {r : Job}
    (hr : s.redis.jobs x = some r) {st : Decoded}
    (hd : (r.type = JobTypeDataExport ∧ unmarshal dataExportPayloadFields r.payload = .ok st ∧
            st.text "export_type" ∉ ["csv", "json", "xlsx"]) ∨
          (r.type = JobTypeWebhook ∧ unmarshal webhookPayloadFields r.payload = .ok st ∧
            ∃ c ∈ utf8.runes (strings.toUpper (bytes (st.text "method"))), http.isTokenRune c = false)) :
    r.status ≠ .completed ∧ ∀ row, s.db.jobs x = some row → row.status ≠ .completed := by
  have hh := honest_served hs
  have hn : ¬ Processable r := by
    rintro ⟨io, res, hio⟩
    rcases hd with ⟨ht, hst, hT⟩ | ⟨ht, hst, hm⟩
    · exact processJob_ne_ok_of_exportType ht hst hT _ hio
    · exact processJob_ne_ok_of_method ht hst hm _ hio
  exact ⟨fun hc => hn (hh.records x r hr hc).1, fun row hrow hc => hn ((hh.rows x row hrow hc).2 r hr)⟩

/-- A `data_export` request for a PDF export. -/
def pdfExportRequest : JobRequest :=
  ⟨JobTypeDataExport, bytes "\x7b\"export_type\":\"pdf\",\"query\":\"q\"\x7d", 3, none⟩

/-- The PDF export `jobA`, leased by worker 0 at instant 1. -/
def pdfLeased : Job := RedisQueue.leaseJob (newJob pdfExportRequest jobA 0) (newWorkerId 0) 1

/-- Worker 0 registers for data exports, a `createJob` request stores and
enqueues the PDF export `jobA`, and worker 0 leases it and runs its handler in
the calm world, which fails; `FailJob` schedules a retry and the mirror writes
the failed row. -/
def pdfFailedState : Sys :=
  run (step (run Sys.empty ([.startWorker 0 0 [JobTypeDataExport], .exec 0 (.succeed 0),
      .submit 2 pdfExportRequest 1 0] ++ Act.execs 2 (.succeed 0) 2 ++ leaseRun 0 1))
    (.exec 0 (Env.processed ProcessorIo.calm pdfLeased 2))) (Act.execs 0 (.succeed 2) 4)

/-- The record of the failed PDF export: attempt 1 of 3 failed, a retry is
scheduled. -/
theorem unprocessable_never_completes_pdf :
    Served pdfFailedState ∧
      pdfFailedState.redis.jobs jobA = some (RedisQueue.failRecord pdfLeased
        "failed to process export: unsupported export type: pdf" 2 2) ∧
      (RedisQueue.failRecord pdfLeased "failed to process export: unsupported export type: pdf" 2 2).status ≠
        .completed ∧
      ∀ row, pdfFailedState.db.jobs jobA = some row → row.status ≠ .completed := by
  have hl : Served (run Sys.empty ([.startWorker 0 0 [JobTypeDataExport], .exec 0 (.succeed 0),
      .submit 2 pdfExportRequest 1 0] ++ Act.execs 2 (.succeed 0) 2 ++ leaseRun 0 1)) :=
    Served.init.run_callFree _ (by decide)
  have hs : Served pdfFailedState :=
    (hl.step (Env.processed_processed ProcessorIo.calm 2 (by decide))).run_callFree _ (by decide)
  have hr : pdfFailedState.redis.jobs jobA = some (RedisQueue.failRecord pdfLeased
      "failed to process export: unsupported export type: pdf" 2 2) := by decide
  exact ⟨hs, hr, unprocessable_never_completes hs hr (.inl ⟨rfl, rfl, by decide⟩)⟩

/-- A data export whose payload names its export type twice, under two
spellings of one key: `pdf`, then `csv`. -/
def twinExportRequest : JobRequest :=
  ⟨JobTypeDataExport, bytes "\x7b\"export_type\":\"pdf\",\"Export_type\":\"csv\",\"query\":\"q\"\x7d", 3, none⟩

/-- The twin-key export `jobA`, leased by worker 0 at instant 1. -/
def twinLeased : Job := RedisQueue.leaseJob (newJob twinExportRequest jobA 0) (newWorkerId 0) 1

/-- Worker 0 registers for data exports, and a `createJob` request stores and
enqueues the twin-key export `jobA`, which worker 0 leases. -/
def twinRun : List Act :=
  [.startWorker 0 0 [JobTypeDataExport], .exec 0 (.succeed 0), .submit 2 twinExportRequest 1 0] ++
    Act.execs 2 (.succeed 0) 2 ++ leaseRun 0 1

/-- Worker 0 runs the twin-key export in the calm world, and `CompleteJob` and
the mirror write its result. -/
def twinState : Sys :=
  run (step (run Sys.empty twinRun) (.exec 0 (Env.processed ProcessorIo.calm twinLeased 2)))
    (Act.execs 0 (.succeed 2) 3)

/-- Go's decoder keeps the last of two keys that fold to one field. The
broker's compacted copy keeps the payload's order and decodes to a CSV export,
which completes; the `jsonb` column sorts `Export_type` before `export_type`,
so the completed row's own payload decodes to a PDF export, which no run of the
processor completes. -/
theorem completed_row_decodes_apart :
    Served twinState ∧
      (twinState.redis.jobs jobA).map (fun r => (unmarshal dataExportPayloadFields r.payload).map
        (·.text "export_type")) = some (.ok "csv") ∧
      ∃ row st, twinState.db.jobs jobA = some row ∧ row.status = .completed ∧ row.type = JobTypeDataExport ∧
        unmarshal dataExportPayloadFields row.payload = .ok st ∧ st.text "export_type" ∉ ["csv", "json", "xlsx"] := by
  have hs : Served twinState := ((Served.init.run_callFree twinRun (by decide)).step
    (Env.processed_processed ProcessorIo.calm 2 (by decide))).run_callFree _ (by decide)
  have hrow : (twinState.db.jobs jobA).map (fun r => (r.status, r.type,
      (unmarshal dataExportPayloadFields r.payload).map (·.text "export_type"))) =
      some (.completed, JobTypeDataExport, .ok "pdf") := by decide
  obtain ⟨row, hr, he⟩ := Option.map_eq_some'.1 hrow
  simp only [Prod.mk.injEq] at he
  obtain ⟨hst, hty, hu⟩ := he
  cases hd : unmarshal dataExportPayloadFields row.payload with
  | error e => rw [hd] at hu; cases hu
  | ok st =>
    rw [hd] at hu
    have hpdf : st.text "export_type" = "pdf" := Except.ok.inj hu
    exact ⟨hs, by decide, row, st, hr, hst, hty, hd, by rw [hpdf]; decide⟩

end Taskflow
