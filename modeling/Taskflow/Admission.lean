import Taskflow.Results

/-!
# What validation admits

`createJob` decodes the body of `POST /jobs`, runs `ValidateJobRequest`, and
only then inserts and enqueues the job. `EnqueueJob` stores the job as
`json.Marshal` writes it, with the payload compacted and HTML-escaped, and
every later write keeps the record's type and payload (`Job.ident`,
`Identity.lean`). So in the runs whose submissions all pass validation, every
record of the broker holds the compacted payload of a request validation
accepted, and every job a worker runs is a copy of its record.

* `Job.Admitted.decodes` — such a job is of one of the four types, and its
  payload decodes into that type's payload struct, with the same
  `json.Unmarshal` its processor's `ProcessJob` starts with: compacting keeps
  what the decoder stores, up to the escapes of the strings
  (`unmarshal_compact`);
* `running_job_decodes` — in every state of every run whose submissions pass
  `ValidateJobRequest`, the job of every handler call a worker makes has a
  processor in the registry and a payload that processor decodes: the
  registry's `no processor found` and the processors' `invalid … payload`
  errors never happen.

`Sys.Admitted` is the invariant: every record is admitted, and every job a
`createJob` request holds is the request's.
-/

namespace Taskflow

open Json

/-- A `POST /jobs` request that passes `ValidateJobRequest`; every other move
is allowed. -/
def Act.validated : Act → Prop
  | .submit _ req _ _ => validateJobRequest req = .ok ()
  | _ => True

instance Act.decValidated : (a : Act) → Decidable a.validated
  | .submit _ req _ _ => inferInstanceAs (Decidable (validateJobRequest req = .ok ()))
  | .startWorker .. | .cancel .. | .exec .. | .beat .. | .halt _ => inferInstanceAs (Decidable True)

/-! ## Payloads that decode -/

/-- The type is one of the four, and the payload decodes into that type's
payload struct. -/
def PayloadDecodes (type : JobType) (payload : RawMessage) : Prop :=
  (type = JobTypeEmail ∧ ∃ st, unmarshal emailPayloadFields payload = .ok st) ∨
  (type = JobTypeImageResize ∧ ∃ st, unmarshal imageResizePayloadFields payload = .ok st) ∨
  (type = JobTypeWebhook ∧ ∃ st, unmarshal webhookPayloadFields payload = .ok st) ∨
  (type = JobTypeDataExport ∧ ∃ st, unmarshal dataExportPayloadFields payload = .ok st)

theorem Except.map_eq_ok {ε α β : Type} {f : α → β} {x : Except ε α} {b : β} (h : x.map f = .ok b) :
    ∃ a, x = .ok a := by
  cases x with
  | error e => cases h
  | ok a => exact ⟨a, rfl⟩

/-- A request validation accepts has a payload, and it decodes. -/
theorem validateJobRequest_decodes {req : JobRequest} (hv : validateJobRequest req = .ok ()) :
    req.payload ≠ [] ∧ PayloadDecodes req.type req.payload := by
  obtain ⟨type, payload, _, _⟩ := req
  unfold validateJobRequest at hv
  split_ifs at hv with _ hl hk
  refine ⟨fun h => hl (by rw [h]; rfl), ?_⟩
  rcases hk with rfl | rfl | rfl | rfl
  · obtain ⟨_, hd, -⟩ := (validatePayloadStructure_email _).1 hv
    exact .inl ⟨rfl, Except.map_eq_ok hd⟩
  · obtain ⟨_, hd, -⟩ := (validatePayloadStructure_imageResize _).1 hv
    exact .inr (.inl ⟨rfl, Except.map_eq_ok hd⟩)
  · obtain ⟨_, hd, -⟩ := (validatePayloadStructure_webhook _).1 hv
    exact .inr (.inr (.inl ⟨rfl, Except.map_eq_ok hd⟩))
  · obtain ⟨_, hd, -⟩ := (validatePayloadStructure_dataExport _).1 hv
    exact .inr (.inr (.inr ⟨rfl, Except.map_eq_ok hd⟩))

/-- Compacting a payload keeps it decoding. -/
theorem PayloadDecodes.compact {type : JobType} {b c : Bytes} (h : Json.compact b = some c)
    (hd : PayloadDecodes type b) : PayloadDecodes type c := by
  have keep : ∀ {fields : List (String × GoType)}, (∃ st, unmarshal fields b = .ok st) →
      ∃ st, unmarshal fields c = .ok st := by
    rintro fields ⟨st, hst⟩
    exact ⟨st.mapStr, by rw [unmarshal_compact h, hst]; rfl⟩
  exact hd.imp (.imp_right keep) (.imp (.imp_right keep) (.imp (.imp_right keep) (.imp_right keep)))

/-! ## Admitted jobs -/

/-- The job's type and payload are those of a request validation accepted. -/
def Job.Requested (j : Job) : Prop :=
  ∃ req : JobRequest, validateJobRequest req = .ok () ∧ req.type = j.type ∧ req.payload = j.payload

/-- The job's type is that of a request validation accepted, and its payload
the request's as `json.Marshal` writes it. -/
def Job.Admitted (j : Job) : Prop :=
  ∃ req : JobRequest, validateJobRequest req = .ok () ∧ req.type = j.type ∧ marshalRaw req.payload = some j.payload

/-- `EnqueueJob` stores a requested job admitted. -/
theorem Job.Requested.marshal {j r : Job} (h : j.Requested) (hm : j.marshal = some r) : r.Admitted := by
  obtain ⟨req, hv, ht, hp⟩ := h
  obtain ⟨p, q, hmp, -, rfl⟩ := Job.marshal_eq_some hm
  exact ⟨req, hv, ht, hp ▸ hmp⟩

/-- Admission reads only what `NewJob` sets and no write changes. -/
theorem Job.Admitted.congr {j j' : Job} (h : j.Admitted) (he : j'.ident = j.ident) : j'.Admitted := by
  obtain ⟨req, hv, ht, hp⟩ := h
  have he' : j'.type = j.type ∧ j'.payload = j.payload := by
    simp only [Job.ident, Prod.mk.injEq] at he
    exact ⟨he.2.1, he.2.2.1⟩
  exact ⟨req, hv, ht.trans he'.1.symm, he'.2 ▸ hp⟩

/-- An admitted job is of one of the four types, and its payload decodes into
that type's payload struct. -/
theorem Job.Admitted.decodes {j : Job} (h : j.Admitted) : PayloadDecodes j.type j.payload := by
  obtain ⟨req, hv, ht, hp⟩ := h
  obtain ⟨hne, hd⟩ := validateJobRequest_decodes hv
  rw [marshalRaw, if_neg hne] at hp
  exact ht ▸ hd.compact hp

/-! ## The invariant -/

/-- Every record is admitted, and every job a `createJob` request holds is
the request's. -/
structure Sys.Admitted (s : Sys) : Prop where
  records : ∀ x r, s.redis.jobs x = some r → r.Admitted
  creating : ∀ t c, s.threads t = .create c → ∀ j ∈ c.locals, j.Requested

/-- A `createJob` request only drops the job it holds. -/
theorem CreatePhase.step_locals (c : CreatePhase) (e : Env) (W : World) :
    ∀ j ∈ (c.step e W).1.locals, j ∈ c.locals := by
  cases c <;> simp only [CreatePhase.step] <;> (try split) <;> simp [CreatePhase.locals]

namespace Sys.Admitted

variable {s : Sys} (h : s.Admitted)
include h

/-- Slot `t` takes a thread that holds requested jobs if it is a `createJob`
request. -/
theorem creating_put {t : Nat} {th : Thread} {W : World} (hth : ∀ c, th = .create c → ∀ j ∈ c.locals, j.Requested) :
    ∀ u c, (s.put t th W).threads u = .create c → ∀ j ∈ c.locals, j.Requested := by
  intro u c hu
  rw [Sys.put_threads] at hu
  split at hu
  · exact hth c hu
  · exact h.creating u c hu

/-- A job a goroutine holds is a copy of an admitted record. -/
theorem held (hc : s.Coherent) {t : Nat} {j : Job} (hj : j ∈ (s.threads t).held) : j.Admitted := by
  obtain ⟨r, hr, he⟩ := Option.map_eq_some'.1 (hc.held t j hj).1
  exact (h.records _ r hr).congr he.symm

/-- Every move keeps every record admitted: a record is a copy of an admitted
one, or the enqueue of a requested job. -/
theorem records_step (hc : s.Coherent) (a : Act) : ∀ x r, (Taskflow.step s a).redis.jobs x = some r → r.Admitted := by
  intro x r hx
  rcases hc.record_step a hx with ⟨r₀, hr₀, he⟩ | ⟨t, e, k, -, hk, -, hm⟩
  · exact (h.records x r₀ hr₀).congr he
  · exact (h.creating t _ hk k (List.mem_singleton_self _)).marshal hm

/-- Every move of a run whose submissions pass validation keeps the
deployment admitted. -/
theorem step (hc : s.Coherent) {a : Act} (hv : a.validated) : (Taskflow.step s a).Admitted := by
  refine ⟨h.records_step hc a, ?_⟩
  cases a with
  | submit t req id now =>
    rw [Taskflow.step]; split
    · refine h.creating_put fun c hc' => ?_
      cases hc'
      intro j hj
      rw [CreatePhase.locals, List.mem_singleton] at hj
      exact hj ▸ ⟨req, hv, rfl, rfl⟩
    · exact h.creating
  | exec t e =>
    rw [Taskflow.step, Sys.exec]
    split <;> rename_i hth
    · exact h.creating
    · exact h.creating_put (by intro _ hc'; cases hc')
    · refine h.creating_put fun c hc' => ?_
      cases hc'
      exact fun j hj => h.creating t _ hth j (CreatePhase.step_locals _ e _ j hj)
    · exact h.creating_put (by intro _ hc'; cases hc')
  | startWorker t | cancel t | beat t | halt t =>
    rw [Taskflow.step]; split
    · exact @Sys.Admitted.creating_put _ h t _ s.toWorld (by intro _ hc'; cases hc')
    · exact h.creating

end Sys.Admitted

theorem admitted_reachable {s : Sys} (hs : Reachable Act.validated s) : s.Admitted := by
  induction hs with
  | init => exact ⟨fun _ _ h => by simp [Sys.empty, Redis.empty] at h, fun _ _ h => by simp [Sys.empty] at h⟩
  | step hs hv ih => exact ih.step (coherent_reachable hs) hv

/-! ## What a worker runs -/

/-- In every state of every run whose `POST /jobs` requests pass
`ValidateJobRequest`, the job of every handler call a worker makes is of one
of the four types, so the registry has its processor, and its payload decodes
into that type's payload struct, the first step of the processor's
`ProcessJob`. -/
theorem running_job_decodes {s : Sys} (hs : Reachable Act.validated s) {t : Nat} {j : Job}
    (hj : (s.threads t).running = some j) :
    (j.type = JobTypeEmail ∧ ∃ st, unmarshal emailPayloadFields j.payload = .ok st) ∨
    (j.type = JobTypeImageResize ∧ ∃ st, unmarshal imageResizePayloadFields j.payload = .ok st) ∨
    (j.type = JobTypeWebhook ∧ ∃ st, unmarshal webhookPayloadFields j.payload = .ok st) ∨
    (j.type = JobTypeDataExport ∧ ∃ st, unmarshal dataExportPayloadFields j.payload = .ok st) := by
  have hheld : j ∈ (s.threads t).held := by
    unfold Thread.running at hj
    split at hj <;> cases hj
    rename_i hth
    rw [hth]
    simp [Thread.held, WorkerPhase.locals]
  exact ((admitted_reachable hs).held (coherent_reachable hs) hheld).decodes

/-- Worker 0 runs the handler of `jobA`, an email job submitted through
validation, and its payload decodes. -/
theorem running_job_decodes_leased :
    Reachable Act.validated leasedState ∧ ∃ j, (leasedState.threads 0).running = some j ∧
      ((j.type = JobTypeEmail ∧ ∃ st, unmarshal emailPayloadFields j.payload = .ok st) ∨
      (j.type = JobTypeImageResize ∧ ∃ st, unmarshal imageResizePayloadFields j.payload = .ok st) ∨
      (j.type = JobTypeWebhook ∧ ∃ st, unmarshal webhookPayloadFields j.payload = .ok st) ∨
      (j.type = JobTypeDataExport ∧ ∃ st, unmarshal dataExportPayloadFields j.payload = .ok st)) := by
  have hs : Reachable Act.validated leasedState := Reachable.init.run _ (by decide)
  obtain ⟨j, hj⟩ : ∃ j, (leasedState.threads 0).running = some j := Option.isSome_iff_exists.1 (by decide)
  exact ⟨hs, j, hj, running_job_decodes hs hj⟩

end Taskflow
