import Taskflow.Json

/-!
# Validating a job request (`ValidateJobRequest`)

`createJob` runs `ValidateJobRequest` on every decoded request body before it
touches the broker or the store: the type must be one of the four known ones,
the payload non-empty, and the payload must decode into the type's payload
struct with its required fields set.

* `validate_job_request_accepts`: a request passes exactly when its payload
  is non-empty, its type is one of the four, the payload is one JSON object
  whose members fit the fields they name (`Json.MembersFit`), and the struct
  they fill (`Json.stored`, the last member deciding each field) has its
  required fields non-empty. The check on `sizes` is its length alone, so the
  sizes may be any integers;
* `validate_job_request_counterexample`: an image resize with sizes `[0]`, or
  `[-100]`, passes.

The payload structs keep the fields that validation reads; the decoding
checks every field (see `Json.lean`).
-/

namespace Taskflow

open Json

/-- The error `ValidateJobRequest` returns: a message of its own, or a
decoding error that `fmt.Errorf` wraps with `%w` under a message of its own. -/
inductive ValidationError where
  | message (text : String)
  | wrapped (text : String) (cause : JsonError)
deriving DecidableEq, Repr

/-! ## Payload structs -/

/-- The fields of `EmailPayload` by JSON name, with their Go types. -/
def emailPayloadFields : List (String × GoType) :=
  [("to", .string), ("cc", .stringSlice), ("bcc", .stringSlice), ("subject", .string),
    ("body", .string), ("html", .bool), ("headers", .stringMap)]

/-- The fields of `ImageResizePayload`. -/
def imageResizePayloadFields : List (String × GoType) :=
  [("image_url", .string), ("sizes", .intSlice), ("format", .string), ("quality", .int),
    ("output_path", .string), ("preserve_meta", .bool)]

/-- The fields of `WebhookPayload`. -/
def webhookPayloadFields : List (String × GoType) :=
  [("url", .string), ("method", .string), ("headers", .stringMap), ("data", .any),
    ("timeout", .int)]

/-- The fields of `DataExportPayload`. -/
def dataExportPayloadFields : List (String × GoType) :=
  [("export_type", .string), ("query", .string), ("format", .anyMap), ("output_path", .string),
    ("filters", .anyMap)]

/-- `EmailPayload`, by the fields validation reads. -/
structure EmailPayload where
  «to» : List Nat
  subject : List Nat

/-- `ImageResizePayload`, by the fields validation reads. `sizes` holds the
elements of the array last stored into `Sizes`: `len(Sizes)` is their
number. -/
structure ImageResizePayload where
  imageURL : List Nat
  sizes : List JValue

/-- `WebhookPayload`, by the fields validation reads. -/
structure WebhookPayload where
  url : List Nat
  method : List Nat

/-- `DataExportPayload`, by the fields validation reads. -/
structure DataExportPayload where
  exportType : List Nat
  query : List Nat

/-- `json.Unmarshal(payload, &emailPayload)`. -/
def decodeEmailPayload (payload : RawMessage) : Except JsonError EmailPayload :=
  (unmarshal emailPayloadFields payload).map fun st => ⟨st.string "to", st.string "subject"⟩

/-- `json.Unmarshal(payload, &imagePayload)`. -/
def decodeImageResizePayload (payload : RawMessage) : Except JsonError ImageResizePayload :=
  (unmarshal imageResizePayloadFields payload).map fun st =>
    ⟨st.string "image_url", st.elems "sizes"⟩

/-- `json.Unmarshal(payload, &webhookPayload)`. -/
def decodeWebhookPayload (payload : RawMessage) : Except JsonError WebhookPayload :=
  (unmarshal webhookPayloadFields payload).map fun st => ⟨st.string "url", st.string "method"⟩

/-- `json.Unmarshal(payload, &exportPayload)`. -/
def decodeDataExportPayload (payload : RawMessage) : Except JsonError DataExportPayload :=
  (unmarshal dataExportPayloadFields payload).map fun st =>
    ⟨st.string "export_type", st.string "query"⟩

/-! ## Validation -/

/-- `validatePayloadStructure`. A webhook without a method gets `POST` in the
local copy of the payload, which is then dropped; a type outside the four
passes (`ValidateJobRequest` has refused it already). -/
def validatePayloadStructure (jobType : JobType) (payload : RawMessage) :
    Except ValidationError Unit :=
  if jobType = JobTypeEmail then
    match decodeEmailPayload payload with
    | .error e => .error (.wrapped "invalid email payload" e)
    | .ok p =>
      if p.«to» = [] then .error (.message "email \x27to\x27 field is required")
      else if p.subject = [] then .error (.message "email \x27subject\x27 field is required")
      else .ok ()
  else if jobType = JobTypeImageResize then
    match decodeImageResizePayload payload with
    | .error e => .error (.wrapped "invalid image resize payload" e)
    | .ok p =>
      if p.imageURL = [] then .error (.message "image_url is required")
      else if p.sizes.length = 0 then .error (.message "at least one size is required")
      else .ok ()
  else if jobType = JobTypeWebhook then
    match decodeWebhookPayload payload with
    | .error e => .error (.wrapped "invalid webhook payload" e)
    | .ok p => if p.url = [] then .error (.message "webhook URL is required") else .ok ()
  else if jobType = JobTypeDataExport then
    match decodeDataExportPayload payload with
    | .error e => .error (.wrapped "invalid data export payload" e)
    | .ok p =>
      if p.exportType = [] then .error (.message "export_type is required")
      else if p.query = [] then .error (.message "query is required")
      else .ok ()
  else .ok ()

/-- `ValidateJobRequest`. -/
def validateJobRequest (req : JobRequest) : Except ValidationError Unit :=
  if req.type = "" then .error (.message "job type is required")
  else if req.payload.length = 0 then .error (.message "job payload is required")
  else if ¬(req.type = JobTypeEmail ∨ req.type = JobTypeImageResize ∨
      req.type = JobTypeWebhook ∨ req.type = JobTypeDataExport) then
    .error (.message ("invalid job type: " ++ req.type))
  else validatePayloadStructure req.type req.payload

example : validateJobRequest ⟨JobTypeEmail,
    bytes "\x7b\"to\": \"test@example.com\", \"subject\": \"Test\", \"body\": \"Test body\"\x7d",
    0, none⟩ = .ok () := by
  decide

/-! ## What validation accepts -/

/-- The four job types are distinct, and none is empty. -/
theorem jobTypes_distinct :
    JobTypeEmail ≠ "" ∧ JobTypeImageResize ≠ "" ∧ JobTypeWebhook ≠ "" ∧ JobTypeDataExport ≠ "" ∧
      JobTypeEmail ≠ JobTypeImageResize ∧ JobTypeEmail ≠ JobTypeWebhook ∧
      JobTypeEmail ≠ JobTypeDataExport ∧ JobTypeImageResize ≠ JobTypeWebhook ∧
      JobTypeImageResize ≠ JobTypeDataExport ∧ JobTypeWebhook ≠ JobTypeDataExport := by
  decide

theorem validatePayloadStructure_email (payload : RawMessage) :
    validatePayloadStructure JobTypeEmail payload = .ok () ↔
      ∃ p, decodeEmailPayload payload = .ok p ∧ p.«to» ≠ [] ∧ p.subject ≠ [] := by
  rw [validatePayloadStructure, if_pos rfl]
  cases decodeEmailPayload payload <;> simp
  split_ifs <;> simp_all

theorem validatePayloadStructure_imageResize (payload : RawMessage) :
    validatePayloadStructure JobTypeImageResize payload = .ok () ↔
      ∃ p, decodeImageResizePayload payload = .ok p ∧ p.imageURL ≠ [] ∧ p.sizes ≠ [] := by
  rw [validatePayloadStructure, if_neg jobTypes_distinct.2.2.2.2.1.symm, if_pos rfl]
  cases decodeImageResizePayload payload <;> simp
  split_ifs <;> simp_all

theorem validatePayloadStructure_webhook (payload : RawMessage) :
    validatePayloadStructure JobTypeWebhook payload = .ok () ↔
      ∃ p, decodeWebhookPayload payload = .ok p ∧ p.url ≠ [] := by
  rw [validatePayloadStructure, if_neg jobTypes_distinct.2.2.2.2.2.1.symm,
    if_neg jobTypes_distinct.2.2.2.2.2.2.2.1.symm, if_pos rfl]
  cases decodeWebhookPayload payload <;> simp

theorem validatePayloadStructure_dataExport (payload : RawMessage) :
    validatePayloadStructure JobTypeDataExport payload = .ok () ↔
      ∃ p, decodeDataExportPayload payload = .ok p ∧ p.exportType ≠ [] ∧ p.query ≠ [] := by
  rw [validatePayloadStructure, if_neg jobTypes_distinct.2.2.2.2.2.2.1.symm,
    if_neg jobTypes_distinct.2.2.2.2.2.2.2.2.1.symm,
    if_neg jobTypes_distinct.2.2.2.2.2.2.2.2.2.symm, if_pos rfl]
  cases decodeDataExportPayload payload <;> simp
  split_ifs <;> simp_all

theorem Except.map_ok_and {ε α β : Type} {f : α → β} {x : Except ε α} {P : β → Prop} :
    (∃ b, x.map f = .ok b ∧ P b) ↔ ∃ a, x = .ok a ∧ P (f a) := by
  cases x <;> simp [Except.map]

/-- The four checks of `validatePayloadStructure`, in terms of the bytes: one
JSON object whose members fit their fields, with the required fields, as the
last member deciding each left them, non-empty. -/
theorem validatePayloadStructure_email_obj (payload : RawMessage) :
    validatePayloadStructure JobTypeEmail payload = .ok () ↔
      ∃ ms, Json.parse payload = some (.obj ms) ∧ MembersFit emailPayloadFields ms ∧
        (stored emailPayloadFields ms).string "to" ≠ [] ∧ (stored emailPayloadFields ms).string "subject" ≠ [] := by
  rw [validatePayloadStructure_email, decodeEmailPayload, Except.map_ok_and]
  exact unmarshal_obj_iff _ _ fun h => h.1 rfl

theorem validatePayloadStructure_imageResize_obj (payload : RawMessage) :
    validatePayloadStructure JobTypeImageResize payload = .ok () ↔
      ∃ ms, Json.parse payload = some (.obj ms) ∧ MembersFit imageResizePayloadFields ms ∧
        (stored imageResizePayloadFields ms).string "image_url" ≠ [] ∧
          (stored imageResizePayloadFields ms).elems "sizes" ≠ [] := by
  rw [validatePayloadStructure_imageResize, decodeImageResizePayload, Except.map_ok_and]
  exact unmarshal_obj_iff _ _ fun h => h.1 rfl

theorem validatePayloadStructure_webhook_obj (payload : RawMessage) :
    validatePayloadStructure JobTypeWebhook payload = .ok () ↔
      ∃ ms, Json.parse payload = some (.obj ms) ∧ MembersFit webhookPayloadFields ms ∧
        (stored webhookPayloadFields ms).string "url" ≠ [] := by
  rw [validatePayloadStructure_webhook, decodeWebhookPayload, Except.map_ok_and]
  exact unmarshal_obj_iff _ _ fun h => h rfl

theorem validatePayloadStructure_dataExport_obj (payload : RawMessage) :
    validatePayloadStructure JobTypeDataExport payload = .ok () ↔
      ∃ ms, Json.parse payload = some (.obj ms) ∧ MembersFit dataExportPayloadFields ms ∧
        (stored dataExportPayloadFields ms).string "export_type" ≠ [] ∧
          (stored dataExportPayloadFields ms).string "query" ≠ [] := by
  rw [validatePayloadStructure_dataExport, decodeDataExportPayload, Except.map_ok_and]
  exact unmarshal_obj_iff _ _ fun h => h.1 rfl

/-- A request passes validation exactly when its payload is non-empty, its
type is one of the four, its bytes are one JSON object whose members each hold
a value of the kind of the field their key names under `foldName`, and the
struct the members fill (each field as the last member deciding it left it)
has its required fields non-empty; for `sizes` that is its length alone. -/
theorem validate_job_request_accepts (req : JobRequest) :
    validateJobRequest req = .ok () ↔
      req.payload ≠ [] ∧
        ((req.type = JobTypeEmail ∧ ∃ ms, Json.parse req.payload = some (.obj ms) ∧
            MembersFit emailPayloadFields ms ∧ (stored emailPayloadFields ms).string "to" ≠ [] ∧
            (stored emailPayloadFields ms).string "subject" ≠ []) ∨
          (req.type = JobTypeImageResize ∧ ∃ ms, Json.parse req.payload = some (.obj ms) ∧
            MembersFit imageResizePayloadFields ms ∧ (stored imageResizePayloadFields ms).string "image_url" ≠ [] ∧
            (stored imageResizePayloadFields ms).elems "sizes" ≠ []) ∨
          (req.type = JobTypeWebhook ∧ ∃ ms, Json.parse req.payload = some (.obj ms) ∧
            MembersFit webhookPayloadFields ms ∧ (stored webhookPayloadFields ms).string "url" ≠ []) ∨
          (req.type = JobTypeDataExport ∧ ∃ ms, Json.parse req.payload = some (.obj ms) ∧
            MembersFit dataExportPayloadFields ms ∧ (stored dataExportPayloadFields ms).string "export_type" ≠ [] ∧
            (stored dataExportPayloadFields ms).string "query" ≠ [])) := by
  obtain ⟨h₁, h₂, h₃, h₄, h₁₂, h₁₃, h₁₄, h₂₃, h₂₄, h₃₄⟩ := jobTypes_distinct
  obtain ⟨type, payload, _, _⟩ := req
  unfold validateJobRequest
  dsimp only
  by_cases hk : type = JobTypeEmail ∨ type = JobTypeImageResize ∨ type = JobTypeWebhook ∨
      type = JobTypeDataExport
  · have hne : type ≠ "" := by rcases hk with rfl | rfl | rfl | rfl <;> assumption
    by_cases hp : payload = []
    · subst hp
      refine iff_of_false ?_ fun h => h.1 rfl
      rw [if_neg hne, if_pos List.length_nil]
      exact nofun
    · rw [if_neg hne, if_neg (by simpa using hp), if_neg (not_not.mpr hk)]
      simp only [ne_eq, hp, not_false_eq_true, true_and]
      rcases hk with rfl | rfl | rfl | rfl
      · simp only [validatePayloadStructure_email_obj, h₁₂, h₁₃, h₁₄, false_and, or_false, true_and]
      · simp only [validatePayloadStructure_imageResize_obj, h₁₂.symm, h₂₃, h₂₄, false_and, or_false,
          false_or, true_and]
      · simp only [validatePayloadStructure_webhook_obj, h₁₃.symm, h₂₃.symm, h₃₄, false_and, or_false,
          false_or, true_and]
      · simp only [validatePayloadStructure_dataExport_obj, h₁₄.symm, h₂₄.symm, h₃₄.symm, false_and,
          false_or, true_and]
  · refine iff_of_false ?_ fun ⟨_, h⟩ => hk ?_
    · split_ifs <;> exact nofun
    · rcases h with ⟨h, -⟩ | ⟨h, -⟩ | ⟨h, -⟩ | ⟨h, -⟩
      exacts [.inl h, .inr (.inl h), .inr (.inr (.inl h)), .inr (.inr (.inr h))]

/-- An image resize whose one size is 0 passes, and so does one whose one size
is -100. -/
theorem validate_job_request_counterexample :
    validateJobRequest ⟨JobTypeImageResize,
      bytes "\x7b\"image_url\":\"u\",\"sizes\":[0]\x7d", 0, none⟩ = .ok () ∧
    validateJobRequest ⟨JobTypeImageResize,
      bytes "\x7b\"image_url\":\"u\",\"sizes\":[-100]\x7d", 0, none⟩ = .ok () := by
  decide

end Taskflow
