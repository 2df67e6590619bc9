import Taskflow.Validate
import Taskflow.Marshal
import Taskflow.Config
import Taskflow.Queue

/-!
# The job processors (`internal/worker`)

`ProcessorRegistry.ProcessJob` is the handler call of the worker loop: it
looks the job's type up in the registry `NewProcessorRegistry` fills, and
runs that processor's `ProcessJob` on the job. Each processor decodes the
payload into its payload struct again, does its (simulated) work, and returns
its result struct as JSON, or an error that `fmt.Errorf` wraps with the
processor's own words.

Everything a processor learns from outside the worker is a field of
`ProcessorIo`: whether the worker's context is done during one of its waits,
the clock, the random row count of an export, the file system's answers, and
the webhook's HTTP exchange, which sees the request the processor built. The
texts of `encoding/json`'s errors, which Go's library writes, are a field too,
as is `url.Parse`'s verdict on the webhook URL.

Payload strings are Lean strings: a decoded JSON string is a sequence of
Unicode scalar values (`Json.unquote` never yields a surrogate), and its Go
bytes are their UTF-8 encoding, `bytes s`.
-/

namespace Taskflow

open Json

/-! ## JSON the processors write -/

namespace Json

/-- The Go string a decoded string field holds, as a Lean string. -/
def Decoded.text (st : Decoded) (name : String) : String :=
  String.mk ((st.string name).map Char.ofNat)

/-- The Go `int` a decoded field holds: the number last stored (it passed
`ParseInt` when it was stored), or zero. -/
def Decoded.int (st : Decoded) (name : String) : Int :=
  match st name with
  | some (.num lit) => (strconv.parseInt lit).1
  | _ => 0

/-- The elements of a decoded `[]int` field; a `null` element is zero. -/
def Decoded.ints (st : Decoded) (name : String) : List Int :=
  (st.elems name).map fun v => match v with
    | .num lit => (strconv.parseInt lit).1
    | _ => 0

/-- `strconv.AppendInt(b, i, 10)`, as the encoder writes an integer. -/
def appendInt (z : Int) : Bytes := bytes (toString z)

/-- A struct as the encoder writes it: `{"name":value,...}`, its fields in
declaration order, each name written as `appendString` writes a string. -/
def appendObject (fields : List (String × Bytes)) : Bytes :=
  123 :: List.intercalate [44] (fields.map fun f => appendString (bytes f.1) ++ 58 :: f.2) ++ [125]

/-- A slice: `null` when nil, else its encoded elements in brackets. -/
def appendArray : List Bytes → Bytes
  | [] => bytes "null"
  | vs => 91 :: List.intercalate [44] vs ++ [93]

/-- Go's order on strings, byte by byte, which the encoder sorts map keys by. -/
def bytesLt : Bytes → Bytes → Bool
  | [], [] => false
  | [], _ :: _ => true
  | _ :: _, [] => false
  | a :: as, b :: bs => a < b || (a == b && bytesLt as bs)

/-- A `map[string]string`, its keys distinct: the entries sorted by key. -/
def appendStringMap (m : List (Bytes × Bytes)) : Bytes :=
  let sorted := m.mergeSort fun a b => !bytesLt b.1 a.1
  123 :: List.intercalate [44] (sorted.map fun kv => appendString kv.1 ++ 58 :: appendString kv.2) ++ [125]

end Json

/-! ## Go library functions the processors call -/

/-- `unicode.ToUpper` on the runes whose upper case is an ASCII letter: `a`–`z`,
U+0131 (dotless i) and U+017F (long s). Every other rune is kept; its upper
case is not ASCII, so it is not an HTTP token character either way. -/
def unicode.toUpper (r : Nat) : Nat :=
  if 97 ≤ r ∧ r ≤ 122 then r - 32
  else if r = 0x131 then 0x49
  else if r = 0x17F then 0x53
  else r

/-- `strings.ToUpper`: a string of ASCII bytes is raised byte by byte; any other
is decoded and encoded again rune by rune (`strings.Map`). -/
def strings.toUpper (s : Bytes) : Bytes :=
  if s.all (· < 0x80) then s.map fun c => if 97 ≤ c ∧ c ≤ 122 then c - 32 else c
  else (utf8.runes s).flatMap fun r => utf8.appendRune (unicode.toUpper r)

/-- `httpguts.IsTokenRune`: the characters of an HTTP token. -/
def http.isTokenRune (r : Nat) : Bool :=
  (48 ≤ r && r ≤ 57) || (65 ≤ r && r ≤ 90) || (97 ≤ r && r ≤ 122) ||
    [33, 35, 36, 37, 38, 39, 42, 43, 45, 46, 94, 95, 96, 124, 126].contains r

/-- `validMethod`: a non-empty token. -/
def http.validMethod (method : Bytes) : Bool :=
  method ≠ [] && (utf8.runes method).all http.isTokenRune

theorem utf8.runesFuel_ascii : ∀ (n : Nat) (s : Bytes), s.length ≤ n → (∀ c ∈ s, c < 0x80) →
    utf8.runesFuel n s = s.map UInt8.toNat
  | _, [], _, _ => by cases ‹Nat› <;> rfl
  | n + 1, c :: s, hn, h => by
    rw [utf8.runesFuel, if_pos (h c (List.mem_cons_self _ _)),
      utf8.runesFuel_ascii n s (by simpa using hn) (fun d hd => h d (List.mem_cons_of_mem _ hd)), List.map_cons]

/-- The runes of an ASCII string are its bytes. -/
theorem utf8.runes_ascii {s : Bytes} (h : ∀ c ∈ s, c < 0x80) : utf8.runes s = s.map UInt8.toNat :=
  utf8.runesFuel_ascii _ _ le_rfl h

/-- `strings.ToUpper` of an ASCII string raises its letters byte by byte, and
the result is ASCII. -/
theorem strings.toUpper_ascii {s : Bytes} (h : ∀ c ∈ s, c < 0x80) :
    strings.toUpper s = s.map (fun c => if 97 ≤ c ∧ c ≤ 122 then c - 32 else c) ∧
      ∀ d ∈ strings.toUpper s, d < 0x80 := by
  have hup : strings.toUpper s = s.map (fun c => if 97 ≤ c ∧ c ≤ 122 then c - 32 else c) := by
    rw [strings.toUpper, if_pos (List.all_eq_true.2 fun c hc => decide_eq_true (h c hc))]
  refine ⟨hup, fun d hd => ?_⟩
  rw [hup] at hd
  obtain ⟨c, hc, rfl⟩ := List.mem_map.1 hd
  split
  · have : c.toNat < 128 := h c hc
    show (c - 32).toNat < 128
    rw [UInt8.toNat_sub_of_le _ _ (Nat.le_trans (by decide) ‹97 ≤ c ∧ c ≤ 122›.1)]
    omega
  · exact h c hc

theorem http.isTokenRune_of_letter {r : Nat} (h : 65 ≤ r ∧ r ≤ 90 ∨ 97 ≤ r ∧ r ≤ 122) :
    http.isTokenRune r = true := by
  simp only [http.isTokenRune, Bool.or_eq_true, Bool.and_eq_true, decide_eq_true_eq]
  omega

/-- Raising an ASCII letter keeps it a token character, and every other byte is
kept: upper-casing an ASCII method does not change whether it is valid. -/
theorem http.isTokenRune_upper (c : UInt8) :
    http.isTokenRune (if 97 ≤ c ∧ c ≤ 122 then c - 32 else c).toNat = http.isTokenRune c.toNat := by
  split
  · rename_i h
    have h₁ : 97 ≤ c.toNat ∧ c.toNat ≤ 122 := h
    have hs : (c - 32).toNat = c.toNat - 32 := UInt8.toNat_sub_of_le _ _ (Nat.le_trans (by decide) h.1)
    rw [hs, http.isTokenRune_of_letter (by omega), http.isTokenRune_of_letter (by omega)]
  · rfl

/-- `strconv.Quote`, for ASCII exactly: `"` and `\` escaped, the printable
bytes kept, the other control bytes as `\a`…`\v` or `\xNN`; an invalid byte
as `\xNN`. A non-ASCII rune is kept as it is. -/
def strconv.quote (s : Bytes) : String :=
  let hex (n : Nat) : String := String.mk [Char.ofNat (hexDigit (n / 16)).toNat, Char.ofNat (hexDigit (n % 16)).toNat]
  let esc (r : Nat) : String :=
    if r = 34 ∨ r = 92 then String.mk ['\\', Char.ofNat r]
    else if 32 ≤ r ∧ r < 127 ∨ 128 ≤ r then String.mk [Char.ofNat r]
    else if r = 7 then "\\a" else if r = 8 then "\\b" else if r = 12 then "\\f"
    else if r = 10 then "\\n" else if r = 13 then "\\r" else if r = 9 then "\\t"
    else if r = 11 then "\\v" else "\\x" ++ hex r
  let rec go : Nat → Bytes → String
    | 0, _ | _, [] => ""
    | n + 1, c :: rest =>
      if c < 0x80 then esc c.toNat ++ go n rest
      else if decodeRune c rest = (0xFFFD, rest) then "\\x" ++ hex c.toNat ++ go n rest
      else esc (decodeRune c rest).1 ++ go n (decodeRune c rest).2
  "\"" ++ go s.length s ++ "\""

/-- `filepath.Ext` on Unix: the suffix from the last `.` of the path's last
element, or nothing. `extRev` scans the path from its end. -/
def filepath.extRev : Bytes → Bytes → Bytes
  | [], _ => []
  | 47 :: _, _ => []
  | 46 :: _, acc => 46 :: acc
  | c :: rest, acc => extRev rest (c :: acc)

/-- See `filepath.extRev`. -/
def filepath.ext (path : Bytes) : Bytes := filepath.extRev path.reverse []

theorem bytes_append (a b : String) : bytes (a ++ b) = bytes a ++ bytes b := by
  simp [bytes, String.toUTF8, List.flatMap_append]

/-- The scan of `extRev` over a last element free of `.` and `/` stops at the
dot before it. -/
theorem filepath.extRev_dot {l : Bytes} (h : ∀ c ∈ l, c ≠ 46 ∧ c ≠ 47) (rest acc : Bytes) :
    filepath.extRev (l ++ 46 :: rest) acc = 46 :: (l.reverse ++ acc) := by
  induction l generalizing acc with
  | nil => simp [filepath.extRev]
  | cons c l ih =>
    obtain ⟨h46, h47⟩ := h c (List.mem_cons_self _ _)
    rw [List.cons_append, filepath.extRev, ih (fun d hd => h d (List.mem_cons_of_mem _ hd))]
    · simp
    · exact h47
    · exact h46

/-- A path that ends in a dot and a name free of `.` and `/` has that
extension. -/
theorem filepath.ext_append {path : String} {name : Bytes} (h : ∀ c ∈ name, c ≠ 46 ∧ c ≠ 47) :
    filepath.ext (bytes path ++ 46 :: name) = 46 :: name := by
  simpa [filepath.ext] using @filepath.extRev_dot name.reverse (by simpa using h) (bytes path).reverse []

theorem filepath.ext_append_csv (path : String) : filepath.ext (bytes (path ++ ".csv")) = bytes ".csv" := by
  rw [bytes_append]
  exact filepath.ext_append (by decide)

example : filepath.ext (bytes "out/a.b/c") = [] := by decide

/-! ## What the world outside the worker answers -/

/-- The request `makeWebhookCall` sends: the upper-cased method, the URL, and
whether a JSON body is attached. -/
structure WebhookRequest where
  method : Bytes
  url : String
  hasBody : Bool
deriving DecidableEq, Repr

/-- A response of `client.Do`: the status, the header as a Go map (its keys
distinct), and what `io.ReadAll(resp.Body)` returns. -/
structure HttpResponse where
  statusCode : Int
  header : List (Bytes × List Bytes)
  header_keys : (header.map Prod.fst).Nodup
  body : Except String Bytes

/-- What the world outside the worker answers during one handler call. -/
structure ProcessorIo where
  /-- The text of an `encoding/json` error. -/
  jsonText : JsonError → String
  /-- `ctx.Err()`, when the worker's context is done during the call's `n`-th
  wait (numbered from 0), before the wait's timer fires. -/
  cancelled : Option (Nat × String)
  /-- `time.Now()`, read for the email's message id. -/
  now : Time
  /-- `time.Now().Format(time.RFC3339)`, read for the email's `sent_at`. -/
  sentAt : String
  /-- `rand.Intn(900)`: an export has 100 more rows than this. -/
  rowCount : Fin 900
  /-- `os.MkdirAll`'s error. -/
  mkdirError : Option String
  /-- The error of creating, or for JSON of writing, the export file. -/
  exportError : Option String
  /-- `os.Stat` of the export file: its size, or the error. -/
  stat : Except String Int
  /-- `url.Parse`'s error on the webhook URL. -/
  urlError : Option String
  /-- `client.Do(req)` with the client's timeout: the error, or the response. -/
  roundTrip : WebhookRequest → Time → Except String HttpResponse
  /-- `time.Since(start)` around the webhook call. -/
  elapsed : Time

/-- The context error a wait ends with, if the context is done during it. -/
def ProcessorIo.waitError (io : ProcessorIo) (n : Nat) : Option String :=
  match io.cancelled with
  | some (k, err) => if k = n then some err else none
  | none => none

/-- A world that answers every call at once and without error: the context
stays live, the clock reads zero, the export file is empty, and every webhook
answers 200 with no header and no body. -/
def ProcessorIo.calm : ProcessorIo where
  jsonText _ := ""
  cancelled := none
  now := 0
  sentAt := ""
  rowCount := 0
  mkdirError := none
  exportError := none
  stat := .ok 0
  urlError := none
  roundTrip _ _ := .ok ⟨200, [], List.nodup_nil, .ok []⟩
  elapsed := 0

/-! ## `EmailProcessor` -/

/-- `EmailResult`. -/
structure EmailResult where
  messageId : String
  sentAt : String
deriving DecidableEq, Repr

/-- `json.Marshal` of an `EmailResult`. -/
def EmailResult.json (r : EmailResult) : Bytes :=
  appendObject [("message_id", appendString (bytes r.messageId)), ("sent_at", appendString (bytes r.sentAt))]

/-- `sendEmail`: one wait, of `1 + len(body)/100` seconds, which the context
may end first. -/
def EmailProcessor.sendEmail (io : ProcessorIo) : Option String := io.waitError 0

/-- `EmailProcessor.ProcessJob`. The message id is `msg_` and `Unix()` of the
clock. -/
def EmailProcessor.processJob (io : ProcessorIo) (job : Job) : Except String RawMessage :=
  match unmarshal emailPayloadFields job.payload with
  | .error e => .error ("invalid email payload: " ++ io.jsonText e)
  | .ok _ =>
    match EmailProcessor.sendEmail io with
    | some err => .error ("failed to send email: " ++ err)
    | none => .ok (EmailResult.json ⟨"msg_" ++ toString (io.now / 1000000000), io.sentAt⟩)

/-! ## `ImageResizeProcessor` -/

/-- `ResizedImage`. -/
structure ResizedImage where
  width : Int
  height : Int
  size : Int
  url : String
deriving DecidableEq, Repr

/-- `json.Marshal` of a `ResizedImage`. -/
def ResizedImage.json (r : ResizedImage) : Bytes :=
  appendObject [("width", appendInt r.width), ("height", appendInt r.height), ("size", appendInt r.size),
    ("url", appendString (bytes r.url))]

/-- `(width * originalHeight) / originalWidth`: the product wraps to 64 bits,
and the division truncates toward zero. -/
def ImageResizeProcessor.height (width : Int) : Int :=
  Int.tdiv (RedisQueue.wrap64 (width * 1080)) 1920

/-- The resized height follows the 1920×1080 aspect ratio, `⌊9w/16⌋`, for every
width whose product with 1080 fits an `int64`; for the widths past that, up to
where the product wraps a second time, the product wraps negative and the
height is never positive. -/
theorem resized_height :
    (∀ w : Int, 0 ≤ w → w * 1080 < 9223372036854775808 → ImageResizeProcessor.height w = w * 9 / 16) ∧
    (∀ w : Int, 9223372036854775808 ≤ w * 1080 → w * 1080 < 18446744073709551616 →
      ImageResizeProcessor.height w ≤ 0) := by
  refine ⟨fun w h₀ h => ?_, fun w h₁ h₂ => ?_⟩
  · rw [ImageResizeProcessor.height, RedisQueue.wrap64_of_range (by omega) h,
      Int.tdiv_eq_ediv (by omega) (by omega)]
    omega
  · have hw : RedisQueue.wrap64 (w * 1080) = -(18446744073709551616 - w * 1080) := by
      have hm : ((Nat.pow 2 64 : Nat) : Int) = 18446744073709551616 := rfl
      simp only [RedisQueue.wrap64, Int.bmod, hm]
      split <;> omega
    rw [ImageResizeProcessor.height, hw, Int.neg_tdiv]
    have := @Int.tdiv_nonneg (18446744073709551616 - w * 1080) 1920 (by omega) (by omega)
    omega

/-- A width of 1000 gives a height of 562; a width of 8540159293384052, the
least whose product with 1080 passes the `int64` range, a negative one. -/
theorem resized_height_wrapped :
    ImageResizeProcessor.height 1000 = 562 ∧ ImageResizeProcessor.height 8540159293384052 ≤ 0 :=
  ⟨resized_height.1 1000 (by decide) (by decide), resized_height.2 8540159293384052 (by decide) (by decide)⟩

/-- `int64(float64(originalSize) * sizeRatio * sizeRatio)` with
`sizeRatio = float64(width) / float64(originalWidth)`, in doubles; a value past
the `int64` range converts as on amd64, to the least `int64`. -/
def ImageResizeProcessor.newSize (width : Int) : Int :=
  let sizeRatio := Float.ofInt width / 1920.0
  let f := 2500000.0 * sizeRatio * sizeRatio
  if f < 9223372036854775808.0 then (f.toUInt64.toNat : Int) else -9223372036854775808

/-- The image `processImage` makes for one width: `format` is the payload's
format, or `jpeg`. -/
def ImageResizeProcessor.resizedImage (outputPath format : String) (width : Int) : ResizedImage :=
  let height := ImageResizeProcessor.height width
  ⟨width, height, ImageResizeProcessor.newSize width,
    outputPath ++ "/resized_" ++ toString width ++ "x" ++ toString height ++ "." ++ format⟩

/-- The loop of `processImage` from its `n`-th wait on: each width waits
`width/100` milliseconds, which the context may end first. -/
def ImageResizeProcessor.resizeAll (io : ProcessorIo) (outputPath format : String) :
    Nat → List Int → Except String (List ResizedImage)
  | _, [] => .ok []
  | n, width :: ws =>
    match io.waitError n with
    | some err => .error err
    | none => (resizeAll io outputPath format (n + 1) ws).map (resizedImage outputPath format width :: ·)

/-- The loop from its `n`-th wait on makes one image per width, in order,
unless the context is done during one of its waits; then it returns that
error. -/
theorem ImageResizeProcessor.resizeAll_eq (io : ProcessorIo) (outputPath format : String) :
    ∀ (n : Nat) (ws : List Int), ImageResizeProcessor.resizeAll io outputPath format n ws =
      match io.cancelled with
      | some (k, err) =>
        if n ≤ k ∧ k < n + ws.length then .error err
        else .ok (ws.map (ImageResizeProcessor.resizedImage outputPath format))
      | none => .ok (ws.map (ImageResizeProcessor.resizedImage outputPath format))
  | n, [] => by
    rcases io.cancelled with _ | ⟨k, err⟩
    · rfl
    · show Except.ok [] = if n ≤ k ∧ k < n + 0 then _ else _
      rw [if_neg (by omega)]; rfl
  | n, w :: ws => by
    have ih := ImageResizeProcessor.resizeAll_eq io outputPath format (n + 1) ws
    rw [ImageResizeProcessor.resizeAll, ProcessorIo.waitError]
    rcases hc : io.cancelled with _ | ⟨k, err⟩ <;> simp only [hc] at ih ⊢
    · rw [ih]; rfl
    · by_cases hk : k = n
      · subst hk; simp
      · have hiff : (n + 1 ≤ k ∧ k < n + 1 + ws.length) ↔ (n ≤ k ∧ k < n + (ws.length + 1)) := by omega
        rw [if_neg hk, ih]
        simp only [List.length_cons, hiff]
        split <;> rfl

/-- `ImageResizeResult`, with its fixed `ImageMetadata`. -/
structure ImageResizeResult where
  originalURL : String
  images : List ResizedImage
deriving DecidableEq, Repr

/-- `json.Marshal` of an `ImageResizeResult`. -/
def ImageResizeResult.json (r : ImageResizeResult) : Bytes :=
  appendObject [("original_url", appendString (bytes r.originalURL)),
    ("images", appendArray (r.images.map ResizedImage.json)),
    ("metadata", appendObject [("original_width", appendInt 1920), ("original_height", appendInt 1080),
      ("original_size", appendInt 2500000), ("format", appendString (bytes "JPEG"))])]

/-- `processImage`: the two-second download wait, then one image per width. -/
def ImageResizeProcessor.processImage (io : ProcessorIo) (st : Decoded) : Except String ImageResizeResult :=
  match io.waitError 0 with
  | some err => .error err
  | none =>
    let format := if st.text "format" = "" then "jpeg" else st.text "format"
    (ImageResizeProcessor.resizeAll io (st.text "output_path") format 1 (st.ints "sizes")).map
      fun images => ⟨st.text "image_url", images⟩

/-- `ImageResizeProcessor.ProcessJob`. -/
def ImageResizeProcessor.processJob (io : ProcessorIo) (job : Job) : Except String RawMessage :=
  match unmarshal imageResizePayloadFields job.payload with
  | .error e => .error ("invalid image resize payload: " ++ io.jsonText e)
  | .ok st =>
    match ImageResizeProcessor.processImage io st with
    | .error err => .error ("failed to process image: " ++ err)
    | .ok result => .ok result.json

/-! ## `WebhookProcessor` -/

/-- `http.NewRequestWithContext(ctx, method, url, body)`, where it can fail: an
empty method means `GET`, any other must be a token, and the URL must parse. -/
def http.newRequestWithContext (method : Bytes) (url : String) (hasBody : Bool)
    (urlError : Option String) : Except String WebhookRequest :=
  let method := if method = [] then bytes "GET" else method
  if !http.validMethod method then .error ("net/http: invalid method " ++ strconv.quote method)
  else match urlError with
    | some err => .error err
    | none => .ok ⟨method, url, hasBody⟩

/-- A method with a rune that is not a token character is refused, whatever
the URL. -/
theorem http.newRequestWithContext_invalid {method : Bytes} (url : String) (hasBody : Bool)
    (urlError : Option String) (h : ∃ r ∈ utf8.runes method, http.isTokenRune r = false) :
    http.newRequestWithContext method url hasBody urlError =
      .error ("net/http: invalid method " ++ strconv.quote method) := by
  obtain ⟨r, hr, hbad⟩ := h
  have hne : method ≠ [] := by rintro rfl; exact nomatch hr
  have hv : http.validMethod method = false := by
    rw [http.validMethod, Bool.and_eq_false_iff]
    exact .inr (List.all_eq_false.2 ⟨r, hr, by simp [hbad]⟩)
  simp [http.newRequestWithContext, hne, hv]

/-- The client's timeout: the default client's 30 seconds, or the payload's
positive `timeout` as `time.Duration(timeout) * time.Second`, which wraps to
64 bits. -/
def WebhookProcessor.clientTimeout (timeout : Int) : Time :=
  if timeout > 0 then RedisQueue.wrap64 (timeout * 1000000000) else 30 * 1000000000

/-- A `timeout` that is not positive leaves the default 30 seconds; a positive
one of up to 9223372036 seconds is the client's timeout in nanoseconds; past
that, up to where the product wraps a second time, the product wraps negative,
a duration `http.Client` reads as no timeout at all. -/
theorem webhook_timeout_wraps :
    (∀ t : Int, t ≤ 0 → WebhookProcessor.clientTimeout t = 30 * 1000000000) ∧
    (∀ t : Int, 0 < t → t ≤ 9223372036 → WebhookProcessor.clientTimeout t = t * 1000000000) ∧
    (∀ t : Int, 9223372036 < t → t ≤ 18446744073 → WebhookProcessor.clientTimeout t < 0) := by
  refine ⟨fun t h => if_neg (by omega), fun t h₀ h => ?_, fun t h₁ h₂ => ?_⟩
  · rw [WebhookProcessor.clientTimeout, if_pos h₀, RedisQueue.wrap64_of_range (by omega) (by omega)]
  · have hw : RedisQueue.wrap64 (t * 1000000000) = t * 1000000000 - 18446744073709551616 := by
      have hm : ((Nat.pow 2 64 : Nat) : Int) = 18446744073709551616 := rfl
      simp only [RedisQueue.wrap64, Int.bmod, hm]
      split <;> omega
    rw [WebhookProcessor.clientTimeout, if_pos (by omega), hw]
    exact Int.sub_neg_of_lt (by omega)

/-- Validation accepts a webhook whose `timeout` is 10000000000 seconds, and
that timeout reaches the client negative; 30 seconds reach it as such. -/
theorem webhook_timeout_wrapped :
    validateJobRequest ⟨JobTypeWebhook, bytes "\x7b\"url\":\"http://h\",\"timeout\":10000000000\x7d", 3, none⟩ =
        .ok () ∧
      WebhookProcessor.clientTimeout 0 = 30 * 1000000000 ∧
      WebhookProcessor.clientTimeout 30 = 30 * 1000000000 ∧ WebhookProcessor.clientTimeout 10000000000 < 0 :=
  ⟨by decide, webhook_timeout_wraps.1 0 (by decide), webhook_timeout_wraps.2.1 30 (by decide) (by decide),
    webhook_timeout_wraps.2.2 10000000000 (by decide) (by decide)⟩

/-- `WebhookResult`. -/
structure WebhookResult where
  statusCode : Int
  responseBody : Bytes
  headers : List (Bytes × Bytes)
  duration : Int
deriving DecidableEq, Repr

/-- `json.Marshal` of a `WebhookResult`; `response_body` and `headers` are
`omitempty`. -/
def WebhookResult.json (r : WebhookResult) : Bytes :=
  appendObject ([("status_code", appendInt r.statusCode)] ++
    (if r.responseBody = [] then [] else [("response_body", appendString r.responseBody)]) ++
    (if r.headers = [] then [] else [("headers", appendStringMap r.headers)]) ++
    [("duration_ms", appendInt r.duration)])

/-- `makeWebhookCall`: build the request, send it, read the whole response.
Any status is a response; the result keeps the first value of each header. -/
def WebhookProcessor.makeWebhookCall (io : ProcessorIo) (st : Decoded) : Except String WebhookResult :=
  match http.newRequestWithContext (strings.toUpper (bytes (st.text "method"))) (st.text "url")
      (st "data").isSome io.urlError with
  | .error err => .error ("failed to create request: " ++ err)
  | .ok req =>
    match io.roundTrip req (WebhookProcessor.clientTimeout (st.int "timeout")) with
    | .error err => .error ("request failed: " ++ err)
    | .ok resp =>
      match resp.body with
      | .error err => .error ("failed to read response body: " ++ err)
      | .ok body => .ok ⟨resp.statusCode, body, resp.header.filterMap fun kv => kv.2.head?.map (kv.1, ·), 0⟩

/-- `WebhookProcessor.ProcessJob`: the result carries the call's duration in
milliseconds. -/
def WebhookProcessor.processJob (io : ProcessorIo) (job : Job) : Except String RawMessage :=
  match unmarshal webhookPayloadFields job.payload with
  | .error e => .error ("invalid webhook payload: " ++ io.jsonText e)
  | .ok st =>
    match WebhookProcessor.makeWebhookCall io st with
    | .error err => .error ("webhook call failed: " ++ err)
    | .ok result => .ok { result with duration := Int.tdiv io.elapsed 1000000 }.json

/-! ## `DataExportProcessor` -/

/-- `DataExportResult`. -/
structure DataExportResult where
  filePath : String
  fileSize : Int
  rowCount : Nat
  format : String
deriving DecidableEq, Repr

/-- `json.Marshal` of a `DataExportResult`. -/
def DataExportResult.json (r : DataExportResult) : Bytes :=
  appendObject [("file_path", appendString (bytes r.filePath)), ("file_size", appendInt r.fileSize),
    ("row_count", appendInt r.rowCount), ("format", appendString (bytes r.format))]

/-- The extension check of `exportCSV` and `exportJSON`: `ext` is appended
unless the path's extension is `ext` already. -/
def DataExportProcessor.withExt (outputPath ext : String) : String :=
  if filepath.ext (bytes outputPath) ≠ bytes ext then outputPath ++ ext else outputPath

/-- `exportCSV`: the path, with `.csv`, unless creating the file fails; the
CSV writer's errors are never checked. -/
def DataExportProcessor.exportCSV (io : ProcessorIo) (outputPath : String) : Except String String :=
  match io.exportError with
  | some err => .error err
  | none => .ok (DataExportProcessor.withExt outputPath ".csv")

/-- `exportJSON`: the path, with `.json`, unless creating or writing the file
fails. -/
def DataExportProcessor.exportJSON (io : ProcessorIo) (outputPath : String) : Except String String :=
  match io.exportError with
  | some err => .error err
  | none => .ok (DataExportProcessor.withExt outputPath ".json")

/-- The export the switch of `processExport` runs for an export type, if it
knows the type; `xlsx` is written as CSV. -/
def DataExportProcessor.export (io : ProcessorIo) (exportType outputPath : String) :
    Option (Except String String) :=
  if exportType = "csv" then some (DataExportProcessor.exportCSV io outputPath)
  else if exportType = "json" then some (DataExportProcessor.exportJSON io outputPath)
  else if exportType = "xlsx" then some (DataExportProcessor.exportCSV io (outputPath ++ ".csv"))
  else none

/-- `processExport`: the three-second fetch wait, the mock rows, the output
directory, the export, and the file's size. -/
def DataExportProcessor.processExport (io : ProcessorIo) (st : Decoded) : Except String DataExportResult :=
  match io.waitError 0 with
  | some err => .error err
  | none =>
    match io.mkdirError with
    | some err => .error ("failed to create output directory: " ++ err)
    | none =>
      match DataExportProcessor.export io (st.text "export_type") (st.text "output_path") with
      | none => .error ("unsupported export type: " ++ st.text "export_type")
      | some (.error err) => .error ("export failed: " ++ err)
      | some (.ok filePath) =>
        match io.stat with
        | .error err => .error ("failed to get file info: " ++ err)
        | .ok size => .ok ⟨filePath, size, 100 + io.rowCount.val, st.text "export_type"⟩

/-- The path `exportCSV` or `exportJSON` writes has the extension it ensures. -/
theorem DataExportProcessor.ext_withExt (path : String) {ext : String} {name : Bytes}
    (he : bytes ext = 46 :: name) (h : ∀ c ∈ name, c ≠ 46 ∧ c ≠ 47) :
    filepath.ext (bytes (DataExportProcessor.withExt path ext)) = bytes ext := by
  unfold DataExportProcessor.withExt
  split
  · rw [bytes_append, he, filepath.ext_append h]
  · exact not_not.1 ‹_›

/-- An `xlsx` export's path already ends in `.csv`, so `exportCSV` keeps it. -/
theorem DataExportProcessor.withExt_csv_of_xlsx (path : String) :
    DataExportProcessor.withExt (path ++ ".csv") ".csv" = path ++ ".csv" := by
  rw [DataExportProcessor.withExt, if_neg (not_not.2 (filepath.ext_append_csv path))]

/-- An export the switch runs and that succeeds wrote a `.json` file for `json`
and a `.csv` file otherwise, at `output_path.csv` for `xlsx`. -/
theorem DataExportProcessor.export_ok {io : ProcessorIo} {t path filePath : String}
    (h : DataExportProcessor.export io t path = some (.ok filePath)) :
    t ∈ ["csv", "json", "xlsx"] ∧
      filepath.ext (bytes filePath) = bytes (if t = "json" then ".json" else ".csv") ∧
      (t = "xlsx" → filePath = path ++ ".csv") := by
  unfold DataExportProcessor.export DataExportProcessor.exportCSV DataExportProcessor.exportJSON at h
  split_ifs at h with h₁ h₂ h₃ <;> split at h <;> cases h
  · subst h₁; exact ⟨by simp, DataExportProcessor.ext_withExt path rfl (by decide), nofun⟩
  · subst h₂; exact ⟨by simp, DataExportProcessor.ext_withExt path rfl (by decide), nofun⟩
  · subst h₃
    rw [DataExportProcessor.withExt_csv_of_xlsx]
    exact ⟨by simp, filepath.ext_append_csv path, fun _ => rfl⟩

theorem DataExportProcessor.processExport_ok {io : ProcessorIo} {st : Decoded} {r : DataExportResult}
    (h : DataExportProcessor.processExport io st = .ok r) :
    r.format = st.text "export_type" ∧ r.rowCount = 100 + io.rowCount.val ∧
      DataExportProcessor.export io r.format (st.text "output_path") = some (.ok r.filePath) := by
  unfold DataExportProcessor.processExport at h
  split at h
  · cases h
  split at h
  · cases h
  split at h <;> try cases h
  split at h
  · cases h
  · cases h; exact ⟨rfl, rfl, ‹_›⟩

/-- Every export that succeeds reports the export type it was asked for, one
of `csv`, `json` and `xlsx`, and between 100 and 999 rows, and its file has the
extension `filepath.Ext` reads as `.json` for `json` and `.csv` otherwise; an
`xlsx` export is the CSV file `output_path.csv`. -/
theorem export_result_file {io : ProcessorIo} {st : Decoded} {r : DataExportResult}
    (h : DataExportProcessor.processExport io st = .ok r) :
    r.format = st.text "export_type" ∧ r.format ∈ ["csv", "json", "xlsx"] ∧
      100 ≤ r.rowCount ∧ r.rowCount ≤ 999 ∧
      filepath.ext (bytes r.filePath) = bytes (if r.format = "json" then ".json" else ".csv") ∧
      (r.format = "xlsx" → r.filePath = st.text "output_path" ++ ".csv") := by
  obtain ⟨hf, hn, hx⟩ := DataExportProcessor.processExport_ok h
  obtain ⟨ht, he, hxl⟩ := DataExportProcessor.export_ok hx
  have := io.rowCount.isLt
  exact ⟨hf, ht, by omega, by omega, he, hxl⟩

/-- An `xlsx` export to `out/r` in the calm world writes the CSV file
`out/r.csv`. -/
theorem export_result_file_xlsx :
    ∃ st, unmarshal dataExportPayloadFields
        (bytes "\x7b\"export_type\":\"xlsx\",\"query\":\"q\",\"output_path\":\"out/r\"\x7d") = .ok st ∧
      DataExportProcessor.processExport ProcessorIo.calm st = .ok ⟨"out/r.csv", 0, 100, "xlsx"⟩ ∧
      filepath.ext (bytes "out/r.csv") = bytes ".csv" := by
  refine ⟨_, rfl, ?_⟩
  exact (fun h => ⟨h, (export_result_file h).2.2.2.2.1⟩) rfl

/-- An export type outside the switch fails, whatever the world answers; once
the fetch wait and the directory are through, with its own message. -/
theorem DataExportProcessor.processExport_unsupported (io : ProcessorIo) {st : Decoded}
    (hT : st.text "export_type" ∉ ["csv", "json", "xlsx"]) :
    ∃ err, DataExportProcessor.processExport io st = .error err ∧
      (io.waitError 0 = none → io.mkdirError = none →
        err = "unsupported export type: " ++ st.text "export_type") := by
  have hx : DataExportProcessor.export io (st.text "export_type") (st.text "output_path") = none := by
    unfold DataExportProcessor.export
    split_ifs <;> simp_all
  unfold DataExportProcessor.processExport
  rcases io.waitError 0 with _ | e
  · rcases io.mkdirError with _ | e
    · exact ⟨_, by simp only [hx], fun _ _ => rfl⟩
    · exact ⟨_, rfl, fun _ h => nomatch h⟩
  · exact ⟨e, rfl, fun h => nomatch h⟩

/-- `DataExportProcessor.ProcessJob`. -/
def DataExportProcessor.processJob (io : ProcessorIo) (job : Job) : Except String RawMessage :=
  match unmarshal dataExportPayloadFields job.payload with
  | .error e => .error ("invalid data export payload: " ++ io.jsonText e)
  | .ok st =>
    match DataExportProcessor.processExport io st with
    | .error err => .error ("failed to process export: " ++ err)
    | .ok result => .ok result.json

/-! ## `ProcessorRegistry` -/

/-- The four processors. -/
inductive Processor where
  | email
  | imageResize
  | webhook
  | dataExport
deriving DecidableEq, Repr

/-- `SupportedJobTypes`. -/
def Processor.supportedJobTypes : Processor → List JobType
  | .email => [JobTypeEmail]
  | .imageResize => [JobTypeImageResize]
  | .webhook => [JobTypeWebhook]
  | .dataExport => [JobTypeDataExport]

/-- Each processor's `ProcessJob`. -/
def Processor.processJob (io : ProcessorIo) (job : Job) : Processor → Except String RawMessage
  | .email => EmailProcessor.processJob io job
  | .imageResize => ImageResizeProcessor.processJob io job
  | .webhook => WebhookProcessor.processJob io job
  | .dataExport => DataExportProcessor.processJob io job

/-- `ProcessorRegistry`: the map from job types to processors. -/
structure ProcessorRegistry where
  processors : JobType → Option Processor

/-- `RegisterProcessor`: the processor goes under each type it supports. -/
def ProcessorRegistry.registerProcessor (r : ProcessorRegistry) (p : Processor) : ProcessorRegistry :=
  ⟨p.supportedJobTypes.foldl (fun m t u => if u = t then some p else m u) r.processors⟩

/-- `NewProcessorRegistry`. -/
def newProcessorRegistry : ProcessorRegistry :=
  [Processor.email, .imageResize, .webhook, .dataExport].foldl ProcessorRegistry.registerProcessor
    ⟨fun _ => none⟩

/-- `GetProcessor`. -/
def ProcessorRegistry.getProcessor (r : ProcessorRegistry) (jobType : JobType) : Option Processor :=
  r.processors jobType

/-- `ProcessorRegistry.ProcessJob`: a processor's error is returned as it is. -/
def ProcessorRegistry.processJob (r : ProcessorRegistry) (io : ProcessorIo) (job : Job) :
    Except String RawMessage :=
  match r.getProcessor job.type with
  | none => .error ("no processor found for job type: " ++ job.type)
  | some p => p.processJob io job

/-- The handler call of `processNextJob`: `w.registry.ProcessJob(ctx, job)`
with the registry `NewWorker` makes. -/
def processJob (io : ProcessorIo) (job : Job) : Except String RawMessage :=
  newProcessorRegistry.processJob io job

theorem newProcessorRegistry_getProcessor (t : JobType) :
    newProcessorRegistry.getProcessor t =
      if t = JobTypeDataExport then some .dataExport else if t = JobTypeWebhook then some .webhook
      else if t = JobTypeImageResize then some .imageResize else if t = JobTypeEmail then some .email
      else none := rfl

/-- The handler call runs the processor of the job's type. -/
theorem processJob_eq (io : ProcessorIo) (job : Job) :
    processJob io job =
      if job.type = JobTypeDataExport then DataExportProcessor.processJob io job
      else if job.type = JobTypeWebhook then WebhookProcessor.processJob io job
      else if job.type = JobTypeImageResize then ImageResizeProcessor.processJob io job
      else if job.type = JobTypeEmail then EmailProcessor.processJob io job
      else .error ("no processor found for job type: " ++ job.type) := by
  rw [processJob, ProcessorRegistry.processJob, newProcessorRegistry_getProcessor]
  split_ifs <;> rfl

/-- A handler call reads only the job's type and payload. -/
theorem processJob_congr (io : ProcessorIo) {a b : Job} (ht : a.type = b.type) (hp : a.payload = b.payload) :
    processJob io a = processJob io b := by
  simp only [processJob_eq, EmailProcessor.processJob, ImageResizeProcessor.processJob,
    WebhookProcessor.processJob, DataExportProcessor.processJob, ht, hp]

section

variable {io : ProcessorIo} {job : Job} {st : Decoded}

/-! ### One lemma per processor: the call once the payload decodes -/

theorem processJob_of_imageResize (ht : job.type = JobTypeImageResize)
    (hst : unmarshal imageResizePayloadFields job.payload = .ok st) :
    processJob io job =
      match ImageResizeProcessor.processImage io st with
      | .error err => .error ("failed to process image: " ++ err)
      | .ok result => .ok result.json := by
  rw [processJob_eq, if_neg (by rw [ht]; decide), if_neg (by rw [ht]; decide), if_pos ht,
    ImageResizeProcessor.processJob, hst]

theorem processJob_of_webhook (ht : job.type = JobTypeWebhook)
    (hst : unmarshal webhookPayloadFields job.payload = .ok st) :
    processJob io job =
      match WebhookProcessor.makeWebhookCall io st with
      | .error err => .error ("webhook call failed: " ++ err)
      | .ok result => .ok { result with duration := Int.tdiv io.elapsed 1000000 }.json := by
  rw [processJob_eq, if_neg (by rw [ht]; decide), if_pos ht, WebhookProcessor.processJob, hst]

theorem processJob_of_dataExport (ht : job.type = JobTypeDataExport)
    (hst : unmarshal dataExportPayloadFields job.payload = .ok st) :
    processJob io job =
      match DataExportProcessor.processExport io st with
      | .error err => .error ("failed to process export: " ++ err)
      | .ok result => .ok result.json := by
  rw [processJob_eq, if_pos ht, DataExportProcessor.processJob, hst]

/-- A webhook whose upper-cased method has a rune that is not a token
character never returns a result. -/
theorem processJob_ne_ok_of_method (ht : job.type = JobTypeWebhook)
    (hst : unmarshal webhookPayloadFields job.payload = .ok st)
    (hm : ∃ r ∈ utf8.runes (strings.toUpper (bytes (st.text "method"))), http.isTokenRune r = false)
    (res : RawMessage) : processJob io job ≠ .ok res := by
  rw [processJob_of_webhook ht hst, WebhookProcessor.makeWebhookCall, http.newRequestWithContext_invalid _ _ _ hm]
  exact nofun

/-- A data export of a type outside the switch never returns a result. -/
theorem processJob_ne_ok_of_exportType (ht : job.type = JobTypeDataExport)
    (hst : unmarshal dataExportPayloadFields job.payload = .ok st)
    (hT : st.text "export_type" ∉ ["csv", "json", "xlsx"]) (res : RawMessage) : processJob io job ≠ .ok res := by
  obtain ⟨err, he, -⟩ := DataExportProcessor.processExport_unsupported io hT
  rw [processJob_of_dataExport ht hst, he]
  exact nofun

/-! ### What a handler call returns -/

/-- A webhook whose method is ASCII and has a byte that is not an HTTP token
character (a space, a slash, ...) fails on every attempt, whatever the world
answers, with the message `NewRequestWithContext` gives for the upper-cased
method, wrapped twice. -/
theorem invalid_webhook_method_fails (ht : job.type = JobTypeWebhook)
    (hst : unmarshal webhookPayloadFields job.payload = .ok st)
    (hascii : ∀ c ∈ bytes (st.text "method"), c < 0x80)
    (hm : ∃ c ∈ bytes (st.text "method"), http.isTokenRune c.toNat = false) :
    processJob io job = .error ("webhook call failed: failed to create request: net/http: invalid method " ++
      strconv.quote ((bytes (st.text "method")).map fun c => if 97 ≤ c ∧ c ≤ 122 then c - 32 else c)) := by
  obtain ⟨hup, hasc⟩ := strings.toUpper_ascii hascii
  have hbad : ∃ r ∈ utf8.runes (strings.toUpper (bytes (st.text "method"))), http.isTokenRune r = false := by
    obtain ⟨c, hc, hn⟩ := hm
    rw [utf8.runes_ascii hasc, hup, List.map_map]
    exact ⟨_, List.mem_map_of_mem _ hc, (http.isTokenRune_upper c).trans hn⟩
  rw [processJob_of_webhook ht hst, WebhookProcessor.makeWebhookCall, http.newRequestWithContext_invalid _ _ _ hbad]
  simp only [hup, ← String.append_assoc]
  rfl

/-- A `webhook` request whose method has a space. -/
def spacedMethodRequest : JobRequest :=
  ⟨JobTypeWebhook, bytes "\x7b\"url\":\"http://h\",\"method\":\"get now\"\x7d", 3, none⟩

/-- Validation accepts the method `get now`, and every attempt fails on it. -/
theorem invalid_webhook_method_spaced :
    validateJobRequest spacedMethodRequest = .ok () ∧
      processJob ProcessorIo.calm (newJob spacedMethodRequest "x" 0) =
        .error "webhook call failed: failed to create request: net/http: invalid method \"GET NOW\"" :=
  ⟨by decide,
    @invalid_webhook_method_fails _ (newJob spacedMethodRequest "x" 0) _ rfl rfl (by decide) (by decide)⟩

/-- An `image_resize` request for the widths 1000 and -100, both of which
validation accepts. -/
def imageRequest : JobRequest :=
  ⟨JobTypeImageResize, bytes "\x7b\"image_url\":\"u\",\"sizes\":[1000,-100],\"output_path\":\"out\"\x7d", 3, none⟩

end

end Taskflow
