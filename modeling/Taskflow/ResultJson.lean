import Mathlib.Data.Nat.Digits
import Taskflow.Processors
import Taskflow.Storage

/-!
# The results are JSON

`CompleteJob` stores a job's result inside the record it marshals,
`jobData, _ := json.Marshal(job)`. The result is a `json.RawMessage`, which
`Marshal` runs through the scanner before it copies it: on bytes the scanner
refuses, `Marshal` fails, and `CompleteJob` drops the error and writes the
record with no bytes. The worker's `UpdateJob` writes the same result into the
row. This module shows that this never happens to a result a processor
returns: each is `json.Marshal` of its result struct, which the scanner of
`Json.lean` reads as one object.

* `Reads d b v` — `b` is one value, nested at most `d` deep, that `parseValue`
  reads as `v` before any `,`, `]` or `}` that follows it;
* `reads_appendString`, `reads_appendInt`, `reads_null`, `reads_object`,
  `reads_array` — every writer of the encoder writes such a value, objects and
  arrays one member at a time;
* `processJob_object` — every result of the registry's `ProcessJob` parses as
  one object;
* `IsObject.marshalResult`, `IsObject.jsonb` — the broker's compacted copy of
  an object, and the `jsonb` column's, read back as objects too.
-/

namespace Taskflow

namespace Json

/-! ## Strings, numbers and `null` -/

theorem reads_appendString (src : Bytes) :
    Reads 0 (appendString src) (.str (appendStringFuel src.length src)) := by
  intro fuel depth r hf _ _
  obtain ⟨k, rfl⟩ : ∃ k, fuel = k + 1 := ⟨fuel - 1, by simp [appendString] at hf; omega⟩
  simp only [appendString, List.append_assoc, List.cons_append, List.nil_append]
  rw [parseValue_string, scansThrough_appendStringFuel]
  simp [scanString]

theorem reads_null : Reads 0 (bytes "null") .null := by
  intro fuel depth r hf _ _
  obtain ⟨k, rfl⟩ : ∃ k, fuel = k + 1 := ⟨fuel - 1, by omega⟩
  rfl

/-- The digits of `toDigitsCore` in front of any accumulator: decimal digits,
the first of them `0` only for zero, and then alone. -/
theorem toDigitsCore_digits (fuel n : Nat) (ds : List Char) (hn : n < fuel) :
    ∃ k < 10, ∃ cs, Nat.toDigitsCore 10 fuel n ds = Nat.digitChar k :: cs ++ ds ∧
      (k = 0 → n = 0 ∧ cs = []) ∧ ∀ c ∈ cs, ∃ j < 10, c = Nat.digitChar j := by
  induction fuel generalizing n ds with
  | zero => omega
  | succ fuel ih =>
    rw [Nat.toDigitsCore]
    by_cases h : n / 10 = 0
    · rw [if_pos h]
      exact ⟨n % 10, Nat.mod_lt _ (by omega), [], rfl, fun _ => ⟨by omega, rfl⟩, by simp⟩
    · rw [if_neg h]
      obtain ⟨k, hk, cs, he, h0, hcs⟩ := ih (n / 10) (Nat.digitChar (n % 10) :: ds) (by omega)
      refine ⟨k, hk, cs ++ [Nat.digitChar (n % 10)], by simp [he], fun hk0 => absurd (h0 hk0).1 h, ?_⟩
      intro c hc
      rcases List.mem_append.1 hc with hc | hc
      · exact hcs c hc
      · exact ⟨n % 10, Nat.mod_lt _ (by omega), List.mem_singleton.1 hc⟩

theorem digitChar_bytes : ∀ j : Fin 10, String.utf8EncodeChar (Nat.digitChar j) = [(48 + j.val).toUInt8] ∧
    strconv.isDigit (48 + j.val).toUInt8 = true ∧
    (j.val ≠ 0 → 49 ≤ (48 + j.val).toUInt8 ∧ (48 + j.val).toUInt8 ≤ 57) := by
  decide

/-- The digits `AppendInt` writes for a natural number are an integer part of
the number grammar: `0`, or a nonzero digit and more digits. -/
theorem digits_toString (n : Nat) : IntPart (bytes (toString n)) := by
  obtain ⟨k, hk, cs, he, h0, hcs⟩ := toDigitsCore_digits (n + 1) n [] (by omega)
  have hb : bytes (toString n) = (Nat.digitChar k :: cs).flatMap String.utf8EncodeChar := by
    rw [← List.append_nil (Nat.digitChar k :: cs), ← he]
    rfl
  obtain ⟨hke, -, hkr⟩ := digitChar_bytes ⟨k, hk⟩
  rw [hb, List.flatMap_cons, hke]
  by_cases hk0 : k = 0
  · obtain ⟨-, rfl⟩ := h0 hk0
    subst hk0
    exact .inl rfl
  · refine .inr ⟨_, _, rfl, hkr hk0, fun d hd => ?_⟩
    obtain ⟨c, hc, hd⟩ := List.mem_flatMap.1 hd
    obtain ⟨j, hj, rfl⟩ := hcs c hc
    obtain ⟨hje, hjd, -⟩ := digitChar_bytes ⟨j, hj⟩
    rw [hje, List.mem_singleton] at hd
    exact hd ▸ hjd

/-- `AppendInt` writes the digits of `|z|`, after a `-` when `z` is negative. -/
theorem appendInt_digits (z : Int) : ∃ b, IntPart b ∧ (appendInt z = b ∨ appendInt z = 45 :: b) := by
  cases z with
  | ofNat n => exact ⟨_, digits_toString n, .inl rfl⟩
  | negSucc n =>
    refine ⟨_, digits_toString (n + 1), .inr ?_⟩
    show bytes ("-" ++ toString (n + 1)) = _
    rw [bytes_append]
    rfl

theorem appendInt_head (z : Int) : ∃ c t, appendInt z = c :: t ∧ (c = 45 ∨ c = 48 ∨ 49 ≤ c ∧ c ≤ 57) := by
  obtain ⟨b, hb, hz | hz⟩ := appendInt_digits z
  · rcases hb with rfl | ⟨c, cs, rfl, hc, -⟩
    · exact ⟨48, [], hz, .inr (.inl rfl)⟩
    · exact ⟨c, cs, hz, .inr (.inr hc)⟩
  · exact ⟨45, b, hz, .inl rfl⟩

/-- `AppendInt` writes a number literal. -/
theorem appendInt_numLit (z : Int) : NumLit (appendInt z) := by
  obtain ⟨b, hb, hz | hz⟩ := appendInt_digits z
  · exact ⟨[], b, [], [], by simp [hz], .inl rfl, hb, .inl rfl, .inl rfl⟩
  · exact ⟨[45], b, [], [], by simp [hz], .inr rfl, hb, .inl rfl, .inl rfl⟩

theorem reads_appendInt (z : Int) : Reads 0 (appendInt z) (.num (appendInt z)) := by
  intro fuel depth r hf _ hr
  obtain ⟨k, rfl⟩ : ∃ k, fuel = k + 1 := ⟨fuel - 1, by omega⟩
  obtain ⟨c, t, hz, hc⟩ := appendInt_head z
  rw [hz, List.cons_append, parseValue_num hc, ← List.cons_append, ← hz, scanNumber_numLit (appendInt_numLit z) hr]
  rfl

/-! ## Objects and arrays, one member at a time -/

/-- The members the encoder writes between the braces of an object: each key
as a string, a colon and the value, separated by commas. -/
def members {α : Type} (key val : α → Bytes) (xs : List α) : Bytes :=
  List.intercalate [44] (xs.map fun x => appendString (key x) ++ 58 :: val x)

section Members

variable {α : Type} (key val : α → Bytes)

theorem members_single (x : α) : members key val [x] = appendString (key x) ++ 58 :: val x := by
  simp [members, List.intercalate]

theorem members_cons_cons (x y : α) (ys : List α) :
    members key val (x :: y :: ys) = appendString (key x) ++ 58 :: val x ++ 44 :: members key val (y :: ys) := by
  simp [members, List.intercalate]

theorem members_head (x : α) (xs : List α) : ∃ X, members key val (x :: xs) = 34 :: X := by
  cases xs <;> simp [members_single, members_cons_cons, appendString]

end Members

theorem scanString_appendStringFuel (k T : Bytes) :
    scanString (appendStringFuel k.length k ++ 34 :: T) = some (appendStringFuel k.length k, T) := by
  rw [scansThrough_appendStringFuel]
  simp [scanString]

theorem member_bytes (k val T : Bytes) :
    appendString k ++ 58 :: val ++ T = 34 :: (appendStringFuel k.length k ++ 34 :: 58 :: (val ++ T)) := by
  simp [appendString]

section Step

variable {pv : Bytes → Option (JValue × Bytes)} {v : JValue}

/-- A member followed by a comma: the members after it are read next. -/
theorem parseMembersRest_next {k val t : Bytes} (hv : pv (val ++ 44 :: t) = some (v, 44 :: t)) (fuel : Nat) :
    parseMembersRest pv (fuel + 1) (appendString k ++ 58 :: val ++ 44 :: t) =
      (parseMembersRest pv fuel t).map fun p => ((appendStringFuel k.length k, v) :: p.1, p.2) := by
  simp only [member_bytes, parseMembersRest, skipSpace_quote, scanString_appendStringFuel, Option.pure_def,
    Option.bind_eq_bind, Option.some_bind, skipSpace_colon, hv, skipSpace_comma]
  cases parseMembersRest pv fuel t <;> rfl

/-- The last member, followed by the closing brace. -/
theorem parseMembersRest_last {k val r : Bytes} (hv : pv (val ++ 125 :: r) = some (v, 125 :: r)) (fuel : Nat) :
    parseMembersRest pv (fuel + 1) (appendString k ++ 58 :: val ++ 125 :: r) =
      some ([(appendStringFuel k.length k, v)], r) := by
  simp only [member_bytes, parseMembersRest, skipSpace_quote, scanString_appendStringFuel, Option.pure_def,
    Option.bind_eq_bind, Option.some_bind, skipSpace_colon, hv]
  rfl

/-- An element followed by a comma: the elements after it are read next. -/
theorem parseElemsRest_next {b t : Bytes} (hv : pv (b ++ 44 :: t) = some (v, 44 :: t)) (fuel : Nat) :
    parseElemsRest pv (fuel + 1) (b ++ 44 :: t) = (parseElemsRest pv fuel t).map fun p => (v :: p.1, p.2) := by
  simp only [parseElemsRest, hv, Option.pure_def, Option.bind_eq_bind, Option.some_bind, skipSpace_comma]
  cases parseElemsRest pv fuel t <;> rfl

/-- The last element, followed by the closing bracket. -/
theorem parseElemsRest_last {b r : Bytes} (hv : pv (b ++ 93 :: r) = some (v, 93 :: r)) (fuel : Nat) :
    parseElemsRest pv (fuel + 1) (b ++ 93 :: r) = some ([v], r) := by
  simp only [parseElemsRest, hv, Option.pure_def, Option.bind_eq_bind, Option.some_bind]
  rfl

end Step

section Members

variable {α : Type} (key val : α → Bytes) {d : Nat}

/-- Members whose values are each read whole are read up to the closing
brace, given more fuel than they have bytes. -/
theorem members_reads : ∀ xs : List α, xs ≠ [] → (∀ x ∈ xs, ∃ v, Reads d (val x) v) →
    ∃ ms, ∀ fuel₀ fuel depth r, (members key val xs).length < fuel → (members key val xs).length < fuel₀ →
      depth + d ≤ maxNestingDepth →
      parseMembersRest (parseValue fuel₀ depth) fuel (members key val xs ++ 125 :: r) = some (ms, r)
  | [], hne, _ => absurd rfl hne
  | [x], _, h => by
    obtain ⟨v, hv⟩ := h x (List.mem_singleton_self x)
    refine ⟨[(appendStringFuel (key x).length (key x), v)], fun fuel₀ fuel depth r hf hf₀ hd => ?_⟩
    obtain ⟨k, rfl⟩ : ∃ k, fuel = k + 1 := ⟨fuel - 1, by omega⟩
    rw [members_single] at hf₀ ⊢
    exact parseMembersRest_last (hv fuel₀ depth _ (by simp at hf₀; omega) hd (follows_brace r)) k
  | x :: y :: ys, _, h => by
    obtain ⟨v, hv⟩ := h x (List.mem_cons_self x _)
    obtain ⟨ms, hms⟩ := members_reads (y :: ys) (List.cons_ne_nil y ys)
      fun z hz => h z (List.mem_cons_of_mem x hz)
    refine ⟨(appendStringFuel (key x).length (key x), v) :: ms, fun fuel₀ fuel depth r hf hf₀ hd => ?_⟩
    obtain ⟨k, rfl⟩ : ∃ k, fuel = k + 1 := ⟨fuel - 1, by omega⟩
    rw [members_cons_cons] at hf hf₀ ⊢
    simp only [List.length_append, List.length_cons] at hf hf₀
    rw [List.append_assoc, List.cons_append,
      parseMembersRest_next (hv fuel₀ depth _ (by omega) hd (follows_comma _)) k,
      hms fuel₀ k depth r (by omega) (by omega) hd]
    rfl

/-- An object whose values are each read whole is read as an object, one
level deeper than its values. -/
theorem reads_object (xs : List α) (h : ∀ x ∈ xs, ∃ v, Reads d (val x) v) :
    ∃ ms, Reads (d + 1) (123 :: members key val xs ++ [125]) (.obj ms) := by
  rcases xs with _ | ⟨x, xs⟩
  · refine ⟨[], fun fuel depth r hf hd _ => ?_⟩
    obtain ⟨k, rfl⟩ : ∃ k, fuel = k + 1 := ⟨fuel - 1, by omega⟩
    exact (parseValue_object_empty k depth r).trans (if_neg (by omega))
  · obtain ⟨ms, hms⟩ := members_reads key val (x :: xs) (List.cons_ne_nil x xs) h
    refine ⟨ms, fun fuel depth r hf hd _ => ?_⟩
    obtain ⟨k, rfl⟩ : ∃ k, fuel = k + 1 := ⟨fuel - 1, by omega⟩
    obtain ⟨X, hX⟩ := members_head key val x xs
    have e : members key val (x :: xs) ++ 125 :: r = 34 :: (X ++ 125 :: r) := by rw [hX]; rfl
    simp only [List.length_cons, List.length_append] at hf
    rw [show (123 :: members key val (x :: xs) ++ [125]) ++ r = 123 :: 34 :: (X ++ 125 :: r) by rw [← e]; simp,
      parseValue_object, if_neg (by omega), ← e, hms k k (depth + 1) r (by omega) (by omega) (by omega)]
    rfl

end Members

/-- Elements that are each read whole are read up to the closing bracket,
given more fuel than they have bytes. -/
theorem elems_reads {d : Nat} : ∀ bs : List Bytes, bs ≠ [] → (∀ b ∈ bs, ∃ v, Reads d b v) →
    ∃ vs, ∀ fuel₀ fuel depth r, (List.intercalate [44] bs).length < fuel →
      (List.intercalate [44] bs).length < fuel₀ → depth + d ≤ maxNestingDepth →
      parseElemsRest (parseValue fuel₀ depth) fuel (List.intercalate [44] bs ++ 93 :: r) = some (vs, r)
  | [], hne, _ => absurd rfl hne
  | [b], _, h => by
    obtain ⟨v, hv⟩ := h b (List.mem_singleton_self b)
    refine ⟨[v], fun fuel₀ fuel depth r hf hf₀ hd => ?_⟩
    obtain ⟨k, rfl⟩ : ∃ k, fuel = k + 1 := ⟨fuel - 1, by omega⟩
    have hs : List.intercalate [44] [b] = b := by simp [List.intercalate]
    rw [hs] at hf₀ ⊢
    exact parseElemsRest_last (hv fuel₀ depth _ hf₀ hd (follows_bracket r)) k
  | b :: c :: cs, _, h => by
    obtain ⟨v, hv⟩ := h b (List.mem_cons_self b _)
    obtain ⟨vs, hvs⟩ := elems_reads (c :: cs) (List.cons_ne_nil c cs)
      fun z hz => h z (List.mem_cons_of_mem b hz)
    refine ⟨v :: vs, fun fuel₀ fuel depth r hf hf₀ hd => ?_⟩
    obtain ⟨k, rfl⟩ : ∃ k, fuel = k + 1 := ⟨fuel - 1, by omega⟩
    have hs : List.intercalate [44] (b :: c :: cs) = b ++ 44 :: List.intercalate [44] (c :: cs) := by
      simp [List.intercalate]
    rw [hs] at hf hf₀ ⊢
    simp only [List.length_append, List.length_cons] at hf hf₀
    rw [List.append_assoc, List.cons_append,
      parseElemsRest_next (hv fuel₀ depth _ (by omega) hd (follows_comma _)) k,
      hvs fuel₀ k depth r (by omega) (by omega) hd]
    rfl

/-- A slice of objects is read as an array, or as `null` when it is nil. -/
theorem reads_array {d : Nat} (bs : List Bytes) (h : ∀ b ∈ bs, (∃ v, Reads d b v) ∧ ∃ X, b = 123 :: X) :
    ∃ v, Reads (d + 1) (appendArray bs) v := by
  rcases bs with _ | ⟨b, bs⟩
  · exact ⟨.null, reads_null.mono (Nat.zero_le _)⟩
  · obtain ⟨vs, hvs⟩ := elems_reads (b :: bs) (List.cons_ne_nil b bs) fun b hb => (h b hb).1
    obtain ⟨X, rfl⟩ := (h b (List.mem_cons_self b bs)).2
    refine ⟨.arr vs, fun fuel depth r hf hd _ => ?_⟩
    obtain ⟨k, rfl⟩ : ∃ k, fuel = k + 1 := ⟨fuel - 1, by omega⟩
    have hs : appendArray ((123 :: X) :: bs) = 91 :: List.intercalate [44] ((123 :: X) :: bs) ++ [93] := rfl
    have hi : ∃ Y, List.intercalate [44] ((123 :: X) :: bs) = 123 :: Y := by
      cases bs <;> simp [List.intercalate]
    obtain ⟨Y, hY⟩ := hi
    have e : List.intercalate [44] ((123 :: X) :: bs) ++ 93 :: r = 123 :: (Y ++ 93 :: r) := by rw [hY]; rfl
    rw [hs] at hf ⊢
    simp only [List.length_cons, List.length_append] at hf
    rw [show (91 :: List.intercalate [44] ((123 :: X) :: bs) ++ [93]) ++ r = 91 :: 123 :: (Y ++ 93 :: r) by
        rw [← e]; simp,
      parseValue_array (show isSpace (123 : UInt8) = false from rfl) (by decide), if_neg (by omega), ← e, hvs k k (depth + 1) r (by omega) (by omega) (by omega)]
    rfl

/-! ## The encoder's writers -/

theorem appendObject_eq (fields : List (String × Bytes)) :
    appendObject fields = 123 :: members (fun f => bytes f.1) Prod.snd fields ++ [125] := rfl

/-- A struct whose fields are each read whole is read as an object. -/
theorem reads_appendObject {d : Nat} (fields : List (String × Bytes)) (h : ∀ f ∈ fields, ∃ v, Reads d f.2 v) :
    ∃ ms, Reads (d + 1) (appendObject fields) (.obj ms) := by
  rw [appendObject_eq]
  exact reads_object _ _ fields h

/-- A `map[string]string` is read as an object. -/
theorem reads_appendStringMap (m : List (Bytes × Bytes)) : ∃ ms, Reads 1 (appendStringMap m) (.obj ms) :=
  reads_object Prod.fst (fun kv => appendString kv.2) _ fun kv _ => ⟨_, reads_appendString kv.2⟩

theorem appendObject_head (fields : List (String × Bytes)) : ∃ X, appendObject fields = 123 :: X := ⟨_, rfl⟩

end Json

open Json

/-! ## The result structs -/

/-- A field the encoder writes as an integer or as a string. -/
def Scalar (b : Bytes) : Prop := (∃ z, appendInt z = b) ∨ ∃ s, appendString s = b

@[simp] theorem Scalar.int (z : Int) : Scalar (appendInt z) := .inl ⟨z, rfl⟩

@[simp] theorem Scalar.string (s : Bytes) : Scalar (appendString s) := .inr ⟨s, rfl⟩

/-- A struct whose fields are integers and strings is read as a flat object. -/
theorem reads_scalars (fields : List (String × Bytes)) (h : ∀ f ∈ fields, Scalar f.2) :
    ∃ ms, Reads 1 (appendObject fields) (.obj ms) :=
  reads_appendObject fields fun f hf => by
    rcases h f hf with ⟨z, hz⟩ | ⟨s, hs⟩
    · exact ⟨_, hz ▸ reads_appendInt z⟩
    · exact ⟨_, hs ▸ reads_appendString s⟩

theorem EmailResult.json_reads (r : EmailResult) : ∃ ms, Reads 1 r.json (.obj ms) :=
  reads_scalars _ (by simp)

theorem ResizedImage.json_reads (r : ResizedImage) : ∃ ms, Reads 1 r.json (.obj ms) :=
  reads_scalars _ (by simp)

theorem DataExportResult.json_reads (r : DataExportResult) : ∃ ms, Reads 1 r.json (.obj ms) :=
  reads_scalars _ (by simp)

theorem ImageResizeResult.json_reads (r : ImageResizeResult) : ∃ ms, Reads 3 r.json (.obj ms) := by
  have himages : ∃ v, Reads 2 (appendArray (r.images.map ResizedImage.json)) v :=
    reads_array _ fun b hb => by
      obtain ⟨i, -, rfl⟩ := List.mem_map.1 hb
      obtain ⟨_, hi⟩ := i.json_reads
      exact ⟨⟨_, hi⟩, appendObject_head _⟩
  obtain ⟨ms, hmeta⟩ := reads_scalars [("original_width", appendInt 1920), ("original_height", appendInt 1080),
    ("original_size", appendInt 2500000), ("format", appendString (bytes "JPEG"))] (by simp)
  refine reads_appendObject _ fun f hf => ?_
  simp only [List.mem_cons, List.mem_singleton, List.not_mem_nil, or_false] at hf
  rcases hf with rfl | rfl | rfl
  · exact ⟨_, (reads_appendString _).mono (Nat.zero_le _)⟩
  · exact himages
  · exact ⟨_, hmeta.mono (by omega)⟩

theorem WebhookResult.json_reads (r : WebhookResult) : ∃ ms, Reads 2 r.json (.obj ms) := by
  refine reads_appendObject _ fun f hf => ?_
  simp only [List.mem_append, List.mem_singleton, List.mem_ite_nil_left] at hf
  rcases hf with (((rfl | ⟨-, rfl⟩) | ⟨-, rfl⟩) | rfl)
  · exact ⟨_, (reads_appendInt _).mono (Nat.zero_le _)⟩
  · exact ⟨_, (reads_appendString _).mono (Nat.zero_le _)⟩
  · obtain ⟨_, hm⟩ := reads_appendStringMap r.headers
    exact ⟨_, hm⟩
  · exact ⟨_, (reads_appendInt _).mono (Nat.zero_le _)⟩

/-! ## What the processors return -/

section

variable {io : ProcessorIo} {job : Job} {res : RawMessage}

theorem EmailProcessor.processJob_ok (h : EmailProcessor.processJob io job = .ok res) :
    ∃ r : EmailResult, res = r.json := by
  unfold EmailProcessor.processJob at h
  split at h
  · cases h
  · split at h <;> cases h
    exact ⟨_, rfl⟩

theorem ImageResizeProcessor.processJob_ok (h : ImageResizeProcessor.processJob io job = .ok res) :
    ∃ r : ImageResizeResult, res = r.json := by
  unfold ImageResizeProcessor.processJob at h
  split at h
  · cases h
  · split at h <;> cases h
    exact ⟨_, rfl⟩

theorem WebhookProcessor.processJob_ok (h : WebhookProcessor.processJob io job = .ok res) :
    ∃ r : WebhookResult, res = r.json := by
  unfold WebhookProcessor.processJob at h
  split at h
  · cases h
  · split at h <;> cases h
    exact ⟨_, rfl⟩

theorem DataExportProcessor.processJob_ok (h : DataExportProcessor.processJob io job = .ok res) :
    ∃ r : DataExportResult, res = r.json := by
  unfold DataExportProcessor.processJob at h
  split at h
  · cases h
  · split at h <;> cases h
    exact ⟨_, rfl⟩

/-- Every result of the registry's `ProcessJob` parses as one object. -/
theorem processJob_object (h : processJob io job = .ok res) : ∃ ms, Json.parse res = some (.obj ms) := by
  obtain ⟨d, hd, ms, hms⟩ : ∃ d ≤ 3, ∃ ms, Reads d res (.obj ms) := by
    rw [processJob_eq] at h
    split_ifs at h
    · obtain ⟨r, rfl⟩ := DataExportProcessor.processJob_ok h
      exact ⟨1, by omega, r.json_reads⟩
    · obtain ⟨r, rfl⟩ := WebhookProcessor.processJob_ok h
      exact ⟨2, by omega, r.json_reads⟩
    · obtain ⟨r, rfl⟩ := ImageResizeProcessor.processJob_ok h
      exact ⟨3, le_rfl, r.json_reads⟩
    · obtain ⟨r, rfl⟩ := EmailProcessor.processJob_ok h
      exact ⟨1, by omega, r.json_reads⟩
  exact ⟨ms, hms.parse_eq (hd.trans (by decide))⟩

end

/-! ## The result as the broker and the store keep it -/

/-- Bytes the scanner reads as one JSON object. -/
def IsObject (b : Bytes) : Prop := ∃ ms, Json.parse b = some (.obj ms)

theorem IsObject.ne_nil {b : Bytes} (h : IsObject b) : b ≠ [] := by
  rintro rfl
  obtain ⟨ms, hms⟩ := h
  cases hms

/-- `Marshal` compacts an object into an object. -/
theorem IsObject.marshalResult {b c : Bytes} (h : IsObject b) (hc : marshalResult b = some c) : IsObject c := by
  obtain ⟨ms, hms⟩ := h
  rw [Taskflow.marshalResult, if_neg (IsObject.ne_nil ⟨ms, hms⟩)] at hc
  obtain ⟨v, hv, hc'⟩ := Json.parse_compact hc
  rw [hms] at hv
  cases hv
  exact ⟨_, hc'⟩

/-- A `jsonb` column reads an object back as an object. -/
theorem IsObject.jsonb {b c : Bytes} (h : IsObject b) (hc : PostgresStorage.jsonb b = some c) : IsObject c := by
  obtain ⟨ms, hms⟩ := h
  rw [PostgresStorage.jsonb, if_neg (IsObject.ne_nil ⟨ms, hms⟩)] at hc
  exact Jsonb.parse_text_obj hc hms

end Taskflow
