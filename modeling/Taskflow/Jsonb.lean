import Taskflow.Render

/-!
# The `jsonb` columns (PostgreSQL 15)

The store keeps a job's payload and result in `JSONB` columns. `jsonb_in`
parses the text `lib/pq` sends and keeps the value, not the text; `GetJob`
reads back the text `jsonb_out` writes for it. That text differs from what
was written:

* the blanks are normalised to `", "` after each comma and `": "` after each
  colon;
* strings are decoded and written again by `escape_json`, which escapes only
  `"`, `\` and control characters;
* numbers become `numeric` and are written by `numeric_out`: no exponent, the
  scale the literal implies, no sign on zero;
* the keys of an object are sorted, shorter keys first and keys of one length
  by their bytes, and of a repeated key only the last member is kept.

`jsonb_in` also refuses text Go's scanner accepts: `\u0000`, a surrogate
escape outside a pair, bytes inside a string that are not UTF-8, and numbers
`numeric` cannot hold. Its nesting is bounded by PostgreSQL's stack depth;
the model takes Go's bound of 10000 levels instead.

* `Jsonb.text` — the text a `jsonb` column returns for the text written into
  it, or `none` where `jsonb_in` raises an error;
* `parse_text`, `parse_text_obj` — Go's scanner reads that text back, and an
  object written comes back an object;
* `text_ne_nil` — the text is never empty.
-/

namespace Taskflow

namespace Jsonb

open Json

/-! ## Strings -/

/-- The server's encoding check (`pg_verify_mbstr`, UTF-8) on the bytes of a
string: every byte past ASCII starts a sequence `DecodeRune` accepts. Every
step consumes a byte, so the length is enough fuel. -/
def utf8Valid : Nat → Bytes → Bool
  | 0, _ => true
  | _, [] => true
  | fuel + 1, c :: rest =>
    if c < 0x80 then utf8Valid fuel rest
    else (decodeRune c rest).2.length < rest.length && utf8Valid fuel (decodeRune c rest).2

/-- `json_lex_string`'s decoding of a string body for `jsonb`, as UTF-8
bytes: a `\u` escape of a surrogate must be a high one followed by a low one,
and `\u0000` is refused, as `text` cannot hold it. -/
def unescape : Nat → Bytes → Option Bytes
  | 0, _ => some []
  | _, [] => some []
  | fuel + 1, 92 :: 117 :: a :: b :: c :: d :: rest =>
    let r := hex4 a b c d
    if 0xD800 ≤ r ∧ r < 0xDC00 then
      match rest with
      | 92 :: 117 :: e :: f :: g :: h :: rest' =>
        let r₂ := hex4 e f g h
        if 0xDC00 ≤ r₂ ∧ r₂ < 0xE000 then
          (unescape fuel rest').map (utf8.appendRune (0x10000 + (r - 0xD800) * 0x400 + (r₂ - 0xDC00)) ++ ·)
        else none
      | _ => none
    else if (0xDC00 ≤ r ∧ r < 0xE000) ∨ r = 0 then none
    else (unescape fuel rest).map (utf8.appendRune r ++ ·)
  | fuel + 1, 92 :: e :: rest => (unescape fuel rest).map ((escapeChar e).toUInt8 :: ·)
  | fuel + 1, c :: rest => (unescape fuel rest).map (c :: ·)

/-- The text `jsonb` keeps for a string body the scanner accepted. -/
def pgString (raw : Bytes) : Option Bytes :=
  if utf8Valid raw.length raw then unescape raw.length raw else none

/-- `escape_json` on one byte of the text. -/
def escapeJsonByte (c : UInt8) : Bytes :=
  if c = 8 then [92, 98] else if c = 12 then [92, 102] else if c = 10 then [92, 110]
  else if c = 13 then [92, 114] else if c = 9 then [92, 116] else if c = 34 then [92, 34]
  else if c = 92 then [92, 92]
  else if c < 32 then [92, 117, 48, 48, hexDigit (c.toNat / 16), hexDigit (c.toNat % 16)]
  else [c]

/-- `escape_json`, without the quotes. -/
def escapeJson : Bytes → Bytes
  | [] => []
  | c :: rest => escapeJsonByte c ++ escapeJson rest

example : (pgString (bytes "a\\u00e9\\/\\u003c")).map escapeJson = some (bytes "aé/<") := by decide
example : pgString (bytes "\\u0000") = none := by decide
example : pgString (bytes "\\ud800x") = none := by decide

/-! ## Numbers -/

/-- The value of a string of decimal digits. -/
def digitsValue (ds : Bytes) : Nat := ds.foldl (fun n d => 10 * n + (d.toNat - 48)) 0

/-- `numeric_out` of the value `set_var_from_str` builds from the digits `ds`
with the decimal point after `point` of them (the exponent applied), and the
sign; `none` where `make_result` finds the value overflowing `numeric`: more
than 131072 digits before the point, or a scale over 16383. -/
def numericText (neg : Bool) (ds : Bytes) (point : Int) : Option Bytes :=
  let dscale := ((ds.length : Int) - point).toNat
  let hi := (ds.take point.toNat).dropWhile (· == 48)
  let pad := (point - ds.length).toNat
  if 16383 < dscale ∨ (hi ≠ [] ∧ 131072 < hi.length + pad) then none
  else
    some ((if neg ∧ ¬ds.all (· == 48) then [45] else []) ++
      (if hi = [] then [48] else hi ++ List.replicate pad 48) ++
      (if dscale = 0 then [] else 46 :: (List.replicate (-point).toNat 48 ++ ds.drop point.toNat)))

/-- The digits after a literal's point, and what follows them. -/
def fracDigits : Bytes → Bytes × Bytes
  | 46 :: r => r.span strconv.isDigit
  | r => ([], r)

/-- The sign and size of a literal's exponent, from its `e` part, as
`strtol` reads it. -/
def expValue : Bytes → Bool × Nat
  | _ :: 45 :: ed => (true, digitsValue ed)
  | _ :: 43 :: ed => (false, digitsValue ed)
  | _ :: ed => (false, digitsValue ed)
  | [] => (false, 0)

/-- `numeric_in` then `numeric_out` on a number literal; an exponent of
`INT_MAX / 2` or more in size overflows. -/
def numericOut (lit : Bytes) : Option Bytes :=
  let ip := (numSign lit).2.span strconv.isDigit
  let fp := fracDigits ip.2
  let e := expValue fp.2
  if 1073741823 ≤ e.2 then none
  else numericText ((numSign lit).1 = [45]) (ip.1 ++ fp.1) (ip.1.length + if e.1 then -(e.2 : Int) else e.2)

example : numericOut (bytes "1.50e1") = some (bytes "15.0") := by decide
example : numericOut (bytes "-0.00") = some (bytes "0.00") := by decide
example : numericOut (bytes "12E-3") = some (bytes "0.012") := by decide
example : numericOut (bytes "5e-16384") = none := by decide

/-! ## Objects -/

/-- `memcmp` on byte strings. -/
def bytesLt : Bytes → Bytes → Bool
  | [], [] => false
  | [], _ :: _ => true
  | _ :: _, [] => false
  | a :: as, b :: bs => a < b || (a == b && bytesLt as bs)

/-- `lengthCompareJsonbStringValue`: shorter keys first, keys of one length
by their bytes. -/
def keyLt (a b : Bytes) : Bool := a.length < b.length || (a.length == b.length && bytesLt a b)

/-- A member put into members sorted by key; one with the same key is
replaced, so of a repeated key the last member stays
(`uniqueifyJsonbObject`). -/
def insertKey (p : Bytes × JValue) : List (Bytes × JValue) → List (Bytes × JValue)
  | [] => [p]
  | q :: qs => if p.1 = q.1 then p :: qs else if keyLt p.1 q.1 then p :: q :: qs else q :: insertKey p qs

mutual
/-- The value `jsonb_in` keeps, written back as `jsonb_out` writes it:
strings as `escape_json` writes their text, numbers as `numeric_out` writes
them, objects with their members sorted and repeated keys dropped. -/
def normalize : JValue → Option JValue
  | .null => some .null
  | .bool b => some (.bool b)
  | .num lit => (numericOut lit).map .num
  | .str raw => (pgString raw).map fun s => .str (escapeJson s)
  | .arr vs => (normalizeElems vs).map .arr
  | .obj ms => (normalizeMembers ms []).map fun ps => .obj (ps.map fun p => (escapeJson p.1, p.2))

def normalizeElems : List JValue → Option (List JValue)
  | [] => some []
  | v :: vs => (normalize v).bind fun w => (normalizeElems vs).map (w :: ·)

/-- The members, keys decoded, put one by one into `acc`. -/
def normalizeMembers : List (Bytes × JValue) → List (Bytes × JValue) → Option (List (Bytes × JValue))
  | [], acc => some acc
  | (k, v) :: ms, acc =>
    (pgString k).bind fun k => (normalize v).bind fun w => normalizeMembers ms (insertKey (k, w) acc)
end

/-- `jsonb_out` of `jsonb_in`: the text `GetJob` reads from a `jsonb` column
written with `b`, or `none` where the write fails. -/
def text (b : Bytes) : Option Bytes := (parse b).bind fun v => (normalize v).map (·.render [32] [32])

example : text (bytes "\x7b\"bb\":1,\"a\":2e1,\"a\":[true ,\"\\u003c\"]\x7d") =
    some (bytes "\x7b\"a\": [true, \"<\"], \"bb\": 1\x7d") := by
  decide

/-! ## What a `jsonb` column gives back -/

theorem escapeJsonByte_strBody (c : UInt8) {rest : Bytes} (h : StrBody rest) :
    StrBody (escapeJsonByte c ++ rest) := by
  unfold escapeJsonByte
  split_ifs with h8 h12 h10 h13 h9 h34 h92 h32
  all_goals first
    | exact .escape (by decide) h
    | exact @StrBody.u 48 48 (hexDigit (c.toNat / 16)) (hexDigit (c.toNat % 16)) rest
        ⟨by decide, by decide, (hexDigit_spec (by have : c.toNat < 32 := h32; omega)).1,
          (hexDigit_spec (Nat.mod_lt _ (by decide))).1⟩ h
    | exact .plain h34 h92 h32 h

/-- `escape_json` writes a string body the scanner accepts. -/
theorem escapeJson_strBody : ∀ s : Bytes, StrBody (escapeJson s)
  | [] => .nil
  | c :: rest => escapeJsonByte_strBody c (escapeJson_strBody rest)

theorem allDigits_replicate (n : Nat) : AllDigits (List.replicate n 48) := fun d hd => by
  rw [List.eq_of_mem_replicate hd]; rfl

theorem AllDigits.append {a b : Bytes} (ha : AllDigits a) (hb : AllDigits b) : AllDigits (a ++ b) := fun d hd =>
  (List.mem_append.1 hd).elim (ha d) (hb d)

/-- `numeric_out` writes a number literal of JSON's grammar, with no exponent. -/
theorem numericText_numLit {neg : Bool} {ds : Bytes} {point : Int} {out : Bytes} (hds : AllDigits ds)
    (h : numericText neg ds point = some out) : NumLit out := by
  unfold numericText at h
  dsimp only at h
  split at h
  · cases h
  obtain rfl := Option.some.inj h.symm
  refine ⟨_, _, _, [], (List.append_nil _).symm, by split <;> simp, ?_, ?_, .inl rfl⟩
  · split
    · exact .inl rfl
    · rename_i hhi
      obtain ⟨c, t, hct⟩ := List.exists_cons_of_ne_nil hhi
      have hsub : ∀ d ∈ c :: t, strconv.isDigit d = true := fun d hd =>
        hds d (List.mem_of_mem_take ((List.dropWhile_suffix _).subset (hct ▸ hd)))
      have h48 := dropWhile_head _ _ c t hct
      have hc := hsub c (.head _)
      simp only [strconv.isDigit, Bool.and_eq_true, decide_eq_true_eq] at hc
      simp only [beq_eq_false_iff_ne, ne_eq] at h48
      have h48' : c.toNat ≠ 48 := fun e => h48 (UInt8.toNat.inj e)
      have hc1 : 48 ≤ c.toNat := hc.1
      refine .inr ⟨c, t ++ List.replicate _ 48, by rw [hct]; rfl, ⟨show 49 ≤ c.toNat by omega, hc.2⟩,
        AllDigits.append (fun d hd => hsub d (.tail _ hd)) (allDigits_replicate _)⟩
  · split
    · exact .inl rfl
    · rename_i hd
      refine .inr ⟨_, rfl, fun he => ?_,
        AllDigits.append (allDigits_replicate _) fun d hd' => hds d (List.mem_of_mem_drop hd')⟩
      obtain ⟨h₁, h₂⟩ := List.append_eq_nil.1 he
      have h₁' := congrArg List.length h₁
      have h₂' := congrArg List.length h₂
      simp only [List.length_replicate, List.length_drop, List.length_nil] at h₁' h₂'
      omega

theorem fracDigits_digits (r : Bytes) : AllDigits (fracDigits r).1 := by
  unfold fracDigits
  split
  · exact (span_split _).1
  · exact fun _ h => nomatch h

theorem numericOut_numLit {lit out : Bytes} (h : numericOut lit = some out) : NumLit out := by
  unfold numericOut at h
  dsimp only at h
  split at h
  · cases h
  · exact numericText_numLit (AllDigits.append (span_split _).1 (fracDigits_digits _)) h

theorem mem_insertKey {p q : Bytes × JValue} : ∀ {acc : List (Bytes × JValue)}, q ∈ insertKey p acc → q = p ∨ q ∈ acc
  | [], h => .inl (List.mem_singleton.1 h)
  | r :: rs, h => by
    unfold insertKey at h
    split_ifs at h
    · exact (List.mem_cons.1 h).imp id (.tail _)
    · exact List.mem_cons.1 h
    · rcases List.mem_cons.1 h with rfl | h
      · exact .inr (.head _)
      · exact (mem_insertKey h).imp id (.tail _)

/-- Members whose values are well formed and at most `D` deep, with their keys
escaped, are well formed and at most `D` deep. -/
theorem membersWf_escape {D : Nat} : ∀ {ps : List (Bytes × JValue)}, (∀ q ∈ ps, q.2.Wf ∧ q.2.depth ≤ D) →
    MembersWf (ps.map fun p => (escapeJson p.1, p.2)) ∧ membersDepth (ps.map fun p => (escapeJson p.1, p.2)) ≤ D
  | [], _ => ⟨trivial, Nat.zero_le _⟩
  | q :: _, h =>
    have ih := membersWf_escape fun r hr => h r (.tail _ hr)
    ⟨⟨escapeJson_strBody _, (h q (.head _)).1, ih.1⟩, max_le (h q (.head _)).2 ih.2⟩

mutual
/-- What `jsonb_out` writes is well formed, and nests no deeper than what
`jsonb_in` read. -/
theorem normalize_wf : ∀ {v w : JValue}, normalize v = some w → w.Wf ∧ w.depth ≤ v.depth
  | .null, _, h | .bool _, _, h => by cases h; exact ⟨trivial, le_rfl⟩
  | .num _, _, h => by
    obtain ⟨out, hout, rfl⟩ := Option.map_eq_some'.1 h
    exact ⟨numericOut_numLit hout, le_rfl⟩
  | .str _, _, h => by
    obtain ⟨s, -, rfl⟩ := Option.map_eq_some'.1 h
    exact ⟨escapeJson_strBody s, le_rfl⟩
  | .arr _, _, h => by
    obtain ⟨ws, hws, rfl⟩ := Option.map_eq_some'.1 h
    exact (normalizeElems_wf hws).imp id Nat.succ_le_succ
  | .obj ms, _, h => by
    obtain ⟨ps, hps, rfl⟩ := Option.map_eq_some'.1 h
    exact (membersWf_escape (normalizeMembers_wf hps (fun _ h => nomatch h) le_rfl)).imp id Nat.succ_le_succ

theorem normalizeElems_wf : ∀ {vs ws : List JValue}, normalizeElems vs = some ws →
    ElemsWf ws ∧ elemsDepth ws ≤ elemsDepth vs
  | [], _, h => by cases h; exact ⟨trivial, le_rfl⟩
  | _ :: _, _, h => by
    obtain ⟨w, hw, h⟩ := Option.bind_eq_some.1 h
    obtain ⟨ws, hws, rfl⟩ := Option.map_eq_some'.1 h
    have h₁ := normalize_wf hw
    have h₂ := normalizeElems_wf hws
    exact ⟨⟨h₁.1, h₂.1⟩, max_le (h₁.2.trans (le_max_left _ _)) (h₂.2.trans (le_max_right _ _))⟩

theorem normalizeMembers_wf {D : Nat} : ∀ {ms acc out : List (Bytes × JValue)}, normalizeMembers ms acc = some out →
    (∀ q ∈ acc, q.2.Wf ∧ q.2.depth ≤ D) → membersDepth ms ≤ D → ∀ q ∈ out, q.2.Wf ∧ q.2.depth ≤ D
  | [], _, _, h, hacc, _ => by cases h; exact hacc
  | (_, _) :: _, _, _, h, hacc, hD => by
    obtain ⟨_, -, h⟩ := Option.bind_eq_some.1 h
    obtain ⟨w, hw, h⟩ := Option.bind_eq_some.1 h
    have hD' : _ ∧ _ := ⟨(le_max_left _ _).trans hD, (le_max_right _ _).trans hD⟩
    have hw' := normalize_wf hw
    refine normalizeMembers_wf h (fun q hq => ?_) hD'.2
    rcases mem_insertKey hq with rfl | hq
    · exact ⟨hw'.1, hw'.2.trans hD'.1⟩
    · exact hacc q hq
end

theorem blank_space : Blank [32] := fun _ h => by rw [List.mem_singleton.1 h]; rfl

/-- Go's scanner reads the text of a `jsonb` column back as the value it
holds, which is well formed. -/
theorem parse_text {b t : Bytes} (h : text b = some t) :
    ∃ v w, parse b = some v ∧ normalize v = some w ∧ w.Wf ∧ parse t = some w := by
  obtain ⟨v, hv, h⟩ := Option.bind_eq_some.1 h
  obtain ⟨w, hw, rfl⟩ := Option.map_eq_some'.1 h
  have hw' := normalize_wf hw
  exact ⟨v, w, hv, hw, hw'.1, parse_render blank_space blank_space hw'.1 (hw'.2.trans (parse_wf hv).2)⟩

/-- An object written into a `jsonb` column is read back an object. -/
theorem parse_text_obj {b t : Bytes} {ms : List (Bytes × JValue)} (h : text b = some t)
    (hb : parse b = some (.obj ms)) : ∃ ms', parse t = some (.obj ms') := by
  obtain ⟨v, w, hv, hw, -, ht⟩ := parse_text h
  rw [hb] at hv
  cases hv
  obtain ⟨ps, -, rfl⟩ := Option.map_eq_some'.1 hw
  exact ⟨_, ht⟩

/-- A `jsonb` column never reads back as empty text. -/
theorem text_ne_nil {b t : Bytes} (h : text b = some t) : t ≠ [] := by
  obtain ⟨v, hv, h⟩ := Option.bind_eq_some.1 h
  obtain ⟨w, hw, rfl⟩ := Option.map_eq_some'.1 h
  obtain ⟨c, r, hcr, -⟩ := @render_head [32] [32] _ (normalize_wf hw).1
  rw [hcr]
  exact List.cons_ne_nil c r

end Jsonb

end Taskflow
