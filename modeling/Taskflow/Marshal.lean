import Taskflow.Json

/-!
# Strings through `json.Marshal` and back

The broker stores every job record as `json.Marshal(job)` and `GetJob` reads
it back with `json.Unmarshal`; the system model keeps records as values. This
module checks that choice for the record's strings: `appendString` (Go 1.21
`encoding/json`, with HTML escaping as `Marshal` does) writes a string that
the scanner reads back to its closing quote and `unquoteBytes` decodes to the
string's runes.

* `decodeRune_cases`: `DecodeRune` either rejects the sequence (U+FFFD,
  consuming the first byte alone) or reads continuation bytes and looks at
  nothing after them;
* `scanString_appendStringFuel`, `unquote_appendStringFuel`: the loop of
  `appendString`, one unit (an ASCII byte, an invalid byte, a rune) at a time;
* `marshal_unmarshal_string`: `Unmarshal` of `Marshal(s)` into a string gives
  the runes of `s`, an invalid byte as U+FFFD.
-/

namespace Taskflow

namespace Json

/-! ## `appendString` -/

/-- The digit of `hex = "0123456789abcdef"` at `n`. -/
def hexDigit (n : Nat) : UInt8 := if n < 10 then (48 + n).toUInt8 else (87 + n).toUInt8

/-- `htmlSafeSet`: the ASCII bytes `appendString` copies when it escapes HTML:
printable, and none of `"`, `\`, `<`, `>`, `&`. -/
def htmlSafe (b : UInt8) : Bool :=
  32 ≤ b && b < 128 && b != 34 && b != 92 && b != 60 && b != 62 && b != 38

/-- The escape `appendString` writes for an ASCII byte outside `htmlSafeSet`. -/
def escapeByte (b : UInt8) : Bytes :=
  if b = 92 ∨ b = 34 then [92, b]
  else if b = 10 then [92, 110]
  else if b = 13 then [92, 114]
  else if b = 9 then [92, 116]
  else [92, 117, 48, 48, hexDigit (b.toNat / 16), hexDigit (b.toNat % 16)]

/-- The loop of `appendString` over `src`: an ASCII byte is copied or escaped;
an invalid byte (`RuneError` of size 1) becomes the escape `\ufffd`; U+2028 and
U+2029 become `\u2028` and `\u2029`; any other rune is copied as it is. Every
step consumes a byte, so the length of `src` is enough fuel. -/
def appendStringFuel : Nat → Bytes → Bytes
  | 0, _ => []
  | _, [] => []
  | n + 1, b :: src =>
    if b < 0x80 then (if htmlSafe b then [b] else escapeByte b) ++ appendStringFuel n src
    else if (decodeRune b src).1 = 0xFFFD ∧ (decodeRune b src).2.length = src.length then
      [92, 117, 102, 102, 102, 100] ++ appendStringFuel n src
    else if (decodeRune b src).1 = 0x2028 ∨ (decodeRune b src).1 = 0x2029 then
      [92, 117, 50, 48, 50, hexDigit ((decodeRune b src).1 % 16)] ++
        appendStringFuel n (decodeRune b src).2
    else
      (b :: src.take (src.length - (decodeRune b src).2.length)) ++
        appendStringFuel n (decodeRune b src).2

/-- `appendString(nil, src, true)`: `src` as a JSON string. -/
def appendString (src : Bytes) : Bytes := 34 :: appendStringFuel src.length src ++ [34]

example : appendString (bytes "<a\"") = bytes "\"\\u003ca\\\"\"" := by decide
example : appendString [0x61, 0xFF] = bytes "\"a\\ufffd\"" := by decide

/-! ## `DecodeRune` -/

theorem contIn_low {lo hi b : UInt8} (h : contIn lo hi b = true) : lo ≤ b := by
  simp only [contIn, Bool.and_eq_true, decide_eq_true_eq] at h
  exact h.1

theorem contIn_mono {lo hi lo' hi' b : UInt8} (h : contIn lo hi b = true) (hl : lo' ≤ lo) (hh : hi ≤ hi') :
    contIn lo' hi' b = true := by
  simp only [contIn, Bool.and_eq_true, decide_eq_true_eq] at h ⊢
  exact ⟨UInt8.le_trans hl h.1, UInt8.le_trans h.2 hh⟩

/-- `DecodeRune` either rejects the sequence, giving U+FFFD and consuming the
first byte alone, or reads continuation bytes `pre` and nothing after them. -/
theorem decodeRune_cases (c : UInt8) (rest : Bytes) :
    decodeRune c rest = (0xFFFD, rest) ∨
      ∃ pre, pre ≠ [] ∧ (∀ x ∈ pre, contIn 0x80 0xBF x = true) ∧ rest = pre ++ (decodeRune c rest).2 ∧
        ∀ Y, decodeRune c (pre ++ Y) = ((decodeRune c rest).1, Y) := by
  rcases rest with _ | ⟨b1, r1⟩
  · exact .inl rfl
  by_cases h2 : 0xC2 ≤ c ∧ c ≤ 0xDF ∧ contIn 0x80 0xBF b1
  · -- two bytes
    refine .inr ⟨[b1], nofun, by simpa using h2.2.2, ?_, fun Y => ?_⟩
    all_goals simp only [decodeRune, if_pos h2, List.singleton_append]
  by_cases h3 : 0xE0 ≤ c ∧ c ≤ 0xEF ∧
      contIn (if c = 0xE0 then 0xA0 else 0x80) (if c = 0xED then 0x9F else 0xBF) b1
  · -- three bytes
    have cont₁ : contIn 0x80 0xBF b1 = true := by
      have := h3.2.2
      split_ifs at this
      all_goals exact contIn_mono this (by decide) (by decide)
    rcases r1 with _ | ⟨b2, r2⟩
    · exact .inl (by simp only [decodeRune, if_neg h2, if_pos h3])
    by_cases h3' : contIn 0x80 0xBF b2 = true
    · refine .inr ⟨[b1, b2], nofun, by simpa using ⟨cont₁, h3'⟩, ?_, fun Y => ?_⟩
      all_goals simp only [decodeRune, if_neg h2, if_pos h3, if_pos h3', List.cons_append,
        List.nil_append]
    · exact .inl (by simp only [decodeRune, if_neg h2, if_pos h3, if_neg h3'])
  by_cases h4 : 0xF0 ≤ c ∧ c ≤ 0xF4 ∧
      contIn (if c = 0xF0 then 0x90 else 0x80) (if c = 0xF4 then 0x8F else 0xBF) b1
  · -- four bytes
    have cont₁ : contIn 0x80 0xBF b1 = true := by
      have := h4.2.2
      split_ifs at this
      all_goals exact contIn_mono this (by decide) (by decide)
    rcases r1 with _ | ⟨b2, _ | ⟨b3, r3⟩⟩
    · exact .inl (by simp only [decodeRune, if_neg h2, if_neg h3, if_pos h4])
    · exact .inl (by simp only [decodeRune, if_neg h2, if_neg h3, if_pos h4])
    by_cases h4' : contIn 0x80 0xBF b2 ∧ contIn 0x80 0xBF b3
    · refine .inr ⟨[b1, b2, b3], nofun, by simpa using ⟨cont₁, h4'⟩, ?_, fun Y => ?_⟩
      all_goals simp only [decodeRune, if_neg h2, if_neg h3, if_pos h4, if_pos h4',
        List.cons_append, List.nil_append]
    · exact .inl (by simp only [decodeRune, if_neg h2, if_neg h3, if_pos h4, if_neg h4'])
  · exact .inl (by simp only [decodeRune, if_neg h2, if_neg h3, if_neg h4])

/-! ## The scanner reads the string to its closing quote -/

theorem scanString_cons_of_ne {c : UInt8} (h34 : c ≠ 34) (h92 : c ≠ 92) (h32 : ¬c < 32)
    (cs : Bytes) : scanString (c :: cs) = (scanString cs).map fun p => (c :: p.1, p.2) := by
  rw [scanString.eq_5 c cs h34 fun _ _ e _ => h92 e, if_neg h32]

/-- One unit that the scanner reads through. -/
def ScansThrough (chunk : Bytes) : Prop :=
  ∀ E, scanString (chunk ++ E) = (scanString E).map fun p => (chunk ++ p.1, p.2)

theorem scansThrough_nil : ScansThrough [] := fun E => by simp

theorem ScansThrough.cons {c : UInt8} {chunk : Bytes} (h34 : c ≠ 34) (h92 : c ≠ 92)
    (h32 : ¬c < 32) (h : ScansThrough chunk) : ScansThrough (c :: chunk) := fun E => by
  rw [List.cons_append, scanString_cons_of_ne h34 h92 h32, h E, Option.map_map]
  rfl

theorem ScansThrough.append {A B : Bytes} (hA : ScansThrough A) (hB : ScansThrough B) :
    ScansThrough (A ++ B) := fun E => by
  rw [List.append_assoc, hA, hB, Option.map_map]
  simp only [Function.comp_def, List.append_assoc]

theorem scansThrough_escape {e : UInt8} (he : e ∈ [34, 92, 47, 98, 102, 110, 114, 116]) :
    ScansThrough [92, e] := fun E => by
  rcases E with _ | ⟨a, _ | ⟨b, _ | ⟨c, _ | ⟨d, cs'⟩⟩⟩⟩ <;>
    simp only [List.cons_append, List.nil_append, List.append, scanString, he, if_true]

theorem scansThrough_u {a b c d : UInt8} (h : isHex a ∧ isHex b ∧ isHex c ∧ isHex d) :
    ScansThrough [92, 117, a, b, c, d] := fun E => by
  simp only [List.cons_append, List.nil_append, scanString, h, if_true, Option.map_map]
  rfl

theorem hexDigit_spec {k : Nat} (h : k < 16) : isHex (hexDigit k) ∧ hexVal (hexDigit k) = k := by
  have : ∀ k : Fin 16, isHex (hexDigit k) ∧ hexVal (hexDigit k) = k := by decide
  exact this ⟨k, h⟩

/-- Every unit `appendString` writes is read through by the scanner. -/
theorem scansThrough_ascii {b : UInt8} (hb : b < 0x80) :
    ScansThrough (if htmlSafe b then [b] else escapeByte b) := by
  split_ifs with hs
  · simp only [htmlSafe, Bool.and_eq_true, decide_eq_true_eq, bne_iff_ne, ne_eq] at hs
    exact .cons hs.1.1.1.1.2 hs.1.1.1.2 (by simpa using hs.1.1.1.1.1.1) scansThrough_nil
  · have hb' : b.toNat < 128 := hb
    unfold escapeByte
    split_ifs with h₁ h₂ h₃ h₄
    · exact scansThrough_escape (by rcases h₁ with rfl | rfl <;> decide)
    · exact scansThrough_escape (by decide)
    · exact scansThrough_escape (by decide)
    · exact scansThrough_escape (by decide)
    · exact scansThrough_u ⟨by decide, by decide, (hexDigit_spec (by omega)).1,
        (hexDigit_spec (by omega)).1⟩

theorem high_of_not_lt {x : UInt8} (h : ¬x < 0x80) : 0x80 ≤ x := by
  have : ¬x.toNat < 128 := h
  show 128 ≤ x.toNat
  omega

theorem high_plain {x : UInt8} (h : 0x80 ≤ x) : x ≠ 34 ∧ x ≠ 92 ∧ ¬x < 32 := by
  have hx : 128 ≤ x.toNat := h
  refine ⟨fun e => ?_, fun e => ?_, fun e => ?_⟩
  · subst e
    exact absurd hx (by decide)
  · subst e
    exact absurd hx (by decide)
  · have : x.toNat < 32 := e
    omega

theorem scansThrough_high {chunk : Bytes} (h : ∀ x ∈ chunk, 0x80 ≤ x) : ScansThrough chunk := by
  induction chunk with
  | nil => exact scansThrough_nil
  | cons x chunk ih =>
    obtain ⟨h34, h92, h32⟩ := high_plain (h x (.head _))
    exact .cons h34 h92 h32 (ih fun y hy => h y (.tail _ hy))

theorem take_of_split {src pre rest : Bytes} (h : src = pre ++ rest) :
    src.take (src.length - rest.length) = pre := by
  subst h
  simp

/-- The scanner reads through all that the loop of `appendString` writes. -/
theorem scansThrough_appendStringFuel (n : Nat) (src : Bytes) :
    ScansThrough (appendStringFuel n src) := by
  induction n generalizing src with
  | zero => simpa only [appendStringFuel] using scansThrough_nil
  | succ n ih =>
    rcases src with _ | ⟨b, src⟩
    · simpa only [appendStringFuel] using scansThrough_nil
    rw [appendStringFuel]
    by_cases hascii : b < 0x80
    · rw [if_pos hascii]
      exact ScansThrough.append (scansThrough_ascii hascii) (ih src)
    rw [if_neg hascii]
    by_cases hinvalid : (decodeRune b src).1 = 0xFFFD ∧ (decodeRune b src).2.length = src.length
    · rw [if_pos hinvalid]
      exact ScansThrough.append (scansThrough_u (by decide)) (ih src)
    rw [if_neg hinvalid]
    by_cases hsep : (decodeRune b src).1 = 0x2028 ∨ (decodeRune b src).1 = 0x2029
    · rw [if_pos hsep]
      refine ScansThrough.append (scansThrough_u ⟨by decide, by decide, by decide, ?_⟩) (ih _)
      exact (hexDigit_spec (Nat.mod_lt _ (by decide))).1
    rw [if_neg hsep]
    rcases decodeRune_cases b src with hd | ⟨pre, -, hhigh, hsplit, -⟩
    · exact absurd ⟨congrArg Prod.fst hd, by rw [hd]⟩ hinvalid
    rw [take_of_split hsplit]
    refine ScansThrough.append (scansThrough_high fun x hx => ?_) (ih _)
    rcases List.mem_cons.1 hx with rfl | hx
    exacts [high_of_not_lt hascii, contIn_low (hhigh x hx)]

/-! ## `unquoteBytes` decodes each unit back -/

theorem unquoteFuel_cons_of_ne {c : UInt8} (h : c ≠ 92) (n : Nat) (rest : Bytes) :
    unquoteFuel (n + 1) (c :: rest) =
      if c < 0x80 then c.toNat :: unquoteFuel n rest
      else (decodeRune c rest).1 :: unquoteFuel n (decodeRune c rest).2 := by
  rw [unquoteFuel.eq_6 n c rest (fun _ _ _ _ _ e _ => h e) (fun _ _ e _ => h e)]

theorem unquoteFuel_escape {e : UInt8} (h : e ≠ 117) (n : Nat) (rest : Bytes) :
    unquoteFuel (n + 1) (92 :: e :: rest) = escapeChar e :: unquoteFuel n rest :=
  unquoteFuel.eq_5 n e rest fun _ _ _ _ _ e _ => h e

theorem unquoteFuel_u {a b c d : UInt8} (h : hex4 a b c d < 0xD800 ∨ 0xE000 ≤ hex4 a b c d)
    (n : Nat) (rest : Bytes) :
    unquoteFuel (n + 1) (92 :: 117 :: a :: b :: c :: d :: rest) = hex4 a b c d :: unquoteFuel n rest := by
  simp only [unquoteFuel]
  rw [if_neg (by omega), if_neg (by omega)]

/-- One unit that `unquoteBytes` reads back as the rune `r`, in one step. -/
def ReadsBack (chunk : Bytes) (r : Nat) : Prop :=
  chunk ≠ [] ∧ ∀ k E, unquoteFuel (k + 1) (chunk ++ E) = r :: unquoteFuel k E

/-- A unit takes one step of fuel and at least one byte, so the fuel left
still covers the rest. -/
theorem ReadsBack.unquoteFuel {chunk E : Bytes} {r m : Nat} (h : ReadsBack chunk r)
    (hm : (chunk ++ E).length ≤ m) :
    ∃ k, E.length ≤ k ∧ Json.unquoteFuel m (chunk ++ E) = r :: Json.unquoteFuel k E := by
  have hc : 1 ≤ chunk.length := List.length_pos.2 h.1
  rw [List.length_append] at hm
  obtain ⟨k, rfl⟩ : ∃ k, m = k + 1 := ⟨m - 1, by omega⟩
  exact ⟨k, by omega, h.2 k E⟩

theorem readsBack_u {a b c d : UInt8} (h : hex4 a b c d < 0xD800 ∨ 0xE000 ≤ hex4 a b c d) :
    ReadsBack [92, 117, a, b, c, d] (hex4 a b c d) :=
  ⟨nofun, fun k E => unquoteFuel_u h k E⟩

theorem readsBack_escape {e : UInt8} (h : e ≠ 117) : ReadsBack [92, e] (escapeChar e) :=
  ⟨nofun, fun k E => unquoteFuel_escape h k E⟩

theorem readsBack_ascii {b : UInt8} (hb : b < 0x80) :
    ReadsBack (if htmlSafe b then [b] else escapeByte b) b.toNat := by
  have hb' : b.toNat < 128 := hb
  split_ifs with hs
  · have h92 : b ≠ 92 := by
      simp only [htmlSafe, Bool.and_eq_true, bne_iff_ne] at hs
      exact hs.1.1.1.2
    exact ⟨nofun, fun k E => by rw [List.singleton_append, unquoteFuel_cons_of_ne h92, if_pos hb]⟩
  · unfold escapeByte
    split_ifs with h₁ h₂ h₃ h₄
    · rcases h₁ with rfl | rfl
      exacts [readsBack_escape (by decide), readsBack_escape (by decide)]
    · subst h₂
      exact readsBack_escape (by decide)
    · subst h₃
      exact readsBack_escape (by decide)
    · subst h₄
      exact readsBack_escape (by decide)
    · have hv : hex4 48 48 (hexDigit (b.toNat / 16)) (hexDigit (b.toNat % 16)) = b.toNat := by
        rw [hex4, (hexDigit_spec (by omega)).2, (hexDigit_spec (by omega)).2]
        show ((0 * 16 + 0) * 16 + b.toNat / 16) * 16 + b.toNat % 16 = b.toNat
        omega
      have h := @readsBack_u 48 48 (hexDigit (b.toNat / 16)) (hexDigit (b.toNat % 16))
        (.inl (by rw [hv]; omega))
      rwa [hv] at h

theorem readsBack_raw {b : UInt8} {pre : Bytes} {r : Nat} (hb : ¬b < 0x80)
    (hY : ∀ Y, decodeRune b (pre ++ Y) = (r, Y)) : ReadsBack (b :: pre) r :=
  ⟨nofun, fun k E => by
    rw [List.cons_append, unquoteFuel_cons_of_ne (high_plain (high_of_not_lt hb)).2.1, if_neg hb, hY]⟩

/-- A rejected sequence is the first byte alone. -/
theorem decodeRune_invalid {c : UInt8} {rest : Bytes}
    (h : (decodeRune c rest).2.length = rest.length) : decodeRune c rest = (0xFFFD, rest) := by
  rcases decodeRune_cases c rest with hd | ⟨pre, hpre, -, hsplit, -⟩
  · exact hd
  · have := congrArg List.length hsplit
    rw [List.length_append, h] at this
    exact absurd (List.length_eq_zero.1 (by omega)) hpre

theorem unquoteFuel_nil (m : Nat) : unquoteFuel m [] = [] := by
  cases m <;> rfl

/-- `unquoteBytes` decodes what the loop of `appendString` writes to the runes
of its input, an invalid byte as U+FFFD. -/
theorem unquote_appendStringFuel (n : Nat) (src : Bytes) {m : Nat}
    (hm : (appendStringFuel n src).length ≤ m) :
    unquoteFuel m (appendStringFuel n src) = utf8.runesFuel n src := by
  induction n generalizing src m with
  | zero => simp only [appendStringFuel, utf8.runesFuel, unquoteFuel_nil]
  | succ n ih =>
    rcases src with _ | ⟨b, src⟩
    · simp only [appendStringFuel, utf8.runesFuel, unquoteFuel_nil]
    rw [appendStringFuel] at hm ⊢
    rw [utf8.runesFuel]
    by_cases hascii : b < 0x80
    · rw [if_pos hascii] at hm ⊢
      rw [if_pos hascii]
      obtain ⟨k, hk, h⟩ := (readsBack_ascii hascii).unquoteFuel hm
      rw [h, ih src hk]
    rw [if_neg hascii] at hm ⊢
    rw [if_neg hascii]
    by_cases hinvalid : (decodeRune b src).1 = 0xFFFD ∧ (decodeRune b src).2.length = src.length
    · rw [if_pos hinvalid] at hm ⊢
      obtain ⟨k, hk, h⟩ := (@readsBack_u 102 102 102 100 (by decide)).unquoteFuel hm
      rw [h, ih src hk, decodeRune_invalid hinvalid.2]
      rfl
    rw [if_neg hinvalid] at hm ⊢
    by_cases hsep : (decodeRune b src).1 = 0x2028 ∨ (decodeRune b src).1 = 0x2029
    · rw [if_pos hsep] at hm ⊢
      have hv : hex4 50 48 50 (hexDigit ((decodeRune b src).1 % 16)) = (decodeRune b src).1 := by
        rcases hsep with h | h <;> rw [h] <;> decide
      have hr := @readsBack_u 50 48 50 (hexDigit ((decodeRune b src).1 % 16)) (.inl (by rw [hv]; omega))
      rw [hv] at hr
      obtain ⟨k, hk, h⟩ := hr.unquoteFuel hm
      rw [h, ih _ hk]
    rw [if_neg hsep] at hm ⊢
    rcases decodeRune_cases b src with hd | ⟨pre, -, -, hsplit, hY⟩
    · exact absurd ⟨congrArg Prod.fst hd, by rw [hd]⟩ hinvalid
    rw [take_of_split hsplit] at hm ⊢
    obtain ⟨k, hk, h⟩ := (readsBack_raw hascii hY).unquoteFuel hm
    rw [h, ih _ hk]

/-! ## `Unmarshal` of `Marshal` -/

theorem parseValue_string (k depth : Nat) (r : Bytes) :
    parseValue (k + 1) depth (34 :: r) = (scanString r).map fun p => (.str p.1, p.2) := rfl

/-- `json.Unmarshal` of `json.Marshal(s)` into a string: the value is a JSON
string, and `unquoteBytes` gives the runes of `s`, an invalid byte as U+FFFD. -/
theorem marshal_unmarshal_string (src : Bytes) :
    ∃ raw, parse (appendString src) = some (.str raw) ∧ unquote raw = utf8.runes src := by
  refine ⟨appendStringFuel src.length src, ?_, unquote_appendStringFuel _ _ le_rfl⟩
  have hscan : scanString (appendStringFuel src.length src ++ [34]) =
      some (appendStringFuel src.length src, []) := by
    rw [scansThrough_appendStringFuel]
    simp [scanString]
  rw [parse, appendString, List.cons_append, parseValue_string, hscan]
  rfl

end Json

end Taskflow
