import Taskflow.Render

/-!
# `json.Marshal` of a `json.RawMessage` (Go 1.21)

`RedisQueue` stores a job as `json.Marshal(job)`. Its `payload` and `result`
are `json.RawMessage`s, whose bytes the encoder does not copy: it passes them
through `appendCompact` with HTML escaping on. That drops the blanks between
tokens, escapes `<`, `>`, `&`, U+2028 and U+2029 inside strings, and fails on
bytes that are not one JSON value. `GetJob`'s `json.Unmarshal` then copies the
compacted bytes back verbatim, so a record's payload is `compact` of the
payload it was given.

* `compact` — `appendCompact` on one JSON value: the value as `parse` reads
  it, strings escaped, written with no blanks;
* `compact_idem` — compacting compacted bytes changes nothing, so a record
  read back and written again keeps its payload;
* `unmarshal_compact` — decoding compacted bytes into a struct succeeds and
  fails exactly as decoding the original bytes, with every string holding the
  same runes.
-/

namespace Taskflow

namespace Json

/-! ## HTML escaping -/

/-- The escape of one byte where no line separator starts. -/
def escapeUnit (c : UInt8) : Bytes :=
  if c = 60 ∨ c = 62 ∨ c = 38 then [92, 117, 48, 48, hexDigit (c.toNat / 16), hexDigit (c.toNat % 16)]
  else [c]

/-- `appendCompact`'s escaping (`escape` on, as `json.Marshal` calls it), on the
bytes between the quotes of a string: `<`, `>` and `&` become `\u003c`,
`\u003e` and `\u0026`, and the line separators U+2028 and U+2029 (`E2 80 A8`,
`E2 80 A9`) become `\u2028` and `\u2029`. -/
def htmlEscape : Bytes → Bytes
  | [] => []
  | 0xE2 :: 0x80 :: d :: rest =>
    if d = 0xA8 ∨ d = 0xA9 then [92, 117, 50, 48, 50, hexDigit (d.toNat % 16)] ++ htmlEscape rest
    else 0xE2 :: htmlEscape (0x80 :: d :: rest)
  | c :: rest => escapeUnit c ++ htmlEscape rest

example : htmlEscape (bytes "a<b") = bytes "a\\u003cb" := by decide
example : htmlEscape [0xE2, 0x80, 0xA8, 0x41] = bytes "\\u2028A" := by decide

/-- Where U+2028 or U+2029 starts. -/
def SepAt (c : UInt8) (rest : Bytes) : Prop :=
  c = 0xE2 ∧ ∃ d rest', rest = 0x80 :: d :: rest' ∧ (d = 0xA8 ∨ d = 0xA9)

theorem htmlEscape_cons {c : UInt8} {rest : Bytes} (h : ¬SepAt c rest) :
    htmlEscape (c :: rest) = escapeUnit c ++ htmlEscape rest := by
  by_cases hc : c = 0xE2 ∧ ∃ d rest', rest = 0x80 :: d :: rest'
  · obtain ⟨rfl, d, rest', rfl⟩ := hc
    rw [htmlEscape.eq_2, if_neg fun hd => h ⟨rfl, d, rest', rfl, hd⟩]
    rfl
  · exact htmlEscape.eq_3 _ _ fun d rest' h₁ h₂ => hc ⟨h₁, d, rest', h₂⟩

theorem htmlEscape_sep {d : UInt8} (hd : d = 0xA8 ∨ d = 0xA9) (rest : Bytes) :
    htmlEscape (0xE2 :: 0x80 :: d :: rest) = [92, 117, 50, 48, 50, hexDigit (d.toNat % 16)] ++ htmlEscape rest := by
  rw [htmlEscape.eq_2, if_pos hd]



/-! ## Escaping keeps strings well formed and their runes -/

/-- A byte that `htmlEscape` copies and that starts no line separator. -/
abbrev Safe (c : UInt8) : Prop := c ≠ 60 ∧ c ≠ 62 ∧ c ≠ 38 ∧ c ≠ 0xE2

theorem htmlEscape_safe {c : UInt8} (h : Safe c) (rest : Bytes) :
    htmlEscape (c :: rest) = c :: htmlEscape rest := by
  rw [htmlEscape_cons fun hs => h.2.2.2 hs.1, escapeUnit, if_neg fun hc => by
    rcases hc with hc | hc | hc
    exacts [h.1 hc, h.2.1 hc, h.2.2.1 hc]]
  rfl

theorem safe_of_isHex {c : UInt8} (h : isHex c = true) : Safe c :=
  ⟨fun e => by subst e; exact absurd h (by decide), fun e => by subst e; exact absurd h (by decide),
    fun e => by subst e; exact absurd h (by decide), fun e => by subst e; exact absurd h (by decide)⟩

theorem safe_of_cont {c : UInt8} (h : contIn 0x80 0xBF c = true) : Safe c :=
  ⟨fun e => by subst e; exact absurd h (by decide), fun e => by subst e; exact absurd h (by decide),
    fun e => by subst e; exact absurd h (by decide), fun e => by subst e; exact absurd h (by decide)⟩

theorem safe_of_escape {e : UInt8} (h : e ∈ [34, 92, 47, 98, 102, 110, 114, 116]) : Safe e := by
  have : ∀ x ∈ [34, 92, 47, 98, 102, 110, 114, 116], Safe x := by decide
  exact this e h

theorem htmlEscape_u {a b c d : UInt8} (h : isHex a ∧ isHex b ∧ isHex c ∧ isHex d) (rest : Bytes) :
    htmlEscape (92 :: 117 :: a :: b :: c :: d :: rest) = 92 :: 117 :: a :: b :: c :: d :: htmlEscape rest := by
  rw [htmlEscape_safe (by decide), htmlEscape_safe (by decide), htmlEscape_safe (safe_of_isHex h.1),
    htmlEscape_safe (safe_of_isHex h.2.1), htmlEscape_safe (safe_of_isHex h.2.2.1),
    htmlEscape_safe (safe_of_isHex h.2.2.2)]

theorem htmlEscape_append_cont {p : Bytes} (hp : ∀ x ∈ p, contIn 0x80 0xBF x = true) (Z : Bytes) :
    htmlEscape (p ++ Z) = p ++ htmlEscape Z := by
  induction p with
  | nil => rfl
  | cons x p ih =>
    rw [List.cons_append, htmlEscape_safe (safe_of_cont (hp x (.head _))),
      ih fun y hy => hp y (.tail _ hy), List.cons_append]

/-- Continuation bytes at the head of an escaped text were there before escaping. -/
theorem htmlEscape_eq_cont_append {p : Bytes} (hp : ∀ x ∈ p, contIn 0x80 0xBF x = true) :
    ∀ {rest Z : Bytes}, htmlEscape rest = p ++ Z → ∃ Z', rest = p ++ Z' ∧ htmlEscape Z' = Z := by
  induction p with
  | nil => exact fun h => ⟨_, rfl, h⟩
  | cons x p ih =>
    intro rest Z h
    have hx : x ≠ 92 := fun e => absurd (e ▸ hp x (.head _)) (by decide)
    rcases rest with _ | ⟨b, r⟩
    · cases h
    by_cases hs : SepAt b r
    · obtain ⟨rfl, d, r', rfl, hd⟩ := hs
      rw [htmlEscape_sep hd] at h
      exact absurd (List.cons.inj h).1.symm hx
    rw [htmlEscape_cons hs, escapeUnit] at h
    split_ifs at h
    · exact absurd (List.cons.inj h).1.symm hx
    simp only [List.singleton_append, List.cons_append, List.cons.injEq] at h
    obtain ⟨rfl, h⟩ := h
    obtain ⟨Z', rfl, hZ⟩ := ih (fun y hy => hp y (.tail _ hy)) h
    exact ⟨Z', rfl, hZ⟩

/-- Escaping commutes with `DecodeRune`: line separators are whole runes, and
the other escapes replace ASCII bytes, which are never continuation bytes. -/
theorem decodeRune_htmlEscape (c : UInt8) (rest : Bytes) :
    decodeRune c (htmlEscape rest) = ((decodeRune c rest).1, htmlEscape (decodeRune c rest).2) := by
  rcases decodeRune_cases c rest with hinv | ⟨pre, -, hcont, hsplit, hY⟩
  · rw [hinv]
    rcases decodeRune_cases c (htmlEscape rest) with h | ⟨pre', hne, hcont', hsplit', hY'⟩
    · exact h
    obtain ⟨Z', hZ', -⟩ := htmlEscape_eq_cont_append hcont' hsplit'
    have := congrArg (List.length ∘ Prod.snd) ((hY' Z').symm.trans (hZ' ▸ hinv))
    simp only [Function.comp_apply, hZ', List.length_append] at this
    exact absurd (List.length_eq_zero.1 (by omega)) hne
  · conv_lhs => rw [hsplit, htmlEscape_append_cont hcont, hY]

/-- `StrBody` after bytes that are not backslashes. -/
theorem StrBody.of_cons {c : UInt8} {rest : Bytes} (h : StrBody (c :: rest)) (hc : c ≠ 92) : StrBody rest := by
  cases h with
  | plain _ _ _ h => exact h
  | escape => exact absurd rfl hc
  | u => exact absurd rfl hc

theorem StrBody.of_append {p rest : Bytes} (h : StrBody (p ++ rest)) (hp : ∀ x ∈ p, x ≠ 92) : StrBody rest := by
  induction p with
  | nil => exact h
  | cons x p ih => exact ih (h.of_cons (hp x (.head _))) fun y hy => hp y (.tail _ hy)

theorem decodeRune_length_le (c : UInt8) (rest : Bytes) : (decodeRune c rest).2.length ≤ rest.length := by
  rcases decodeRune_cases c rest with h | ⟨pre, -, -, hsplit, -⟩
  · rw [h]
  · conv_rhs => rw [hsplit]
    simp

/-- What remains after `DecodeRune` is still a string body. -/
theorem StrBody.decodeRune {c : UInt8} {rest : Bytes} (h : StrBody rest) : StrBody (Json.decodeRune c rest).2 := by
  rcases decodeRune_cases c rest with hd | ⟨pre, -, hcont, hsplit, -⟩
  · rw [hd]; exact h
  · rw [hsplit] at h
    exact h.of_append fun x hx e => absurd (e ▸ hcont x hx) (by decide)

theorem hexDigit_isHex {k : Nat} (h : k < 16) : isHex (hexDigit k) = true := (hexDigit_spec h).1

/-- Escaping a string body gives a string body. -/
theorem StrBody.htmlEscape {raw : Bytes} (h : StrBody raw) : StrBody (Json.htmlEscape raw) := by
  induction h with
  | nil => exact .nil
  | @plain c rest h34 h92 h32 h ih =>
    by_cases hs : SepAt c rest
    · obtain ⟨rfl, d, rest', rfl, hd⟩ := hs
      have hd' : Safe d ∧ d ≠ 92 := by rcases hd with rfl | rfl <;> decide
      rw [htmlEscape_sep hd]
      rw [htmlEscape_safe (by decide), htmlEscape_safe hd'.1] at ih
      exact .u ⟨by decide, by decide, by decide, hexDigit_isHex (Nat.mod_lt _ (by decide))⟩
        ((ih.of_cons (by decide)).of_cons hd'.2)
    rw [htmlEscape_cons hs, escapeUnit]
    split_ifs with hc
    · have hc' : c.toNat < 128 := by rcases hc with rfl | rfl | rfl <;> decide
      exact .u ⟨by decide, by decide, hexDigit_isHex (by omega), hexDigit_isHex (Nat.mod_lt _ (by decide))⟩ ih
    · exact .plain h34 h92 h32 ih
  | escape he _ ih =>
    rw [htmlEscape_safe (by decide), htmlEscape_safe (safe_of_escape he)]
    exact .escape he ih
  | u hx _ ih =>
    rw [htmlEscape_u hx]
    exact .u hx ih

/-- The low surrogate `unquoteBytes` looks for after a high one: `\u` and four
hexadecimal digits naming U+DC00 to U+DFFF, and what follows them. -/
def lowAhead : Bytes → Option (Nat × Bytes)
  | 92 :: 117 :: e :: f :: g :: h :: rest =>
    if 0xDC00 ≤ hex4 e f g h ∧ hex4 e f g h < 0xE000 then some (hex4 e f g h, rest) else none
  | _ => none

theorem unquoteFuel_u_eq (fuel : Nat) (a b c d : UInt8) (rest : Bytes) :
    unquoteFuel (fuel + 1) (92 :: 117 :: a :: b :: c :: d :: rest) =
      if 0xD800 ≤ hex4 a b c d ∧ hex4 a b c d < 0xDC00 then
        match lowAhead rest with
        | some (r₂, rest') => (0x10000 + (hex4 a b c d - 0xD800) * 0x400 + (r₂ - 0xDC00)) :: unquoteFuel fuel rest'
        | none => 0xFFFD :: unquoteFuel fuel rest
      else if 0xDC00 ≤ hex4 a b c d ∧ hex4 a b c d < 0xE000 then 0xFFFD :: unquoteFuel fuel rest
      else hex4 a b c d :: unquoteFuel fuel rest := by
  by_cases hr : ∃ e f g h rest', rest = 92 :: 117 :: e :: f :: g :: h :: rest'
  · obtain ⟨e, f, g, h, rest', rfl⟩ := hr
    rw [unquoteFuel.eq_3]
    simp only [lowAhead]
    split_ifs <;> rfl
  · have hl : lowAhead rest = none := by
      unfold lowAhead; split
      · exact absurd ⟨_, _, _, _, _, rfl⟩ hr
      · rfl
    rw [unquoteFuel.eq_4 _ _ _ _ _ _ fun e f g h rest' he => hr ⟨e, f, g, h, rest', he⟩, hl]

theorem lowAhead_cons {c : UInt8} (hc : c ≠ 92) (rest : Bytes) : lowAhead (c :: rest) = none := by
  unfold lowAhead; split
  · exact absurd (List.cons.inj ‹_›).1 hc
  · rfl

theorem lowAhead_escape {e : UInt8} (he : e ≠ 117) (rest : Bytes) : lowAhead (92 :: e :: rest) = none := by
  unfold lowAhead; split
  · exact absurd (List.cons.inj (List.cons.inj ‹_›).2).1 he
  · rfl

/-- The line separators' escapes name U+2028 and U+2029. -/
theorem hex4_sep {d : UInt8} (hd : d = 0xA8 ∨ d = 0xA9) :
    hex4 50 48 50 (hexDigit (d.toNat % 16)) = (decodeRune 0xE2 [0x80, d]).1 ∧
      (hex4 50 48 50 (hexDigit (d.toNat % 16)) < 0xD800) := by
  rcases hd with rfl | rfl <;> decide

/-- The escapes of `<`, `>` and `&` name the byte itself. -/
theorem hex4_unit {c : UInt8} (hc : c = 60 ∨ c = 62 ∨ c = 38) :
    hex4 48 48 (hexDigit (c.toNat / 16)) (hexDigit (c.toNat % 16)) = c.toNat ∧ c.toNat < 0x80 := by
  rcases hc with rfl | rfl | rfl <;> decide

/-- Escaping never makes or unmakes a low surrogate escape. -/
theorem lowAhead_htmlEscape {rest : Bytes} (h : StrBody rest) :
    lowAhead (htmlEscape rest) = (lowAhead rest).map fun p => (p.1, htmlEscape p.2) := by
  cases h with
  | nil => rfl
  | @plain c r _ h92 _ _ =>
    rw [lowAhead_cons h92, Option.map_none']
    by_cases hs : SepAt c r
    · obtain ⟨rfl, d, r', rfl, hd⟩ := hs
      rw [htmlEscape_sep hd]
      simp only [List.cons_append, List.nil_append, lowAhead]
      rw [if_neg (by have := (hex4_sep hd).2; omega)]
    rw [htmlEscape_cons hs, escapeUnit]
    split_ifs with hc
    · simp only [List.cons_append, List.nil_append, lowAhead]
      rw [if_neg (by have := hex4_unit hc; omega)]
    · exact lowAhead_cons h92 _
  | escape he _ =>
    rw [htmlEscape_safe (by decide), htmlEscape_safe (safe_of_escape he),
      lowAhead_escape (fun e => by subst e; exact absurd he (by decide)), lowAhead_escape
        (fun e => by subst e; exact absurd he (by decide))]
    rfl
  | u hx _ =>
    rw [htmlEscape_u hx]
    simp only [lowAhead]
    split_ifs <;> rfl

theorem decodeRune_sep {d : UInt8} (hd : d = 0xA8 ∨ d = 0xA9) (rest : Bytes) :
    decodeRune 0xE2 (0x80 :: d :: rest) = (hex4 50 48 50 (hexDigit (d.toNat % 16)), rest) := by
  rcases hd with rfl | rfl <;> rfl

theorem lowAhead_some {rest rest' : Bytes} {r : Nat} (h : lowAhead rest = some (r, rest')) :
    ∃ e f g k, rest = 92 :: 117 :: e :: f :: g :: k :: rest' := by
  unfold lowAhead at h
  split at h
  · split_ifs at h
    cases h
    exact ⟨_, _, _, _, rfl⟩
  · cases h

theorem StrBody.of_u {a b c d : UInt8} {rest : Bytes} (h : StrBody (92 :: 117 :: a :: b :: c :: d :: rest)) :
    (isHex a ∧ isHex b ∧ isHex c ∧ isHex d) ∧ StrBody rest := by
  cases h with
  | plain _ h92 => exact absurd rfl h92
  | escape he => exact absurd he (by decide)
  | u hx h => exact ⟨hx, h⟩

/-- Escaping keeps the runes `unquoteBytes` reads from a string body. -/
theorem unquoteFuel_htmlEscape : ∀ (n : Nat) {raw : Bytes}, StrBody raw → raw.length ≤ n →
    ∀ {m : Nat}, (htmlEscape raw).length ≤ m → unquoteFuel m (htmlEscape raw) = unquoteFuel n raw
  | _, _, .nil, _, m, _ => by rw [show htmlEscape [] = [] from rfl, unquoteFuel_nil, unquoteFuel_nil]
  | 0, _, .plain .., hn, _, _ => absurd hn (by simp)
  | 0, _, .escape .., hn, _, _ => absurd hn (by simp)
  | 0, _, .u .., hn, _, _ => absurd hn (by simp)
  | n + 1, _, @StrBody.plain c rest _ h92 _ h, hn, m, hm => by
    simp only [List.length_cons, Nat.add_le_add_iff_right] at hn
    by_cases hs : SepAt c rest
    · obtain ⟨rfl, d, rest', rfl, hd⟩ := hs
      have h' := (h.of_cons (by decide)).of_cons (by rcases hd with rfl | rfl <;> decide)
      rw [htmlEscape_sep hd] at hm ⊢
      simp only [List.cons_append, List.nil_append, List.length_cons] at hm ⊢
      obtain ⟨m', rfl⟩ : ∃ m', m = m' + 1 := ⟨m - 1, by omega⟩
      rw [unquoteFuel_u (.inl (hex4_sep hd).2), unquoteFuel_cons_of_ne (by decide), if_neg (by decide),
        decodeRune_sep hd, unquoteFuel_htmlEscape n h' (by simp at hn; omega) (by omega)]
    rw [htmlEscape_cons hs, escapeUnit] at hm ⊢
    have ih := fun {m} => unquoteFuel_htmlEscape n h hn (m := m)
    split_ifs at hm ⊢ with hc
    · simp only [List.cons_append, List.nil_append, List.length_cons] at hm ⊢
      obtain ⟨m', rfl⟩ : ∃ m', m = m' + 1 := ⟨m - 1, by omega⟩
      have hu := hex4_unit hc
      rw [unquoteFuel_u (.inl (by omega)), unquoteFuel_cons_of_ne h92, if_pos (show c < 0x80 from hu.2), hu.1,
        ih (by omega)]
    · simp only [List.singleton_append, List.length_cons] at hm ⊢
      obtain ⟨m', rfl⟩ : ∃ m', m = m' + 1 := ⟨m - 1, by omega⟩
      rw [unquoteFuel_cons_of_ne h92, unquoteFuel_cons_of_ne h92]
      split_ifs
      · rw [ih (by omega)]
      · have hlen : (htmlEscape (decodeRune c rest).2).length ≤ (htmlEscape rest).length := by
          simpa only [decodeRune_htmlEscape] using decodeRune_length_le c (htmlEscape rest)
        rw [decodeRune_htmlEscape]
        rw [unquoteFuel_htmlEscape n h.decodeRune ((decodeRune_length_le c rest).trans hn) (by omega)]
  | n + 1, _, @StrBody.escape e rest he h, hn, m, hm => by
    have he' : e ≠ 117 := fun e => by subst e; exact absurd he (by decide)
    rw [htmlEscape_safe (by decide), htmlEscape_safe (safe_of_escape he)] at hm ⊢
    simp only [List.length_cons] at hn hm
    obtain ⟨m', rfl⟩ : ∃ m', m = m' + 1 := ⟨m - 1, by omega⟩
    rw [unquoteFuel_escape he', unquoteFuel_escape he', unquoteFuel_htmlEscape n h (by omega) (by omega)]
  | n + 1, _, .u hx h, hn, m, hm => by
    rw [htmlEscape_u hx] at hm ⊢
    simp only [List.length_cons] at hn hm
    obtain ⟨m', rfl⟩ : ∃ m', m = m' + 1 := ⟨m - 1, by omega⟩
    rw [unquoteFuel_u_eq, unquoteFuel_u_eq, lowAhead_htmlEscape h]
    have ih := fun {m} => unquoteFuel_htmlEscape n h (by omega) (m := m)
    split_ifs
    · rcases hl : lowAhead _ with _ | ⟨r₂, rest'⟩
      · rw [Option.map_none', ih (by omega)]
      · obtain ⟨e, f, g, k, rfl⟩ := lowAhead_some hl
        obtain ⟨hx', h'⟩ := h.of_u
        rw [htmlEscape_u hx'] at hm
        simp only [Option.map_some', List.length_cons] at hm hn ⊢
        rw [unquoteFuel_htmlEscape n h' (by omega) (by omega)]
    · rw [ih (by omega)]
    · rw [ih (by omega)]

/-! ## Escaped text is escaped once -/

/-- Text `htmlEscape` leaves as it is: no `<`, `>` or `&`, and no line
separator. -/
inductive Clean : Bytes → Prop
  | nil : Clean []
  | cons {c : UInt8} {rest : Bytes} : c ≠ 60 → c ≠ 62 → c ≠ 38 → ¬SepAt c rest → Clean rest → Clean (c :: rest)

theorem Clean.htmlEscape {b : Bytes} (h : Clean b) : Json.htmlEscape b = b := by
  induction h with
  | nil => rfl
  | cons h60 h62 h38 hs _ ih =>
    rw [htmlEscape_cons hs, escapeUnit, if_neg (by rintro (e | e | e) <;> contradiction), ih]
    rfl

/-- ASCII bytes other than `<`, `>` and `&` in front of clean text. -/
theorem Clean.ascii {p rest : Bytes} (hp : ∀ x ∈ p, x < 0x80 ∧ x ≠ 60 ∧ x ≠ 62 ∧ x ≠ 38) (h : Clean rest) :
    Clean (p ++ rest) := by
  induction p with
  | nil => exact h
  | cons x p ih =>
    obtain ⟨hx, h60, h62, h38⟩ := hp x (.head _)
    exact .cons h60 h62 h38 (fun hs => absurd (hs.1 ▸ hx) (by decide)) (ih fun y hy => hp y (.tail _ hy))

theorem hexDigit_ascii {k : Nat} (h : k < 16) :
    hexDigit k < 0x80 ∧ hexDigit k ≠ 60 ∧ hexDigit k ≠ 62 ∧ hexDigit k ≠ 38 := by
  have hall : ∀ k < 16, hexDigit k < 0x80 ∧ hexDigit k ≠ 60 ∧ hexDigit k ≠ 62 ∧ hexDigit k ≠ 38 := by decide
  exact hall k h

/-- An escaped text starts with the byte it escapes or with a backslash. -/
theorem htmlEscape_head (c : UInt8) (r : Bytes) : ∃ t, htmlEscape (c :: r) = c :: t ∨ htmlEscape (c :: r) = 92 :: t := by
  by_cases hs : SepAt c r
  · obtain ⟨rfl, d, r', rfl, hd⟩ := hs
    exact ⟨_, .inr (htmlEscape_sep hd r')⟩
  rw [htmlEscape_cons hs, escapeUnit]
  split_ifs
  · exact ⟨_, .inr rfl⟩
  · exact ⟨_, .inl rfl⟩

/-- No line separator starts after `0xE2` in an escaped text whose source
had none there. -/
theorem not_sepAt_htmlEscape {rest : Bytes} (h : ¬∃ d rest', rest = 0x80 :: d :: rest' ∧ (d = 0xA8 ∨ d = 0xA9)) :
    ¬SepAt 0xE2 (htmlEscape rest) := by
  rintro ⟨-, d, r', he, hd⟩
  rcases rest with _ | ⟨x, r⟩
  · cases he
  by_cases hx : x = 0x80
  · subst hx
    rw [htmlEscape_safe (by decide)] at he
    rcases r with _ | ⟨y, r⟩
    · cases (List.cons.inj he).2
    obtain ⟨t, ht | ht⟩ := htmlEscape_head y r <;> rw [ht] at he
    · exact h ⟨y, r, rfl, (List.cons.inj (List.cons.inj he).2).1 ▸ hd⟩
    · rcases hd with hd | hd <;> exact absurd ((List.cons.inj (List.cons.inj he).2).1.trans hd) (by decide)
  · obtain ⟨t, ht | ht⟩ := htmlEscape_head x r <;> rw [ht] at he
    · exact hx (List.cons.inj he).1
    · exact absurd (List.cons.inj he).1 (by decide)

/-- Escaped text is clean. -/
theorem clean_htmlEscape (b : Bytes) : Clean (htmlEscape b) := by
  induction b using htmlEscape.induct with
  | case1 => exact .nil
  | case2 d rest hd ih =>
    rw [htmlEscape_sep hd]
    refine .ascii (fun x hx => ?_) ih
    simp only [List.mem_cons, List.mem_singleton, List.not_mem_nil, or_false] at hx
    rcases hx with rfl | rfl | rfl | rfl | rfl | rfl
    any_goals decide
    exact hexDigit_ascii (Nat.mod_lt _ (by decide))
  | case3 d rest hd ih =>
    rw [htmlEscape.eq_2, if_neg hd]
    refine .cons (by decide) (by decide) (by decide) (not_sepAt_htmlEscape ?_) ih
    rintro ⟨d', r', he, hd'⟩
    exact hd ((List.cons.inj (List.cons.inj he).2).1 ▸ hd')
  | case4 c rest hne ih =>
    have hs : ¬SepAt c rest := fun ⟨hc, d, r', he, _⟩ => hne d r' hc he
    rw [htmlEscape_cons hs, escapeUnit]
    split_ifs with hc
    · have h16 : c.toNat / 16 < 16 := by have : c.toNat < 256 := c.val.isLt; omega
      refine .ascii (fun x hx => ?_) ih
      simp only [List.mem_cons, List.mem_singleton, List.not_mem_nil, or_false] at hx
      rcases hx with rfl | rfl | rfl | rfl | rfl | rfl
      any_goals decide
      exacts [hexDigit_ascii h16, hexDigit_ascii (Nat.mod_lt _ (by decide))]
    · refine .cons (fun e => hc (.inl e)) (fun e => hc (.inr (.inl e))) (fun e => hc (.inr (.inr e))) ?_ ih
      rintro ⟨rfl, hsep⟩
      exact not_sepAt_htmlEscape (fun ⟨d, r', he, _⟩ => hne d r' rfl he) ⟨rfl, hsep⟩

theorem htmlEscape_idem (b : Bytes) : htmlEscape (htmlEscape b) = htmlEscape b :=
  (clean_htmlEscape b).htmlEscape

theorem unquote_htmlEscape {raw : Bytes} (h : StrBody raw) : unquote (htmlEscape raw) = unquote raw :=
  unquoteFuel_htmlEscape raw.length h le_rfl le_rfl

/-! ## Compacting a value -/

mutual
/-- The value with `f` applied to the bytes of each of its strings and keys. -/
def JValue.mapStr (f : Bytes → Bytes) : JValue → JValue
  | .str raw => .str (f raw)
  | .arr vs => .arr (mapStrElems f vs)
  | .obj ms => .obj (mapStrMembers f ms)
  | v => v

def mapStrElems (f : Bytes → Bytes) : List JValue → List JValue
  | [] => []
  | v :: vs => v.mapStr f :: mapStrElems f vs

def mapStrMembers (f : Bytes → Bytes) : List (Bytes × JValue) → List (Bytes × JValue)
  | [] => []
  | (k, v) :: ms => (f k, v.mapStr f) :: mapStrMembers f ms
end

/-- `appendCompact(dst, src, true)`: bytes `parse` reads as one value are
written as that value's tokens with no blanks, strings and keys escaped; other
bytes are its `SyntaxError`. -/
def compact (b : Bytes) : Option Bytes := (parse b).map fun v => (v.mapStr htmlEscape).render [] []

example : compact (bytes " \x7b \"a\" : [1, \"<b>\"] \x7d ") = some (bytes "\x7b\"a\":[1,\"\\u003cb\\u003e\"]\x7d") := by
  decide
example : compact (bytes "\x7b\"a\":") = none := by decide

theorem mapStrElems_eq_map (f : Bytes → Bytes) : ∀ vs, mapStrElems f vs = vs.map (JValue.mapStr f)
  | [] => rfl
  | _ :: vs => congrArg _ (mapStrElems_eq_map f vs)

theorem mapStrMembers_eq_map (f : Bytes → Bytes) :
    ∀ ms, mapStrMembers f ms = ms.map fun m => (f m.1, m.2.mapStr f)
  | [] => rfl
  | _ :: ms => congrArg _ (mapStrMembers_eq_map f ms)

mutual
theorem depth_mapStr (f : Bytes → Bytes) : ∀ v : JValue, (v.mapStr f).depth = v.depth
  | .null | .bool _ | .num _ | .str _ => rfl
  | .arr vs => congrArg (· + 1) (elemsDepth_mapStr f vs)
  | .obj ms => congrArg (· + 1) (membersDepth_mapStr f ms)

theorem elemsDepth_mapStr (f : Bytes → Bytes) : ∀ vs, elemsDepth (mapStrElems f vs) = elemsDepth vs
  | [] => rfl
  | v :: vs => congrArg₂ max (depth_mapStr f v) (elemsDepth_mapStr f vs)

theorem membersDepth_mapStr (f : Bytes → Bytes) : ∀ ms, membersDepth (mapStrMembers f ms) = membersDepth ms
  | [] => rfl
  | (_, v) :: ms => congrArg₂ max (depth_mapStr f v) (membersDepth_mapStr f ms)
end

mutual
/-- Escaping keeps a value well formed. -/
theorem JValue.Wf.htmlEscape : ∀ {v : JValue}, v.Wf → (v.mapStr Json.htmlEscape).Wf
  | .null, _ | .bool _, _ => trivial
  | .num _, h => h
  | .str _, h => StrBody.htmlEscape h
  | .arr vs, h => @ElemsWf.htmlEscape vs h
  | .obj ms, h => @MembersWf.htmlEscape ms h

theorem ElemsWf.htmlEscape : ∀ {vs : List JValue}, ElemsWf vs → ElemsWf (mapStrElems Json.htmlEscape vs)
  | [], _ => trivial
  | _ :: _, ⟨hv, hvs⟩ => ⟨hv.htmlEscape, hvs.htmlEscape⟩

theorem MembersWf.htmlEscape : ∀ {ms : List (Bytes × JValue)}, MembersWf ms → MembersWf (mapStrMembers Json.htmlEscape ms)
  | [], _ => trivial
  | (_, _) :: _, ⟨hk, hv, hms⟩ => ⟨StrBody.htmlEscape hk, hv.htmlEscape, hms.htmlEscape⟩
end

mutual
theorem mapStr_htmlEscape_idem : ∀ v : JValue, (v.mapStr htmlEscape).mapStr htmlEscape = v.mapStr htmlEscape
  | .null | .bool _ | .num _ => rfl
  | .str raw => congrArg JValue.str (htmlEscape_idem raw)
  | .arr vs => congrArg JValue.arr (mapStrElems_htmlEscape_idem vs)
  | .obj ms => congrArg JValue.obj (mapStrMembers_htmlEscape_idem ms)

theorem mapStrElems_htmlEscape_idem :
    ∀ vs, mapStrElems htmlEscape (mapStrElems htmlEscape vs) = mapStrElems htmlEscape vs
  | [] => rfl
  | v :: vs => congrArg₂ List.cons (mapStr_htmlEscape_idem v) (mapStrElems_htmlEscape_idem vs)

theorem mapStrMembers_htmlEscape_idem :
    ∀ ms, mapStrMembers htmlEscape (mapStrMembers htmlEscape ms) = mapStrMembers htmlEscape ms
  | [] => rfl
  | (k, v) :: ms =>
    congrArg₂ List.cons (Prod.ext (htmlEscape_idem k) (mapStr_htmlEscape_idem v))
      (mapStrMembers_htmlEscape_idem ms)
end

/-- What `compact` wrote: the escaped, well-formed value `parse` read. -/
theorem compact_some {b c : Bytes} (h : compact b = some c) :
    ∃ v, parse b = some v ∧ v.Wf ∧ v.depth ≤ maxNestingDepth ∧ c = (v.mapStr htmlEscape).render [] [] := by
  obtain ⟨v, hv, rfl⟩ := Option.map_eq_some'.1 h
  exact ⟨v, hv, (parse_wf hv).1, (parse_wf hv).2, rfl⟩

theorem blank_nil : Blank [] := fun _ h => nomatch h

theorem parse_render_compact {v : JValue} (hw : v.Wf) (hd : v.depth ≤ maxNestingDepth) :
    parse ((v.mapStr htmlEscape).render [] []) = some (v.mapStr htmlEscape) :=
  parse_render blank_nil blank_nil hw.htmlEscape ((depth_mapStr _ v).symm ▸ hd)

/-- Compacted bytes read as the escaped value. -/
theorem parse_compact {b c : Bytes} (h : compact b = some c) :
    ∃ v, parse b = some v ∧ parse c = some (v.mapStr htmlEscape) := by
  obtain ⟨v, hv, hw, hd, rfl⟩ := compact_some h
  exact ⟨v, hv, parse_render_compact hw hd⟩

/-- Compacting is idempotent. -/
theorem compact_idem {b c : Bytes} (h : compact b = some c) : compact c = some c := by
  obtain ⟨v, -, hw, hd, rfl⟩ := compact_some h
  simp only [compact, parse_render_compact hw hd, Option.map_some', mapStr_htmlEscape_idem]

/-! ## Decoding compacted bytes -/

/-- A decoded struct with the strings it holds escaped. -/
def Decoded.mapStr (st : Decoded) : Decoded := fun n => (st n).map (JValue.mapStr htmlEscape)

mutual
theorem fitsAny_mapStr (f : Bytes → Bytes) : ∀ v : JValue, (v.mapStr f).fitsAny = v.fitsAny
  | .null | .bool _ | .num _ | .str _ => rfl
  | .arr vs => fitsAnyList_mapStr f vs
  | .obj ms => fitsAnyMembers_mapStr f ms

theorem fitsAnyList_mapStr (f : Bytes → Bytes) : ∀ vs, fitsAnyList (mapStrElems f vs) = fitsAnyList vs
  | [] => rfl
  | v :: vs => congrArg₂ (· && ·) (fitsAny_mapStr f v) (fitsAnyList_mapStr f vs)

theorem fitsAnyMembers_mapStr (f : Bytes → Bytes) : ∀ ms, fitsAnyMembers (mapStrMembers f ms) = fitsAnyMembers ms
  | [] => rfl
  | (_, v) :: ms => congrArg₂ (· && ·) (fitsAny_mapStr f v) (fitsAnyMembers_mapStr f ms)
end

theorem fitsString_mapStr (f : Bytes → Bytes) (v : JValue) : (v.mapStr f).fitsString = v.fitsString := by
  cases v <;> rfl

theorem fitsInt_mapStr (f : Bytes → Bytes) (v : JValue) : (v.mapStr f).fitsInt = v.fitsInt := by
  cases v <;> rfl

theorem all_mapStrElems (f : Bytes → Bytes) {p : JValue → Bool} (hp : ∀ v, p (v.mapStr f) = p v)
    (vs : List JValue) : (mapStrElems f vs).all p = vs.all p := by
  rw [mapStrElems_eq_map, List.all_map]
  exact congrArg vs.all (funext hp)

theorem all_mapStrMembers (f : Bytes → Bytes) {p : Bytes × JValue → Bool}
    (hp : ∀ m : Bytes × JValue, p (f m.1, m.2.mapStr f) = p m) (ms : List (Bytes × JValue)) :
    (mapStrMembers f ms).all p = ms.all p := by
  rw [mapStrMembers_eq_map, List.all_map]
  exact congrArg ms.all (funext hp)

/-- Escaping never changes which fields a value fits. -/
theorem accepts_mapStr (f : Bytes → Bytes) (t : GoType) (v : JValue) : t.accepts (v.mapStr f) = t.accepts v := by
  cases t <;> cases v <;>
    first
    | rfl
    | exact fitsAny_mapStr f (.arr _)
    | exact fitsAny_mapStr f (.obj _)
    | exact fitsAnyMembers_mapStr f _
    | exact all_mapStrElems f (fitsString_mapStr f) _
    | exact all_mapStrElems f (fitsInt_mapStr f) _
    | exact @all_mapStrMembers f (fun m => m.2.fitsString) (fun m => fitsString_mapStr f m.2) _

/-- The loop of `decodeMembers` over escaped members stores the escaped values
of the original loop, and fails where it fails. -/
theorem decodeMembers_mapStr (fields : List (String × GoType)) :
    ∀ (ms : List (Bytes × JValue)), MembersWf ms → ∀ st : Decoded,
      decodeMembers fields (mapStrMembers htmlEscape ms) st.mapStr = (decodeMembers fields ms st).map Decoded.mapStr
  | [], _, _ => rfl
  | (k, v) :: ms, ⟨hk, _, hms⟩, st => by
    simp only [mapStrMembers, decodeMembers, unquote_htmlEscape hk, accepts_mapStr]
    split
    · exact decodeMembers_mapStr fields ms hms st
    · split
      · rw [← decodeMembers_mapStr fields ms hms]
        congr 1
        funext n
        simp only [Decoded.mapStr]
        split
        · cases v <;> try rfl
          dsimp only [JValue.mapStr]
          split <;> rfl
        · rfl
      · rfl

/-- `json.Unmarshal` of compacted bytes into a struct fails as it fails on the
original bytes, and otherwise stores the escaped values: strings with the
same runes (`unquote_htmlEscape`), everything else as it was. -/
theorem unmarshal_compact {b c : Bytes} (h : compact b = some c) (fields : List (String × GoType)) :
    unmarshal fields c = (unmarshal fields b).map Decoded.mapStr := by
  obtain ⟨v, hv, hc⟩ := parse_compact h
  have hw := (parse_wf hv).1
  simp only [unmarshal, hv, hc]
  cases v with
  | null => rfl
  | obj ms => exact decodeMembers_mapStr fields ms hw fun _ => none
  | _ => rfl

end Json

end Taskflow
