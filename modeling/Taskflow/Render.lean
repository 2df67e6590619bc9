import Taskflow.Marshal

/-!
# Values written back as text

The broker and the store both hand a job's payload and result back as text
written from a value: `json.Marshal` compacts a `json.RawMessage`
(`Compact.lean`) and PostgreSQL prints a `jsonb` column (`Jsonb.lean`). Both
texts are `JValue.render` of a value, with or without a blank after each comma
and colon. This module shows once that the scanner of `Json.lean` reads such a
text back as the value it was written from.

* `StrBody`, `NumLit` — the string bodies and number literals the scanner
  accepts, as grammars: `scanString_strBody` and `scanNumber_some` say the
  scanner returns only those, `StrBody.scanString` and `scanNumber_numLit`
  that it reads each of them back whole;
* `parseValue_wf` — every value the scanner returns has such leaves and nests
  at most `maxNestingDepth` deep;
* `Reads d b v` — `b` is one value, nested at most `d` deep, that the scanner
  reads as `v` before any `,`, `]` or `}` that follows it;
* `reads_render`, `parse_render` — the text of a well-formed value is read
  back as that value.
-/

namespace Taskflow

namespace Json

/-! ## String bodies -/

/-- The bytes between the quotes of a string the scanner accepts
(`stateInString` and the escape states): a byte that is not a quote, a
backslash or a control byte, one of the eight short escapes, or `\u` and four
hexadecimal digits. -/
inductive StrBody : Bytes → Prop
  | nil : StrBody []
  | plain {c : UInt8} {rest : Bytes} : c ≠ 34 → c ≠ 92 → ¬c < 32 → StrBody rest → StrBody (c :: rest)
  | escape {e : UInt8} {rest : Bytes} : e ∈ [34, 92, 47, 98, 102, 110, 114, 116] → StrBody rest →
      StrBody (92 :: e :: rest)
  | u {a b c d : UInt8} {rest : Bytes} : isHex a ∧ isHex b ∧ isHex c ∧ isHex d → StrBody rest →
      StrBody (92 :: 117 :: a :: b :: c :: d :: rest)

theorem scanString_escape {e : UInt8} (he : e ∈ [34, 92, 47, 98, 102, 110, 114, 116]) (cs : Bytes) :
    scanString (92 :: e :: cs) = (scanString cs).map fun p => (92 :: e :: p.1, p.2) := by
  match cs with
  | a :: b :: c :: d :: cs' => rw [scanString.eq_3, if_pos he]
  | [] | [_] | [_, _] | [_, _, _] => rw [scanString.eq_4 _ _ (by simp), if_pos he]

theorem scanString_u (a b c d : UInt8) (cs : Bytes) :
    scanString (92 :: 117 :: a :: b :: c :: d :: cs) =
      if isHex a ∧ isHex b ∧ isHex c ∧ isHex d then
        (scanString cs).map fun p => (92 :: 117 :: a :: b :: c :: d :: p.1, p.2)
      else none := by
  rw [scanString.eq_3, if_neg (by decide), if_pos rfl]

theorem scanString_bad_escape {e : UInt8} {cs : Bytes} (he : e ∉ [34, 92, 47, 98, 102, 110, 114, 116])
    (hu : ∀ a b c d cs', e = 117 → cs = a :: b :: c :: d :: cs' → False) :
    scanString (92 :: e :: cs) = none := by
  match cs with
  | a :: b :: c :: d :: cs' => rw [scanString.eq_3, if_neg he, if_neg fun h => hu _ _ _ _ _ h rfl]
  | [] | [_] | [_, _] | [_, _, _] => rw [scanString.eq_4 _ _ (by simp), if_neg he]; split <;> rfl

/-- The scanner returns a string body, and the closing quote after it. -/
theorem scanString_strBody {cs raw r : Bytes} (h : scanString cs = some (raw, r)) :
    StrBody raw ∧ cs = raw ++ 34 :: r := by
  induction cs using scanString.induct generalizing raw with
  | case1 => cases h
  | case2 cs =>
    simp only [scanString, Option.some.injEq, Prod.mk.injEq] at h
    obtain ⟨rfl, rfl⟩ := h
    exact ⟨.nil, rfl⟩
  | case3 e cs he ih =>
    rw [scanString_escape he] at h
    obtain ⟨⟨s, _⟩, hs, he'⟩ := Option.map_eq_some'.1 h
    cases he'
    obtain ⟨h₁, rfl⟩ := ih hs
    exact ⟨.escape he h₁, rfl⟩
  | case4 a b c d cs' hx _ ih =>
    rw [scanString_u, if_pos hx] at h
    obtain ⟨⟨s, _⟩, hs, he'⟩ := Option.map_eq_some'.1 h
    cases he'
    obtain ⟨h₁, rfl⟩ := ih hs
    exact ⟨.u hx h₁, rfl⟩
  | case5 a b c d cs' hx =>
    rw [scanString_u, if_neg hx] at h
    cases h
  | case6 cs hcs hu =>
    rw [scanString_bad_escape hu fun a b c d cs' _ h => hcs a b c d cs' h] at h
    cases h
  | case7 e cs he hu =>
    rw [scanString_bad_escape he fun _ _ _ _ _ h => absurd h hu] at h
    cases h
  | case8 c cs h34 h92 h32 =>
    rw [scanString.eq_5 c cs h34 h92, if_pos h32] at h
    cases h
  | case9 c cs h34 h92 h32 ih =>
    rw [scanString.eq_5 c cs h34 h92, if_neg h32] at h
    obtain ⟨⟨s, _⟩, hs, he⟩ := Option.map_eq_some'.1 h
    cases he
    obtain ⟨h₁, rfl⟩ := ih hs
    obtain ⟨x, xs, hx⟩ := List.exists_cons_of_ne_nil (List.append_ne_nil_of_right_ne_nil s (List.cons_ne_nil 34 r))
    exact ⟨.plain h34 (fun e => h92 _ _ e hx) h32 h₁, rfl⟩

theorem StrBody.scansThrough {raw : Bytes} (h : StrBody raw) : ScansThrough raw := by
  induction h with
  | nil => exact scansThrough_nil
  | plain h34 h92 h32 _ ih => exact .cons h34 h92 h32 ih
  | escape he _ ih => exact (scansThrough_escape he).append ih
  | u hx _ ih => exact (scansThrough_u hx).append ih

/-- The scanner reads a string body to the closing quote after it. -/
theorem StrBody.scanString {raw : Bytes} (h : StrBody raw) (E : Bytes) :
    Json.scanString (raw ++ 34 :: E) = some (raw, E) := by
  rw [h.scansThrough]
  simp [Json.scanString]

/-! ## Number literals -/

/-- Decimal digits only. -/
def AllDigits (ds : Bytes) : Prop := ∀ d ∈ ds, strconv.isDigit d = true

/-- Nothing, or a byte that is not a decimal digit, comes first. -/
def NoDigitHead (X : Bytes) : Prop := ∀ c t, X = c :: t → strconv.isDigit c = false

/-- The integer part `numInt` reads: `0`, or a nonzero digit and digits. -/
def IntPart (i : Bytes) : Prop := i = [48] ∨ ∃ c ds, i = c :: ds ∧ (49 ≤ c ∧ c ≤ 57) ∧ AllDigits ds

/-- The fraction `numFrac` reads: nothing, or `.` and at least one digit. -/
def FracPart (f : Bytes) : Prop := f = [] ∨ ∃ ds, f = 46 :: ds ∧ ds ≠ [] ∧ AllDigits ds

/-- The exponent `numExp` reads: nothing, or `e` or `E`, an optional sign and
at least one digit. -/
def ExpPart (e : Bytes) : Prop :=
  e = [] ∨ ∃ x sg ds, e = x :: sg ++ ds ∧ (x = 101 ∨ x = 69) ∧ (sg = [] ∨ sg = [43] ∨ sg = [45]) ∧
    ds ≠ [] ∧ AllDigits ds

/-- A number literal of JSON's grammar, cut into the parts the number states
read. -/
def NumLit (lit : Bytes) : Prop :=
  ∃ s i f e, lit = s ++ i ++ f ++ e ∧ (s = [] ∨ s = [45]) ∧ IntPart i ∧ FracPart f ∧ ExpPart e

theorem noDigitHead_cons {c : UInt8} (h : strconv.isDigit c = false) (t : Bytes) : NoDigitHead (c :: t) :=
  fun _ _ e => (List.cons.inj e).1 ▸ h

theorem dropWhile_head (p : UInt8 → Bool) : ∀ (l : Bytes) c t, l.dropWhile p = c :: t → p c = false
  | [], _, _, h => nomatch h
  | a :: l, c, t, h => by
    rw [List.dropWhile_cons] at h
    split at h
    · exact dropWhile_head p l c t h
    · obtain ⟨rfl, -⟩ := List.cons.inj h
      simpa using ‹¬p a = true›

theorem span_digits {ds X : Bytes} (hds : AllDigits ds) (hX : NoDigitHead X) :
    (ds ++ X).span strconv.isDigit = (ds, X) := by
  have hX' : X.takeWhile strconv.isDigit = [] ∧ X.dropWhile strconv.isDigit = X := by
    rcases X with _ | ⟨c, t⟩
    · exact ⟨rfl, rfl⟩
    · simp [List.takeWhile_cons, List.dropWhile_cons, hX c t rfl]
  rw [List.span_eq_take_drop, List.takeWhile_append_of_pos hds, List.dropWhile_append_of_pos hds, hX'.1,
    hX'.2, List.append_nil]

theorem span_split (X : Bytes) :
    AllDigits (X.span strconv.isDigit).1 ∧ X = (X.span strconv.isDigit).1 ++ (X.span strconv.isDigit).2 ∧
      NoDigitHead (X.span strconv.isDigit).2 := by
  rw [List.span_eq_take_drop]
  exact ⟨fun d hd => List.mem_takeWhile_imp hd, (List.takeWhile_append_dropWhile _ _).symm,
    dropWhile_head _ _⟩

theorem numInt_append {i : Bytes} (hi : IntPart i) {X : Bytes} (hX : NoDigitHead X) :
    numInt (i ++ X) = some (i, X) := by
  rcases hi with rfl | ⟨c, ds, rfl, hc, hds⟩
  · rfl
  · have h48 : c ≠ 48 := by rintro rfl; exact absurd hc.1 (by decide)
    rw [List.cons_append, numInt.eq_2 c _ h48, if_pos hc, span_digits hds hX]

theorem numInt_some {cs i r : Bytes} (h : numInt cs = some (i, r)) : IntPart i ∧ cs = i ++ r := by
  rcases cs with _ | ⟨c, cs⟩
  · cases h
  by_cases h48 : c = 48
  · subst h48
    cases h
    exact ⟨.inl rfl, rfl⟩
  rw [numInt.eq_2 c _ h48] at h
  split_ifs at h with hc
  obtain ⟨hds, hsplit, -⟩ := span_split cs
  generalize cs.span strconv.isDigit = p at h hds hsplit
  cases h
  exact ⟨.inr ⟨c, _, rfl, hc, hds⟩, by rw [List.cons_append, ← hsplit]⟩

theorem numFrac_append {f : Bytes} (hf : FracPart f) {X : Bytes} (h46 : f = [] → ∀ t, X ≠ 46 :: t)
    (hX : f ≠ [] → NoDigitHead X) : numFrac (f ++ X) = some (f, X) := by
  rcases hf with rfl | ⟨ds, rfl, hne, hds⟩
  · exact numFrac.eq_2 X fun r e => h46 rfl r e
  · simp only [List.cons_append, numFrac, span_digits hds (hX (List.cons_ne_nil _ _)), if_neg hne]

theorem numFrac_some {cs f r : Bytes} (h : numFrac cs = some (f, r)) : FracPart f ∧ cs = f ++ r := by
  by_cases h46 : ∃ t, cs = 46 :: t
  · obtain ⟨t, rfl⟩ := h46
    obtain ⟨hds, hsplit, -⟩ := span_split t
    simp only [numFrac] at h
    generalize t.span strconv.isDigit = p at h hds hsplit
    split_ifs at h with hne
    cases h
    exact ⟨.inr ⟨_, rfl, hne, hds⟩, by rw [List.cons_append, ← hsplit]⟩
  · rw [numFrac.eq_2 cs fun t e => h46 ⟨t, e⟩] at h
    cases h
    exact ⟨.inl rfl, rfl⟩

theorem numExp_cons (x : UInt8) (r : Bytes) :
    numExp (x :: r) =
      if x = 101 ∨ x = 69 then
        if ((expSign r).2.span strconv.isDigit).1 = [] then none
        else some (x :: (expSign r).1 ++ ((expSign r).2.span strconv.isDigit).1,
          ((expSign r).2.span strconv.isDigit).2)
      else some ([], x :: r) := rfl

theorem expSign_digits {ds X : Bytes} (hne : ds ≠ []) (hds : AllDigits ds) : expSign (ds ++ X) = ([], ds ++ X) := by
  obtain ⟨d, ds', rfl⟩ := List.exists_cons_of_ne_nil hne
  have hd := hds d (.head _)
  have h43 : d ≠ 43 := by rintro rfl; exact absurd hd (by decide)
  have h45 : d ≠ 45 := by rintro rfl; exact absurd hd (by decide)
  exact expSign.eq_3 _ (fun r e => h43 (List.cons.inj e).1) (fun r e => h45 (List.cons.inj e).1)

theorem numExp_append {e : Bytes} (he : ExpPart e) {X : Bytes}
    (hx : e = [] → ∀ x t, X = x :: t → ¬(x = 101 ∨ x = 69)) (hX : e ≠ [] → NoDigitHead X) :
    numExp (e ++ X) = some (e, X) := by
  rcases he with rfl | ⟨x, sg, ds, rfl, hxe, hsg, hne, hds⟩
  · rcases X with _ | ⟨x, t⟩
    · rfl
    · rw [List.nil_append, numExp_cons, if_neg (hx rfl x t rfl)]
  · have hsp : expSign (sg ++ ds ++ X) = (sg, ds ++ X) := by
      rcases hsg with rfl | rfl | rfl
      · exact expSign_digits hne hds
      · rfl
      · rfl
    show numExp (x :: (sg ++ ds ++ X)) = _
    rw [numExp_cons, if_pos hxe, hsp, span_digits hds (hX (List.cons_ne_nil _ _)), if_neg hne]

theorem numExp_some {cs e r : Bytes} (h : numExp cs = some (e, r)) : ExpPart e ∧ cs = e ++ r := by
  rcases cs with _ | ⟨x, cs⟩
  · cases h
    exact ⟨.inl rfl, rfl⟩
  rw [numExp_cons] at h
  split_ifs at h with hxe hne
  · obtain ⟨hds, hsplit, -⟩ := span_split (expSign cs).2
    generalize (expSign cs).2.span strconv.isDigit = p at h hds hsplit hne
    cases h
    have hsg : ((expSign cs).1 = [] ∨ (expSign cs).1 = [43] ∨ (expSign cs).1 = [45]) ∧
        cs = (expSign cs).1 ++ (expSign cs).2 := by
      unfold expSign; split <;> simp
    refine ⟨.inr ⟨x, _, _, rfl, hxe, hsg.1, hne, hds⟩, ?_⟩
    simp only [List.cons_append, List.append_assoc]
    rw [← hsplit, ← hsg.2]
  · cases h
    exact ⟨.inl rfl, rfl⟩

theorem numSign_eq (cs : Bytes) : ((numSign cs).1 = [] ∨ (numSign cs).1 = [45]) ∧
    cs = (numSign cs).1 ++ (numSign cs).2 := by
  unfold numSign; split <;> simp

/-- The scanner returns a number literal, and the bytes after it. -/
theorem scanNumber_some {cs lit r : Bytes} (h : scanNumber cs = some (lit, r)) : NumLit lit ∧ cs = lit ++ r := by
  obtain ⟨hs, hcs⟩ := numSign_eq cs
  simp only [scanNumber, Option.bind_eq_some, Option.map_eq_some', Prod.exists, Prod.mk.injEq] at h
  obtain ⟨i, cs₁, hi, f, cs₂, hf, e, r', he, rfl, rfl⟩ := h
  obtain ⟨hI, h₁⟩ := numInt_some hi
  obtain ⟨hF, rfl⟩ := numFrac_some hf
  obtain ⟨hE, rfl⟩ := numExp_some he
  exact ⟨⟨_, i, f, e, rfl, hs, hI, hF, hE⟩, hcs.trans (by rw [h₁]; simp)⟩

/-! ## What may follow a value -/

/-- What may follow a value inside a text a writer produced: nothing, or the
`,`, `]` or `}` after it. -/
def Follows (r : Bytes) : Prop := ∀ c t, r = c :: t → c = 44 ∨ c = 93 ∨ c = 125

theorem Follows.cases {r : Bytes} (h : Follows r) :
    r = [] ∨ ∃ t, r = 44 :: t ∨ r = 93 :: t ∨ r = 125 :: t := by
  rcases r with _ | ⟨c, t⟩
  · exact .inl rfl
  · rcases h c t rfl with rfl | rfl | rfl
    exacts [.inr ⟨t, .inl rfl⟩, .inr ⟨t, .inr (.inl rfl)⟩, .inr ⟨t, .inr (.inr rfl)⟩]

theorem follows_nil : Follows [] := fun _ _ h => nomatch h

theorem follows_comma (t : Bytes) : Follows (44 :: t) := fun _ _ h => .inl (List.cons.inj h).1.symm

theorem follows_bracket (t : Bytes) : Follows (93 :: t) := fun _ _ h => .inr (.inl (List.cons.inj h).1.symm)

theorem follows_brace (t : Bytes) : Follows (125 :: t) := fun _ _ h => .inr (.inr (List.cons.inj h).1.symm)

theorem Follows.noDigitHead {r : Bytes} (h : Follows r) : NoDigitHead r := by
  intro c t e
  rcases h c t e with rfl | rfl | rfl <;> rfl

/-- The number states read a literal whole when a separator or nothing
follows it. -/
theorem scanNumber_numLit {lit : Bytes} (h : NumLit lit) {E : Bytes} (hE : Follows E) :
    scanNumber (lit ++ E) = some (lit, E) := by
  obtain ⟨s, i, f, e, rfl, hs, hi, hf, he⟩ := h
  have hE' : ∀ x t, E = x :: t → ¬(x = 101 ∨ x = 69) ∧ x ≠ 46 := by
    intro x t hx
    rcases hE x t hx with rfl | rfl | rfl <;> decide
  have hexp : NoDigitHead (e ++ E) ∧ ∀ t, e ++ E ≠ 46 :: t := by
    rcases he with rfl | ⟨x, sg, ds, rfl, hxe, -⟩
    · exact ⟨hE.noDigitHead, fun t e => (hE' _ _ e).2 rfl⟩
    · refine ⟨noDigitHead_cons (by rcases hxe with rfl | rfl <;> rfl) _, fun t e => ?_⟩
      rcases hxe with rfl | rfl <;> exact absurd (List.cons.inj e).1 (by decide)
  have hfrac : NoDigitHead (f ++ (e ++ E)) := by
    rcases hf with rfl | ⟨ds, rfl, -⟩
    · exact hexp.1
    · exact noDigitHead_cons (c := 46) rfl _
  have hsign : numSign (s ++ (i ++ (f ++ (e ++ E)))) = (s, i ++ (f ++ (e ++ E))) := by
    rcases hs with rfl | rfl
    · rcases hi with rfl | ⟨c, ds, rfl, hc, -⟩
      · rfl
      · have h45 : c ≠ 45 := by rintro rfl; exact absurd hc.1 (by decide)
        exact numSign.eq_2 _ fun r e => h45 (List.cons.inj e).1
    · rfl
  simp only [scanNumber, List.append_assoc, hsign, numInt_append hi hfrac,
    numFrac_append hf (fun _ => hexp.2) (fun _ => hexp.1),
    numExp_append he (fun _ x t hx => (hE' x t hx).1) (fun _ => hE.noDigitHead), Option.some_bind,
    Option.map_some']

/-! ## Well-formed values -/

mutual
/-- How deep arrays and objects nest in a value. -/
def JValue.depth : JValue → Nat
  | .arr vs => elemsDepth vs + 1
  | .obj ms => membersDepth ms + 1
  | _ => 0

def elemsDepth : List JValue → Nat
  | [] => 0
  | v :: vs => max v.depth (elemsDepth vs)

def membersDepth : List (Bytes × JValue) → Nat
  | [] => 0
  | (_, v) :: ms => max v.depth (membersDepth ms)
end

mutual
/-- Every string and key of the value is a string body and every number a
literal of JSON's grammar. -/
def JValue.Wf : JValue → Prop
  | .num lit => NumLit lit
  | .str raw => StrBody raw
  | .arr vs => ElemsWf vs
  | .obj ms => MembersWf ms
  | _ => True

def ElemsWf : List JValue → Prop
  | [] => True
  | v :: vs => v.Wf ∧ ElemsWf vs

def MembersWf : List (Bytes × JValue) → Prop
  | [] => True
  | (k, v) :: ms => StrBody k ∧ v.Wf ∧ MembersWf ms
end

section Scan

variable {pv : Bytes → Option (JValue × Bytes)} {D : Nat}

theorem parseElemsRest_succ (n : Nat) (cs : Bytes) :
    parseElemsRest pv (n + 1) cs = (pv cs).bind fun (w, r) =>
      match skipSpace r with
      | 44 :: r => (parseElemsRest pv n r).map fun (vs, r) => (w :: vs, r)
      | 93 :: r => some ([w], r)
      | _ => none := by
  rw [parseElemsRest.eq_2]
  rcases pv cs with _ | ⟨w, r⟩
  · rfl
  · simp only [Option.bind_eq_bind, Option.some_bind]
    split <;> rename_i heq <;> simp only [heq, Option.pure_def]
    cases parseElemsRest pv n _ <;> rfl

theorem parseElemsRest_wf (hpv : ∀ cs w r, pv cs = some (w, r) → w.Wf ∧ w.depth ≤ D) :
    ∀ n {cs vs r}, parseElemsRest pv n cs = some (vs, r) → ElemsWf vs ∧ elemsDepth vs ≤ D
  | 0, _, _, _, h => by cases h
  | n + 1, cs, vs, r, h => by
    rw [parseElemsRest_succ] at h
    obtain ⟨⟨w, r₁⟩, hw, h⟩ := Option.bind_eq_some.1 h
    obtain ⟨hw, hd⟩ := hpv cs w r₁ hw
    dsimp only at h
    split at h
    · obtain ⟨⟨ws, r₂⟩, hws, he⟩ := Option.map_eq_some'.1 h
      cases he
      obtain ⟨h₁, h₂⟩ := parseElemsRest_wf hpv n hws
      exact ⟨⟨hw, h₁⟩, max_le hd h₂⟩
    · cases h
      exact ⟨⟨hw, trivial⟩, max_le hd (Nat.zero_le _)⟩
    · cases h

theorem parseMembersRest_wf (hpv : ∀ cs w r, pv cs = some (w, r) → w.Wf ∧ w.depth ≤ D) :
    ∀ n {cs ms r}, parseMembersRest pv n cs = some (ms, r) → MembersWf ms ∧ membersDepth ms ≤ D
  | 0, _, _, _, h => by cases h
  | n + 1, cs, ms, r, h => by
    rw [parseMembersRest.eq_2] at h
    split at h
    · simp only [Option.bind_eq_bind, Option.bind_eq_some, Prod.exists] at h
      obtain ⟨k, r₁, hk, h⟩ := h
      split at h
      · simp only [Option.bind_eq_some, Prod.exists] at h
        obtain ⟨w, r₂, hw, h⟩ := h
        obtain ⟨hw, hd⟩ := hpv _ w r₂ hw
        have hk := (scanString_strBody hk).1
        split at h
        · simp only [Option.bind_eq_some, Prod.exists] at h
          obtain ⟨ms', r₃, hms, h⟩ := h
          cases h
          obtain ⟨h₁, h₂⟩ := parseMembersRest_wf hpv n hms
          exact ⟨⟨hk, hw, h₁⟩, max_le hd h₂⟩
        · cases h
          exact ⟨⟨hk, hw, trivial⟩, max_le hd (Nat.zero_le _)⟩
        · cases h
      · cases h
    · cases h

end Scan

/-- Every value the scanner returns is well formed, and nests no deeper than
the limit allows from where it starts. -/
theorem parseValue_wf : ∀ (fuel depth : Nat) {cs v r}, depth ≤ maxNestingDepth →
    parseValue fuel depth cs = some (v, r) → v.Wf ∧ depth + v.depth ≤ maxNestingDepth
  | 0, _, _, _, _, _, h => by cases h
  | fuel + 1, depth, cs, v, r, hd, h => by
    have ih : depth + 1 ≤ maxNestingDepth → ∀ cs w r, parseValue fuel (depth + 1) cs = some (w, r) →
        w.Wf ∧ w.depth ≤ maxNestingDepth - (depth + 1) := fun hd' cs w r hw =>
      ⟨(parseValue_wf fuel (depth + 1) hd' hw).1, by have := (parseValue_wf fuel (depth + 1) hd' hw).2; omega⟩
    simp only [parseValue] at h
    split at h
    · cases h
    split_ifs at h with h123 hmax h91 hmax' h34 h116 h102 h110
    · split at h
      · cases h
        exact ⟨trivial, by simp only [JValue.depth, membersDepth]; omega⟩
      · obtain ⟨⟨ms, r'⟩, hms, he⟩ := Option.map_eq_some'.1 h
        cases he
        obtain ⟨h₁, h₂⟩ := parseMembersRest_wf (ih (by omega)) fuel hms
        exact ⟨h₁, by simp only [JValue.depth]; omega⟩
    · split at h
      · cases h
        exact ⟨trivial, by simp only [JValue.depth, elemsDepth]; omega⟩
      · obtain ⟨⟨vs, r'⟩, hvs, he⟩ := Option.map_eq_some'.1 h
        cases he
        obtain ⟨h₁, h₂⟩ := parseElemsRest_wf (ih (by omega)) fuel hvs
        exact ⟨h₁, by simp only [JValue.depth]; omega⟩
    · obtain ⟨⟨s, r'⟩, hs, he⟩ := Option.map_eq_some'.1 h
      cases he
      exact ⟨(scanString_strBody hs).1, by simp only [JValue.depth]; omega⟩
    all_goals first
      | (obtain ⟨⟨n, r'⟩, hn, he⟩ := Option.map_eq_some'.1 h
         cases he
         exact ⟨(scanNumber_some hn).1, by simp only [JValue.depth]; omega⟩)
      | (unfold literal at h
         split_ifs at h
         cases h
         exact ⟨trivial, by simp only [JValue.depth]; omega⟩)

/-- What `checkValid` accepts is one well-formed value within the nesting limit. -/
theorem parse_wf {b : Bytes} {v : JValue} (h : parse b = some v) : v.Wf ∧ v.depth ≤ maxNestingDepth := by
  unfold parse at h
  split at h
  · rename_i v' r hv
    split_ifs at h
    cases h
    have := parseValue_wf _ 0 (Nat.zero_le _) hv
    exact ⟨this.1, by omega⟩
  · cases h

/-! ## Reading a value back -/

/-- `b` is one value, nested at most `d` deep, that the scanner reads as `v`
at every depth that leaves room for it, before anything that may follow it,
given more fuel than `b` has bytes. -/
def Reads (d : Nat) (b : Bytes) (v : JValue) : Prop :=
  ∀ fuel depth r, b.length < fuel → depth + d ≤ maxNestingDepth → Follows r →
    parseValue fuel depth (b ++ r) = some (v, r)

theorem Reads.mono {d d' : Nat} {b : Bytes} {v : JValue} (h : Reads d b v) (hd : d ≤ d') : Reads d' b v :=
  fun fuel depth r hf hdepth hr => h fuel depth r hf (by omega) hr

/-- A value read whole is what `checkValid` accepts. -/
theorem Reads.parse_eq {d : Nat} {b : Bytes} {v : JValue} (h : Reads d b v) (hd : d ≤ maxNestingDepth) :
    Json.parse b = some v := by
  have hv := h (b.length + 1) 0 [] (by omega) (by omega) follows_nil
  rw [List.append_nil] at hv
  simp only [Json.parse, hv]
  rfl

/-- JSON whitespace only. -/
def Blank (ws : Bytes) : Prop := ∀ c ∈ ws, isSpace c = true

theorem skipSpace_blank {ws : Bytes} (h : Blank ws) (X : Bytes) : skipSpace (ws ++ X) = skipSpace X := by
  induction ws with
  | nil => rfl
  | cons c ws ih => rw [List.cons_append, skipSpace, if_pos (h c (.head _)), ih fun x hx => h x (.tail _ hx)]

theorem skipSpace_of_not_space {c : UInt8} (h : isSpace c = false) (X : Bytes) : skipSpace (c :: X) = c :: X := by
  rw [skipSpace, if_neg (by simp [h])]

theorem parseValue_blank {ws : Bytes} (h : Blank ws) (k depth : Nat) (X : Bytes) :
    parseValue (k + 1) depth (ws ++ X) = parseValue (k + 1) depth X := by
  simp only [parseValue, skipSpace_blank h]

/-- Blanks before a value do not change how it is read. -/
theorem Reads.blank {d : Nat} {b : Bytes} {v : JValue} (h : Reads d b v) {ws : Bytes} (hws : Blank ws) :
    Reads d (ws ++ b) v := by
  intro fuel depth r hf hd hr
  obtain ⟨k, rfl⟩ : ∃ k, fuel = k + 1 := ⟨fuel - 1, by omega⟩
  rw [List.append_assoc, parseValue_blank hws, h (k + 1) depth r (by simp at hf; omega) hd hr]

theorem parseValue_object (k depth : Nat) (X : Bytes) :
    parseValue (k + 1) depth (123 :: 34 :: X) = if maxNestingDepth < depth + 1 then none
      else (parseMembersRest (parseValue k (depth + 1)) k (34 :: X)).map fun p => (.obj p.1, p.2) :=
  rfl

theorem parseValue_object_empty (k depth : Nat) (r : Bytes) :
    parseValue (k + 1) depth (123 :: 125 :: r) = if maxNestingDepth < depth + 1 then none else some (.obj [], r) :=
  rfl

theorem parseValue_array_empty (k depth : Nat) (r : Bytes) :
    parseValue (k + 1) depth (91 :: 93 :: r) = if maxNestingDepth < depth + 1 then none else some (.arr [], r) :=
  rfl

/-- An array whose first element starts with `c`. -/
theorem parseValue_array {c : UInt8} (hc : isSpace c = false) (h93 : c ≠ 93) (k depth : Nat) (X : Bytes) :
    parseValue (k + 1) depth (91 :: c :: X) = if maxNestingDepth < depth + 1 then none
      else (parseElemsRest (parseValue k (depth + 1)) k (c :: X)).map fun p => (.arr p.1, p.2) := by
  simp only [parseValue, skipSpace_of_not_space (show isSpace 91 = false from rfl), skipSpace_of_not_space hc,
    if_neg (by decide : (91 : UInt8) ≠ 123), if_true]
  split_ifs
  · rfl
  · split
    · exact absurd (List.cons.inj ‹_›).1 h93
    · rfl

/-- A value that starts with a minus or a digit is read by the number states. -/
theorem parseValue_num {c : UInt8} (h : c = 45 ∨ c = 48 ∨ 49 ≤ c ∧ c ≤ 57) (k depth : Nat) (cs : Bytes) :
    parseValue (k + 1) depth (c :: cs) = (scanNumber (c :: cs)).map fun p => (.num p.1, p.2) := by
  have hn : c.toNat = 45 ∨ c.toNat = 48 ∨ c.toNat = 49 ∨ c.toNat = 50 ∨ c.toNat = 51 ∨ c.toNat = 52 ∨
      c.toNat = 53 ∨ c.toNat = 54 ∨ c.toNat = 55 ∨ c.toNat = 56 ∨ c.toNat = 57 := by
    rcases h with rfl | rfl | ⟨h₁, h₂⟩
    · exact .inl rfl
    · exact .inr (.inl rfl)
    · have : 49 ≤ c.toNat := h₁
      have : c.toNat ≤ 57 := h₂
      omega
  rw [show c = UInt8.ofNat c.toNat from UInt8.toNat.inj (UInt8.toNat_ofNat_of_lt c.val.isLt).symm]
  rcases hn with h | h | h | h | h | h | h | h | h | h | h <;> rw [h] <;> rfl

/-! ## Rendering -/

mutual
/-- The text of a value: its tokens, with the blanks `sw` after each comma
and `cw` after each colon; strings and numbers are written as they are held. -/
def JValue.render (sw cw : Bytes) : JValue → Bytes
  | .null => [110, 117, 108, 108]
  | .bool true => [116, 114, 117, 101]
  | .bool false => [102, 97, 108, 115, 101]
  | .num lit => lit
  | .str raw => 34 :: (raw ++ [34])
  | .arr [] => [91, 93]
  | .arr (v :: vs) => 91 :: (v.render sw cw ++ renderElems sw cw vs)
  | .obj [] => [123, 125]
  | .obj ((k, v) :: ms) => 123 :: 34 :: (k ++ 34 :: 58 :: (cw ++ (v.render sw cw ++ renderMembers sw cw ms)))

/-- The elements after the first, each after a comma, then the closing bracket. -/
def renderElems (sw cw : Bytes) : List JValue → Bytes
  | [] => [93]
  | v :: vs => 44 :: (sw ++ (v.render sw cw ++ renderElems sw cw vs))

/-- The members after the first, each after a comma, then the closing brace. -/
def renderMembers (sw cw : Bytes) : List (Bytes × JValue) → Bytes
  | [] => [125]
  | (k, v) :: ms => 44 :: (sw ++ 34 :: (k ++ 34 :: 58 :: (cw ++ (v.render sw cw ++ renderMembers sw cw ms))))
end

theorem skipSpace_quote (X : Bytes) : skipSpace (34 :: X) = 34 :: X := rfl

theorem skipSpace_colon (X : Bytes) : skipSpace (58 :: X) = 58 :: X := rfl

theorem skipSpace_comma (X : Bytes) : skipSpace (44 :: X) = 44 :: X := rfl

theorem skipSpace_bracket (X : Bytes) : skipSpace (93 :: X) = 93 :: X := rfl

theorem skipSpace_brace (X : Bytes) : skipSpace (125 :: X) = 125 :: X := rfl

section Render

variable {sw cw : Bytes}

/-- The first byte of a number literal is a minus or a digit. -/
theorem NumLit.head {lit : Bytes} (h : NumLit lit) : ∃ c t, lit = c :: t ∧ (c = 45 ∨ c = 48 ∨ 49 ≤ c ∧ c ≤ 57) := by
  obtain ⟨s, i, f, e, rfl, hs, hi, -⟩ := h
  rcases hs with rfl | rfl
  · rcases hi with rfl | ⟨c, ds, rfl, hc, -⟩
    · exact ⟨48, _, rfl, by decide⟩
    · exact ⟨c, _, rfl, .inr (.inr hc)⟩
  · exact ⟨45, _, rfl, by decide⟩

/-- A well-formed value's text starts with a byte that is not a blank and
closes nothing. -/
theorem render_head {v : JValue} (h : v.Wf) :
    ∃ c t, v.render sw cw = c :: t ∧ isSpace c = false ∧ c ≠ 93 := by
  rcases v with _ | ⟨_ | _⟩ | lit | _ | ⟨_ | ⟨_, _⟩⟩ | ⟨_ | ⟨⟨_, _⟩, _⟩⟩
  case num =>
    obtain ⟨c, t, rfl, hc⟩ := NumLit.head h
    refine ⟨c, t, rfl, ?_⟩
    rcases hc with rfl | rfl | ⟨h₁, h₂⟩
    · decide
    · decide
    have h₁ : 49 ≤ c.toNat := h₁
    have h₂ : c.toNat ≤ 57 := h₂
    refine ⟨?_, fun e => by rw [e] at h₂; exact absurd h₂ (by decide)⟩
    unfold isSpace
    simp only [Bool.or_eq_false_iff, beq_eq_false_iff_ne, ne_eq]
    refine ⟨⟨⟨fun e => ?_, fun e => ?_⟩, fun e => ?_⟩, fun e => ?_⟩ <;> rw [e] at h₁ <;> exact absurd h₁ (by decide)
  all_goals exact ⟨_, _, rfl, rfl, by decide⟩

/-- Elements that are each read whole are read up to the closing bracket,
given more fuel than they have bytes. -/
theorem elems_reads_render (hsw : Blank sw) {D : Nat} :
    ∀ (vs : List JValue) (v : JValue), (∀ w ∈ v :: vs, Reads D (w.render sw cw) w) →
      ∀ fuel₀ fuel depth ws r, Blank ws → (ws ++ (v.render sw cw ++ renderElems sw cw vs)).length < fuel₀ →
        (ws ++ (v.render sw cw ++ renderElems sw cw vs)).length < fuel → depth + D ≤ maxNestingDepth →
        parseElemsRest (parseValue fuel₀ depth) fuel (ws ++ (v.render sw cw ++ (renderElems sw cw vs ++ r))) =
          some (v :: vs, r)
  | vs, v, h, fuel₀, fuel, depth, ws, r, hws, hf₀, hf, hd => by
    obtain ⟨k, rfl⟩ : ∃ k, fuel = k + 1 := ⟨fuel - 1, by omega⟩
    have hv := (h v (.head _)).blank hws fuel₀ depth (renderElems sw cw vs ++ r)
      (by simp only [List.length_append] at hf₀ ⊢; omega) hd
    rcases vs with _ | ⟨w, ws'⟩
    · rw [parseElemsRest_succ, ← List.append_assoc, hv (follows_bracket r)]
      rfl
    · rw [parseElemsRest_succ, ← List.append_assoc, hv (follows_comma _)]
      simp only [Option.some_bind, renderElems, List.cons_append, skipSpace_comma, List.append_assoc]
      rw [elems_reads_render hsw ws' w (fun x hx => h x (.tail _ hx)) fuel₀ k depth sw r hsw
        (by simp only [renderElems, List.length_append, List.length_cons] at hf₀ ⊢; omega)
        (by simp only [renderElems, List.length_append, List.length_cons] at hf ⊢; omega) hd]
      rfl

/-- Members whose keys are string bodies and whose values are each read
whole are read up to the closing brace, given more fuel than they have bytes. -/
theorem members_reads_render (hsw : Blank sw) (hcw : Blank cw) {D : Nat} :
    ∀ (ms : List (Bytes × JValue)) (k : Bytes) (v : JValue),
      (∀ m ∈ (k, v) :: ms, StrBody m.1 ∧ Reads D (m.2.render sw cw) m.2) →
      ∀ fuel₀ fuel depth ws r, Blank ws →
        (ws ++ 34 :: (k ++ 34 :: 58 :: (cw ++ (v.render sw cw ++ renderMembers sw cw ms)))).length < fuel₀ →
        (ws ++ 34 :: (k ++ 34 :: 58 :: (cw ++ (v.render sw cw ++ renderMembers sw cw ms)))).length < fuel →
        depth + D ≤ maxNestingDepth →
        parseMembersRest (parseValue fuel₀ depth) fuel
            (ws ++ 34 :: (k ++ 34 :: 58 :: (cw ++ (v.render sw cw ++ (renderMembers sw cw ms ++ r))))) =
          some ((k, v) :: ms, r)
  | ms, k, v, h, fuel₀, fuel, depth, ws, r, hws, hf₀, hf, hd => by
    obtain ⟨k', rfl⟩ : ∃ k', fuel = k' + 1 := ⟨fuel - 1, by omega⟩
    obtain ⟨hk, hv⟩ := h (k, v) (.head _)
    have hv := hv.blank hcw fuel₀ depth (renderMembers sw cw ms ++ r)
      (by simp only [List.length_append, List.length_cons] at hf₀ ⊢; omega) hd
    rw [parseMembersRest.eq_2, skipSpace_blank hws, skipSpace_quote]
    simp only [Option.bind_eq_bind, hk.scanString, Option.some_bind, skipSpace_colon]
    rcases ms with _ | ⟨⟨k₂, v₂⟩, ms⟩
    · rw [← List.append_assoc, hv (follows_brace r)]
      rfl
    · rw [← List.append_assoc, hv (follows_comma _)]
      simp only [Option.some_bind, renderMembers, List.cons_append, skipSpace_comma, List.append_assoc]
      rw [members_reads_render hsw hcw ms k₂ v₂ (fun x hx => h x (.tail _ hx)) fuel₀ k' depth sw r hsw
        (by simp only [renderMembers, List.length_append, List.length_cons] at hf₀ ⊢; omega)
        (by simp only [renderMembers, List.length_append, List.length_cons] at hf ⊢; omega) hd]
      rfl

theorem le_elemsDepth {w : JValue} : ∀ {vs : List JValue}, w ∈ vs → w.depth ≤ elemsDepth vs
  | _ :: _, .head _ => le_max_left _ _
  | _ :: _, .tail _ h => (le_elemsDepth h).trans (le_max_right _ _)

theorem le_membersDepth {m : Bytes × JValue} : ∀ {ms : List (Bytes × JValue)}, m ∈ ms → m.2.depth ≤ membersDepth ms
  | _ :: _, .head _ => le_max_left _ _
  | _ :: _, .tail _ h => (le_membersDepth h).trans (le_max_right _ _)

theorem reads_keyword {b : Bytes} {v : JValue} (h : ∀ k depth r, parseValue (k + 1) depth (b ++ r) = some (v, r)) :
    Reads 0 b v := by
  intro fuel depth r hf _ _
  obtain ⟨k, rfl⟩ : ∃ k, fuel = k + 1 := ⟨fuel - 1, by omega⟩
  exact h k depth r

mutual
/-- The scanner reads the text of a well-formed value back as the value. -/
theorem reads_render (hsw : Blank sw) (hcw : Blank cw) : ∀ v : JValue, v.Wf → Reads v.depth (v.render sw cw) v
  | .null, _ => reads_keyword fun _ _ _ => rfl
  | .bool true, _ => reads_keyword fun _ _ _ => rfl
  | .bool false, _ => reads_keyword fun _ _ _ => rfl
  | .num lit, h => by
    intro fuel depth r hf _ hr
    obtain ⟨k, rfl⟩ : ∃ k, fuel = k + 1 := ⟨fuel - 1, by omega⟩
    obtain ⟨c, t, hct, hc⟩ := NumLit.head h
    simp only [JValue.render]
    rw [hct, List.cons_append, parseValue_num hc, ← List.cons_append, ← hct, scanNumber_numLit h hr]
    rfl
  | .str raw, h => by
    intro fuel depth r hf _ _
    obtain ⟨k, rfl⟩ : ∃ k, fuel = k + 1 := ⟨fuel - 1, by omega⟩
    simp only [JValue.render, List.cons_append, List.append_assoc, List.singleton_append]
    rw [parseValue_string, StrBody.scanString h]
    rfl
  | .arr [], _ => by
    intro fuel depth r hf hd _
    obtain ⟨k, rfl⟩ : ∃ k, fuel = k + 1 := ⟨fuel - 1, by omega⟩
    exact (parseValue_array_empty k depth r).trans (if_neg (by simp only [JValue.depth] at hd; omega))
  | .arr (v :: vs), h => by
    have hall : ∀ w ∈ v :: vs, Reads (elemsDepth (v :: vs)) (w.render sw cw) w := fun w hw =>
      (reads_elems hsw hcw (v :: vs) h w hw).mono (le_elemsDepth hw)
    intro fuel depth r hf hd _
    obtain ⟨k, rfl⟩ : ∃ k, fuel = k + 1 := ⟨fuel - 1, by omega⟩
    obtain ⟨c, t, hct, hc, h93⟩ := @render_head sw cw _ h.1
    simp only [JValue.depth] at hd
    simp only [JValue.render, List.cons_append, List.length_cons, List.length_append] at hf ⊢
    rw [List.append_assoc, hct, List.cons_append, parseValue_array hc h93, if_neg (by omega), ← List.cons_append,
      ← hct, ← List.nil_append (JValue.render sw cw v ++ _),
      elems_reads_render hsw vs v hall k k (depth + 1) [] r (fun _ => nofun) (by simp; omega) (by simp; omega)
        (by omega)]
    rfl
  | .obj [], _ => by
    intro fuel depth r hf hd _
    obtain ⟨k, rfl⟩ : ∃ k, fuel = k + 1 := ⟨fuel - 1, by omega⟩
    exact (parseValue_object_empty k depth r).trans (if_neg (by simp only [JValue.depth] at hd; omega))
  | .obj ((key, v) :: ms), h => by
    have hall : ∀ m ∈ (key, v) :: ms, StrBody m.1 ∧ Reads (membersDepth ((key, v) :: ms)) (m.2.render sw cw) m.2 :=
      fun m hm => ⟨(reads_members hsw hcw _ h m hm).1, (reads_members hsw hcw _ h m hm).2.mono (le_membersDepth hm)⟩
    intro fuel depth r hf hd _
    obtain ⟨k, rfl⟩ : ∃ k, fuel = k + 1 := ⟨fuel - 1, by omega⟩
    simp only [JValue.depth] at hd
    simp only [JValue.render, List.cons_append, List.length_cons, List.length_append, List.append_assoc] at hf ⊢
    rw [parseValue_object, if_neg (by omega),
      ← List.nil_append (34 :: _),
      members_reads_render hsw hcw ms key v hall k k (depth + 1) [] r (fun _ => nofun) (by simp; omega)
        (by simp; omega) (by omega)]
    rfl

theorem reads_elems (hsw : Blank sw) (hcw : Blank cw) :
    ∀ vs : List JValue, ElemsWf vs → ∀ w ∈ vs, Reads w.depth (w.render sw cw) w
  | [], _, _, hw => nomatch hw
  | v :: vs, ⟨hv, hvs⟩, w, hw =>
    (List.mem_cons.1 hw).elim (fun e => e ▸ reads_render hsw hcw v hv) (reads_elems hsw hcw vs hvs w)

theorem reads_members (hsw : Blank sw) (hcw : Blank cw) :
    ∀ ms : List (Bytes × JValue), MembersWf ms → ∀ m ∈ ms, StrBody m.1 ∧ Reads m.2.depth (m.2.render sw cw) m.2
  | [], _, _, hm => nomatch hm
  | (_, v) :: ms, ⟨hk, hv, hms⟩, m, hm =>
    (List.mem_cons.1 hm).elim (fun e => e ▸ ⟨hk, reads_render hsw hcw v hv⟩) (reads_members hsw hcw ms hms m)
end

/-- Rendering a well-formed value within the nesting limit, with any blank
separators, gives text that parses back to the value. -/
theorem parse_render (hsw : Blank sw) (hcw : Blank cw) {v : JValue} (h : v.Wf) (hd : v.depth ≤ maxNestingDepth) :
    parse (v.render sw cw) = some v :=
  (reads_render hsw hcw v h).parse_eq hd

end Render

end Json

end Taskflow
