import Taskflow.Strconv

/-!
# Decoding JSON into a Go struct (`encoding/json`, Go 1.21)

What `json.Unmarshal(payload, &p)` does for the payload structs of
`internal/types`, on any bytes. It runs in two passes, as Go's does:

1. `parse` is the scanner of `checkValid`: one JSON value with whitespace
   around it, strings free of control bytes and with the nine escapes only,
   numbers in JSON's grammar, at most 10000 nested arrays and objects. Bytes it
   refuses make a `SyntaxError`, and nothing is stored.
2. `decodeStruct` stores the members of the top object into the fields their
   keys name, in order. A key names a field when the two agree under Go's
   `foldName`; other keys are skipped unread. A value of the wrong kind for its
   field makes an `UnmarshalTypeError`: the first one is what `Unmarshal`
   returns.

The leaves come first (whitespace, numbers, strings and their unquoting, key
folding), then values, then the decoding.
-/

namespace Taskflow

namespace Json

/-- A JSON value as the scanner reads it: numbers are kept as their literal
and strings as the bytes between the quotes, escapes as written. -/
inductive JValue where
  | null
  | bool (b : Bool)
  | num (lit : Bytes)
  | str (raw : Bytes)
  | arr (items : List JValue)
  | obj (members : List (Bytes × JValue))

/-! ## Whitespace, numbers and strings -/

/-- JSON whitespace: space, tab, line feed and carriage return. -/
def isSpace (c : UInt8) : Bool := c == 32 || c == 9 || c == 10 || c == 13

def skipSpace : Bytes → Bytes
  | c :: cs => if isSpace c then skipSpace cs else c :: cs
  | [] => []

/-- A hexadecimal digit, in either case. -/
def isHex (c : UInt8) : Bool :=
  strconv.isDigit c || (97 ≤ c && c ≤ 102) || (65 ≤ c && c ≤ 70)

/-- `stateBeginValue` and `stateNeg`: an optional minus. -/
def numSign : Bytes → Bytes × Bytes
  | 45 :: r => ([45], r)
  | r => ([], r)

/-- `state0` and `state1`: `0`, or a nonzero digit and the digits after it. -/
def numInt : Bytes → Option (Bytes × Bytes)
  | 48 :: r => some ([48], r)
  | c :: r =>
    if 49 ≤ c ∧ c ≤ 57 then
      let (ds, r) := r.span strconv.isDigit
      some (c :: ds, r)
    else none
  | [] => none

/-- `stateDot` and `stateDot0`: when a `.` comes, it and at least one digit. -/
def numFrac : Bytes → Option (Bytes × Bytes)
  | 46 :: r =>
    let (ds, r) := r.span strconv.isDigit
    if ds = [] then none else some (46 :: ds, r)
  | r => some ([], r)

/-- `stateESign`: the optional sign of an exponent. -/
def expSign : Bytes → Bytes × Bytes
  | 43 :: r => ([43], r)
  | 45 :: r => ([45], r)
  | r => ([], r)

/-- `stateE` and `stateE0`: when an `e` or `E` comes, it, an optional sign
and at least one digit. -/
def numExp : Bytes → Option (Bytes × Bytes)
  | e :: r =>
    if e = 101 ∨ e = 69 then
      let (s, r) := expSign r
      let (ds, r) := r.span strconv.isDigit
      if ds = [] then none else some (e :: s ++ ds, r)
    else some ([], e :: r)
  | [] => some ([], [])

/-- The scanner's number states, one part after the other: the literal, and
the bytes after it. -/
def scanNumber (cs : Bytes) : Option (Bytes × Bytes) :=
  let (s, cs) := numSign cs
  (numInt cs).bind fun (i, cs) =>
    (numFrac cs).bind fun (f, cs) =>
      (numExp cs).map fun (e, r) => (s ++ i ++ f ++ e, r)

example : scanNumber (bytes "-12.50e+3,") = some (bytes "-12.50e+3", bytes ",") := by decide
example : scanNumber (bytes "01") = some (bytes "0", bytes "1") := by decide
example : scanNumber (bytes "1.e5") = none := by decide

/-- The scanner inside a string, after its opening quote (`stateInString` and
the escape states): the bytes up to the closing quote, and what follows it.
A control byte, or a backslash that does not start one of `\"`, `\\`, `\/`,
`\b`, `\f`, `\n`, `\r`, `\t` or `\u` and four hexadecimal digits, ends the
scan with an error. -/
def scanString : Bytes → Option (Bytes × Bytes)
  | [] => none
  | 34 :: cs => some ([], cs)
  | 92 :: e :: cs =>
    if e ∈ [34, 92, 47, 98, 102, 110, 114, 116] then
      (scanString cs).map fun (s, r) => (92 :: e :: s, r)
    else if e = 117 then
      match cs with
      | a :: b :: c :: d :: cs' =>
        if isHex a ∧ isHex b ∧ isHex c ∧ isHex d then
          (scanString cs').map fun (s, r) => (92 :: 117 :: a :: b :: c :: d :: s, r)
        else none
      | _ => none
    else none
  | c :: cs => if c < 32 then none else (scanString cs).map fun (s, r) => (c :: s, r)

/-! ## Unquoting and key folding -/

/-- The value of a hexadecimal digit. -/
def hexVal (c : UInt8) : Nat :=
  if c ≤ 57 then c.toNat - 48 else if c ≤ 70 then c.toNat - 55 else c.toNat - 87

/-- `getu4`: the code unit of four hexadecimal digits. -/
def hex4 (a b c d : UInt8) : Nat := ((hexVal a * 16 + hexVal b) * 16 + hexVal c) * 16 + hexVal d

/-- A UTF-8 continuation byte within `[lo, hi]`. -/
def contIn (lo hi : UInt8) (b : UInt8) : Bool := lo ≤ b && b ≤ hi

/-- `utf8.DecodeRune` on `c :: rest` with `c ≥ 0x80`, by the rows of the UTF-8
table: the rune and the bytes after it; an invalid or cut-short sequence gives
U+FFFD and consumes `c` alone. -/
def decodeRune (c : UInt8) (rest : Bytes) : Nat × Bytes :=
  let v (b : UInt8) : Nat := b.toNat % 64
  match rest with
  | b1 :: r1 =>
    if 0xC2 ≤ c ∧ c ≤ 0xDF ∧ contIn 0x80 0xBF b1 then ((c.toNat % 32) * 64 + v b1, r1)
    else if 0xE0 ≤ c ∧ c ≤ 0xEF ∧
        contIn (if c = 0xE0 then 0xA0 else 0x80) (if c = 0xED then 0x9F else 0xBF) b1 then
      match r1 with
      | b2 :: r2 =>
        if contIn 0x80 0xBF b2 then (((c.toNat % 16) * 64 + v b1) * 64 + v b2, r2)
        else (0xFFFD, rest)
      | [] => (0xFFFD, rest)
    else if 0xF0 ≤ c ∧ c ≤ 0xF4 ∧
        contIn (if c = 0xF0 then 0x90 else 0x80) (if c = 0xF4 then 0x8F else 0xBF) b1 then
      match r1 with
      | b2 :: b3 :: r3 =>
        if contIn 0x80 0xBF b2 ∧ contIn 0x80 0xBF b3 then
          ((((c.toNat % 8) * 64 + v b1) * 64 + v b2) * 64 + v b3, r3)
        else (0xFFFD, rest)
      | _ => (0xFFFD, rest)
    else (0xFFFD, rest)
  | [] => (0xFFFD, [])

/-- The character a one-letter escape stands for. -/
def escapeChar (e : UInt8) : Nat :=
  if e = 98 then 8 else if e = 102 then 12 else if e = 110 then 10
  else if e = 114 then 13 else if e = 116 then 9 else e.toNat

/-- `unquoteBytes` of a scanned string, as runes: escapes are decoded, a
surrogate pair is combined, and a lone surrogate or an invalid UTF-8 sequence
becomes U+FFFD. Every step consumes a byte, so `fuel` at least the length of
the bytes suffices. -/
def unquoteFuel : Nat → Bytes → List Nat
  | 0, _ => []
  | _, [] => []
  | fuel + 1, 92 :: 117 :: a :: b :: c :: d :: rest =>
    let r := hex4 a b c d
    if 0xD800 ≤ r ∧ r < 0xDC00 then
      match rest with
      | 92 :: 117 :: e :: f :: g :: h :: rest' =>
        let r₂ := hex4 e f g h
        if 0xDC00 ≤ r₂ ∧ r₂ < 0xE000 then
          (0x10000 + (r - 0xD800) * 0x400 + (r₂ - 0xDC00)) :: unquoteFuel fuel rest'
        else 0xFFFD :: unquoteFuel fuel rest
      | _ => 0xFFFD :: unquoteFuel fuel rest
    else if 0xDC00 ≤ r ∧ r < 0xE000 then 0xFFFD :: unquoteFuel fuel rest
    else r :: unquoteFuel fuel rest
  | fuel + 1, 92 :: e :: rest => escapeChar e :: unquoteFuel fuel rest
  | fuel + 1, c :: rest =>
    if c < 0x80 then c.toNat :: unquoteFuel fuel rest
    else
      let (r, rest) := decodeRune c rest
      r :: unquoteFuel fuel rest

/-- `unquoteBytes`, as runes. -/
def unquote (raw : Bytes) : List Nat := unquoteFuel raw.length raw

/-- The byte `foldName` makes of a rune, where that byte is ASCII: an ASCII
letter in upper case, any other ASCII byte unchanged. A rune past ASCII is
folded by `foldRune` to the least rune of its `unicode.SimpleFold` orbit, which
is ASCII only for U+017F (long s, orbit `S s ſ`) and U+212A (Kelvin sign,
orbit `K k K`); U+0131 (dotless i) is alone in its orbit and stays. -/
def foldRune (r : Nat) : Option Nat :=
  if r < 0x80 then some (if 97 ≤ r ∧ r ≤ 122 then r - 32 else r)
  else if r = 0x17F then some 83
  else if r = 0x212A then some 75
  else none

/-- Whether a key names the field `name`: `byExactName`, else
`byFoldedName[foldName(key)]`. Field names are ASCII, so the two names fold
alike exactly when they do rune by rune. -/
def keyMatches (key : List Nat) (name : String) : Bool :=
  key.map foldRune = name.toList.map fun c => foldRune c.toNat

/-! ## Values -/

/-- The scanner's nesting limit, `maxNestingDepth`. -/
def maxNestingDepth : Nat := 10000

/-- The elements of an array after its first one starts: each read by `pv`,
then `,` or `]`. -/
def parseElemsRest (pv : Bytes → Option (JValue × Bytes)) : Nat → Bytes → Option (List JValue × Bytes)
  | 0, _ => none
  | fuel + 1, cs => do
    let (v, r) ← pv cs
    match skipSpace r with
    | 44 :: r =>
      let (vs, r) ← parseElemsRest pv fuel r
      pure (v :: vs, r)
    | 93 :: r => pure ([v], r)
    | _ => none

/-- The members of an object after its first key starts: a string key, `:`,
a value read by `pv`, then `,` or `}`. -/
def parseMembersRest (pv : Bytes → Option (JValue × Bytes)) :
    Nat → Bytes → Option (List (Bytes × JValue) × Bytes)
  | 0, _ => none
  | fuel + 1, cs =>
    match skipSpace cs with
    | 34 :: r => do
      let (k, r) ← scanString r
      match skipSpace r with
      | 58 :: r =>
        let (v, r) ← pv r
        match skipSpace r with
        | 44 :: r =>
          let (ms, r) ← parseMembersRest pv fuel r
          pure ((k, v) :: ms, r)
        | 125 :: r => pure ([(k, v)], r)
        | _ => none
      | _ => none
    | _ => none

/-- The rest of `true`, `false` or `null` after its first byte: the scanner's
literal states accept exactly these bytes next. -/
def literal (word : Bytes) (v : JValue) (cs : Bytes) : Option (JValue × Bytes) :=
  if cs.take word.length = word then some (v, cs.drop word.length) else none

/-- A value at nesting depth `depth`, by its first byte as `stateBeginValue`
switches on it. Every call consumes a byte before it recurses, so `fuel`
above the length of the bytes suffices. -/
def parseValue : Nat → Nat → Bytes → Option (JValue × Bytes)
  | 0, _, _ => none
  | fuel + 1, depth, cs =>
    match skipSpace cs with
    | [] => none
    | c :: r =>
      if c = 123 then
        if maxNestingDepth < depth + 1 then none
        else match skipSpace r with
          | 125 :: r => some (.obj [], r)
          | _ => (parseMembersRest (parseValue fuel (depth + 1)) fuel r).map
              fun (ms, r) => (.obj ms, r)
      else if c = 91 then
        if maxNestingDepth < depth + 1 then none
        else match skipSpace r with
          | 93 :: r => some (.arr [], r)
          | _ => (parseElemsRest (parseValue fuel (depth + 1)) fuel r).map
              fun (vs, r) => (.arr vs, r)
      else if c = 34 then (scanString r).map fun (s, r) => (.str s, r)
      else if c = 116 then literal [114, 117, 101] (.bool true) r
      else if c = 102 then literal [97, 108, 115, 101] (.bool false) r
      else if c = 110 then literal [117, 108, 108] .null r
      else (scanNumber (c :: r)).map fun (n, r) => (.num n, r)

/-- `checkValid`, then the value: one JSON value with only whitespace around
it, or `none` for a `SyntaxError`. -/
def parse (bs : Bytes) : Option JValue :=
  match parseValue (bs.length + 1) 0 bs with
  | some (v, r) => if skipSpace r = [] then some v else none
  | none => none

example : (parse (bytes " [1, true, \"a\", \x7b\"k\": null\x7d] ")).isSome = true := by decide
example : (parse (bytes "tru")).isNone = true := by decide

/-! ## Storing values into Go fields -/

/-- The Go types of the payload structs' fields, as the decoder treats them. -/
inductive GoType where
  | string
  | bool
  | int
  | stringSlice
  | intSlice
  | stringMap
  | anyMap
  | any
deriving DecidableEq, Repr

mutual
/-- Whether a value stores into `interface{}` without error: every number in
it must pass `ParseFloat` (`convertNumber`). -/
def JValue.fitsAny : JValue → Bool
  | .num lit => !strconv.parseFloatOverflows lit
  | .arr vs => fitsAnyList vs
  | .obj ms => fitsAnyMembers ms
  | _ => true

def fitsAnyList : List JValue → Bool
  | [] => true
  | v :: vs => v.fitsAny && fitsAnyList vs

def fitsAnyMembers : List (Bytes × JValue) → Bool
  | [] => true
  | (_, v) :: ms => v.fitsAny && fitsAnyMembers ms
end

/-- Whether a value stores into a `string`: `null` is ignored, a string is
stored, anything else is an `UnmarshalTypeError`. -/
def JValue.fitsString : JValue → Bool
  | .null | .str _ => true
  | _ => false

/-- Whether a value stores into an `int`: `null` is ignored; a number must
pass `ParseInt(s, 10, 64)`, so it has no fraction or exponent and fits. -/
def JValue.fitsInt : JValue → Bool
  | .null => true
  | .num lit => (strconv.parseInt lit).2.isNone
  | _ => false

/-- Whether a value stores into a Go value of type `t` without an
`UnmarshalTypeError`. `null` stores into every type: strings, booleans and
numbers ignore it, and slices, maps and interfaces become nil. -/
def GoType.accepts : GoType → JValue → Bool
  | _, .null => true
  | .string, v => v.fitsString
  | .bool, v => (v matches .bool _)
  | .int, v => v.fitsInt
  | .stringSlice, .arr vs => vs.all JValue.fitsString
  | .intSlice, .arr vs => vs.all JValue.fitsInt
  | .stringMap, .obj ms => ms.all fun m => m.2.fitsString
  | .anyMap, .obj ms => fitsAnyMembers ms
  | .any, v => v.fitsAny
  | _, _ => false

/-- Whether `null` clears a field of type `t`; other types ignore it. -/
def GoType.nullable : GoType → Bool
  | .stringSlice | .intSlice | .stringMap | .anyMap | .any => true
  | _ => false

/-- The kinds of error `json.Unmarshal` returns. Their texts, which come from
Go's library, are not modelled. -/
inductive JsonError where
  /-- `*SyntaxError`: the bytes are not one JSON value. -/
  | syntaxError
  /-- `*UnmarshalTypeError`, the first one met: a value of the wrong kind for
  the field with this JSON name, or for the whole struct (empty name). -/
  | unmarshalTypeError (field : String)
deriving DecidableEq, Repr

/-- A decoded struct: for each field, by its JSON name, the value last stored
into it, or `none` while it holds its zero value. -/
abbrev Decoded := String → Option JValue

/-- The members of the top object, in order: a member whose key names a field
is stored into it, others are skipped. -/
def decodeMembers (fields : List (String × GoType)) :
    List (Bytes × JValue) → Decoded → Except JsonError Decoded
  | [], st => .ok st
  | (k, v) :: ms, st =>
    match fields.find? fun f => keyMatches (unquote k) f.1 with
    | none => decodeMembers fields ms st
    | some (name, t) =>
      if t.accepts v then
        let stored : Option JValue := match v with
          | .null => if t.nullable then none else st name
          | v => some v
        decodeMembers fields ms fun n => if n = name then stored else st n
      else .error (.unmarshalTypeError name)

/-- `d.value` on a pointer to a struct with these fields: `null` leaves it
zero, an object fills it, anything else is an `UnmarshalTypeError`. -/
def decodeStruct (fields : List (String × GoType)) : JValue → Except JsonError Decoded
  | .null => .ok fun _ => none
  | .obj ms => decodeMembers fields ms fun _ => none
  | _ => .error (.unmarshalTypeError "")

/-- `json.Unmarshal` into a struct with these fields. -/
def unmarshal (fields : List (String × GoType)) (bs : Bytes) : Except JsonError Decoded :=
  match parse bs with
  | none => .error .syntaxError
  | some v => decodeStruct fields v

/-- The Go string a field holds: the runes of the string last stored, or the
empty string. -/
def Decoded.string (st : Decoded) (name : String) : List Nat :=
  match st name with
  | some (.str raw) => unquote raw
  | _ => []

/-- The elements of the array last stored into a slice field; `len` of the
slice is their number. -/
def Decoded.elems (st : Decoded) (name : String) : List JValue :=
  match st name with
  | some (.arr vs) => vs
  | _ => []

/-! ## What decoding stores

`decodeMembers` is a loop over the members; what it computes, stated without
the loop: it succeeds exactly when every member whose key names a field holds
a value of that field's kind, and then each field holds what the last member
deciding it stored. -/

/-- The field a key names: the first field whose name it matches under
`foldName`. -/
def fieldOf (fields : List (String × GoType)) (k : Bytes) : Option (String × GoType) :=
  fields.find? fun f => keyMatches (unquote k) f.1

/-- Every member whose key names a field holds a value of that field's kind. -/
def MembersFit (fields : List (String × GoType)) (ms : List (Bytes × JValue)) : Prop :=
  ∀ m ∈ ms, ∀ f, fieldOf fields m.1 = some f → f.2.accepts m.2 = true

/-- Whether a member decides what the field `name` holds: its key names the
field, and its value is not `null` or the field is one `null` clears. -/
def decides (fields : List (String × GoType)) (name : String) (m : Bytes × JValue) : Bool :=
  match fieldOf fields m.1 with
  | some (n, t) => n == name && (!(m.2 matches .null) || t.nullable)
  | none => false

/-- What the last member deciding the field `name` leaves in it: `some (some
v)` for a value, `some none` for a `null` that cleared it, `none` when no
member decides it. -/
def lastStored (fields : List (String × GoType)) (ms : List (Bytes × JValue)) (name : String) :
    Option (Option JValue) :=
  (ms.reverse.find? (decides fields name)).map fun m => if m.2 matches .null then none else some m.2

/-- The struct the members of an object fill, starting from the zero struct:
each field as the last member deciding it left it. -/
def stored (fields : List (String × GoType)) (ms : List (Bytes × JValue)) : Decoded :=
  fun n => (lastStored fields ms n).getD none

theorem lastStored_cons (fields : List (String × GoType)) (m : Bytes × JValue) (ms : List (Bytes × JValue))
    (name : String) :
    lastStored fields (m :: ms) name =
      match lastStored fields ms name with
      | some x => some x
      | none => if decides fields name m then some (if m.2 matches .null then none else some m.2) else none := by
  unfold lastStored
  rw [List.reverse_cons, List.find?_append]
  cases ms.reverse.find? (decides fields name) with
  | some x => rfl
  | none =>
    simp only [Option.none_or, List.find?_cons, List.find?_nil]
    split <;> simp_all

/-- The loop of `decodeMembers`, from any struct `st`, succeeds exactly when
the members fit their fields, and leaves each field as the last member
deciding it stored, or as `st` had it. -/
theorem decodeMembers_ok_iff (fields : List (String × GoType)) :
    ∀ (ms : List (Bytes × JValue)) (st st' : Decoded),
      decodeMembers fields ms st = .ok st' ↔
        MembersFit fields ms ∧ ∀ n, st' n = (lastStored fields ms n).getD (st n)
  | [], st, st' => by
    simp only [decodeMembers, Except.ok.injEq, MembersFit, List.not_mem_nil, false_imp_iff, implies_true,
      true_and, lastStored, List.reverse_nil, List.find?_nil, Option.map_none', Option.getD_none]
    exact ⟨fun h => h ▸ fun _ => rfl, fun h => (funext h).symm⟩
  | (k, v) :: ms, st, st' => by
    have hfit : MembersFit fields ((k, v) :: ms) ↔
        (∀ f, fieldOf fields k = some f → f.2.accepts v = true) ∧ MembersFit fields ms := by
      simp only [MembersFit, List.mem_cons, forall_eq_or_imp]
    rw [hfit]
    simp only [lastStored_cons]
    show (match fieldOf fields k with
      | none => decodeMembers fields ms st
      | some (name, t) => _) = _ ↔ _
    cases hf : fieldOf fields k with
    | none =>
      have hd : ∀ n, decides fields n (k, v) = false := fun n => by simp [decides, hf]
      have hm : ∀ n, (match lastStored fields ms n with
          | some x => some x
          | none => if decides fields n (k, v) then some (if (k, v).2 matches .null then none else some (k, v).2)
              else none) = lastStored fields ms n := fun n => by
        cases lastStored fields ms n <;> simp [hd]
      simp [decodeMembers_ok_iff fields ms st st', hm]
    | some f =>
      obtain ⟨name, t⟩ := f
      dsimp only
      split
      · rename_i hacc
        rw [decodeMembers_ok_iff fields ms]
        refine and_congr (by simp [hacc]) (forall_congr' fun n => ?_)
        cases hl : lastStored fields ms n with
        | some x => rfl
        | none =>
          simp only [Option.getD_none, decides, hf]
          by_cases hn : n = name
          · subst hn
            cases v <;> cases t <;> simp [GoType.nullable]
          · simp [hn, Ne.symm hn]
      · rename_i hacc
        exact iff_of_false nofun fun ⟨⟨h, _⟩, _⟩ => hacc (h _ rfl)

/-- `json.Unmarshal` into a struct succeeds with a struct satisfying `P`,
which the zero struct does not, exactly when the bytes are one JSON object
whose members fit their fields and fill a struct satisfying `P`. -/
theorem unmarshal_obj_iff (fields : List (String × GoType)) (b : Bytes) {P : Decoded → Prop}
    (hzero : ¬P fun _ => none) :
    (∃ st, unmarshal fields b = .ok st ∧ P st) ↔
      ∃ ms, parse b = some (.obj ms) ∧ MembersFit fields ms ∧ P (stored fields ms) := by
  unfold unmarshal
  constructor
  · rintro ⟨st, hst, hp⟩
    split at hst
    · cases hst
    · rename_i v hv
      cases v with
      | null => cases hst; exact absurd hp hzero
      | obj ms =>
        obtain ⟨hfit, heq⟩ := (decodeMembers_ok_iff fields ms _ st).1 hst
        exact ⟨ms, hv, hfit, by rwa [show stored fields ms = st from funext fun n => (heq n).symm]⟩
      | _ => cases hst
  · rintro ⟨ms, hv, hfit, hp⟩
    refine ⟨stored fields ms, ?_, hp⟩
    rw [hv]
    exact (decodeMembers_ok_iff fields ms _ _).2 ⟨hfit, fun _ => rfl⟩

end Json

namespace utf8

/-- `utf8.AppendRune`: the UTF-8 encoding of a rune; a surrogate or a value
past U+10FFFF is written as U+FFFD. -/
def appendRune (r : Nat) : Bytes :=
  let r := if 0xD800 ≤ r ∧ r ≤ 0xDFFF ∨ 0x10FFFF < r then 0xFFFD else r
  if r < 0x80 then [r.toUInt8]
  else if r < 0x800 then [(0xC0 + r / 64).toUInt8, (0x80 + r % 64).toUInt8]
  else if r < 0x10000 then
    [(0xE0 + r / 4096).toUInt8, (0x80 + r / 64 % 64).toUInt8, (0x80 + r % 64).toUInt8]
  else
    [(0xF0 + r / 262144).toUInt8, (0x80 + r / 4096 % 64).toUInt8, (0x80 + r / 64 % 64).toUInt8,
      (0x80 + r % 64).toUInt8]

/-- The runes of a byte string, as a `for range` loop reads them: an invalid
or cut-short sequence gives U+FFFD for its first byte. Every step consumes a
byte, so the length is enough fuel. -/
def runesFuel : Nat → Bytes → List Nat
  | 0, _ => []
  | _, [] => []
  | n + 1, c :: rest =>
    if c < 0x80 then c.toNat :: runesFuel n rest
    else (Json.decodeRune c rest).1 :: runesFuel n (Json.decodeRune c rest).2

/-- See `runesFuel`. -/
def runes (s : Bytes) : List Nat := runesFuel s.length s

end utf8

end Taskflow
