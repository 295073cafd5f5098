import Mathlib.Data.List.Basic

/-!
# Continuous tokens

`src/internal/repositories/memory/utils/pagination.go` turns the `ID` of a relation tuple
into the cursor a client passes back: `strconv.FormatUint(id, 10)`, then
`base64.StdEncoding.EncodeToString`. `ReadRelationships` undoes both with
`EncodedContinuousToken.Decode` and `strconv.ParseUint(…, 10, 64)`. This file models the
four library functions on byte strings and proves both round trips:
`parseUint (formatUint n) = some n` for every `uint64` (`parseUint_formatUint`) and
`decodeString (encodeToString bs) = some bs` for every byte string
(`decodeString_encodeToString`). `RelationshipReader` joins them into the token's.
`ParseUint` itself accepts exactly the non-empty decimal strings whose value fits in 64
bits (`parseUint_eq_some_iff`).

Mirroring notes vs the Go library:
- A Go `string` or `[]byte` is a sequence of bytes, `Bytes`. The conversions
  `[]byte(s)` and `string(b)` are the identity on it.
- `DecodeString` skips `\r` and `\n` wherever they stand, then reads quanta of four
  characters; a final quantum may end in `==` or `=`, and nothing may follow it. The low
  bits a padded quantum leaves over are ignored, as in the non-strict `StdEncoding`. The
  model returns `none` for each `CorruptInputError`, without its offset.
- `ParseUint(s, 10, 64)` fails on the empty string, on a byte that is not a decimal
  digit, and on a value past `2⁶⁴ - 1`; `ErrSyntax` and `ErrRange` are both `none`, as
  `ReadRelationships` answers both with the same error.
-/

namespace Permify.Memory

/-- A Go `string` or `[]byte`. -/
abbrev Bytes := List UInt8

/-! ## `strconv` -/

/-- The ASCII byte of a decimal digit. -/
def digitByte (d : Nat) : UInt8 := UInt8.ofNat (48 + d)

/-- The decimal digits of `n`, most significant first, `fuel` digits at most. -/
def formatDigits : Nat → Nat → Bytes
  | 0, _ => []
  | fuel + 1, n => (if n < 10 then [] else formatDigits fuel (n / 10)) ++ [digitByte (n % 10)]

/-- `strconv.FormatUint(n, 10)`. -/
def formatUint (n : UInt64) : Bytes := formatDigits (n.toNat + 1) n.toNat

/-- One byte of `strconv.ParseUint(s, 10, 64)`: the value so far times ten plus the digit,
while it stays below `2⁶⁴` (`UInt64.size`). -/
def parseDigit (acc : Option Nat) (c : UInt8) : Option Nat :=
  acc.bind fun n =>
    if 48 ≤ c.toNat ∧ c.toNat ≤ 57 ∧ 10 * n + (c.toNat - 48) < UInt64.size then
      some (10 * n + (c.toNat - 48))
    else none

/-- `strconv.ParseUint(s, 10, 64)`. -/
def parseUint (s : Bytes) : Option UInt64 :=
  if s = [] then none else (s.foldl parseDigit (some 0)).map UInt64.ofNat

theorem digitByte_toNat {d : Nat} (h : d < 10) : (digitByte d).toNat = 48 + d :=
  UInt8.toNat_ofNat_of_lt (by simp [UInt8.size]; omega)

theorem parseDigit_digitByte (n d : Nat) (hd : d < 10) (h : 10 * n + d < UInt64.size) :
    parseDigit (some n) (digitByte d) = some (10 * n + d) := by
  simp only [parseDigit, Option.some_bind, digitByte_toNat hd]
  rw [if_pos (by omega)]
  congr 1
  omega

theorem formatDigits_ne_nil (fuel n : Nat) (h : 0 < fuel) : formatDigits fuel n ≠ [] := by
  obtain ⟨fuel, rfl⟩ := Nat.exists_eq_add_of_lt h
  simp [formatDigits]

theorem foldl_formatDigits :
    ∀ (fuel n : Nat), n < fuel → n < UInt64.size →
      (formatDigits fuel n).foldl parseDigit (some 0) = some n
  | 0, _, h, _ => absurd h (Nat.not_lt_zero _)
  | fuel + 1, n, h, hn => by
    rw [formatDigits, List.foldl_append, List.foldl_cons, List.foldl_nil]
    split
    · rw [List.foldl_nil, parseDigit_digitByte 0 _ (Nat.mod_lt _ (by omega)) (by omega)]
      congr 1
      omega
    · rw [foldl_formatDigits fuel (n / 10) (by omega) (by omega),
        parseDigit_digitByte _ _ (Nat.mod_lt _ (by omega)) (by omega)]
      congr 1
      omega

/-- `ParseUint` reads back what `FormatUint` prints. -/
theorem parseUint_formatUint (n : UInt64) : parseUint (formatUint n) = some n := by
  have hn := n.toNat_lt_size
  rw [parseUint, formatUint, if_neg (formatDigits_ne_nil _ _ (Nat.succ_pos _)),
    foldl_formatDigits _ _ (Nat.lt_succ_self _) hn]
  exact congrArg some (UInt64.toNat.inj (UInt64.toNat_ofNat_of_lt hn))

/-- A decimal digit, `0`–`9`. -/
def IsDigit (c : UInt8) : Prop := 48 ≤ c.toNat ∧ c.toNat ≤ 57

instance : DecidablePred IsDigit := fun _ => inferInstanceAs (Decidable (_ ∧ _))

/-- One digit more of a decimal number. -/
def digitStep (n : Nat) (c : UInt8) : Nat := 10 * n + (c.toNat - 48)

/-- The number a string of decimal digits spells, most significant first. -/
def decimalValue (s : Bytes) : Nat := s.foldl digitStep 0

theorem foldl_parseDigit_none (s : Bytes) : s.foldl parseDigit none = none := by
  induction s <;> simp [parseDigit, *]

theorem le_foldl_digitStep : ∀ (s : Bytes) (a : Nat), a ≤ s.foldl digitStep a
  | [], _ => le_rfl
  | c :: s, a => le_trans (by simp only [digitStep]; omega) (le_foldl_digitStep s (digitStep a c))

/-- `ParseUint` checks the range after every digit; as the value only grows, that is one
check on the value of the whole string. -/
theorem foldl_parseDigit : ∀ (s : Bytes) (a : Nat), a < UInt64.size →
    s.foldl parseDigit (some a) =
      if (∀ c ∈ s, IsDigit c) ∧ s.foldl digitStep a < UInt64.size then some (s.foldl digitStep a)
      else none
  | [], a, ha => by simp [ha]
  | c :: s, a, ha => by
    rw [List.foldl_cons, List.foldl_cons]
    by_cases hc : IsDigit c ∧ digitStep a c < UInt64.size
    · have hp : parseDigit (some a) c = some (digitStep a c) := by
        simp only [parseDigit, Option.some_bind, digitStep]
        rw [if_pos ⟨hc.1.1, hc.1.2, hc.2⟩]
      rw [hp, foldl_parseDigit s _ hc.2]
      simp [hc.1]
    · have hp : parseDigit (some a) c = none := by
        simp only [parseDigit, Option.some_bind]
        rw [if_neg fun h => hc ⟨⟨h.1, h.2.1⟩, h.2.2⟩]
      rw [hp, foldl_parseDigit_none, if_neg]
      rintro ⟨hd, hlt⟩
      exact hc ⟨hd c (List.mem_cons_self _ _),
        lt_of_le_of_lt (le_foldl_digitStep s (digitStep a c)) hlt⟩

/-- `ParseUint(s, 10, 64)` accepts exactly the non-empty strings of decimal digits whose
value fits in 64 bits, leading zeros included, and returns that value. -/
theorem parseUint_eq_some_iff (s : Bytes) (v : UInt64) :
    parseUint s = some v ↔ s ≠ [] ∧ (∀ c ∈ s, IsDigit c) ∧ decimalValue s = v.toNat := by
  rw [parseUint, decimalValue]
  by_cases hs : s = []
  · simp [hs]
  rw [if_neg hs, foldl_parseDigit s 0 (by decide)]
  by_cases h : (∀ c ∈ s, IsDigit c) ∧ s.foldl digitStep 0 < UInt64.size
  · rw [if_pos h, Option.map_some', Option.some_inj]
    constructor
    · rintro rfl
      exact ⟨hs, h.1, (UInt64.toNat_ofNat_of_lt h.2).symm⟩
    · rintro ⟨-, -, hv⟩
      exact UInt64.toNat.inj (by rw [UInt64.toNat_ofNat_of_lt h.2, hv])
  · rw [if_neg h]
    simp only [Option.map_none', reduceCtorEq, false_iff, not_and]
    intro _ hd hv
    exact h ⟨hd, hv ▸ v.toNat_lt_size⟩

/-! ## `base64.StdEncoding` -/

/-- The padding character `=`. -/
def padChar : UInt8 := 61

/-- The `StdEncoding` alphabet `A–Z a–z 0–9 + /`: the character of a six-bit value. -/
def encodeStd (v : Nat) : UInt8 :=
  UInt8.ofNat <|
    if v < 26 then 65 + v else if v < 52 then 71 + v else if v < 62 then v - 4
    else if v = 62 then 43 else 47

/-- `decodeMap`: the six-bit value of a character of the alphabet. -/
def decodeMap (c : UInt8) : Option Nat :=
  if 65 ≤ c.toNat ∧ c.toNat ≤ 90 then some (c.toNat - 65)
  else if 97 ≤ c.toNat ∧ c.toNat ≤ 122 then some (c.toNat - 71)
  else if 48 ≤ c.toNat ∧ c.toNat ≤ 57 then some (c.toNat + 4)
  else if c.toNat = 43 then some 62
  else if c.toNat = 47 then some 63
  else none

theorem decodeMap_encodeStd : ∀ v, v < 64 → decodeMap (encodeStd v) = some v := by
  decide

/-- The four characters of a 24-bit group `v`. -/
def encodeGroup (v : Nat) : Bytes :=
  [encodeStd (v / 262144), encodeStd (v / 4096 % 64), encodeStd (v / 64 % 64), encodeStd (v % 64)]

/-- `EncodeToString`: three bytes to four characters, and a last group of one or two
bytes padded with `==` or `=`. -/
def encodeToString : Bytes → Bytes
  | b₀ :: b₁ :: b₂ :: rest =>
    encodeGroup (b₀.toNat * 65536 + b₁.toNat * 256 + b₂.toNat) ++ encodeToString rest
  | [b₀, b₁] => (encodeGroup (b₀.toNat * 65536 + b₁.toNat * 256)).take 3 ++ [padChar]
  | [b₀] => (encodeGroup (b₀.toNat * 65536)).take 2 ++ [padChar, padChar]
  | [] => []

/-- The three bytes of the 24-bit group of four six-bit values, of which the decoder keeps
the first `n`. -/
def decodeGroup (v₀ v₁ v₂ v₃ n : Nat) : Bytes :=
  let v := v₀ * 262144 + v₁ * 4096 + v₂ * 64 + v₃
  [UInt8.ofNat (v / 65536), UInt8.ofNat (v / 256 % 256), UInt8.ofNat (v % 256)].take n

/-- `decodeQuantum`, repeated to the end of the input, once newlines are gone. -/
def decodeQuanta : Bytes → Option Bytes
  | [] => some []
  | c₀ :: c₁ :: c₂ :: c₃ :: rest =>
    match decodeMap c₀, decodeMap c₁, decodeMap c₂, decodeMap c₃ with
    | some v₀, some v₁, some v₂, some v₃ => (decodeQuanta rest).map (decodeGroup v₀ v₁ v₂ v₃ 3 ++ ·)
    | some v₀, some v₁, some v₂, none =>
      if c₃ = padChar ∧ rest = [] then some (decodeGroup v₀ v₁ v₂ 0 2) else none
    | some v₀, some v₁, none, none =>
      if c₂ = padChar ∧ c₃ = padChar ∧ rest = [] then some (decodeGroup v₀ v₁ 0 0 1) else none
    | _, _, _, _ => none
  | _ => none

/-- `DecodeString`. -/
def decodeString (s : Bytes) : Option Bytes :=
  decodeQuanta (s.filter fun c => c ≠ 10 ∧ c ≠ 13)

theorem ofNat_toNat (b : UInt8) : UInt8.ofNat b.toNat = b :=
  UInt8.toNat.inj (UInt8.toNat_ofNat_of_lt b.toNat_lt_size)

theorem decodeMap_padChar : decodeMap padChar = none := by decide

theorem padChar_toNat : padChar.toNat = 61 := rfl

theorem encodeStd_toNat_ge (v : Nat) : 43 ≤ (encodeStd v).toNat := by
  unfold encodeStd
  split_ifs <;> rw [UInt8.toNat_ofNat_of_lt (by simp only [UInt8.size]; omega)] <;> omega

theorem encodeToString_toNat_ge : ∀ (bs : Bytes), ∀ c ∈ encodeToString bs, 43 ≤ c.toNat
  | b₀ :: b₁ :: b₂ :: rest => by
    simp only [encodeToString, encodeGroup, List.cons_append, List.nil_append,
      List.forall_mem_cons]
    exact ⟨encodeStd_toNat_ge _, encodeStd_toNat_ge _, encodeStd_toNat_ge _,
      encodeStd_toNat_ge _, encodeToString_toNat_ge rest⟩
  | [b₀, b₁] => by
    simp [encodeToString, encodeGroup, encodeStd_toNat_ge, padChar_toNat]
  | [b₀] => by
    simp [encodeToString, encodeGroup, encodeStd_toNat_ge, padChar_toNat]
  | [] => by simp [encodeToString]

theorem encodeToString_newline_free (bs : Bytes) :
    (encodeToString bs).filter (fun c => c ≠ 10 ∧ c ≠ 13) = encodeToString bs := by
  refine List.filter_eq_self.2 fun c hc => ?_
  have h := encodeToString_toNat_ge bs c hc
  have h10 : c ≠ 10 := fun he => by rw [he] at h; exact absurd h (by decide)
  have h13 : c ≠ 13 := fun he => by rw [he] at h; exact absurd h (by decide)
  simp [h10, h13]

/-- A group decodes to the bytes whose 24 bits its six-bit values hold. -/
theorem decodeGroup_of_eq {v₀ v₁ v₂ v₃ : Nat} (b₀ b₁ b₂ : UInt8) (n : Nat)
    (h : v₀ * 262144 + v₁ * 4096 + v₂ * 64 + v₃ =
      b₀.toNat * 65536 + b₁.toNat * 256 + b₂.toNat) :
    decodeGroup v₀ v₁ v₂ v₃ n = [b₀, b₁, b₂].take n := by
  have h₀ := b₀.toNat_lt_size
  have h₁ := b₁.toNat_lt_size
  have h₂ := b₂.toNat_lt_size
  simp only [UInt8.size] at h₀ h₁ h₂
  unfold decodeGroup
  simp only [h, show (b₀.toNat * 65536 + b₁.toNat * 256 + b₂.toNat) / 65536 = b₀.toNat by omega,
    show (b₀.toNat * 65536 + b₁.toNat * 256 + b₂.toNat) / 256 % 256 = b₁.toNat by omega,
    show (b₀.toNat * 65536 + b₁.toNat * 256 + b₂.toNat) % 256 = b₂.toNat by omega, ofNat_toNat]

theorem decodeQuanta_group (v : Nat) (hv : v < 16777216) (rest : Bytes) :
    decodeQuanta (encodeGroup v ++ rest) =
      (decodeQuanta rest).map (decodeGroup (v / 262144) (v / 4096 % 64) (v / 64 % 64) (v % 64) 3
        ++ ·) := by
  simp only [encodeGroup, List.cons_append, List.nil_append, List.append_eq, decodeQuanta,
    decodeMap_encodeStd _ (show v / 262144 < 64 by omega),
    decodeMap_encodeStd _ (show v / 4096 % 64 < 64 by omega),
    decodeMap_encodeStd _ (show v / 64 % 64 < 64 by omega),
    decodeMap_encodeStd _ (show v % 64 < 64 by omega)]

theorem decodeQuanta_group_pad (v : Nat) (hv : v < 16777216) :
    decodeQuanta ((encodeGroup v).take 3 ++ [padChar]) =
      some (decodeGroup (v / 262144) (v / 4096 % 64) (v / 64 % 64) 0 2) := by
  simp [encodeGroup, decodeQuanta, decodeMap_padChar,
    decodeMap_encodeStd _ (show v / 262144 < 64 by omega),
    decodeMap_encodeStd _ (show v / 4096 % 64 < 64 by omega),
    decodeMap_encodeStd _ (show v / 64 % 64 < 64 by omega)]

theorem decodeQuanta_group_pad_pad (v : Nat) (hv : v < 16777216) :
    decodeQuanta ((encodeGroup v).take 2 ++ [padChar, padChar]) =
      some (decodeGroup (v / 262144) (v / 4096 % 64) 0 0 1) := by
  simp [encodeGroup, decodeQuanta, decodeMap_padChar,
    decodeMap_encodeStd _ (show v / 262144 < 64 by omega),
    decodeMap_encodeStd _ (show v / 4096 % 64 < 64 by omega)]

theorem decodeQuanta_encodeToString : ∀ bs : Bytes, decodeQuanta (encodeToString bs) = some bs
  | b₀ :: b₁ :: b₂ :: rest => by
    have h₀ := b₀.toNat_lt_size
    have h₁ := b₁.toNat_lt_size
    have h₂ := b₂.toNat_lt_size
    simp only [UInt8.size] at h₀ h₁ h₂
    rw [encodeToString, decodeQuanta_group _ (by omega), decodeQuanta_encodeToString rest,
      decodeGroup_of_eq b₀ b₁ b₂ 3]
    · rfl
    · omega
  | [b₀, b₁] => by
    have h₀ := b₀.toNat_lt_size
    have h₁ := b₁.toNat_lt_size
    simp only [UInt8.size] at h₀ h₁
    rw [encodeToString, decodeQuanta_group_pad _ (by omega), decodeGroup_of_eq b₀ b₁ 0 2]
    · rfl
    · simp only [UInt8.toNat_zero]; omega
  | [b₀] => by
    have h₀ := b₀.toNat_lt_size
    simp only [UInt8.size] at h₀
    rw [encodeToString, decodeQuanta_group_pad_pad _ (by omega), decodeGroup_of_eq b₀ 0 0 1]
    · rfl
    · simp only [UInt8.toNat_zero]; omega
  | [] => rfl

/-- `DecodeString` reads back what `EncodeToString` writes. -/
theorem decodeString_encodeToString (bs : Bytes) : decodeString (encodeToString bs) = some bs := by
  rw [decodeString, encodeToString_newline_free, decodeQuanta_encodeToString]

/-! ## Tokens -/

/-- `utils.ContinuousToken`: the decimal ID of the first tuple of the next page. -/
structure ContinuousToken where
  value : Bytes
  deriving DecidableEq, Repr

/-- `utils.EncodedContinuousToken`: what the client holds. -/
structure EncodedContinuousToken where
  value : Bytes
  deriving DecidableEq, Repr

/-- `ContinuousToken.Encode`. -/
def ContinuousToken.encode (t : ContinuousToken) : EncodedContinuousToken :=
  ⟨encodeToString t.value⟩

/-- `EncodedContinuousToken.Decode`. -/
def EncodedContinuousToken.decode (t : EncodedContinuousToken) : Option ContinuousToken :=
  (decodeString t.value).map ContinuousToken.mk

theorem ContinuousToken.decode_encode (t : ContinuousToken) : t.encode.decode = some t := by
  simp [ContinuousToken.encode, EncodedContinuousToken.decode, decodeString_encodeToString]

/-- The token `ReadRelationships` returns before the tuple `id`:
`NewContinuousToken(strconv.FormatUint(id, 10)).Encode()`, as its `String()`. -/
def encodeToken (id : UInt64) : Bytes := (ContinuousToken.encode ⟨formatUint id⟩).value

theorem encodeToken_ne_nil (id : UInt64) : encodeToken id ≠ [] := by
  have h := formatDigits_ne_nil (id.toNat + 1) id.toNat (Nat.succ_pos _)
  intro he
  have hd := decodeString_encodeToString (formatUint id)
  rw [show encodeToString (formatUint id) = [] from he] at hd
  exact h (Option.some.inj hd).symm

end Permify.Memory
