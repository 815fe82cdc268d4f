import Mathlib.Tactic.IntervalCases
import Rhiza.Node.Writer

/-! # Byte values at the JSON boundary

Bytes are written in canonical padded base64. A call that would panic has no outcome.
-/

namespace Rhiza.Node

open Core Library

namespace Base64

def alphabet : Bytes := utf8 "ABCDEFGHIJKLMNOPQRSTUVWXYZabcdefghijklmnopqrstuvwxyz0123456789+/"

def pad : UInt8 := 61

def encodeChunk (length : Nat) (first second third : UInt8) : Option Bytes := do
  let a ← alphabet[(first >>> 2).toNat]?
  let b ← alphabet[(((first &&& 0x03) <<< 4) ||| (second >>> 4)).toNat]?
  let c ← (if 1 < length then alphabet[(((second &&& 0x0f) <<< 2) ||| (third >>> 6)).toNat]?
    else some pad)
  let d ← (if 2 < length then alphabet[(third &&& 0x3f).toNat]? else some pad)
  some [a, b, c, d]

/-- The loop of `encode_base64` over the chunks, with the characters as bytes. -/
def encodeChunks : Bytes → Option Bytes
  | [] => some []
  | [first] => encodeChunk 1 first 0 0
  | [first, second] => encodeChunk 2 first second 0
  | first :: second :: third :: rest => do
    let encoded ← encodeChunk 3 first second third
    let later ← encodeChunks rest
    some (encoded ++ later)

def sextet (byte : UInt8) : Option UInt8 :=
  if 65 ≤ byte ∧ byte ≤ 90 then some (byte - 65)
  else if 97 ≤ byte ∧ byte ≤ 122 then some (byte - 97 + 26)
  else if 48 ≤ byte ∧ byte ≤ 57 then some (byte - 48 + 52)
  else if byte = 43 then some 62
  else if byte = 47 then some 63
  else none

def notCanonical (field : String) : NodeError :=
  .invalidRequest (field ++ " must be canonical padded base64")

/-- One chunk. `last` says whether it is the last one. A failed `unwrap` panics. -/
def decodeChunk (field : String) (last : Bool) (c₀ c₁ c₂ c₃ : UInt8) :
    Option (Except NodeError Bytes) :=
  let first := sextet c₀
  let second := sextet c₁
  let third := if c₂ ≠ pad then sextet c₂ else none
  let fourth := if c₃ ≠ pad then sextet c₃ else none
  let hasPadding := c₂ = pad ∨ c₃ = pad
  if first.isNone ∨ second.isNone ∨ (c₂ ≠ pad ∧ third.isNone) ∨ (c₃ ≠ pad ∧ fourth.isNone) ∨
      (last = false ∧ hasPadding) ∨ (c₂ = pad ∧ c₃ ≠ pad) then
    some (.error (notCanonical field))
  else do
    let first ← first
    let second ← second
    let decoded := [(first <<< 2) ||| (second >>> 4)]
    match third with
    | some third =>
      let decoded := decoded ++ [(second <<< 4) ||| (third >>> 2)]
      match fourth with
      | some fourth => some (.ok (decoded ++ [(third <<< 6) ||| fourth]))
      | none =>
        if third &&& 0x03 ≠ 0 then some (.error (notCanonical field)) else some (.ok decoded)
    | none =>
      if second &&& 0x0f ≠ 0 then some (.error (notCanonical field)) else some (.ok decoded)

/-- The loop of `decode_base64` over whole chunks. -/
def decodeChunks (field : String) : Bytes → Option (Except NodeError Bytes)
  | c₀ :: c₁ :: c₂ :: c₃ :: rest => do
    match ← decodeChunk field (rest.length < 4) c₀ c₁ c₂ c₃ with
    | .error error => some (.error error)
    | .ok decoded =>
      match ← decodeChunks field rest with
      | .error error => some (.error error)
      | .ok later => some (.ok (decoded ++ later))
  | _ => some (.ok [])

end Base64

def encodeBase64 (bytes : Bytes) : Option String := do
  let encoded ← Base64.encodeChunks bytes
  some (String.ofList (encoded.map fun byte => Char.ofNat byte.toNat))

def decodeBase64 (field encoded : String) : Option (Except NodeError Bytes) :=
  let bytes := utf8 encoded
  if bytes.length % 4 ≠ 0 then some (.error (Base64.notCanonical field))
  else Base64.decodeChunks field bytes

namespace Base64

def IsSextet (value : UInt8) : Prop := value &&& 0x3f = value

instance (value : UInt8) : Decidable (IsSextet value) := inferInstanceAs (Decidable (_ = _))

structure Digit (value byte : UInt8) : Prop where
  isSextet : IsSextet value
  written : alphabet[value.toNat]? = some byte
  read : sextet byte = some value
  notPad : byte ≠ pad
  ascii : byte < 128

instance (value byte : UInt8) : Decidable (Digit value byte) :=
  decidable_of_iff (IsSextet value ∧ alphabet[value.toNat]? = some byte ∧
      sextet byte = some value ∧ byte ≠ pad ∧ byte < 128)
    ⟨fun ⟨h₁, h₂, h₃, h₄, h₅⟩ => ⟨h₁, h₂, h₃, h₄, h₅⟩,
      fun ⟨h₁, h₂, h₃, h₄, h₅⟩ => ⟨h₁, h₂, h₃, h₄, h₅⟩⟩

theorem digits_are_written : ∀ n < 256, IsSextet (UInt8.ofNat n) →
    (alphabet[(UInt8.ofNat n).toNat]?).any fun byte => Digit (UInt8.ofNat n) byte := by
  decide +kernel

theorem digits_are_read : ∀ n < 256,
    (sextet (UInt8.ofNat n)).all fun value => Digit value (UInt8.ofNat n) := by
  decide +kernel

theorem digit_of_isSextet {value : UInt8} (h : IsSextet value) : ∃ byte, Digit value byte := by
  have hWritten := digits_are_written value.toNat value.toNat_lt
  rw [UInt8.ofNat_toNat] at hWritten
  obtain ⟨byte, -, hDigit⟩ := (Option.any_eq_true _ _).mp (hWritten h)
  exact ⟨byte, of_decide_eq_true hDigit⟩

theorem digit_of_sextet {byte value : UInt8} (h : sextet byte = some value) : Digit value byte := by
  have hRead := digits_are_read byte.toNat byte.toNat_lt
  rw [UInt8.ofNat_toNat, h] at hRead
  exact of_decide_eq_true hRead

section Bits

variable (first second third a b c d : UInt8)

theorem isSextet_first : IsSextet (first >>> 2) := by
  apply UInt8.eq_of_toBitVec_eq
  ext i hi
  interval_cases i <;> simp

theorem isSextet_second : IsSextet (((first &&& 0x03) <<< 4) ||| (second >>> 4)) := by
  apply UInt8.eq_of_toBitVec_eq
  ext i hi
  interval_cases i <;> simp

theorem isSextet_third : IsSextet (((second &&& 0x0f) <<< 2) ||| (third >>> 6)) := by
  apply UInt8.eq_of_toBitVec_eq
  ext i hi
  interval_cases i <;> simp

theorem isSextet_fourth : IsSextet (third &&& 0x3f) := by
  apply UInt8.eq_of_toBitVec_eq
  ext i hi
  interval_cases i <;> simp

theorem first_of_sextets :
    ((first >>> 2) <<< 2) ||| ((((first &&& 0x03) <<< 4) ||| (second >>> 4)) >>> 4) = first := by
  apply UInt8.eq_of_toBitVec_eq
  ext i hi
  interval_cases i <;> simp

theorem second_of_sextets :
    ((((first &&& 0x03) <<< 4) ||| (second >>> 4)) <<< 4) |||
      ((((second &&& 0x0f) <<< 2) ||| (third >>> 6)) >>> 2) = second := by
  apply UInt8.eq_of_toBitVec_eq
  ext i hi
  interval_cases i <;> simp

theorem third_of_sextets :
    ((((second &&& 0x0f) <<< 2) ||| (third >>> 6)) <<< 6) ||| (third &&& 0x3f) = third := by
  apply UInt8.eq_of_toBitVec_eq
  ext i hi
  interval_cases i <;> simp

theorem unused_of_one : (((first &&& 0x03) <<< 4) ||| ((0 : UInt8) >>> 4)) &&& 0x0f = 0 := by
  apply UInt8.eq_of_toBitVec_eq
  ext i hi
  interval_cases i <;> simp

theorem unused_of_two : (((second &&& 0x0f) <<< 2) ||| ((0 : UInt8) >>> 6)) &&& 0x03 = 0 := by
  apply UInt8.eq_of_toBitVec_eq
  ext i hi
  interval_cases i <;> simp

variable {a b c d}

theorem first_of_bytes (ha : IsSextet a) (hb : IsSextet b) :
    ((a <<< 2) ||| (b >>> 4)) >>> 2 = a := by
  rw [← ha, ← hb]
  apply UInt8.eq_of_toBitVec_eq
  ext i hi
  interval_cases i <;> simp

theorem second_of_bytes (hb : IsSextet b) (hc : IsSextet c) :
    ((((a <<< 2) ||| (b >>> 4)) &&& 0x03) <<< 4) ||| (((b <<< 4) ||| (c >>> 2)) >>> 4) = b := by
  rw [← hb, ← hc]
  apply UInt8.eq_of_toBitVec_eq
  ext i hi
  interval_cases i <;> simp

theorem third_of_bytes (hc : IsSextet c) (hd : IsSextet d) :
    ((((b <<< 4) ||| (c >>> 2)) &&& 0x0f) <<< 2) ||| (((c <<< 6) ||| d) >>> 6) = c := by
  rw [← hc, ← hd]
  apply UInt8.eq_of_toBitVec_eq
  ext i hi
  interval_cases i <;> simp

theorem fourth_of_bytes (hd : IsSextet d) : ((c <<< 6) ||| d) &&& 0x3f = d := by
  rw [← hd]
  apply UInt8.eq_of_toBitVec_eq
  ext i hi
  interval_cases i <;> simp

theorem high_bits : ∀ n < 256, IsSextet (UInt8.ofNat n) →
    (UInt8.ofNat n &&& 0x0f = 0 → UInt8.ofNat n &&& 0x30 = UInt8.ofNat n) ∧
      (UInt8.ofNat n &&& 0x03 = 0 → UInt8.ofNat n &&& 0x3c = UInt8.ofNat n) := by
  decide +kernel

theorem second_of_one (hb : IsSextet b) (hUnused : b &&& 0x0f = 0) :
    ((((a <<< 2) ||| (b >>> 4)) &&& 0x03) <<< 4) ||| ((0 : UInt8) >>> 4) = b := by
  have hBits := high_bits b.toNat b.toNat_lt
  rw [UInt8.ofNat_toNat] at hBits
  rw [← (hBits hb).1 hUnused]
  apply UInt8.eq_of_toBitVec_eq
  ext i hi
  interval_cases i <;> simp

theorem third_of_two (hc : IsSextet c) (hUnused : c &&& 0x03 = 0) :
    ((((b <<< 4) ||| (c >>> 2)) &&& 0x0f) <<< 2) ||| ((0 : UInt8) >>> 6) = c := by
  have hBits := high_bits c.toNat c.toNat_lt
  rw [UInt8.ofNat_toNat] at hBits
  rw [← (hBits hc).2 hUnused]
  apply UInt8.eq_of_toBitVec_eq
  ext i hi
  interval_cases i <;> simp

end Bits

inductive Shape : UInt8 → UInt8 → UInt8 → UInt8 → Prop
  | three {a b c d c₀ c₁ c₂ c₃ : UInt8} (h₀ : Digit a c₀) (h₁ : Digit b c₁) (h₂ : Digit c c₂)
      (h₃ : Digit d c₃) : Shape c₀ c₁ c₂ c₃
  | two {a b c c₀ c₁ c₂ : UInt8} (h₀ : Digit a c₀) (h₁ : Digit b c₁) (h₂ : Digit c c₂) :
      Shape c₀ c₁ c₂ pad
  | one {a b c₀ c₁ : UInt8} (h₀ : Digit a c₀) (h₁ : Digit b c₁) : Shape c₀ c₁ pad pad

section Chunks

variable {field : String} {last : Bool} {first second third a b c d c₀ c₁ c₂ c₃ : UInt8}

theorem decodeChunk_three (h₀ : Digit a c₀) (h₁ : Digit b c₁) (h₂ : Digit c c₂)
    (h₃ : Digit d c₃) : decodeChunk field last c₀ c₁ c₂ c₃ =
      some (.ok [(a <<< 2) ||| (b >>> 4), (b <<< 4) ||| (c >>> 2), (c <<< 6) ||| d]) := by
  simp [decodeChunk, h₀.read, h₁.read, h₂.read, h₃.read, h₂.notPad, h₃.notPad]

theorem decodeChunk_two (h₀ : Digit a c₀) (h₁ : Digit b c₁) (h₂ : Digit c c₂) :
    decodeChunk field last c₀ c₁ c₂ pad =
      if last = false ∨ c &&& 0x03 ≠ 0 then some (.error (notCanonical field))
      else some (.ok [(a <<< 2) ||| (b >>> 4), (b <<< 4) ||| (c >>> 2)]) := by
  cases last with
  | false => simp [decodeChunk, h₀.read, h₁.read, h₂.read, h₂.notPad]
  | true => simp [decodeChunk, h₀.read, h₁.read, h₂.read, h₂.notPad]

theorem decodeChunk_one (h₀ : Digit a c₀) (h₁ : Digit b c₁) :
    decodeChunk field last c₀ c₁ pad pad =
      if last = false ∨ b &&& 0x0f ≠ 0 then some (.error (notCanonical field))
      else some (.ok [(a <<< 2) ||| (b >>> 4)]) := by
  cases last with
  | false => simp [decodeChunk, h₀.read, h₁.read]
  | true => simp [decodeChunk, h₀.read, h₁.read]

theorem decodeChunk_refused (h : ¬ Shape c₀ c₁ c₂ c₃) :
    decodeChunk field last c₀ c₁ c₂ c₃ = some (.error (notCanonical field)) := by
  unfold decodeChunk
  refine if_pos (by_contra fun hPasses => h ?_)
  simp only [not_or, not_and, Option.isNone_iff_eq_none] at hPasses
  obtain ⟨hFirst, hSecond, hThird, hFourth, -, hPadding⟩ := hPasses
  obtain ⟨a, hFirst⟩ := Option.ne_none_iff_exists'.mp hFirst
  obtain ⟨b, hSecond⟩ := Option.ne_none_iff_exists'.mp hSecond
  have h₀ := digit_of_sextet hFirst
  have h₁ := digit_of_sextet hSecond
  by_cases hThirdPad : c₂ = pad
  · have hFourthPad : c₃ = pad := not_not.mp (hPadding hThirdPad)
    subst hThirdPad hFourthPad
    exact .one h₀ h₁
  · have hSome := hThird hThirdPad
    rw [if_pos hThirdPad] at hSome
    obtain ⟨c, hSome⟩ := Option.ne_none_iff_exists'.mp hSome
    have h₂ := digit_of_sextet hSome
    by_cases hFourthPad : c₃ = pad
    · subst hFourthPad
      exact .two h₀ h₁ h₂
    · have hLast := hFourth hFourthPad
      rw [if_pos hFourthPad] at hLast
      obtain ⟨d, hLast⟩ := Option.ne_none_iff_exists'.mp hLast
      exact .three h₀ h₁ h₂ (digit_of_sextet hLast)

theorem encodeChunk_of_decodeChunk {decoded : Bytes}
    (h : decodeChunk field last c₀ c₁ c₂ c₃ = some (.ok decoded)) :
    (∃ first second third, decoded = [first, second, third] ∧
      encodeChunk 3 first second third = some [c₀, c₁, c₂, c₃]) ∨
    last = true ∧ ((∃ first second, decoded = [first, second] ∧
        encodeChunk 2 first second 0 = some [c₀, c₁, c₂, c₃]) ∨
      ∃ first, decoded = [first] ∧ encodeChunk 1 first 0 0 = some [c₀, c₁, c₂, c₃]) := by
  have hShape : Shape c₀ c₁ c₂ c₃ := by
    by_contra hNot
    rw [decodeChunk_refused hNot] at h
    cases h
  cases hShape with
  | @three a _ b _ c _ d _ h₀ h₁ h₂ h₃ =>
    rw [decodeChunk_three h₀ h₁ h₂ h₃] at h
    cases h
    refine .inl ⟨_, _, _, rfl, ?_⟩
    rw [encodeChunk, first_of_bytes h₀.isSextet h₁.isSextet,
      second_of_bytes h₁.isSextet h₂.isSextet, third_of_bytes h₂.isSextet h₃.isSextet,
      fourth_of_bytes h₃.isSextet, h₀.written, h₁.written, h₂.written, h₃.written]
    rfl
  | @two a _ b _ c _ h₀ h₁ h₂ =>
    rw [decodeChunk_two h₀ h₁ h₂] at h
    split at h
    · cases h
    · rename_i hLast
      obtain ⟨hLast, hUnused⟩ := not_or.mp hLast
      cases h
      refine .inr ⟨Bool.not_eq_false _ ▸ hLast, .inl ⟨_, _, rfl, ?_⟩⟩
      rw [encodeChunk, first_of_bytes h₀.isSextet h₁.isSextet,
        second_of_bytes h₁.isSextet h₂.isSextet, third_of_two h₂.isSextet (not_not.mp hUnused),
        h₀.written, h₁.written, h₂.written]
      rfl
  | @one a _ b _ h₀ h₁ =>
    rw [decodeChunk_one h₀ h₁] at h
    split at h
    · cases h
    · rename_i hLast
      obtain ⟨hLast, hUnused⟩ := not_or.mp hLast
      cases h
      refine .inr ⟨Bool.not_eq_false _ ▸ hLast, .inr ⟨_, rfl, ?_⟩⟩
      rw [encodeChunk, first_of_bytes h₀.isSextet h₁.isSextet,
        second_of_one h₁.isSextet (not_not.mp hUnused), h₀.written, h₁.written]
      rfl

theorem decodeChunk_of_encodeChunk (first second third : UInt8) :
    ∃ c₀ c₁ c₂ c₃, encodeChunk 3 first second third = some [c₀, c₁, c₂, c₃] ∧
      ∀ field last, decodeChunk field last c₀ c₁ c₂ c₃ = some (.ok [first, second, third]) := by
  obtain ⟨c₀, h₀⟩ := digit_of_isSextet (isSextet_first first)
  obtain ⟨c₁, h₁⟩ := digit_of_isSextet (isSextet_second first second)
  obtain ⟨c₂, h₂⟩ := digit_of_isSextet (isSextet_third second third)
  obtain ⟨c₃, h₃⟩ := digit_of_isSextet (isSextet_fourth third)
  refine ⟨c₀, c₁, c₂, c₃, ?_, fun field last => ?_⟩
  · rw [encodeChunk, h₀.written, h₁.written, h₂.written, h₃.written]
    rfl
  · rw [decodeChunk_three h₀ h₁ h₂ h₃, first_of_sextets, second_of_sextets, third_of_sextets]

theorem decodeChunk_of_two (first second : UInt8) :
    ∃ c₀ c₁ c₂ c₃, encodeChunk 2 first second 0 = some [c₀, c₁, c₂, c₃] ∧
      ∀ field, decodeChunk field true c₀ c₁ c₂ c₃ = some (.ok [first, second]) := by
  obtain ⟨c₀, h₀⟩ := digit_of_isSextet (isSextet_first first)
  obtain ⟨c₁, h₁⟩ := digit_of_isSextet (isSextet_second first second)
  obtain ⟨c₂, h₂⟩ := digit_of_isSextet (isSextet_third second 0)
  refine ⟨c₀, c₁, c₂, pad, ?_, fun field => ?_⟩
  · rw [encodeChunk, h₀.written, h₁.written, h₂.written]
    rfl
  · rw [decodeChunk_two h₀ h₁ h₂, first_of_sextets, second_of_sextets, unused_of_two]
    rfl

theorem decodeChunk_of_one (first : UInt8) :
    ∃ c₀ c₁ c₂ c₃, encodeChunk 1 first 0 0 = some [c₀, c₁, c₂, c₃] ∧
      ∀ field, decodeChunk field true c₀ c₁ c₂ c₃ = some (.ok [first]) := by
  obtain ⟨c₀, h₀⟩ := digit_of_isSextet (isSextet_first first)
  obtain ⟨c₁, h₁⟩ := digit_of_isSextet (isSextet_second first 0)
  refine ⟨c₀, c₁, pad, pad, ?_, fun field => ?_⟩
  · rw [encodeChunk, h₀.written, h₁.written]
    rfl
  · rw [decodeChunk_one h₀ h₁, first_of_sextets, unused_of_one]
    rfl

end Chunks

theorem alphabet_ascii : ∀ byte ∈ alphabet, byte < 128 := by decide +kernel

theorem ascii_of_alphabet {i : Nat} {byte : UInt8} (h : alphabet[i]? = some byte) : byte < 128 :=
  alphabet_ascii byte (List.mem_of_getElem? h)

theorem encodeChunk_ascii {length : Nat} {first second third : UInt8} {encoded : Bytes}
    (h : encodeChunk length first second third = some encoded) :
    encoded.length = 4 ∧ ∀ byte ∈ encoded, byte < 128 := by
  have hPad : pad < 128 := by decide
  simp only [encodeChunk, Option.bind_eq_bind, Option.bind_eq_some_iff, Option.some.injEq] at h
  obtain ⟨a, ha, b, hb, c, hc, d, hd, rfl⟩ := h
  have hThird : c < 128 := by
    split at hc
    · exact ascii_of_alphabet hc
    · exact Option.some.inj hc ▸ hPad
  have hFourth : d < 128 := by
    split at hd
    · exact ascii_of_alphabet hd
    · exact Option.some.inj hd ▸ hPad
  refine ⟨rfl, ?_⟩
  simp only [List.forall_mem_cons, List.not_mem_nil, false_implies, implies_true, and_true]
  exact ⟨ascii_of_alphabet ha, ascii_of_alphabet hb, hThird, hFourth⟩

theorem encodeChunks_ascii {bytes encoded : Bytes} (h : encodeChunks bytes = some encoded) :
    encoded.length % 4 = 0 ∧ ∀ byte ∈ encoded, byte < 128 := by
  induction bytes using encodeChunks.induct generalizing encoded with
  | case1 =>
    obtain rfl := Option.some.inj h
    exact ⟨rfl, nofun⟩
  | case2 first =>
    obtain ⟨hLength, hAscii⟩ := encodeChunk_ascii h
    exact ⟨by rw [hLength], hAscii⟩
  | case3 first second =>
    obtain ⟨hLength, hAscii⟩ := encodeChunk_ascii h
    exact ⟨by rw [hLength], hAscii⟩
  | case4 first second third rest ih =>
    obtain ⟨chunk, hChunk, h⟩ := Option.bind_eq_some_iff.mp h
    obtain ⟨later, hLater, h⟩ := Option.bind_eq_some_iff.mp h
    obtain rfl := Option.some.inj h
    obtain ⟨hLength, hAscii⟩ := encodeChunk_ascii hChunk
    obtain ⟨hRest, hAsciiRest⟩ := ih hLater
    refine ⟨by rw [List.length_append]; omega, fun byte hByte => ?_⟩
    exact (List.mem_append.mp hByte).elim (hAscii byte) (hAsciiRest byte)

theorem decodeChunks_encodeChunks (bytes : Bytes) : ∃ encoded,
    encodeChunks bytes = some encoded ∧
      ∀ field, decodeChunks field encoded = some (.ok bytes) := by
  induction bytes using encodeChunks.induct with
  | case1 => exact ⟨[], rfl, fun _ => rfl⟩
  | case2 first =>
    obtain ⟨c₀, c₁, c₂, c₃, hEncode, hDecode⟩ := decodeChunk_of_one first
    refine ⟨_, hEncode, fun field => ?_⟩
    simp [decodeChunks, hDecode]
  | case3 first second =>
    obtain ⟨c₀, c₁, c₂, c₃, hEncode, hDecode⟩ := decodeChunk_of_two first second
    refine ⟨_, hEncode, fun field => ?_⟩
    simp [decodeChunks, hDecode]
  | case4 first second third rest ih =>
    obtain ⟨c₀, c₁, c₂, c₃, hEncode, hDecode⟩ := decodeChunk_of_encodeChunk first second third
    obtain ⟨later, hLater, hRest⟩ := ih
    refine ⟨[c₀, c₁, c₂, c₃] ++ later, ?_, fun field => ?_⟩
    · rw [encodeChunks, hEncode, hLater]
      rfl
    · simp [decodeChunks, hDecode, hRest]

theorem encodeChunks_of_decodeChunks {field : String} {bytes encoded : Bytes}
    (hWhole : encoded.length % 4 = 0) (h : decodeChunks field encoded = some (.ok bytes)) :
    encodeChunks bytes = some encoded := by
  induction encoded using decodeChunks.induct generalizing bytes with
  | case1 c₀ c₁ c₂ c₃ rest ih =>
    obtain ⟨decoded, hChunk, h⟩ := Option.bind_eq_some_iff.mp h
    cases decoded with
    | error error => cases h
    | ok decoded =>
      obtain ⟨later, hLater, h⟩ := Option.bind_eq_some_iff.mp h
      cases later with
      | error error => cases h
      | ok later =>
        obtain rfl := Except.ok.inj (Option.some.inj h)
        have hRest : rest.length % 4 = 0 := by
          simp only [List.length_cons] at hWhole
          omega
        rcases encodeChunk_of_decodeChunk hChunk with hThree | ⟨hLast, hFewer⟩
        · obtain ⟨first, second, third, rfl, hEncode⟩ := hThree
          have hTail := ih hRest hLater
          show encodeChunks (first :: second :: third :: later) = _
          rw [encodeChunks, hEncode, hTail]
          rfl
        · have hNone : rest = [] := List.length_eq_zero_iff.mp (by
            have := of_decide_eq_true hLast
            omega)
          subst hNone
          obtain rfl := Except.ok.inj (Option.some.inj hLater)
          rcases hFewer with ⟨first, second, rfl, hEncode⟩ | ⟨first, rfl, hEncode⟩
          · exact hEncode
          · exact hEncode
  | case2 encoded hShort =>
    have hNone : encoded = [] := by
      match encoded, hShort, hWhole with
      | [], _, _ => rfl
      | [_], _, h => cases h
      | [_, _], _, h => cases h
      | [_, _, _], _, h => cases h
      | c₀ :: c₁ :: c₂ :: c₃ :: rest, hShort, _ => exact (hShort c₀ c₁ c₂ c₃ rest rfl).elim
    subst hNone
    obtain rfl := Except.ok.inj (Option.some.inj h)
    rfl

theorem decodeChunk_isSome (field : String) (last : Bool) (c₀ c₁ c₂ c₃ : UInt8) :
    ∃ answer, decodeChunk field last c₀ c₁ c₂ c₃ = some answer := by
  by_cases hShape : Shape c₀ c₁ c₂ c₃
  · cases hShape with
    | three h₀ h₁ h₂ h₃ => exact ⟨_, decodeChunk_three h₀ h₁ h₂ h₃⟩
    | two h₀ h₁ h₂ =>
      rw [decodeChunk_two h₀ h₁ h₂, ← apply_ite some]
      exact ⟨_, rfl⟩
    | one h₀ h₁ =>
      rw [decodeChunk_one h₀ h₁, ← apply_ite some]
      exact ⟨_, rfl⟩
  · exact ⟨_, decodeChunk_refused hShape⟩

theorem decodeChunks_isSome (field : String) (encoded : Bytes) :
    ∃ answer, decodeChunks field encoded = some answer := by
  induction encoded using decodeChunks.induct with
  | case1 c₀ c₁ c₂ c₃ rest ih =>
    obtain ⟨answer, hChunk⟩ := decodeChunk_isSome field (rest.length < 4) c₀ c₁ c₂ c₃
    obtain ⟨later, hLater⟩ := ih
    rw [decodeChunks, hChunk, hLater]
    cases answer with
    | error error => exact ⟨_, rfl⟩
    | ok decoded =>
      cases later with
      | error error => exact ⟨_, rfl⟩
      | ok later => exact ⟨_, rfl⟩
  | case2 encoded hShort =>
    rw [decodeChunks.eq_def]
    split
    · exact (hShort _ _ _ _ _ rfl).elim
    · exact ⟨_, rfl⟩

theorem utf8EncodeChar_ascii {byte : UInt8} (h : byte < 128) :
    String.utf8EncodeChar (Char.ofNat byte.toNat) = [byte] := by
  have hSmall : byte.toNat < 128 := h
  have hValue : (Char.ofNat byte.toNat).val.toNat = byte.toNat := by
    rw [Char.ofNat, dif_pos (.inl (by omega))]
    rfl
  have hSize : (Char.ofNat byte.toNat).utf8Size = 1 := by
    rw [Char.utf8Size_eq_one_iff, UInt32.le_iff_toNat_le, hValue]
    exact Nat.le_of_lt_succ hSmall
  rw [String.utf8EncodeChar_eq_singleton hSize, List.singleton_inj]
  apply UInt8.toNat_inj.mp
  rw [UInt32.toNat_toUInt8, hValue]
  omega

theorem utf8_ascii {bytes : Bytes} (h : ∀ byte ∈ bytes, byte < 128) :
    utf8 (String.ofList (bytes.map fun byte => Char.ofNat byte.toNat)) = bytes := by
  have hChars : (bytes.map fun byte => Char.ofNat byte.toNat).flatMap String.utf8EncodeChar =
      bytes := by
    induction bytes with
    | nil => rfl
    | cons byte bytes ih =>
      rw [List.map_cons, List.flatMap_cons, utf8EncodeChar_ascii (h byte List.mem_cons_self),
        ih fun b hb => h b (List.mem_cons_of_mem _ hb)]
      rfl
  rw [utf8, String.toUTF8, String.toByteArray_ofList, List.utf8Encode, hChars]
  simp

end Base64

/-- Bytes have one text, which is decoded to them, and nothing else is decoded to them. Both
directions return on every input. -/
theorem base64_is_canonical (field : String) :
    (∀ bytes, (encodeBase64 bytes).isSome) ∧ (∀ text, (decodeBase64 field text).isSome) ∧
      ∀ bytes text, decodeBase64 field text = some (.ok bytes) ↔ encodeBase64 bytes = some text := by
  refine ⟨fun bytes => ?_, fun text => ?_, fun bytes text => ⟨fun h => ?_, fun h => ?_⟩⟩
  · obtain ⟨encoded, hEncode, -⟩ := Base64.decodeChunks_encodeChunks bytes
    rw [encodeBase64, hEncode]
    rfl
  · rw [decodeBase64]
    split
    · rfl
    · obtain ⟨answer, hAnswer⟩ := Base64.decodeChunks_isSome field (utf8 text)
      rw [hAnswer]
      rfl
  · rw [decodeBase64] at h
    split at h
    · cases h
    · rename_i hWhole
      have hEncode := Base64.encodeChunks_of_decodeChunks (not_not.mp hWhole) h
      have hText := Base64.utf8_ascii (Base64.encodeChunks_ascii hEncode).2
      rw [encodeBase64, hEncode]
      exact congrArg some (utf8_inj.mp hText)
  · obtain ⟨encoded, hEncode, h⟩ := Option.bind_eq_some_iff.mp h
    obtain ⟨found, hFound, hDecode⟩ := Base64.decodeChunks_encodeChunks bytes
    obtain rfl := Option.some.inj (hEncode.symm.trans hFound)
    obtain ⟨hWhole, hAscii⟩ := Base64.encodeChunks_ascii hEncode
    obtain rfl := Option.some.inj h
    rw [decodeBase64, Base64.utf8_ascii hAscii]
    exact (if_neg (not_not.mpr hWhole)).trans (hDecode field)

end Rhiza.Node
