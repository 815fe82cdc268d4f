import Mathlib.Data.List.TakeWhile
import Rhiza.Graph.Command

/-! # The lexer of graph queries

A query is read character by character into tokens. Each turn of the loop reads one
token, one whitespace character or one comment, and what it reads is settled by the
character that comes next.
-/

namespace Rhiza.Graph

open Core Library

class UnicodeTables where
  isAlphanumeric : Char → Bool
  notWhitespace : ∀ c, isWhitespace c = true → isAlphanumeric c = false

def isAscii (c : Char) : Bool := c.toNat < 128

/-- `is_ascii_whitespace`: neither the vertical tab nor the separators from 0x1C on. -/
def isAsciiWhitespace (c : Char) : Bool :=
  c = ' ' || c = '\t' || c = '\n' || c = '\x0c' || c = '\r'

def isNameByte (c : Char) : Bool := c.isAlphanum || c = '_'

section Characters

variable [UnicodeTables]

def isAlphanumeric (c : Char) : Bool :=
  if isAscii c then c.isAlphanum else UnicodeTables.isAlphanumeric c

def isNameCharacter (c : Char) : Bool := isAlphanumeric c || c = '_'

end Characters

def utf8Length (chars : List Char) : Nat := (chars.map Char.utf8Size).sum

inductive QueryTokenKind
  | identifier (value : String) (escaped : Bool)
  | parameter (name : String)
  | integer (value : String)
  | stringLiteral
  | symbol (c : Char)
  | semicolon
  deriving DecidableEq

/-- A token without its place: `text` is the slice from `start` to `end`. -/
structure Lexeme where
  kind : QueryTokenKind
  text : List Char
  deriving DecidableEq

structure QueryToken extends Lexeme where
  start : Nat
  deriving DecidableEq

def skipBlockComment : List Char → Result (List Char)
  | [] => .error (.invalidCommand "graph query contains an unterminated block comment")
  | [_] => .error (.invalidCommand "graph query contains an unterminated block comment")
  | c :: d :: rest => if c = '*' ∧ d = '/' then .ok rest else skipBlockComment (d :: rest)

def skipQuotedString (quote : Char) : List Char → Result (List Char × List Char)
  | [] => .error (.invalidCommand "graph query contains an unterminated string")
  | [c] =>
    if c = quote then .ok ([c], [])
    else .error (.invalidCommand "graph query contains an unterminated string")
  | c :: d :: rest =>
    if c = '\\' then do
      let (text, rest) ← skipQuotedString quote rest
      .ok (c :: d :: text, rest)
    else if c = quote then
      if d = quote then do
        let (text, rest) ← skipQuotedString quote rest
        .ok (c :: d :: text, rest)
      else .ok ([c], d :: rest)
    else do
      let (text, rest) ← skipQuotedString quote (d :: rest)
      .ok (c :: text, rest)

def hexDigit (c : Char) : Option Nat :=
  if c.isDigit then some (c.toNat - '0'.toNat)
  else if 'a' ≤ c ∧ c ≤ 'f' then some (c.toNat - 'a'.toNat + 10)
  else if 'A' ≤ c ∧ c ≤ 'F' then some (c.toNat - 'A'.toNat + 10)
  else none

/-- `u32::from_str_radix` in base 16, on at most eight digits. A plus sign may stand first. -/
def fromStrRadix16 (encoded : List Char) : Option Nat :=
  let digits := if encoded.head? = some '+' then encoded.tail else encoded
  if digits = [] then none
  else digits.foldlM (fun value c => (hexDigit c).map (value * 16 + ·)) 0

def wholeCharacters : Nat → List Char → Bool
  | 0, _ => true
  | _ + 1, [] => false
  | n + 1, c :: rest => c.utf8Size ≤ n + 1 && wholeCharacters (n + 1 - c.utf8Size) rest

def readUnicodeEscape (digits : Nat) (chars : List Char) : Result Char := do
  ensure (digits ≤ utf8Length chars)
    (.invalidCommand "graph query contains a truncated unicode escape")
  ensure (wholeCharacters digits chars) (.invalidCommand "graph unicode escape is not ASCII")
  let value ← (fromStrRadix16 (chars.take digits)).elim
    (.error (.invalidCommand "graph unicode escape is invalid")) .ok
  ensure value.isValidChar (.invalidCommand "graph unicode escape is not a scalar")
  .ok (Char.ofNat value)

def readEscapedIdentifier (identifier : List Char) (chars : List Char) :
    Result (List Char × List Char × List Char) :=
  match chars with
  | [] => .error (.invalidCommand "graph query contains an unterminated escaped identifier")
  | c :: rest =>
    if c = '`' then
      match rest with
      | '`' :: rest => do
        let (value, text, rest) ← readEscapedIdentifier (identifier ++ ['`']) rest
        .ok (value, c :: '`' :: text, rest)
      | rest =>
        if identifier = [] then
          .error (.invalidCommand "graph query contains an empty escaped identifier")
        else .ok (identifier, [c], rest)
    else if c = '\\' then
      match rest with
      | '`' :: rest => do
        let (value, text, rest) ← readEscapedIdentifier (identifier ++ ['`']) rest
        .ok (value, c :: '`' :: text, rest)
      | 'u' :: rest => do
        let character ← readUnicodeEscape 4 rest
        let (value, text, last) ←
          readEscapedIdentifier (identifier ++ [character]) (rest.drop 4)
        .ok (value, c :: 'u' :: rest.take 4 ++ text, last)
      | 'U' :: rest => do
        let character ← readUnicodeEscape 8 rest
        let (value, text, last) ←
          readEscapedIdentifier (identifier ++ [character]) (rest.drop 8)
        .ok (value, c :: 'U' :: rest.take 8 ++ text, last)
      | _ => .error (.invalidCommand "graph query contains an invalid escaped identifier")
    else do
      let (value, text, rest) ← readEscapedIdentifier (identifier ++ [c]) rest
      .ok (value, c :: text, rest)
termination_by chars.length
decreasing_by all_goals simp_all <;> omega

section Lexing

variable [UnicodeTables]

def lexRun (first : List Char) (goesOn : Char → Bool) (kind : String → QueryTokenKind)
    (rest : List Char) : Option Lexeme × List Char :=
  let text := first ++ rest.takeWhile goesOn
  (some ⟨kind (String.ofList text), text⟩, rest.dropWhile goesOn)

/-- One turn of the loop in `lex_query`. -/
def lexStep : List Char → Result (Option Lexeme × List Char)
  | [] => .ok (none, [])
  | c :: rest =>
    if isAsciiWhitespace c then .ok (none, rest)
    else if c = '/' ∧ rest.head? = some '/' then .ok (none, rest.dropWhile (· ≠ '\n'))
    else if c = '/' ∧ rest.head? = some '*' then do
      let rest ← skipBlockComment rest.tail
      .ok (none, rest)
    else if c = '\'' ∨ c = '"' then do
      let (text, rest) ← skipQuotedString c rest
      .ok (some ⟨.stringLiteral, c :: text⟩, rest)
    else if c = '`' then do
      let (value, text, rest) ← readEscapedIdentifier [] rest
      .ok (some ⟨.identifier (String.ofList value) true, c :: text⟩, rest)
    else if c = '$' then
      let name := rest.takeWhile isNameByte
      if name = [] then
        .error (.invalidCommand "graph query contains an invalid parameter reference")
      else .ok (some ⟨.parameter (String.ofList name), c :: name⟩, rest.dropWhile isNameByte)
    else if c = ';' then .ok (some ⟨.semicolon, [c]⟩, rest)
    else if c.isAlpha ∨ c = '_' then .ok (lexRun [c] isNameByte (.identifier · false) rest)
    else if c.isDigit then .ok (lexRun [c] Char.isDigit .integer rest)
    else if isAscii c then .ok (some ⟨.symbol c, [c]⟩, rest)
    else if UnicodeTables.isAlphanumeric c then
      .ok (lexRun [c] isNameCharacter (.identifier · false) rest)
    else .error (.invalidCommand "graph query contains an unsupported non-ASCII token")

/-- The loop of `lex_query` from an offset on. Each turn reads at least one character. -/
def lexFrom : Nat → Nat → List Char → Result (List QueryToken)
  | _, _, [] => .ok []
  | 0, _, _ :: _ => .error (.invalidCommand "")
  | turns + 1, offset, c :: chars => do
    let (found, rest) ← lexStep (c :: chars)
    let tokens ← lexFrom turns (offset + (utf8Length (c :: chars) - utf8Length rest)) rest
    .ok (found.toList.map (fun lexeme => { lexeme with start := offset }) ++ tokens)

def lexQuery (statement : List Char) : Result (List QueryToken) :=
  lexFrom statement.length 0 statement

end Lexing

theorem span_stop {p : Char → Bool} {chars rest : List Char}
    (h : ∀ c ∈ rest.head?, p c = false) :
    (chars.takeWhile p ++ rest).takeWhile p = chars.takeWhile p ∧
      (chars.takeWhile p ++ rest).dropWhile p = rest := by
  induction chars with
  | nil =>
    cases rest with
    | nil => exact ⟨rfl, rfl⟩
    | cons c rest =>
      have hStop : p c = false := h c rfl
      exact ⟨List.takeWhile_cons_of_neg (by simp [hStop]), List.dropWhile_cons_of_neg (by simp [hStop])⟩
  | cons c chars ih =>
    cases hGoesOn : p c with
    | true => simp [hGoesOn, ih.1, ih.2]
    | false =>
      rw [List.takeWhile_cons_of_neg (by simp [hGoesOn])]
      cases rest with
      | nil => exact ⟨rfl, rfl⟩
      | cons d rest =>
        have hStop : p d = false := h d rfl
        exact ⟨List.takeWhile_cons_of_neg (by simp [hStop]),
          List.dropWhile_cons_of_neg (by simp [hStop])⟩

theorem head_dropWhile {p : Char → Bool} {chars : List Char} :
    ∀ c ∈ (chars.dropWhile p).head?, p c = false := by
  intro c hHead
  have hNot := List.head?_dropWhile_not p chars
  rw [Option.mem_def.mp hHead] at hNot
  exact hNot

structure Opens (text rest : List Char) : Prop where
  opens : ∃ c more, rest = c :: more ∧ (isAsciiWhitespace c = true ∨ c = '/')
  noSlash : text = ['/'] → rest.head? ≠ some '/'
  noComment : ¬ ['/', '/'] <+: text

def Continues (text rest rest' : List Char) : Prop := rest'.head? = rest.head? ∨ Opens text rest'

theorem Continues.stops {text rest rest' : List Char} {p : Char → Bool}
    (h : Continues text rest rest') (hRest : ∀ c ∈ rest.head?, p c = false)
    (hSpace : ∀ c, isAsciiWhitespace c = true → p c = false) (hSlash : p '/' = false) :
    ∀ c ∈ rest'.head?, p c = false := by
  intro c hHead
  rcases h with hSame | hOpens
  · exact hRest c (hSame ▸ hHead)
  · obtain ⟨d, more, rfl, hOpen⟩ := hOpens.opens
    obtain rfl : d = c := Option.some.inj hHead
    rcases hOpen with hWhite | rfl
    · exact hSpace d hWhite
    · exact hSlash

def Resumes (text rest rest' : List Char) : Prop :=
  Continues text rest rest' ∨ (∀ c ∈ rest'.head?, c = '\n') ∨
    (∃ c ∈ rest.head?, c.isDigit = true) ∧ ∃ c ∈ rest'.head?, c.isDigit = true

theorem Resumes.stops {text rest rest' : List Char} {p : Char → Bool}
    (h : Resumes text rest rest') (hRest : ∀ c ∈ rest.head?, p c = false)
    (hSpace : ∀ c, isAsciiWhitespace c = true → p c = false) (hSlash : p '/' = false)
    (hDigit : ∀ c, c.isDigit = true → p c = true) : ∀ c ∈ rest'.head?, p c = false := by
  rcases h with hContinues | hEnd | ⟨⟨d, hHead, hIs⟩, -⟩
  · exact hContinues.stops hRest hSpace hSlash
  · intro c hHead
    rw [hEnd c hHead]
    exact hSpace '\n' rfl
  · exact absurd ((hDigit d hIs).symm.trans (hRest d hHead)) nofun

theorem getLast_behind (front : List Char) {text : List Char} {c : Char}
    (h : text.getLast? = some c) :
    (front ++ text).getLast? = some c := by
  rw [List.getLast?_append, h, Option.some_or]

theorem isAsciiWhitespace_cases {c : Char} (h : isAsciiWhitespace c = true) :
    c = ' ' ∨ c = '\t' ∨ c = '\n' ∨ c = '\x0c' ∨ c = '\r' := by
  simpa [isAsciiWhitespace, or_assoc] using h

theorem skipBlockComment_local {chars rest : List Char} (h : skipBlockComment chars = .ok rest) :
    ∃ text, chars = text ++ rest ∧ text.getLast? = some '/' ∧
      ∀ rest', skipBlockComment (text ++ rest') = .ok rest' := by
  induction chars using skipBlockComment.induct with
  | case1 => cases h
  | case2 => cases h
  | case3 c d more hClose =>
    rw [skipBlockComment, if_pos hClose] at h
    cases h
    exact ⟨[c, d], rfl, congrArg some hClose.2, fun rest' => if_pos hClose⟩
  | case4 c d more hOpen ih =>
    rw [skipBlockComment, if_neg hOpen] at h
    obtain ⟨text, hText, hLast, hLocal⟩ := ih h
    cases text with
    | nil =>
      -- the rest of a closed comment is shorter
      have hNone := hLocal []
      cases hNone
    | cons e text =>
      obtain ⟨rfl, hMore⟩ := List.cons.inj hText
      refine ⟨c :: d :: text, by rw [hMore]; rfl, getLast_behind [c] hLast, fun rest' => ?_⟩
      rw [List.cons_append, List.cons_append, skipBlockComment, if_neg hOpen]
      exact hLocal rest'

theorem skipQuotedString_local {quote : Char} (hQuote : quote ≠ '\\') {chars text rest : List Char}
    (h : skipQuotedString quote chars = .ok (text, rest)) :
    chars = text ++ rest ∧ text.getLast? = some quote ∧ rest.head? ≠ some quote ∧
      ∀ rest', rest'.head? ≠ some quote →
        skipQuotedString quote (text ++ rest') = .ok (text, rest') := by
  induction chars using skipQuotedString.induct quote generalizing text with
  | case1 => cases h
  | case2 =>
    rw [skipQuotedString, if_pos rfl] at h
    cases h
    refine ⟨rfl, rfl, nofun, fun rest' hNext => ?_⟩
    cases rest' with
    | nil => exact if_pos rfl
    | cons d rest' =>
      have hOther : d ≠ quote := fun hSame => hNext (congrArg some hSame)
      rw [List.singleton_append, skipQuotedString, if_neg hQuote, if_pos rfl, if_neg hOther]
  | case3 c hOther =>
    rw [skipQuotedString, if_neg hOther] at h
    cases h
  | case4 d more ih =>
    rw [skipQuotedString, if_pos rfl] at h
    obtain ⟨⟨text', rest'⟩, hMore, h⟩ := bind_ok_iff.mp h
    cases h
    obtain ⟨rfl, hLast, hNext, hLocal⟩ := ih hMore
    refine ⟨rfl, getLast_behind [_, _] hLast, hNext, fun rest' hNext' => ?_⟩
    rw [List.cons_append, List.cons_append, skipQuotedString, if_pos rfl, hLocal rest' hNext']
    rfl
  | case5 more hBackslash ih =>
    rw [skipQuotedString, if_neg hBackslash, if_pos rfl, if_pos rfl] at h
    obtain ⟨⟨text', rest'⟩, hMore, h⟩ := bind_ok_iff.mp h
    cases h
    obtain ⟨rfl, hLast, hNext, hLocal⟩ := ih hMore
    refine ⟨rfl, getLast_behind [_, _] hLast, hNext, fun rest' hNext' => ?_⟩
    rw [List.cons_append, List.cons_append, skipQuotedString, if_neg hBackslash, if_pos rfl,
      if_pos rfl, hLocal rest' hNext']
    rfl
  | case6 d more hOther hBackslash =>
    rw [skipQuotedString, if_neg hBackslash, if_pos rfl, if_neg hOther] at h
    cases h
    refine ⟨rfl, rfl, fun hSame => hOther (Option.some.inj hSame), fun rest' hNext => ?_⟩
    cases rest' with
    | nil => exact if_pos rfl
    | cons e rest' =>
      have hOther' : e ≠ quote := fun hSame => hNext (congrArg some hSame)
      rw [List.singleton_append, skipQuotedString, if_neg hBackslash, if_pos rfl, if_neg hOther']
  | case7 c d more hBackslash hOther ih =>
    rw [skipQuotedString, if_neg hBackslash, if_neg hOther] at h
    obtain ⟨⟨text', rest'⟩, hMore, h⟩ := bind_ok_iff.mp h
    cases h
    obtain ⟨hText, hLast, hNext, hLocal⟩ := ih hMore
    cases text' with
    | nil =>
      -- a string that is read to its end has a closing quote
      have hNone := hLocal [] nofun
      cases hNone
    | cons e text' =>
      obtain ⟨rfl, hTail⟩ := List.cons.inj hText
      refine ⟨congrArg (c :: d :: ·) hTail, getLast_behind [c] hLast, hNext,
        fun rest' hNext' => ?_⟩
      have hRead := hLocal rest' hNext'
      rw [List.cons_append] at hRead
      rw [List.cons_append, List.cons_append, skipQuotedString, if_neg hBackslash, if_neg hOther,
        hRead]
      rfl

/-! Escapes are written in ASCII. -/

theorem utf8Size_of_hexDigit {c : Char} {n : Nat} (h : hexDigit c = some n) : c.utf8Size = 1 := by
  have hSmall : c.toNat ≤ 127 := by
    unfold hexDigit at h
    split at h
    · rename_i hDigit
      simp only [Char.isDigit, Bool.and_eq_true, decide_eq_true_eq] at hDigit
      have := UInt32.le_iff_toNat_le.mp hDigit.2
      simp at this
      omega
    split at h
    · rename_i hLower
      have := UInt32.le_iff_toNat_le.mp (Char.le_def.mp hLower.2)
      simp at this
      omega
    split at h
    · rename_i hUpper
      have := UInt32.le_iff_toNat_le.mp (Char.le_def.mp hUpper.2)
      simp at this
      omega
    · cases h
  rw [Char.utf8Size, if_pos]
  exact UInt32.le_iff_toNat_le.mpr hSmall

theorem utf8Size_of_fromStrRadix16 {encoded : List Char} {value : Nat}
    (h : fromStrRadix16 encoded = some value) : ∀ c ∈ encoded, c.utf8Size = 1 := by
  have hDigits : ∀ (digits : List Char) (first last : Nat),
      digits.foldlM (fun value c => (hexDigit c).map (value * 16 + ·)) first = some last →
      ∀ c ∈ digits, c.utf8Size = 1 := by
    intro digits
    induction digits with
    | nil => exact fun _ _ _ => nofun
    | cons d digits ih =>
      intro first last hFold
      obtain ⟨next, hNext, hFold⟩ := Option.bind_eq_some_iff.mp hFold
      obtain ⟨n, hDigit, -⟩ := Option.map_eq_some_iff.mp hNext
      exact List.forall_mem_cons.mpr ⟨utf8Size_of_hexDigit hDigit, ih _ _ hFold⟩
  unfold fromStrRadix16 at h
  split at h
  · rename_i hPlus
    dsimp only at h
    split at h
    · cases h
    cases encoded with
    | nil => exact nofun
    | cons c digits =>
      obtain rfl : c = '+' := Option.some.inj hPlus
      exact List.forall_mem_cons.mpr ⟨rfl, hDigits digits _ _ h⟩
  · dsimp only at h
    split at h
    · cases h
    exact hDigits encoded _ _ h

theorem length_of_wholeCharacters {n : Nat} {chars : List Char} (h : wholeCharacters n chars = true)
    (hSizes : ∀ c ∈ chars.take n, c.utf8Size = 1) : n ≤ chars.length := by
  induction n generalizing chars with
  | zero => exact Nat.zero_le _
  | succ n ih =>
    cases chars with
    | nil => cases h
    | cons c chars =>
      rw [List.take_succ_cons] at hSizes
      obtain ⟨hFirst, hRest⟩ := List.forall_mem_cons.mp hSizes
      rw [wholeCharacters, hFirst, Bool.and_eq_true] at h
      exact Nat.succ_le_succ (ih h.2 hRest)

theorem wholeCharacters_append {encoded : List Char} (hSizes : ∀ c ∈ encoded, c.utf8Size = 1)
    (rest : List Char) : wholeCharacters encoded.length (encoded ++ rest) = true ∧
      encoded.length ≤ utf8Length (encoded ++ rest) := by
  induction encoded with
  | nil => exact ⟨by simp [wholeCharacters], Nat.zero_le _⟩
  | cons c encoded ih =>
    obtain ⟨hFirst, hRest⟩ := List.forall_mem_cons.mp hSizes
    obtain ⟨hWhole, hLength⟩ := ih hRest
    constructor
    · rw [List.length_cons, List.cons_append, wholeCharacters, hFirst, Bool.and_eq_true]
      exact ⟨decide_eq_true (Nat.succ_le_succ (Nat.zero_le _)), hWhole⟩
    · rw [List.cons_append, utf8Length, List.map_cons, List.sum_cons, hFirst, List.length_cons]
      rw [utf8Length] at hLength
      omega

theorem readUnicodeEscape_local {digits : Nat} {chars : List Char} {character : Char}
    (h : readUnicodeEscape digits chars = .ok character) :
    (chars.take digits).length = digits ∧
      ∀ rest, readUnicodeEscape digits (chars.take digits ++ rest) = .ok character := by
  obtain ⟨-, h⟩ := unit_bind_ok_iff.mp h
  obtain ⟨hWhole, h⟩ := unit_bind_ok_iff.mp h
  obtain ⟨value, hValue, h⟩ := bind_ok_iff.mp h
  have hSizes := utf8Size_of_fromStrRadix16 (elim_ok_iff.mp hValue)
  have hLength : (chars.take digits).length = digits :=
    List.length_take_of_le (length_of_wholeCharacters (ensure_ok_iff.mp hWhole) hSizes)
  refine ⟨hLength, fun rest => ?_⟩
  obtain ⟨hWhole', hBytes⟩ := wholeCharacters_append hSizes rest
  rw [hLength] at hWhole' hBytes
  refine unit_bind_ok_iff.mpr ⟨ensure_of hBytes, unit_bind_ok_iff.mpr ⟨ensure_of hWhole', ?_⟩⟩
  rw [List.take_left' hLength]
  exact bind_ok_iff.mpr ⟨value, hValue, h⟩

theorem readEscapedIdentifier_local {identifier chars value text rest : List Char}
    (h : readEscapedIdentifier identifier chars = .ok (value, text, rest)) :
    chars = text ++ rest ∧ text.getLast? = some '`' ∧ rest.head? ≠ some '`' ∧
      ∀ rest', rest'.head? ≠ some '`' →
        readEscapedIdentifier identifier (text ++ rest') = .ok (value, text, rest') := by
  induction identifier, chars using readEscapedIdentifier.induct generalizing text with
  | case1 identifier =>
    rw [readEscapedIdentifier] at h
    cases h
  | case2 identifier more ih =>
    rw [readEscapedIdentifier, if_pos rfl] at h
    obtain ⟨⟨value', text', rest'⟩, hMore, h⟩ := bind_ok_iff.mp h
    cases h
    obtain ⟨rfl, hLast, hNext, hLocal⟩ := ih hMore
    refine ⟨rfl, getLast_behind [_, _] hLast, hNext, fun rest' hNext' => ?_⟩
    rw [List.cons_append, List.cons_append, readEscapedIdentifier, if_pos rfl]
    simp only [hLocal rest' hNext', ok_bind]
  | case3 more hNext =>
    unfold readEscapedIdentifier at h
    rw [if_pos rfl] at h
    split at h
    · exact (hNext _ rfl).elim
    · rw [if_pos rfl] at h
      cases h
  | case4 identifier more hNext hSome =>
    unfold readEscapedIdentifier at h
    rw [if_pos rfl] at h
    split at h
    · exact (hNext _ rfl).elim
    rw [if_neg hSome] at h
    cases h
    refine ⟨rfl, rfl, fun hTick => ?_, fun rest' hNext' => ?_⟩
    · obtain ⟨later, hLater⟩ := List.head?_eq_some_iff.mp hTick
      exact hNext later hLater
    · rw [List.singleton_append]
      unfold readEscapedIdentifier
      rw [if_pos rfl]
      split
      · exact absurd rfl hNext'
      · rw [if_neg hSome]
  | case5 identifier more hOther ih =>
    rw [readEscapedIdentifier, if_neg hOther, if_pos rfl] at h
    obtain ⟨⟨value', text', rest'⟩, hMore, h⟩ := bind_ok_iff.mp h
    cases h
    obtain ⟨rfl, hLast, hNext, hLocal⟩ := ih hMore
    refine ⟨rfl, getLast_behind [_, _] hLast, hNext, fun rest' hNext' => ?_⟩
    rw [List.cons_append, List.cons_append, readEscapedIdentifier, if_neg hOther, if_pos rfl]
    simp only [hLocal rest' hNext', ok_bind]
  | case6 identifier more hOther ih =>
    rw [readEscapedIdentifier, if_neg hOther, if_pos rfl] at h
    obtain ⟨character, hCharacter, h⟩ := bind_ok_iff.mp h
    obtain ⟨⟨value', text', rest'⟩, hMore, h⟩ := bind_ok_iff.mp h
    cases h
    obtain ⟨hDrop, hLast, hNext, hLocal⟩ := ih character hMore
    obtain ⟨hLength, hEscape⟩ := readUnicodeEscape_local hCharacter
    refine ⟨?_, getLast_behind (_ :: _ :: _) hLast, hNext, fun rest' hNext' => ?_⟩
    · simp only [List.cons_append, List.append_assoc, ← hDrop, List.take_append_drop]
    · simp only [List.cons_append, List.append_assoc]
      rw [readEscapedIdentifier, if_neg hOther, if_pos rfl]
      simp only [hEscape, List.drop_left' hLength, List.take_left' hLength, hLocal rest' hNext',
        ok_bind, List.cons_append]
  | case7 identifier more hOther ih =>
    rw [readEscapedIdentifier, if_neg hOther, if_pos rfl] at h
    obtain ⟨character, hCharacter, h⟩ := bind_ok_iff.mp h
    obtain ⟨⟨value', text', rest'⟩, hMore, h⟩ := bind_ok_iff.mp h
    cases h
    obtain ⟨hDrop, hLast, hNext, hLocal⟩ := ih character hMore
    obtain ⟨hLength, hEscape⟩ := readUnicodeEscape_local hCharacter
    refine ⟨?_, getLast_behind (_ :: _ :: _) hLast, hNext, fun rest' hNext' => ?_⟩
    · simp only [List.cons_append, List.append_assoc, ← hDrop, List.take_append_drop]
    · simp only [List.cons_append, List.append_assoc]
      rw [readEscapedIdentifier, if_neg hOther, if_pos rfl]
      simp only [hEscape, List.drop_left' hLength, List.take_left' hLength, hLocal rest' hNext',
        ok_bind, List.cons_append]
  | case8 identifier more hTick hShort hLong hOther =>
    unfold readEscapedIdentifier at h
    rw [if_neg hOther, if_pos rfl] at h
    split at h
    · exact (hTick _ rfl).elim
    · exact (hShort _ rfl).elim
    · exact (hLong _ rfl).elim
    · cases h
  | case9 identifier c more hTick hBackslash ih =>
    unfold readEscapedIdentifier at h
    rw [if_neg hTick, if_neg hBackslash] at h
    obtain ⟨⟨value', text', rest'⟩, hMore, h⟩ := bind_ok_iff.mp h
    cases h
    obtain ⟨rfl, hLast, hNext, hLocal⟩ := ih hMore
    refine ⟨rfl, getLast_behind [c] hLast, hNext, fun rest' hNext' => ?_⟩
    rw [List.cons_append]
    unfold readEscapedIdentifier
    rw [if_neg hTick, if_neg hBackslash]
    simp only [hLocal rest' hNext', ok_bind]

theorem Continues.ne {text rest rest' : List Char} {d : Char} (h : Continues text rest rest')
    (hRest : rest.head? ≠ some d) (hSpace : isAsciiWhitespace d = false) (hSlash : d ≠ '/') :
    rest'.head? ≠ some d := by
  intro hHead
  rcases h with hSame | hOpens
  · exact hRest (hSame ▸ hHead)
  · obtain ⟨c, more, rfl, hOpen⟩ := hOpens.opens
    obtain rfl : c = d := Option.some.inj hHead
    rcases hOpen with hWhite | hSame
    · exact absurd (hWhite.symm.trans hSpace) nofun
    · exact hSlash hSame

theorem Resumes.ne {text rest rest' : List Char} {d : Char} (h : Resumes text rest rest')
    (hRest : rest.head? ≠ some d) (hSpace : isAsciiWhitespace d = false) (hSlash : d ≠ '/')
    (hDigit : d.isDigit = false) : rest'.head? ≠ some d := by
  rcases h with hContinues | hEnd | ⟨-, c, hHead, hIs⟩
  · exact hContinues.ne hRest hSpace hSlash
  · intro hHead
    rw [hEnd d hHead] at hSpace
    cases hSpace
  · intro hSame
    obtain rfl := Option.some.inj (hHead.symm.trans hSame)
    exact absurd (hIs.symm.trans hDigit) nofun

theorem isNameByte_of_digit {c : Char} (h : c.isDigit = true) : isNameByte c = true := by
  simp only [isNameByte, Char.isAlphanum, h, Bool.or_true, Bool.true_or]

theorem isNameByte_of_whitespace {c : Char} (h : isAsciiWhitespace c = true) :
    isNameByte c = false := by
  rcases isAsciiWhitespace_cases h with rfl | rfl | rfl | rfl | rfl <;> rfl

theorem isDigit_of_whitespace {c : Char} (h : isAsciiWhitespace c = true) : c.isDigit = false := by
  rcases isAsciiWhitespace_cases h with rfl | rfl | rfl | rfl | rfl <;> rfl

section Turns

variable [UnicodeTables]

theorem isNameCharacter_of_whitespace {c : Char} (h : isAsciiWhitespace c = true) :
    isNameCharacter c = false := by
  rcases isAsciiWhitespace_cases h with rfl | rfl | rfl | rfl | rfl <;> rfl

omit [UnicodeTables] in
theorem isAscii_of_isDigit {c : Char} (h : c.isDigit = true) : isAscii c = true := by
  simp only [Char.isDigit, Bool.and_eq_true, decide_eq_true_eq, UInt32.le_iff_toNat_le] at h
  have hSame : c.toNat = c.val.toNat := rfl
  refine decide_eq_true (?_ : c.val.toNat < 128)
  simp at h
  omega

theorem isNameCharacter_of_digit {c : Char} (h : c.isDigit = true) : isNameCharacter c = true := by
  rw [isNameCharacter, isAlphanumeric, if_pos (isAscii_of_isDigit h)]
  simp only [Char.isAlphanum, h, Bool.or_true, Bool.true_or]

omit [UnicodeTables] in
theorem lexRun_local {first more rest' : List Char} {goesOn : Char → Bool}
    {kind : String → QueryTokenKind} (hStop : ∀ c ∈ rest'.head?, goesOn c = false) :
    lexRun first goesOn kind (more.takeWhile goesOn ++ rest') =
      ((lexRun first goesOn kind more).1, rest') := by
  obtain ⟨hTake, hDrop⟩ := @span_stop goesOn more rest' hStop
  rw [lexRun, hTake, hDrop]
  rfl

/-- A turn that reads `text` and finds the same before every rest that resumes there. -/
def ReadsLocally (chars rest : List Char) (found : Option Lexeme) : Prop :=
  ∃ text, text ≠ [] ∧ chars = text ++ rest ∧ (∀ lexeme ∈ found, lexeme.text = text) ∧
    ∀ rest', Resumes text rest rest' → lexStep (text ++ rest') = .ok (found, rest')

theorem readsLocally_lineComment {more : List Char} (hHead : more.head? = some '/') :
    ReadsLocally ('/' :: more) (more.dropWhile (· ≠ '\n')) none := by
  obtain ⟨later, rfl⟩ := List.head?_eq_some_iff.mp hHead
  refine ⟨'/' :: ('/' :: later).takeWhile (· ≠ '\n'), nofun, ?_, nofun, fun rest' hNext => ?_⟩
  · rw [List.cons_append, List.takeWhile_append_dropWhile]
  · have hLine : ∀ d ∈ rest'.head?, decide (d ≠ '\n') = false := by
      rcases hNext with (hSame | hOpens) | hEnd | ⟨⟨d, hHead, hIs⟩, -⟩
      · exact fun d hd => head_dropWhile d (hSame ▸ hd)
      · exact absurd ⟨_, rfl⟩ hOpens.noComment
      · exact fun d hd => decide_eq_false (not_not_intro (hEnd d hd))
      · have hBreak := of_not_not (of_decide_eq_false (head_dropWhile d hHead))
        rw [hBreak] at hIs
        cases hIs
    have hStop := @span_stop (· ≠ '\n') ('/' :: later) rest' hLine
    rw [List.cons_append, lexStep, if_neg (by decide), if_pos ⟨rfl, rfl⟩, hStop.2]

theorem readsLocally_blockComment {more last : List Char} (hHead : more.head? = some '*')
    (hLast : skipBlockComment more.tail = .ok last) : ReadsLocally ('/' :: more) last none := by
  obtain ⟨later, rfl⟩ := List.head?_eq_some_iff.mp hHead
  obtain ⟨text, hText, -, hLocal⟩ := skipBlockComment_local hLast
  obtain rfl : later = text ++ last := hText
  refine ⟨'/' :: '*' :: text, nofun, rfl, nofun, fun rest' _ => ?_⟩
  rw [List.cons_append, List.cons_append, lexStep, if_neg (by decide), if_neg (by simp),
    if_pos ⟨rfl, rfl⟩]
  exact bind_ok_iff.mpr ⟨rest', hLocal rest', rfl⟩

theorem readsLocally_quoted {c : Char} {more text last : List Char} (hQuote : c = '\'' ∨ c = '"')
    (hLast : skipQuotedString c more = .ok (text, last)) :
    ReadsLocally (c :: more) last (some ⟨.stringLiteral, c :: text⟩) := by
  have hOther : c ≠ '\\' ∧ c ≠ '/' ∧ c.isDigit = false ∧ isAsciiWhitespace c = false := by
    rcases hQuote with rfl | rfl <;> decide
  obtain ⟨hSlash, hDivide, hDigit, hWhite⟩ := hOther
  obtain ⟨hText, -, hNext, hLocal⟩ := skipQuotedString_local hSlash hLast
  obtain rfl : more = text ++ last := hText
  refine ⟨c :: text, nofun, rfl, ?_, fun rest' hContinues => ?_⟩
  · rintro lexeme ⟨⟩
    rfl
  have hNext' := hContinues.ne hNext hWhite hDivide hDigit
  rw [List.cons_append, lexStep, if_neg (Bool.eq_false_iff.mp hWhite), if_neg fun h => hDivide h.1,
    if_neg fun h => hDivide h.1, if_pos hQuote, hLocal rest' hNext']
  rfl

theorem readsLocally_escaped {more value text last : List Char}
    (hLast : readEscapedIdentifier [] more = .ok (value, text, last)) :
    ReadsLocally ('`' :: more) last
      (some ⟨.identifier (String.ofList value) true, '`' :: text⟩) := by
  obtain ⟨hText, -, hNext, hLocal⟩ := readEscapedIdentifier_local hLast
  obtain rfl : more = text ++ last := hText
  refine ⟨'`' :: text, nofun, rfl, ?_, fun rest' hContinues => ?_⟩
  · rintro lexeme ⟨⟩
    rfl
  have hNext' := hContinues.ne hNext rfl (by decide) rfl
  rw [List.cons_append, lexStep, if_neg (by decide), if_neg (by simp), if_neg (by simp),
    if_neg (by decide), if_pos rfl, hLocal rest' hNext']
  rfl

theorem readsLocally_parameter {more : List Char} (hName : more.takeWhile isNameByte ≠ []) :
    ReadsLocally ('$' :: more) (more.dropWhile isNameByte)
      (some ⟨.parameter (String.ofList (more.takeWhile isNameByte)),
        '$' :: more.takeWhile isNameByte⟩) := by
  refine ⟨'$' :: more.takeWhile isNameByte, nofun, ?_, ?_, fun rest' hContinues => ?_⟩
  · rw [List.cons_append, List.takeWhile_append_dropWhile]
  · rintro lexeme ⟨⟩
    rfl
  have hStop := hContinues.stops head_dropWhile (fun _ => isNameByte_of_whitespace) rfl
    fun _ => isNameByte_of_digit
  obtain ⟨hTake, hDrop⟩ := @span_stop isNameByte more rest' hStop
  rw [List.cons_append, lexStep, if_neg (by decide), if_neg (by simp), if_neg (by simp),
    if_neg (by decide), if_neg (by decide), if_pos rfl, hTake, hDrop]
  exact if_neg hName

/-- A run of characters is read up to the first that does not go on. -/
theorem readsLocally_run {c : Char} {more : List Char} {goesOn : Char → Bool}
    {kind : String → QueryTokenKind}
    (hStep : ∀ more, lexStep (c :: more) = .ok (lexRun [c] goesOn kind more))
    (hSpace : ∀ d, isAsciiWhitespace d = true → goesOn d = false) (hSlash : goesOn '/' = false)
    (hDigit : ∀ d, d.isDigit = true → goesOn d = true) :
    ReadsLocally (c :: more) (more.dropWhile goesOn) (lexRun [c] goesOn kind more).1 := by
  refine ⟨c :: more.takeWhile goesOn, nofun, ?_, ?_, fun rest' hContinues => ?_⟩
  · rw [List.cons_append, List.takeWhile_append_dropWhile]
  · rintro lexeme ⟨⟩
    rfl
  have hStop := hContinues.stops head_dropWhile hSpace hSlash hDigit
  rw [List.cons_append, hStep, lexRun_local hStop]

/-- Of the symbols only a slash is read differently before some rest. -/
theorem readsLocally_symbol {c : Char} {more : List Char} {found : Option Lexeme}
    (hLine : ¬ (c = '/' ∧ more.head? = some '/')) (hBlock : ¬ (c = '/' ∧ more.head? = some '*'))
    (hText : ∀ lexeme ∈ found, lexeme.text = [c])
    (hStep : ∀ more, ¬ (c = '/' ∧ more.head? = some '/') → ¬ (c = '/' ∧ more.head? = some '*') →
      lexStep (c :: more) = .ok (found, more)) : ReadsLocally (c :: more) more found := by
  refine ⟨[c], nofun, rfl, hText, fun rest' hContinues => hStep rest' ?_ ?_⟩
  · rintro ⟨rfl, hHead⟩
    rcases hContinues with (hSame | hOpens) | hEnd | ⟨-, d, hDigit, hIs⟩
    · exact hLine ⟨rfl, hSame ▸ hHead⟩
    · exact hOpens.noSlash rfl hHead
    · exact absurd (hEnd _ hHead) (by decide)
    · obtain rfl := Option.some.inj (hDigit.symm.trans hHead)
      cases hIs
  · rintro ⟨rfl, hHead⟩
    exact hContinues.ne (fun hStar => hBlock ⟨rfl, hStar⟩) rfl (by decide) rfl hHead

theorem lexStep_local {chars rest : List Char} {found : Option Lexeme}
    (h : lexStep chars = .ok (found, rest)) (hSome : chars ≠ []) :
    ∃ text, text ≠ [] ∧ chars = text ++ rest ∧ (∀ lexeme ∈ found, lexeme.text = text) ∧
      ∀ rest', Resumes text rest rest' → lexStep (text ++ rest') = .ok (found, rest') := by
  cases chars with
  | nil => exact absurd rfl hSome
  | cons c more =>
    rw [lexStep] at h
    by_cases hWhite : isAsciiWhitespace c = true
    · rw [if_pos hWhite] at h
      cases h
      exact ⟨[c], nofun, rfl, nofun, fun rest' _ => if_pos hWhite⟩
    rw [if_neg hWhite] at h
    by_cases hLine : c = '/' ∧ more.head? = some '/'
    · rw [if_pos hLine] at h
      cases h
      obtain ⟨rfl, hHead⟩ := hLine
      exact readsLocally_lineComment hHead
    rw [if_neg hLine] at h
    by_cases hBlock : c = '/' ∧ more.head? = some '*'
    · rw [if_pos hBlock] at h
      obtain ⟨last, hLast, h⟩ := bind_ok_iff.mp h
      cases h
      obtain ⟨rfl, hHead⟩ := hBlock
      exact readsLocally_blockComment hHead hLast
    rw [if_neg hBlock] at h
    by_cases hQuote : c = '\'' ∨ c = '"'
    · rw [if_pos hQuote] at h
      obtain ⟨⟨text, last⟩, hLast, h⟩ := bind_ok_iff.mp h
      cases h
      exact readsLocally_quoted hQuote hLast
    rw [if_neg hQuote] at h
    by_cases hTick : c = '`'
    · rw [if_pos hTick] at h
      obtain ⟨⟨value, text, last⟩, hLast, h⟩ := bind_ok_iff.mp h
      cases h
      subst hTick
      exact readsLocally_escaped hLast
    rw [if_neg hTick] at h
    by_cases hDollar : c = '$'
    · rw [if_pos hDollar] at h
      dsimp only at h
      split at h
      · cases h
      rename_i hName
      cases h
      subst hDollar
      exact readsLocally_parameter hName
    rw [if_neg hDollar] at h
    by_cases hSemicolon : c = ';'
    · rw [if_pos hSemicolon] at h
      cases h
      refine readsLocally_symbol hLine hBlock (by rintro lexeme ⟨⟩; rfl) fun rest' hLine hBlock => ?_
      rw [lexStep, if_neg hWhite, if_neg hLine, if_neg hBlock, if_neg hQuote, if_neg hTick,
        if_neg hDollar, if_pos hSemicolon]
    rw [if_neg hSemicolon] at h
    by_cases hSlash : c = '/'
    · subst hSlash
      rw [if_neg (by decide), if_neg (by decide), if_pos (by decide)] at h
      cases h
      refine readsLocally_symbol hLine hBlock (by rintro lexeme ⟨⟩; rfl) fun rest' hLine hBlock => ?_
      rw [lexStep, if_neg hWhite, if_neg hLine, if_neg hBlock, if_neg hQuote, if_neg hTick,
        if_neg hDollar, if_neg hSemicolon, if_neg (by decide), if_neg (by decide),
        if_pos (by decide)]
    have hPast : ∀ rest', lexStep (c :: rest') =
        if c.isAlpha ∨ c = '_' then .ok (lexRun [c] isNameByte (.identifier · false) rest')
        else if c.isDigit then .ok (lexRun [c] Char.isDigit .integer rest')
        else if isAscii c then .ok (some ⟨.symbol c, [c]⟩, rest')
        else if UnicodeTables.isAlphanumeric c then
          .ok (lexRun [c] isNameCharacter (.identifier · false) rest')
        else .error (.invalidCommand "graph query contains an unsupported non-ASCII token") := by
      intro rest'
      rw [lexStep, if_neg hWhite, if_neg fun h => hSlash h.1, if_neg fun h => hSlash h.1,
        if_neg hQuote, if_neg hTick, if_neg hDollar, if_neg hSemicolon]
    by_cases hAlpha : c.isAlpha ∨ c = '_'
    · rw [if_pos hAlpha] at h
      cases h
      exact readsLocally_run (fun rest' => (hPast rest').trans (if_pos hAlpha))
        (fun _ => isNameByte_of_whitespace) rfl fun _ => isNameByte_of_digit
    simp only [if_neg hAlpha] at h hPast
    by_cases hDigit : c.isDigit
    · rw [if_pos hDigit] at h
      cases h
      exact readsLocally_run (fun rest' => (hPast rest').trans (if_pos hDigit))
        (fun _ => isDigit_of_whitespace) rfl fun _ => id
    simp only [if_neg hDigit] at h hPast
    by_cases hAscii : isAscii c
    · rw [if_pos hAscii] at h
      cases h
      exact readsLocally_symbol hLine hBlock (by rintro lexeme ⟨⟩; rfl) fun rest' _ _ =>
        (hPast rest').trans (if_pos hAscii)
    simp only [if_neg hAscii] at h hPast
    by_cases hLetter : UnicodeTables.isAlphanumeric c
    · rw [if_pos hLetter] at h
      cases h
      exact readsLocally_run (fun rest' => (hPast rest').trans (if_pos hLetter))
        (fun _ => isNameCharacter_of_whitespace) rfl fun _ => isNameCharacter_of_digit
    · rw [if_neg hLetter] at h
      cases h

end Turns

end Rhiza.Graph
