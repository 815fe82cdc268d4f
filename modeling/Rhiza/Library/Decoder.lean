import Mathlib.Data.List.Basic
import Rhiza.Library.Fallible

/-! # Decoders

A decoder consumes the front of its input or fails. `Reads` says that it consumes
exactly one part, whatever comes after it, and such facts are put together the way
the decoder is.
-/

namespace Rhiza.Library

variable {σ ε α β : Type}

abbrev Decoder (σ ε α : Type) := StateT (List σ) (Except ε) α

namespace Decoder

def fail (error : ε) : Decoder σ ε α := fun _ => .error error

/-- A computation that reads nothing. -/
def check (result : Except ε α) : Decoder σ ε α := fun input => result.map (·, input)

/-- Read `count` items one after the other. -/
def many (read : Decoder σ ε α) : Nat → Decoder σ ε (List α)
  | 0 => pure []
  | count + 1 => do
    let item ← read
    let items ← many read count
    pure (item :: items)

/-- The whole input is read. -/
def whole (read : Decoder σ ε α) (trailing : ε) (input : List σ) : Except ε α := do
  let (a, rest) ← read input
  ensure (rest.isEmpty = true) trailing
  pure a

def Reads (read : Decoder σ ε α) (part : List σ) (a : α) : Prop :=
  ∀ rest, read (part ++ rest) = .ok (a, rest)

namespace Reads

variable {read : Decoder σ ε α} {next : α → Decoder σ ε β} {part part' : List σ} {a : α} {b : β}

theorem pure (a : α) : Reads (Pure.pure a : Decoder σ ε α) [] a := fun _ => rfl

theorem bind (h : Reads read part a) (h' : Reads (next a) part' b) :
    Reads (read >>= next) (part ++ part') b := by
  intro rest
  rw [List.append_assoc]
  change (read (part ++ (part' ++ rest)) >>= fun result => next result.1 result.2) = _
  rw [h (part' ++ rest)]
  exact h' rest

theorem last {f : α → β} (h : Reads read part a) :
    Reads (read >>= fun a => Pure.pure (f a)) part (f a) := by
  have hBoth : Reads (read >>= fun a => Pure.pure (f a)) (part ++ []) (f a) := h.bind (pure (f a))
  rwa [List.append_nil] at hBoth

theorem of_check {result : Except ε α} (h : result = .ok a) :
    Reads (check result : Decoder σ ε α) [] a := by
  rintro rest
  rw [h]
  rfl

theorem checked {result : Except ε α} (h : result = .ok a) (h' : Reads (next a) part b) :
    Reads (check result >>= next) part b := by
  have hBoth : Reads (check result >>= next) ([] ++ part) b := (of_check h).bind h'
  rwa [List.nil_append] at hBoth

theorem whole (h : Reads read part a) (trailing : ε) : read.whole trailing part = .ok a := by
  have hRead : read part = .ok (a, []) := by
    have hNil := h []
    rwa [List.append_nil] at hNil
  rw [Decoder.whole, hRead]
  rfl

end Reads

def Recovers (encode : α → Except ε (List σ)) (read : Decoder σ ε α) (a : α) : Prop :=
  ∀ part, encode a = .ok part → Reads read part a

end Decoder

structure Lossless (reachable : α → Prop) (encode : α → Except ε (List σ))
    (decode : List σ → Except ε α) : Prop where
  accepts : ∀ a bytes, reachable a → encode a = .ok bytes → decode bytes = .ok a
  distinct : ∀ a b bytes, reachable a → reachable b → encode a = .ok bytes →
    encode b = .ok bytes → a = b

theorem Lossless.of_accepts {reachable : α → Prop} {encode : α → Except ε (List σ)}
    {decode : List σ → Except ε α}
    (h : ∀ a bytes, reachable a → encode a = .ok bytes → decode bytes = .ok a) :
    Lossless reachable encode decode := by
  refine ⟨h, fun a b bytes ha hb hEncode hEncode' => ?_⟩
  have hSame := (h a bytes ha hEncode).symm.trans (h b bytes hb hEncode')
  exact Except.ok.inj hSame

end Rhiza.Library
