/-
  Subject:   `new TextDecoder("utf-8", { fatal }).decode(bytes)`, of all bytes or of a stream.

  A sequence that breaks off or breaks the rules is replaced (or fails where errors are fatal) up to the
  byte that does not fit, which is read again as the first of a code point; a leading byte-order mark is
  dropped.

  * `Stream`, `decodeStream`: `decode(bytes, { stream: true })`, and `decodeStream_append`: two parts of
    a stream may be decoded one after the other.
-/
import ClawRouter.Lib.Utf16

namespace TextDecoder

open Utf16

/-- Inside a code point: its bits so far, the bytes still owed, and the range of the next one. -/
structure Pending where
  code : Nat
  owed : Nat
  lower : Nat
  upper : Nat

def between : Pending := ⟨0, 0, 0x80, 0xbf⟩

def replacement : UInt16 := 0xfffd

def units (code : Nat) : Text :=
  if code < 0x10000 then [UInt16.ofNat code]
  else [UInt16.ofNat (0xd800 + (code - 0x10000) / 0x400), UInt16.ofNat (0xdc00 + (code - 0x10000) % 0x400)]

def malformed (fatal : Bool) : Option Text := if fatal then none else some [replacement]

def openByte (fatal : Bool) (b : UInt8) : Option (Text × Pending) :=
  let n := b.toNat
  if n ≤ 0x7f then some ([UInt16.ofNat n], between)
  else if 0xc2 ≤ n ∧ n ≤ 0xdf then some ([], ⟨n % 0x20, 1, 0x80, 0xbf⟩)
  else if 0xe0 ≤ n ∧ n ≤ 0xef then
    some ([], ⟨n % 0x10, 2, if n = 0xe0 then 0xa0 else 0x80, if n = 0xed then 0x9f else 0xbf⟩)
  else if 0xf0 ≤ n ∧ n ≤ 0xf4 then
    some ([], ⟨n % 0x08, 3, if n = 0xf0 then 0x90 else 0x80, if n = 0xf4 then 0x8f else 0xbf⟩)
  else (malformed fatal).map fun out => (out, between)

def nextByte (fatal : Bool) (s : Pending) (b : UInt8) : Option (Text × Pending) :=
  let n := b.toNat
  if s.owed = 0 then openByte fatal b
  else if n < s.lower ∨ s.upper < n then do
    let out ← malformed fatal
    let (more, s) ← openByte fatal b
    some (out ++ more, s)
  else
    let code := s.code * 0x40 + n % 0x40
    if s.owed = 1 then some (units code, between) else some ([], ⟨code, s.owed - 1, 0x80, 0xbf⟩)

def decodeFrom (fatal : Bool) (s : Pending) : List UInt8 → Option Text
  | [] => if s.owed = 0 then some [] else malformed fatal
  | b :: rest => do
    let (out, s) ← nextByte fatal s b
    let more ← decodeFrom fatal s rest
    some (out ++ more)

def withoutMark : Text → Text
  | 0xfeff :: rest => rest
  | t => t

def decode (fatal : Bool) (bytes : List UInt8) : Option Text :=
  (decodeFrom fatal between bytes).map withoutMark

example : decode false [0x61, 0xe2, 0x82, 0xac, 0xf0, 0x9f, 0xa6, 0x8a, 0xc3, 0x62] =
    some [0x61, 0x20ac, 0xd83e, 0xdd8a, 0xfffd, 0x62] := by decide

/-! ## Streams -/

/-- A code point that has begun, and whether a unit has been put out. -/
structure Stream where
  pending : Pending
  started : Bool

def stream : Stream := ⟨between, false⟩

def feedBytes (fatal : Bool) (s : Pending) : List UInt8 → Option (Text × Pending)
  | [] => some ([], s)
  | b :: rest => do
    let (out, s) ← nextByte fatal s b
    let (more, s) ← feedBytes fatal s rest
    some (out ++ more, s)

def decodeStream (fatal : Bool) (s : Stream) (bytes : List UInt8) : Option (Text × Stream) :=
  (feedBytes fatal s.pending bytes).map fun r =>
    (if s.started then r.1 else withoutMark r.1, ⟨r.2, s.started || !r.1.isEmpty⟩)

def flushStream (fatal : Bool) (s : Stream) : Option Text :=
  if s.pending.owed = 0 then some [] else malformed fatal

theorem feedBytes_append (fatal : Bool) (s : Pending) (xs ys : List UInt8) :
    feedBytes fatal s (xs ++ ys) = (feedBytes fatal s xs).bind fun r =>
      (feedBytes fatal r.2 ys).map fun t => (r.1 ++ t.1, t.2) := by
  induction xs generalizing s with
  | nil => simp [feedBytes]
  | cons b xs ih =>
    simp only [List.cons_append, feedBytes, bind, Option.bind]
    cases nextByte fatal s b with
    | none => rfl
    | some r =>
      dsimp only
      rw [ih]
      cases feedBytes fatal r.2 xs with
      | none => rfl
      | some t =>
        dsimp only [Option.bind]
        cases feedBytes fatal t.2 ys with
        | none => rfl
        | some u =>
          simp only [Option.map_some, List.append_assoc]

theorem withoutMark_append {xs : Text} (h : xs ≠ []) (ys : Text) :
    withoutMark (xs ++ ys) = withoutMark xs ++ ys := by
  cases xs with
  | nil => exact absurd rfl h
  | cons u xs =>
    rw [List.cons_append]
    unfold withoutMark
    split
    · rename_i heq
      cases heq
      rfl
    · rename_i hmark
      split
      · rename_i heq
        cases heq
        exact absurd rfl (hmark _)
      · rfl

/-- **Two parts of a stream may be decoded one after the other.** -/
theorem decodeStream_append (fatal : Bool) (s : Stream) (xs ys : List UInt8) :
    decodeStream fatal s (xs ++ ys) = (decodeStream fatal s xs).bind fun r =>
      (decodeStream fatal r.2 ys).map fun t => (r.1 ++ t.1, t.2) := by
  unfold decodeStream
  rw [feedBytes_append]
  cases feedBytes fatal s.pending xs with
  | none => rfl
  | some r =>
    simp only [Option.bind_some, Option.map_some]
    cases feedBytes fatal r.2 ys with
    | none => rfl
    | some t =>
      simp only [Option.map_some, Option.some.injEq, Prod.mk.injEq, Stream.mk.injEq, true_and]
      cases s.started with
      | true => simp
      | false =>
        cases hout : r.1 with
        | nil => simp [withoutMark]
        | cons u out => simp [← withoutMark_append (List.cons_ne_nil u out)]

end TextDecoder
