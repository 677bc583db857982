/-
  Subject:   Reading a body up to a bound (`readBounded` of src/worker/transcription-body.ts).

  The bytes are gathered in a buffer that grows, never beyond the maximum.

  * **`readBounded_ok`**: a body is returned where it ends within its bounds, and is what was read.
-/
import ClawRouter.Lib.Fallible
import Mathlib.Data.List.TakeDrop
import Mathlib.Tactic.Linarith

namespace ClawRouter.Transcription

variable {maximum reads status : Nat}
variable {b : Buffer}
variable {maximumReads : Option Nat}
variable {chunks : List (List UInt8)}

section Bounded

variable {ρ : Type}

/-! ## 1. The reads -/

/-- What a read comes to: a part of the body, its end, or the reason why there is none. -/
inductive Read (ρ : Type)
  | chunk (bytes : List UInt8)
  | done
  | failed (reason : ρ)

/-- Why a body is not read. -/
inductive ReadError (ρ : Type)
  | http (status : Nat) (code message : String)
  | range
  | failed (reason : ρ)

def chunkLimit (status : Nat) : ReadError ρ :=
  .http status "transcription_chunk_limit" "multipart upload exceeds its chunk limit"

def bodyTooLarge (status : Nat) : ReadError ρ :=
  .http status "transcription_body_too_large" "transcription body exceeds router byte limit"

/-- The bytes that were read. -/
structure Buffer where
  bytes : List UInt8
  used : Nat

/-- `target.set(source, offset)`, none where it throws. -/
def setBytes (target source : List UInt8) (offset : Nat) : Option (List UInt8) :=
  if offset + source.length ≤ target.length then
    some (target.take offset ++ source ++ target.drop (offset + source.length))
  else none

def Buffer.grow (maximum : Nat) (b : Buffer) (required : Nat) : Option Buffer :=
  if b.bytes.length < required then do
    let size := min maximum (max required (b.bytes.length * 2))
    let grown ← setBytes (List.replicate size 0) (b.bytes.take b.used) 0
    return { b with bytes := grown }
  else some b

def Buffer.append (maximum : Nat) (b : Buffer) (value : List UInt8) : Option Buffer := do
  let b ← b.grow maximum (b.used + value.length)
  let bytes ← setBytes b.bytes value b.used
  return ⟨bytes, b.used + value.length⟩

section Loop

variable (maximum status : Nat) (maximumReads : Option Nat)

/-- `while (true)`, with what the reads come to; none while a read is under way. -/
def readFrom (reads : Nat) (b : Buffer) (source : List (Read ρ)) :
    Option (Except (ReadError ρ) (List UInt8)) :=
  if maximumReads.any (· < reads + 1) then some (.error (chunkLimit status))
  else
    match source with
    | [] => none
    | .failed reason :: _ => some (.error (.failed reason))
    | .done :: _ => some (.ok (b.bytes.take b.used))
    | .chunk value :: rest =>
      if maximum - b.used < value.length then some (.error (bodyTooLarge status))
      else
        match b.append maximum value with
        | none => some (.error .range)
        | some b => readFrom (reads + 1) b rest

/-- `readBounded`: a signal that is aborted, no body, or the loop. -/
def readBounded (aborted : Option ρ) (body : Option (List (Read ρ))) :
    Option (Except (ReadError ρ) (List UInt8)) :=
  match aborted, body with
  | some reason, _ => some (.error (.failed reason))
  | none, none => some (.ok [])
  | none, some source =>
    readFrom maximum status maximumReads 0 ⟨List.replicate (min maximum 8192) 0, 0⟩ source

end Loop

/-! ## 2. The buffer -/

/-- The buffer holds what has been read, within the maximum. -/
structure Holds (maximum : Nat) (b : Buffer) (read : List UInt8) : Prop where
  content : b.bytes.take b.used = read
  used : b.used = read.length
  fits : b.used ≤ b.bytes.length
  bound : b.bytes.length ≤ maximum

theorem setBytes_some {target source : List UInt8} {offset : Nat}
    (h : offset + source.length ≤ target.length) :
    setBytes target source offset =
      some (target.take offset ++ source ++ target.drop (offset + source.length)) := if_pos h

theorem setBytes_length {target source : List UInt8} {offset : Nat}
    (h : offset + source.length ≤ target.length) :
    (target.take offset ++ source ++ target.drop (offset + source.length)).length = target.length := by
  simp only [List.length_append, List.length_take, List.length_drop]
  omega

theorem Holds.grow {read : List UInt8} (h : Holds maximum b read) {required : Nat}
    (hlow : b.used ≤ required) (hhigh : required ≤ maximum) :
    ∃ b', b.grow maximum required = some b' ∧ Holds maximum b' read ∧ b'.used = b.used ∧
      required ≤ b'.bytes.length := by
  obtain ⟨hcontent, hused, hfits, hbound⟩ := h
  unfold Buffer.grow
  split
  · rename_i hlt
    have hsize : (List.replicate (min maximum (max required (b.bytes.length * 2))) (0 : UInt8)).length =
        min maximum (max required (b.bytes.length * 2)) := List.length_replicate
    have hroom : 0 + (b.bytes.take b.used).length ≤
        (List.replicate (min maximum (max required (b.bytes.length * 2))) (0 : UInt8)).length := by
      rw [hsize, List.length_take]
      omega
    dsimp only
    rw [setBytes_some hroom]
    refine ⟨_, rfl, ⟨?_, hused, ?_, ?_⟩, rfl, ?_⟩
    · dsimp only
      rw [List.take_zero, List.nil_append, List.take_append_of_le_length, List.take_take,
        Nat.min_self, hcontent]
      rw [List.length_take]
      omega
    · dsimp only
      rw [setBytes_length hroom, hsize]
      omega
    · rw [setBytes_length hroom, hsize]
      omega
    · rw [setBytes_length hroom, hsize]
      omega
  · exact ⟨b, rfl, ⟨hcontent, hused, hfits, hbound⟩, rfl, by omega⟩

theorem Holds.append {read value : List UInt8} (h : Holds maximum b read)
    (hfits : value.length ≤ maximum - b.used) :
    ∃ b', b.append maximum value = some b' ∧ Holds maximum b' (read ++ value) := by
  have hle : b.used ≤ maximum := le_trans h.fits h.bound
  obtain ⟨grown, hgrow, hholds, hsame, hroom⟩ := h.grow (Nat.le_add_right b.used value.length) (by omega)
  obtain ⟨hcontent, hused, _, hbound⟩ := hholds
  have hset : b.used + value.length ≤ grown.bytes.length := hroom
  unfold Buffer.append
  rw [hgrow]
  dsimp only [bind, Option.bind]
  rw [hsame, setBytes_some hset]
  refine ⟨_, rfl, ?_, ?_, ?_, ?_⟩
  · rw [hsame] at hcontent
    rw [hcontent, List.append_assoc, ← List.append_assoc, List.take_append_of_le_length,
      List.take_of_length_le]
    · rw [List.length_append, h.used]
    · rw [List.length_append, h.used]
  · rw [List.length_append, h.used]
  · rw [setBytes_length hset]
    exact hset
  · rw [setBytes_length hset]
    exact hbound

/-! ## 3. A body that ends -/

/-- Within the maximum, and within so many reads, the last of which finds the end. -/
def Within (maximum : Nat) (maximumReads : Option Nat) (reads used : Nat)
    (chunks : List (List UInt8)) : Prop :=
  used + chunks.flatten.length ≤ maximum ∧ ∀ limit ∈ maximumReads, reads + chunks.length + 1 ≤ limit

theorem exceeds_iff : maximumReads.any (· < reads) = true ↔ ∃ limit ∈ maximumReads, limit < reads := by
  cases maximumReads with
  | none => simp
  | some limit => simp

theorem within_cons {read value : List UInt8} :
    Within maximum maximumReads reads read.length (value :: chunks) ↔
      Within maximum maximumReads (reads + 1) (read ++ value).length chunks := by
  unfold Within
  rw [List.flatten_cons, List.length_append, List.length_append, List.length_cons]
  refine and_congr ?_ (forall_congr' fun limit => imp_congr_right fun _ => ?_)
  · omega
  · omega

theorem readFrom_stops {source : List (Read ρ)} (h : ∃ limit ∈ maximumReads, limit < reads + 1) :
    readFrom maximum status maximumReads reads b source = some (.error (chunkLimit status)) := by
  unfold readFrom
  rw [if_pos (exceeds_iff.mpr h)]

theorem readFrom_chunks {read : List UInt8} (h : Holds maximum b read) (rest : List (Read ρ)) :
    (Within maximum maximumReads reads read.length chunks ∧
      readFrom maximum status maximumReads reads b (chunks.map .chunk ++ .done :: rest) =
        some (.ok (read ++ chunks.flatten))) ∨ (¬ Within maximum maximumReads reads read.length chunks ∧
      (readFrom maximum status maximumReads reads b (chunks.map .chunk ++ .done :: rest) =
          some (.error (chunkLimit status)) ∨
        readFrom maximum status maximumReads reads b (chunks.map .chunk ++ .done :: rest) =
          some (.error (bodyTooLarge status)))) := by
  induction chunks generalizing reads b read with
  | nil =>
    by_cases hlimit : ∃ limit ∈ maximumReads, limit < reads + 1
    · right
      refine ⟨fun hwithin => ?_, .inl (readFrom_stops hlimit)⟩
      obtain ⟨limit, hmem, hlt⟩ := hlimit
      have := hwithin.2 limit hmem
      rw [List.length_nil] at this
      omega
    · left
      refine ⟨⟨?_, fun limit hmem => ?_⟩, ?_⟩
      · rw [List.flatten_nil, List.length_nil, ← h.used]
        exact le_trans h.fits h.bound
      · by_contra hlt
        rw [List.length_nil] at hlt
        exact hlimit ⟨limit, hmem, by omega⟩
      · rw [List.map_nil, List.nil_append, readFrom, if_neg (fun he => hlimit (exceeds_iff.mp he)), h.content,
          List.flatten_nil, List.append_nil]
  | cons value chunks ih =>
    by_cases hlimit : ∃ limit ∈ maximumReads, limit < reads + 1
    · right
      refine ⟨fun hwithin => ?_, .inl (readFrom_stops hlimit)⟩
      obtain ⟨limit, hmem, hlt⟩ := hlimit
      have := hwithin.2 limit hmem
      omega
    · rw [List.map_cons, List.cons_append, readFrom, if_neg (fun he => hlimit (exceeds_iff.mp he))]
      by_cases hlarge : maximum - b.used < value.length
      · right
        rw [if_pos hlarge]
        refine ⟨fun hwithin => ?_, .inr rfl⟩
        have hsize := hwithin.1
        rw [List.flatten_cons, List.length_append, ← h.used] at hsize
        omega
      · rw [if_neg hlarge]
        obtain ⟨b', hb', hholds⟩ := h.append (Nat.le_of_not_lt hlarge)
        rw [hb', within_cons, List.flatten_cons, ← List.append_assoc]
        exact ih hholds

theorem readFrom_done {source : List (Read ρ)} {bytes : List UInt8}
    (h : readFrom maximum status maximumReads reads b source = some (.ok bytes)) :
    ∃ (chunks : List (List UInt8)) (rest : List (Read ρ)), source = chunks.map .chunk ++ .done :: rest := by
  induction source generalizing reads b with
  | nil =>
    unfold readFrom at h
    split at h
    · cases h
    · cases h
  | cons first source ih =>
    unfold readFrom at h
    split at h
    · cases h
    · cases first with
      | failed reason => cases h
      | done => exact ⟨[], source, rfl⟩
      | chunk value =>
        dsimp only at h
        split at h
        · cases h
        · split at h
          · cases h
          · obtain ⟨chunks, rest, rfl⟩ := ih h
            exact ⟨value :: chunks, rest, rfl⟩

theorem holds_fresh (maximum : Nat) : Holds maximum ⟨List.replicate (min maximum 8192) 0, 0⟩ [] :=
  ⟨List.take_zero, rfl, Nat.zero_le _, by rw [List.length_replicate]; exact Nat.min_le_left _ _⟩

/-- **What is returned is what was read**: a body within its bounds, up to its end. -/
theorem readBounded_ok (maximum status : Nat) (maximumReads : Option Nat) (source : List (Read ρ))
    (bytes : List UInt8) : readBounded maximum status maximumReads none (some source) = some (.ok bytes) ↔
      ∃ (chunks : List (List UInt8)) (rest : List (Read ρ)),
        source = chunks.map .chunk ++ .done :: rest ∧ Within maximum maximumReads 0 0 chunks ∧
        bytes = chunks.flatten := by
  constructor
  · intro h
    obtain ⟨chunks, rest, rfl⟩ := readFrom_done h
    have hread : readFrom maximum status maximumReads 0 _ _ = _ := h
    rcases readFrom_chunks (holds_fresh maximum) rest with ⟨hwithin, hok⟩ | ⟨_, herror | herror⟩
    · rw [hok] at hread
      cases hread
      exact ⟨chunks, rest, rfl, hwithin, rfl⟩
    · rw [herror] at hread
      cases hread
    · rw [herror] at hread
      cases hread
  · rintro ⟨chunks, rest, rfl, hwithin, rfl⟩
    rcases readFrom_chunks (holds_fresh maximum) rest with ⟨_, hok⟩ | ⟨hnot, _⟩
    · exact hok
    · exact absurd hwithin hnot

theorem readBounded_throws (maximum status : Nat) (maximumReads : Option Nat) (chunks : List (List UInt8))
    (rest : List (Read ρ)) :
    (∃ e, readBounded maximum status maximumReads none (some (chunks.map .chunk ++ .done :: rest)) =
      some (.error e)) ↔ ¬ Within maximum maximumReads 0 0 chunks := by
  constructor
  · rintro ⟨e, he⟩ hwithin
    have hok := (readBounded_ok maximum status maximumReads (chunks.map .chunk ++ .done :: rest) _).mpr
      ⟨chunks, rest, rfl, hwithin, rfl⟩
    rw [hok] at he
    cases he
  · intro hnot
    rcases readFrom_chunks (holds_fresh maximum) rest with ⟨hwithin, _⟩ | ⟨_, herror | herror⟩
    · exact absurd hwithin hnot
    · exact ⟨_, herror⟩
    · exact ⟨_, herror⟩

theorem chunks_unique {chunks' : List (List UInt8)} {rest rest' : List (Read ρ)}
    (h : chunks.map .chunk ++ .done :: rest = chunks'.map .chunk ++ .done :: rest') : chunks = chunks' := by
  induction chunks generalizing chunks' with
  | nil =>
    cases chunks' with
    | nil => rfl
    | cons _ _ => cases h
  | cons value chunks ih =>
    cases chunks' with
    | nil => cases h
    | cons value' chunks' =>
      injection h with hvalue hrest
      cases hvalue
      rw [ih hrest]

theorem not_within : ¬ Within maximum maximumReads 0 0 chunks ↔
      maximum < chunks.flatten.length ∨ ∃ limit ∈ maximumReads, limit < chunks.length + 1 := by
  unfold Within
  rw [not_and_or, Nat.zero_add, Nat.not_le]
  refine or_congr_right ?_
  push Not
  refine exists_congr fun limit => and_congr_right fun _ => ?_
  omega

end Bounded

end ClawRouter.Transcription
