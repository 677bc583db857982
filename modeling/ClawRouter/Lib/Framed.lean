/-
  Subject:   Frames that say at their front how far they reach, and what takes them one after the other.

  * `run`: frame by frame, with the bytes that are left; **`run_append`**: the bytes may come in parts;
  * `split`: all frames first; **`run_split`**: the run consumes them in order until it stops.
-/
import Mathlib.Data.List.Basic

namespace Framed

/-! ## 1. Frames -/

/-- What is known of the frame at the front. -/
inductive Front (ε : Type)
  | short
  | frame (size : Nat)
  | broken (reason : ε)

/-- A cut into frames that may come in parts. -/
structure Framing (ι ε : Type) where
  front : List ι → Front ε
  fits : ∀ {xs : List ι} {size : Nat}, front xs = .frame size → 0 < size ∧ size ≤ xs.length
  frame_append : ∀ {xs : List ι} {size : Nat} (ys : List ι), front xs = .frame size →
    front (xs ++ ys) = .frame size
  broken_append : ∀ {xs : List ι} {reason : ε} (ys : List ι),
    front xs = .broken reason → front (xs ++ ys) = .broken reason

/-- What takes the frames, until it has failed. -/
structure Sink (σ ι ε : Type) where
  consume : σ → List ι → σ
  fail : σ → ε → σ
  stopped : σ → Bool
  fail_stops : ∀ s reason, stopped (fail s reason) = true

variable {σ ι ε : Type} (F : Framing ι ε) (K : Sink σ ι ε)

theorem Framing.drop_lt {xs : List ι} {size : Nat} (h : F.front xs = .frame size) :
    (xs.drop size).length < xs.length := by
  obtain ⟨hpos, hle⟩ := F.fits h
  rw [List.length_drop]
  omega

/-! ## 2. Frame by frame -/

/-- The sink after the frames, and the bytes of the frame that is not complete. -/
def run (s : σ) (xs : List ι) : σ × List ι :=
  if K.stopped s then (s, [])
  else
    match _h : F.front xs with
    | .short => (s, xs)
    | .broken reason => (K.fail s reason, [])
    | .frame size => run (K.consume s (xs.take size)) (xs.drop size)
termination_by xs.length
decreasing_by exact F.drop_lt ‹_›

section Cases

variable {s : σ} {xs : List ι}

theorem run_stopped (h : K.stopped s = true) : run F K s xs = (s, []) := by
  rw [run, if_pos h]

/-- What a sink that goes on does with the front. -/
theorem run_open (h : K.stopped s = false) : run F K s xs = match F.front xs with
    | .short => (s, xs)
    | .broken reason => (K.fail s reason, [])
    | .frame size => run F K (K.consume s (xs.take size)) (xs.drop size) := by
  rw [run, if_neg (by rw [h]; exact Bool.false_ne_true)]
  split <;> rename_i hfront <;> rw [hfront]

theorem run_short (h : K.stopped s = false) (hfront : F.front xs = .short) : run F K s xs = (s, xs) := by
  rw [run_open F K h, hfront]

theorem run_broken {reason : ε} (h : K.stopped s = false) (hfront : F.front xs = .broken reason) :
    run F K s xs = (K.fail s reason, []) := by
  rw [run_open F K h, hfront]

theorem run_frame {size : Nat} (h : K.stopped s = false) (hfront : F.front xs = .frame size) :
    run F K s xs = run F K (K.consume s (xs.take size)) (xs.drop size) := by
  rw [run_open F K h, hfront]

end Cases

/-- **The bytes may come in parts.** What the first part left is put before the second. -/
theorem run_append (s : σ) (xs ys : List ι) :
    run F K s (xs ++ ys) = run F K (run F K s xs).1 ((run F K s xs).2 ++ ys) := by
  cases hstop : K.stopped s with
  | true =>
    simp only [run_stopped F K hstop]
  | false =>
    cases hfront : F.front xs with
    | short => rw [run_short F K hstop hfront]
    | broken reason =>
      rw [run_broken F K hstop hfront, run_broken F K hstop (F.broken_append ys hfront)]
      exact (run_stopped F K (K.fail_stops s reason)).symm
    | frame size =>
      obtain ⟨_, hle⟩ := F.fits hfront
      rw [run_frame F K hstop hfront, run_frame F K hstop (F.frame_append ys hfront),
        List.take_append_of_le_length hle, List.drop_append_of_le_length hle]
      exact run_append _ _ ys
termination_by xs.length
decreasing_by exact F.drop_lt hfront

/-! ## 3. All frames first -/

/-- The frames, the bytes after the last one, and why no frame could begin there. -/
def split (xs : List ι) : List (List ι) × List ι × Option ε :=
  match _h : F.front xs with
  | .short => ([], xs, none)
  | .broken reason => ([], xs, some reason)
  | .frame size =>
    let rest := split (xs.drop size)
    (xs.take size :: rest.1, rest.2)
termination_by xs.length
decreasing_by exact F.drop_lt ‹_›

theorem split_front (xs : List ι) : split F xs = match F.front xs with
    | .short => ([], xs, none)
    | .broken reason => ([], xs, some reason)
    | .frame size => (xs.take size :: (split F (xs.drop size)).1, (split F (xs.drop size)).2) := by
  rw [split]
  split <;> rename_i hfront <;> rw [hfront]

theorem split_frame {xs : List ι} {size : Nat} (hfront : F.front xs = .frame size) :
    split F xs = (xs.take size :: (split F (xs.drop size)).1, (split F (xs.drop size)).2) := by
  rw [split_front, hfront]

theorem split_short {xs : List ι} (hfront : F.front xs = .short) : split F xs = ([], xs, none) := by
  rw [split_front, hfront]

theorem split_broken {xs : List ι} {reason : ε} (hfront : F.front xs = .broken reason) :
    split F xs = ([], xs, some reason) := by
  rw [split_front, hfront]

/-- The frames in order, none of them once the sink has stopped. -/
def consumeAll (s : σ) (frames : List (List ι)) : σ :=
  frames.foldl (fun s frame => if K.stopped s then s else K.consume s frame) s

theorem consumeAll_stopped {s : σ} (h : K.stopped s = true) (frames : List (List ι)) :
    consumeAll K s frames = s := by
  induction frames with
  | nil => rfl
  | cons frame frames ih =>
    rw [consumeAll, List.foldl_cons, if_pos h]
    exact ih

theorem consumeAll_cons {s : σ} (h : K.stopped s = false) (frame : List ι) (frames : List (List ι)) :
    consumeAll K s (frame :: frames) = consumeAll K (K.consume s frame) frames := by
  rw [consumeAll, List.foldl_cons, if_neg (by rw [h]; exact Bool.false_ne_true)]
  rfl

/-- What the frames came to, unless the sink has stopped before. -/
def close (s : σ) (rest : List ι) (why : Option ε) : σ × List ι :=
  if K.stopped s then (s, [])
  else
    match why with
    | none => (s, rest)
    | some reason => (K.fail s reason, [])

/-- **The run consumes the frames in order until it stops.** -/
theorem run_split (s : σ) (xs : List ι) :
    run F K s xs = close K (consumeAll K s (split F xs).1) (split F xs).2.1 (split F xs).2.2 := by
  cases hstop : K.stopped s with
  | true =>
    rw [run_stopped F K hstop, consumeAll_stopped K hstop]
    exact (if_pos hstop).symm
  | false =>
    have hnot : ¬ K.stopped s = true := by
      rw [hstop]
      exact Bool.false_ne_true
    cases hfront : F.front xs with
    | short =>
      rw [run_short F K hstop hfront, split_short F hfront]
      exact (if_neg hnot).symm
    | broken reason =>
      rw [run_broken F K hstop hfront, split_broken F hfront]
      exact (if_neg hnot).symm
    | frame size =>
      rw [run_frame F K hstop hfront, split_frame F hfront, consumeAll_cons K hstop]
      exact run_split _ _
termination_by xs.length
decreasing_by exact F.drop_lt hfront

end Framed
