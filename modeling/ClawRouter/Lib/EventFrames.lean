/-
  Subject:   Frames of an event stream: lines end at CR, LF or CR LF, a frame ends at an empty line.

  * `first_le`, `first_lt`: what has begun a frame is in the first one, or in what is left.
-/
import Mathlib.Data.List.Basic

namespace EventFrames

abbrev Bytes := List UInt8

abbrev Frames := List Bytes × Bytes

def isEnd (byte : UInt8) : Bool := byte == 13 || byte == 10

def ended (frame : Bytes) (rest : Frames) : Frames := (frame :: rest.1, rest.2)

/-- The frames of `cur` and the bytes after it, where `cur` has begun a frame; `blank` while its line is empty. -/
def split (cur : Bytes) (blank : Bool) : Bytes → Frames
  | [] => ([], cur)
  | [byte] =>
    if isEnd byte then
      if blank then ([cur ++ [byte]], []) else ([], cur ++ [byte])
    else ([], cur ++ [byte])
  | byte :: next :: rest =>
    if byte = 13 ∧ next = 10 then
      if blank then ended (cur ++ [13, 10]) (split [] true rest) else split (cur ++ [13, 10]) true rest
    else if isEnd byte then
      if blank then ended (cur ++ [byte]) (split [] true (next :: rest)) else
        split (cur ++ [byte]) true (next :: rest)
    else split (cur ++ [byte]) false (next :: rest)

theorem split_one (cur : Bytes) (blank : Bool) (byte : UInt8) : split cur blank [byte] =
    if isEnd byte then if blank then ([cur ++ [byte]], []) else ([], cur ++ [byte]) else
      ([], cur ++ [byte]) := rfl

theorem split_next (cur : Bytes) (blank : Bool) (byte next : UInt8) (rest : Bytes) :
    split cur blank (byte :: next :: rest) =
      if byte = 13 ∧ next = 10 then
        if blank then ended (cur ++ [13, 10]) (split [] true rest) else split (cur ++ [13, 10]) true rest
      else if isEnd byte then
        if blank then ended (cur ++ [byte]) (split [] true (next :: rest)) else
          split (cur ++ [byte]) true (next :: rest)
      else split (cur ++ [byte]) false (next :: rest) := rfl

def frames (bytes : Bytes) : Frames := split [] true bytes

/-- After a CR that ends a frame, unless a LF comes that is still its own. -/
def boundary (cur : Bytes) : Bytes → Frames
  | [] => ended cur (frames [])
  | byte :: rest => if byte = 10 then ended (cur ++ [10]) (frames rest) else ended cur (frames (byte :: rest))

def afterCR (cur : Bytes) : Bytes → Frames
  | [] => split cur true []
  | byte :: rest => if byte = 10 then split (cur ++ [10]) true rest else split cur true (byte :: rest)

section Bytes

variable (cur : Bytes) (xs : Bytes)

theorem split_byte (blank : Bool) {byte : UInt8} (h : isEnd byte = false) :
    split cur blank (byte :: xs) = split (cur ++ [byte]) false xs := by
  have hcr : byte ≠ 13 := by
    rintro rfl
    cases h
  cases xs with
  | nil =>
    rw [split_one, h, if_neg Bool.false_ne_true]
    rfl
  | cons next rest => rw [split_next, if_neg fun hboth => hcr hboth.1, h, if_neg Bool.false_ne_true]

theorem split_lf : split cur true (10 :: xs) = ended (cur ++ [10]) (frames xs) := by
  cases xs with
  | nil => rfl
  | cons next rest =>
    rw [split_next, if_neg fun hboth => absurd hboth.1 (by decide), if_pos (by decide), if_pos rfl]
    rfl

theorem split_lf_line : split cur false (10 :: xs) = split (cur ++ [10]) true xs := by
  cases xs with
  | nil => rfl
  | cons next rest => rw [split_next, if_neg fun hboth => absurd hboth.1 (by decide), if_pos (by decide), if_neg Bool.false_ne_true]

theorem split_cr : split cur true (13 :: xs) = boundary (cur ++ [13]) xs := by
  cases xs with
  | nil => rfl
  | cons next rest =>
    rw [split_next, boundary, List.append_assoc]
    by_cases hlf : next = 10
    · rw [if_pos ⟨rfl, hlf⟩, if_pos hlf, if_pos rfl]
      rfl
    · rw [if_neg fun hboth => hlf hboth.2, if_neg hlf, if_pos (by decide), if_pos rfl]
      rfl

theorem split_cr_line : split cur false (13 :: xs) = afterCR (cur ++ [13]) xs := by
  cases xs with
  | nil => rfl
  | cons next rest =>
    rw [split_next, afterCR, List.append_assoc]
    by_cases hlf : next = 10
    · rw [if_pos ⟨rfl, hlf⟩, if_pos hlf, if_neg Bool.false_ne_true]
      rfl
    · rw [if_neg fun hboth => hlf hboth.2, if_neg hlf, if_pos (by decide), if_neg Bool.false_ne_true]

end Bytes

theorem split_flatten (cur : Bytes) (blank : Bool) (xs : Bytes) :
    (split cur blank xs).1.flatten ++ (split cur blank xs).2 = cur ++ xs := by
  fun_induction split cur blank xs with
  | case1 => simp
  | _ => simp_all [ended]

theorem frames_flatten (xs : Bytes) : (frames xs).1.flatten ++ (frames xs).2 = xs := split_flatten [] true xs

/-- The first frame, or what is left when there is none. -/
def first (r : Frames) : Bytes := r.1.head?.getD r.2

theorem first_mem (r : Frames) : first r ∈ r.1 ∨ first r = r.2 := by
  obtain ⟨frames, rest⟩ := r
  cases frames with
  | nil => exact .inr rfl
  | cons frame frames => exact .inl List.mem_cons_self

theorem first_le (cur : Bytes) (blank : Bool) (xs : Bytes) :
    cur.length ≤ (first (split cur blank xs)).length := by
  fun_induction split cur blank xs with
  | case1 => exact Nat.le_refl _
  | _ =>
    simp only [first, ended, List.head?_cons, List.head?_nil, Option.getD_some, Option.getD_none,
      List.length_append] at *
    omega

/-- A byte more is in the first frame too. -/
theorem first_lt (cur : Bytes) (blank : Bool) (byte : UInt8) (xs : Bytes) :
    cur.length < (first (split cur blank (byte :: xs))).length := by
  have hgrows : ∀ more : Bytes, more ≠ [] → cur.length < (cur ++ more).length := fun more hmore => by
    rw [List.length_append]
    exact Nat.lt_add_of_pos_right (List.length_pos_iff.mpr hmore)
  cases xs with
  | nil =>
    rw [split_one]
    split
    · split <;> exact hgrows [byte] (List.cons_ne_nil _ _)
    · exact hgrows [byte] (List.cons_ne_nil _ _)
  | cons next rest =>
    rw [split_next]
    split
    · split
      · exact hgrows [13, 10] (List.cons_ne_nil _ _)
      · exact Nat.lt_of_lt_of_le (hgrows [13, 10] (List.cons_ne_nil _ _)) (first_le _ _ _)
    · split
      · split
        · exact hgrows [byte] (List.cons_ne_nil _ _)
        · exact Nat.lt_of_lt_of_le (hgrows [byte] (List.cons_ne_nil _ _)) (first_le _ _ _)
      · exact Nat.lt_of_lt_of_le (hgrows [byte] (List.cons_ne_nil _ _)) (first_le _ _ _)

end EventFrames
