/-
  Subject:   The frames of an event stream (src/worker/token-usage.ts, `createSseFrames`).

  The source copies whole lines of a chunk into a buffer that grows up to 2 MiB; a frame that would not
  fit is reported without its text. The machine of section 3 takes one byte at a time and has no buffer.

  * **`push_simulates`**: a push of a chunk is the machine fed with its bytes.
-/
import ClawRouter.Lib.Chunked
import ClawRouter.Lib.TextDecoder

namespace ClawRouter.Inspect

open Utf16 Chunked

def usageInspectionLimit : Nat := 2 * 1024 * 1024

/-! ## 1. The buffer -/

/-- The variables of the closure; the buffer has all its bytes, used or not. -/
structure Frames where
  buffer : List UInt8
  length : Nat
  lineLength : Nat
  overflow : Bool
  skipLf : Bool

def createSseFrames : Frames := ⟨List.replicate 8192 0, 0, 0, false, false⟩

def setBytes (buffer bytes : List UInt8) (offset : Nat) : List UInt8 :=
  buffer.take offset ++ bytes ++ buffer.drop (offset + bytes.length)

namespace Frames

def grown (s : Frames) (needed : Nat) : List UInt8 :=
  if s.buffer.length < needed then
    setBytes (List.replicate (min usageInspectionLimit (max (s.buffer.length * 2) needed)) 0)
      (s.buffer.take s.length) 0
  else s.buffer

def append (s : Frames) (bytes : List UInt8) : Frames :=
  if s.overflow then s
  else if usageInspectionLimit < s.length + bytes.length then { s with overflow := true, length := 0 }
  else
    { s with
      buffer := setBytes (s.grown (s.length + bytes.length)) bytes s.length
      length := s.length + bytes.length }

def decode (fatalUtf8 : Bool) (s : Frames) : Option Text :=
  TextDecoder.decode fatalUtf8 (s.buffer.take s.length)

def overflowed (s : Frames) : Bool := s.overflow

def pending (fatalUtf8 : Bool) (s : Frames) : Option Text := if s.overflow then none else s.decode fatalUtf8

/-- The end of a line after `bytes`: a frame where the line is empty. -/
def endLine (fatalUtf8 : Bool) (s : Frames) (bytes : List UInt8) (byte : UInt8) :
    Frames × List (Option Text) :=
  let s := s.append bytes
  let s := { s with lineLength := s.lineLength + bytes.length }
  if s.lineLength = 0 then
    ({ s with length := 0, overflow := false, lineLength := 0, skipLf := byte == 13 }, [s.pending fatalUtf8])
  else ({ s.append [10] with lineLength := 0, skipLf := byte == 13 }, [])

/-- The loop of `push`; `segment` are the bytes from `start` to `index`. -/
def pushFrom (fatalUtf8 : Bool) (s : Frames) (segment : List UInt8) : List UInt8 → Frames × List (Option Text)
  | [] =>
    let s := s.append segment
    ({ s with lineLength := s.lineLength + segment.length }, [])
  | byte :: rest =>
    if s.skipLf && byte == 10 then pushFrom fatalUtf8 { s with skipLf := false } [] rest
    else
      let s := { s with skipLf := false }
      if byte != 10 && byte != 13 then pushFrom fatalUtf8 s (segment ++ [byte]) rest
      else
        let (s, frames) := s.endLine fatalUtf8 segment byte
        let (s, later) := pushFrom fatalUtf8 s [] rest
        (s, frames ++ later)

def push (fatalUtf8 : Bool) (s : Frames) (bytes : List UInt8) : Frames × List (Option Text) :=
  s.pushFrom fatalUtf8 [] bytes

end Frames

/-! ## 2. What the buffer holds -/

/-- The bytes of the frame so far, none after an overflow. -/
def Frames.content (s : Frames) : Option (List UInt8) :=
  if s.overflow then none else some (s.buffer.take s.length)

/-- What is left of bytes that were kept when more arrive. -/
def keep (content : Option (List UInt8)) (bytes : List UInt8) : Option (List UInt8) :=
  content.bind fun kept => if usageInspectionLimit < kept.length + bytes.length then none else
    some (kept ++ bytes)

theorem keep_nil {content : Option (List UInt8)} (h : ∀ kept ∈ content, kept.length ≤ usageInspectionLimit) :
    keep content [] = content := by
  cases content with
  | none => rfl
  | some kept =>
    have hle := h kept rfl
    show (if usageInspectionLimit < kept.length + 0 then none else some (kept ++ [])) = some kept
    rw [if_neg (by omega), List.append_nil]

theorem keep_append (content : Option (List UInt8)) (xs ys : List UInt8) :
    keep (keep content xs) ys = keep content (xs ++ ys) := by
  cases content with
  | none => rfl
  | some kept =>
    simp only [keep, Option.bind_some, List.length_append]
    by_cases hx : usageInspectionLimit < kept.length + xs.length
    · rw [if_pos hx, if_pos (by omega)]
      rfl
    · rw [if_neg hx, Option.bind_some, List.length_append, List.append_assoc, Nat.add_assoc]

theorem length_setBytes {buffer bytes : List UInt8} {offset : Nat}
    (h : offset + bytes.length ≤ buffer.length) :
    (setBytes buffer bytes offset).length = buffer.length := by
  unfold setBytes
  simp only [List.length_append, List.length_take, List.length_drop]
  omega

theorem take_setBytes {buffer bytes : List UInt8} {offset : Nat} (h : offset + bytes.length ≤ buffer.length) :
    (setBytes buffer bytes offset).take (offset + bytes.length) = buffer.take offset ++ bytes := by
  refine List.take_left' ?_
  simp only [List.length_append, List.length_take]
  omega

/-- The used part lies inside the buffer, and that inside the limit. -/
structure Frames.Fits (s : Frames) : Prop where
  used : s.length ≤ s.buffer.length
  limit : s.buffer.length ≤ usageInspectionLimit

namespace Frames

variable {s : Frames}

theorem Fits.content_le (h : s.Fits) : ∀ kept ∈ s.content, kept.length ≤ usageInspectionLimit := by
  intro kept hkept
  unfold content at hkept
  split at hkept
  · cases hkept
  · cases hkept
    rw [List.length_take]
    have := h.used
    have := h.limit
    omega

theorem grown_spec (h : s.Fits) {needed : Nat} (hused : s.length ≤ needed)
    (hneeded : needed ≤ usageInspectionLimit) :
    needed ≤ (s.grown needed).length ∧ (s.grown needed).length ≤ usageInspectionLimit ∧
      (s.grown needed).take s.length = s.buffer.take s.length := by
  have hbuffer := h.used
  have hlimit := h.limit
  unfold grown
  split
  · have hfits : 0 + (s.buffer.take s.length).length ≤
        (List.replicate (min usageInspectionLimit (max (s.buffer.length * 2) needed)) (0 : UInt8)).length := by
      rw [List.length_take, List.length_replicate]
      omega
    have hcopied := take_setBytes hfits
    rw [Nat.zero_add, List.length_take, Nat.min_eq_left hbuffer] at hcopied
    rw [length_setBytes hfits, List.length_replicate, hcopied]
    refine ⟨by omega, by omega, ?_⟩
    rw [List.take_zero, List.nil_append]
  · exact ⟨by omega, hlimit, rfl⟩

theorem append_fits (h : s.Fits) (bytes : List UInt8) : (s.append bytes).Fits := by
  unfold append
  split
  · exact h
  · split
    · exact ⟨Nat.zero_le _, h.limit⟩
    · rename_i hle
      obtain ⟨hneeded, hlimit, _⟩ := @grown_spec s h (s.length + bytes.length) (by omega) (by omega)
      have hlen := length_setBytes hneeded
      exact ⟨by rw [hlen]; exact hneeded, by rw [hlen]; exact hlimit⟩

theorem append_content (h : s.Fits) (bytes : List UInt8) :
    (s.append bytes).content = keep s.content bytes := by
  unfold append content
  by_cases ho : s.overflow = true
  · rw [if_pos ho, if_pos ho]
    rfl
  · have hused := h.used
    rw [if_neg ho, if_neg ho]
    have hkept : (s.buffer.take s.length).length = s.length := by
      rw [List.length_take]
      omega
    simp only [keep, Option.bind_some, hkept]
    by_cases hlimit : usageInspectionLimit < s.length + bytes.length
    · rw [if_pos hlimit, if_pos hlimit]
      rfl
    · obtain ⟨hneeded, _, hsame⟩ := @grown_spec s h (s.length + bytes.length) (by omega) (by omega)
      rw [if_neg hlimit, if_neg hlimit]
      simp only [ho, Bool.false_eq_true, if_false, take_setBytes hneeded, hsame]

theorem append_lineLength (bytes : List UInt8) : (s.append bytes).lineLength = s.lineLength := by
  unfold append
  split
  · rfl
  · split <;> rfl

theorem append_skipLf (bytes : List UInt8) : (s.append bytes).skipLf = s.skipLf := by
  unfold append
  split
  · rfl
  · split <;> rfl

end Frames

/-! ## 3. One byte at a time -/

/-- The framer between two bytes. -/
structure Framer where
  content : Option (List UInt8)
  lineLength : Nat
  skipLf : Bool

def framer : Framer := ⟨some [], 0, false⟩

def frameStep (fatalUtf8 : Bool) (s : Framer) (byte : UInt8) : Framer × List (Option Text) :=
  if s.skipLf && byte == 10 then ({ s with skipLf := false }, [])
  else if byte != 10 && byte != 13 then (⟨keep s.content [byte], s.lineLength + 1, false⟩, [])
  else if s.lineLength = 0 then (⟨some [], 0, byte == 13⟩, [s.content.bind (TextDecoder.decode fatalUtf8)])
  else (⟨keep s.content [10], 0, byte == 13⟩, [])

/-- A framer of the source and the machine stand at the same place. -/
structure Follows (t : Frames) (s : Framer) : Prop where
  fits : t.Fits
  content : t.content = s.content
  lineLength : t.lineLength = s.lineLength
  skipLf : t.skipLf = s.skipLf

theorem Follows.start : Follows createSseFrames framer where
  fits := by
    refine ⟨Nat.zero_le _, ?_⟩
    show (List.replicate 8192 (0 : UInt8)).length ≤ usageInspectionLimit
    rw [List.length_replicate]
    decide
  content := rfl
  lineLength := rfl
  skipLf := rfl

theorem pending_eq (fatalUtf8 : Bool) (t : Frames) :
    t.pending fatalUtf8 = t.content.bind (TextDecoder.decode fatalUtf8) := by
  unfold Frames.pending Frames.content
  split <;> rfl

section Push

variable {fatalUtf8 : Bool}

/-- The machine has read `segment` since the framer of the source last wrote to its buffer. -/
structure Ahead (t : Frames) (segment : List UInt8) (s : Framer) : Prop where
  fits : t.Fits
  content : s.content = keep t.content segment
  lineLength : s.lineLength = t.lineLength + segment.length
  skipLf : t.skipLf = s.skipLf
  fresh : t.skipLf = true → segment = []

theorem Ahead.of_follows {t : Frames} {s : Framer} (h : Follows t s) : Ahead t [] s where
  fits := h.fits
  content := by rw [keep_nil h.fits.content_le, h.content]
  lineLength := h.lineLength.symm
  skipLf := h.skipLf
  fresh := fun _ => rfl

theorem endLine_follows {t : Frames} {segment : List UInt8} {s : Framer} (h : Ahead t segment s) {byte : UInt8}
    (hskip : (s.skipLf && byte == 10) = false) (hend : (byte != 10 && byte != 13) = false) :
    Follows (({ t with skipLf := false } : Frames).endLine fatalUtf8 segment byte).1
      (frameStep fatalUtf8 s byte).1 ∧
      (({ t with skipLf := false } : Frames).endLine fatalUtf8 segment byte).2 =
        (frameStep fatalUtf8 s byte).2 := by
  have hfits : ({ t with skipLf := false } : Frames).Fits := ⟨h.fits.used, h.fits.limit⟩
  have hafits := Frames.append_fits hfits segment
  have hacontent := Frames.append_content hfits segment
  have haline : (({ t with skipLf := false } : Frames).append segment).lineLength = t.lineLength :=
    Frames.append_lineLength segment
  have hline := h.lineLength
  have hcontent : (({ t with skipLf := false } : Frames).append segment).content = s.content := by
    rw [hacontent, h.content]
    rfl
  unfold Frames.endLine frameStep
  rw [hskip, hend]
  simp only [Bool.false_eq_true, if_false]
  rw [haline]
  by_cases hzero : s.lineLength = 0
  · rw [if_pos (by omega), if_pos hzero]
    refine ⟨⟨⟨Nat.zero_le _, hafits.limit⟩, rfl, rfl, rfl⟩, ?_⟩
    rw [pending_eq]
    exact congrArg (fun c => [c]) (congrArg (Option.bind · (TextDecoder.decode fatalUtf8)) hcontent)
  · rw [if_neg (by omega), if_neg hzero]
    have hfits' : ({ ({ t with skipLf := false } : Frames).append segment with
        lineLength := t.lineLength + segment.length } : Frames).Fits := ⟨hafits.used, hafits.limit⟩
    have hnext := Frames.append_fits hfits' [10]
    have hkeep := Frames.append_content hfits' [10]
    refine ⟨⟨⟨hnext.used, hnext.limit⟩, ?_, rfl, rfl⟩, rfl⟩
    exact hkeep.trans (congrArg (keep · [10]) hcontent)

theorem pushFrom_simulates (bytes : List UInt8) {t : Frames} {segment : List UInt8} {s : Framer}
    (h : Ahead t segment s) :
    Follows (t.pushFrom fatalUtf8 segment bytes).1 (feed (frameStep fatalUtf8) s bytes).1 ∧
      (t.pushFrom fatalUtf8 segment bytes).2 = (feed (frameStep fatalUtf8) s bytes).2 := by
  induction bytes generalizing t segment s with
  | nil =>
    have hfits := Frames.append_fits h.fits segment
    have hcontent := Frames.append_content h.fits segment
    have hline := @Frames.append_lineLength t segment
    have hskip := @Frames.append_skipLf t segment
    refine ⟨⟨⟨hfits.used, hfits.limit⟩, hcontent.trans h.content.symm, ?_, hskip.trans h.skipLf⟩, rfl⟩
    exact (congrArg (· + segment.length) hline).trans h.lineLength.symm
  | cons byte rest ih =>
    have hsame := h.skipLf
    by_cases hskip : (s.skipLf && byte == 10) = true
    · -- the line feed of a pair counts with its carriage return
      have ht : t.skipLf = true := hsame.trans (Bool.and_eq_true_iff.mp hskip).1
      have hempty := h.fresh ht
      have hahead : Ahead { t with skipLf := false } [] { s with skipLf := false } := by
        refine ⟨⟨h.fits.used, h.fits.limit⟩, ?_, ?_, rfl, fun _ => rfl⟩
        · rw [← hempty]
          exact h.content
        · rw [← hempty]
          exact h.lineLength
      have hrest := ih hahead
      rw [Frames.pushFrom, hsame, if_pos hskip]
      simp only [feed, frameStep, if_pos hskip, List.nil_append]
      exact hrest
    · have hskip' : (s.skipLf && byte == 10) = false := Bool.eq_false_iff.mpr hskip
      by_cases hplain : (byte != 10 && byte != 13) = true
      · have hahead : Ahead { t with skipLf := false } (segment ++ [byte])
            ⟨keep s.content [byte], s.lineLength + 1, false⟩ := by
          refine ⟨⟨h.fits.used, h.fits.limit⟩, ?_, ?_, rfl, fun hno => by cases hno⟩
          · rw [← keep_append]
            exact congrArg (keep · [byte]) h.content
          · have hline := h.lineLength
            simp only [List.length_append, List.length_singleton]
            omega
        have hrest := ih hahead
        rw [Frames.pushFrom, hsame, if_neg hskip]
        simp only [feed, frameStep, if_neg hskip, if_pos hplain, List.nil_append]
        exact hrest
      · have hplain' : (byte != 10 && byte != 13) = false := Bool.eq_false_iff.mpr hplain
        obtain ⟨hfollows, hout⟩ := endLine_follows h hskip' hplain'
        obtain ⟨hfollows', hout'⟩ := ih (Ahead.of_follows hfollows)
        rw [Frames.pushFrom, hsame, if_neg hskip]
        simp only [if_neg hplain]
        refine ⟨hfollows', ?_⟩
        show _ ++ _ = (frameStep fatalUtf8 s byte).2 ++ _
        rw [hout, hout']

/-- **A push is the machine fed with the bytes of the chunk.** -/
theorem push_simulates : Simulates (Frames.push fatalUtf8) (frameStep fatalUtf8) Follows :=
  fun _ _ chunk h => pushFrom_simulates chunk (Ahead.of_follows h)

theorem frames_of_bytes {xs ys : List (List UInt8)} (h : xs.flatten = ys.flatten) :
    (pushAll (Frames.push fatalUtf8) createSseFrames xs).2 =
      (pushAll (Frames.push fatalUtf8) createSseFrames ys).2 ∧
    (pushAll (Frames.push fatalUtf8) createSseFrames xs).1.pending fatalUtf8 =
      (pushAll (Frames.push fatalUtf8) createSseFrames ys).1.pending fatalUtf8 ∧
    (pushAll (Frames.push fatalUtf8) createSseFrames xs).1.overflowed =
      (pushAll (Frames.push fatalUtf8) createSseFrames ys).1.overflowed := by
  obtain ⟨hx, houtx⟩ := pushAll_simulates (@push_simulates fatalUtf8) Follows.start xs
  obtain ⟨hy, houty⟩ := pushAll_simulates (@push_simulates fatalUtf8) Follows.start ys
  have hcontent := hx.content.trans ((congrArg (fun b => (feed _ framer b).1.content) h).trans hy.content.symm)
  refine ⟨?_, ?_, ?_⟩
  · rw [houtx, houty, h]
  · rw [pending_eq, pending_eq, hcontent]
  · unfold Frames.content at hcontent
    unfold Frames.overflowed
    split at hcontent <;> split at hcontent <;> simp_all

end Push

end ClawRouter.Inspect
