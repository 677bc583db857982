/-
  Subject:   What a Copilot event stream delivers, over every cut of the body and every order of events.

  * `remaining`: the frames that are still to come, as the state of the scan leaves them; **`scan_frames`**;
  * **`copilot_stream`**: what is delivered at any time, when the stream ends cleanly, and that it ends.
-/
import ClawRouter.Copilot.InferenceResponse

namespace ClawRouter.CopilotInference

open EventFrames

/-! ## 1. The scan -/

/-- What the flags say of the bytes before. -/
structure Scan.Fine (s : Scan) : Prop where
  skips : s.skipLF = true → s.lineSize = 0
  bounds : s.boundaryCR = true → s.lineSize = 0 ∧ s.buffer ≠ []

/-- No byte of a frame has been looked at since the last one ended. -/
def Scan.isFresh (s : Scan) : Prop := s.lineSize = 0 ∧ s.skipLF = false ∧ s.boundaryCR = false

/-- The frames of what the scan holds and the bytes after it. -/
def remaining (s : Scan) (xs : Bytes) : Frames :=
  if s.boundaryCR then boundary s.buffer xs
  else if s.skipLF then afterCR s.buffer xs
  else split s.buffer (s.lineSize == 0) xs

theorem remaining_fresh {s : Scan} (h : s.isFresh) (xs : Bytes) :
    remaining s xs = split s.buffer true xs := by
  unfold remaining
  rw [h.1, h.2.1, h.2.2, if_neg Bool.false_ne_true, if_neg Bool.false_ne_true]
  rfl

theorem snoc_ne (buffer : Bytes) (byte : UInt8) : buffer ++ [byte] ≠ [] :=
  List.append_ne_nil_of_right_ne_nil _ (List.cons_ne_nil _ _)

theorem byte_frames {s s' : Scan} {byte : UInt8} {taken complete : Bool} (hfine : s.Fine)
    (h : s.byte byte = some (s', taken, complete)) : s'.Fine ∧ (complete = false →
        ∀ xs, remaining s (byte :: xs) = remaining s' xs) ∧ (complete = true → s'.isFresh ∧ s'.buffer ≠ [] ∧
        ∀ xs, remaining s (byte :: xs) = ended s'.buffer (frames (if taken then xs else byte :: xs))) := by
  unfold Scan.byte at h
  split at h
  · rename_i hbound
    obtain ⟨hsize, hbegun⟩ := hfine.bounds hbound
    split at h
    · rename_i hlf
      split at h
      · cases h
      · cases h
        refine ⟨⟨(fun h => by cases h), (fun h => by cases h)⟩, (fun h => by cases h), fun _ =>
          ⟨⟨hsize, rfl, rfl⟩, snoc_ne _ _, fun xs => ?_⟩⟩
        unfold remaining
        rw [if_pos hbound, boundary, if_pos hlf, hlf]
        rfl
    · rename_i hlf
      cases h
      refine ⟨⟨(fun h => by cases h), (fun h => by cases h)⟩, (fun h => by cases h), fun _ =>
        ⟨⟨hsize, rfl, rfl⟩, hbegun, fun xs => ?_⟩⟩
      unfold remaining
      rw [if_pos hbound, boundary, if_neg hlf]
      rfl
  · rename_i hbound
    rw [Bool.not_eq_true] at hbound
    split at h
    · cases h
    · split at h
      · rename_i hskip
        rw [Bool.and_eq_true, beq_iff_eq] at hskip
        cases h
        refine ⟨⟨(fun h => by cases h), fun hb => by cases hbound.symm.trans hb⟩, fun _ xs => ?_,
          (fun h => by cases h)⟩
        unfold remaining
        rw [hbound, if_neg Bool.false_ne_true, if_pos hskip.1, afterCR, if_pos hskip.2,
          if_neg Bool.false_ne_true,
          if_neg Bool.false_ne_true, hfine.skips hskip.1, hskip.2]
        rfl
      · rename_i hskip
        have hsplit : ∀ xs, remaining s (byte :: xs) = split s.buffer (s.lineSize == 0) (byte :: xs) := by
          intro xs
          unfold remaining
          rw [hbound, if_neg Bool.false_ne_true]
          split
          · rename_i hs
            rw [hs, Bool.true_and, beq_iff_eq] at hskip
            rw [afterCR, if_neg hskip, hfine.skips hs]
            rfl
          · rfl
        split at h
        · rename_i hcr
          cases h
          refine ⟨⟨fun _ => rfl, fun _ => ⟨rfl, snoc_ne _ _⟩⟩, fun _ xs => ?_, (fun h => by cases h)⟩
          rw [hsplit, hcr]
          cases s.lineSize == 0 with
          | true => exact split_cr _ _
          | false => exact split_cr_line _ _
        · rename_i hcr
          split at h
          · rename_i hlf
            cases h
            refine ⟨⟨(fun h => by cases h), (fun h => by cases h)⟩, fun hmore xs =>
              ?_, fun hcomplete => ⟨⟨rfl, rfl, rfl⟩, snoc_ne _ _, fun xs => ?_⟩⟩
            · rw [hsplit, hmore, hlf]
              exact split_lf_line _ _
            · rw [hsplit, hcomplete, hlf]
              exact split_lf _ _
          · rename_i hlf
            cases h
            refine ⟨⟨(fun h => by cases h), (fun h => by cases h)⟩, fun _ xs => ?_, (fun h => by cases h)⟩
            rw [hsplit, split_byte _ _ _ (by
              unfold isEnd
              rw [Bool.or_eq_false_iff]
              exact ⟨beq_false_of_ne hcr, beq_false_of_ne hlf⟩)]
            rfl

theorem byte_none {s : Scan} {byte : UInt8} (h : s.byte byte = none) (xs : Bytes) :
    frameBytes < (first (remaining s (byte :: xs))).length := by
  have hlong : ∀ more : Bytes, s.buffer.length = frameBytes → more ≠ [] →
    frameBytes < (s.buffer ++ more).length := by
    intro more hfull hmore
    rw [List.length_append, hfull]
    exact Nat.lt_add_of_pos_right (List.length_pos_iff.mpr hmore)
  unfold Scan.byte at h
  split at h
  · rename_i hbound
    split at h
    · rename_i hlf
      split at h
      · rename_i hfull
        unfold remaining
        rw [if_pos hbound, boundary, if_pos hlf]
        exact hlong [10] hfull (List.cons_ne_nil _ _)
      · cases h
    · cases h
  · rename_i hbound
    split at h
    · rename_i hfull
      unfold remaining
      rw [if_neg hbound]
      split
      · unfold afterCR
        dsimp only
        split
        · exact Nat.lt_of_lt_of_le (hlong [10] hfull (List.cons_ne_nil _ _)) (first_le _ _ _)
        · rw [← hfull]
          exact first_lt _ _ _ _
      · rw [← hfull]
        exact first_lt _ _ _ _
    · split at h
      · cases h
      · split at h
        · cases h
        · split at h
          · cases h
          · cases h

/-- **The loop takes the frames that a plain split has.** -/
theorem scan_frames {s s' : Scan} {xs rest : Bytes} {complete : Bool} (hfine : s.Fine)
    (h : scan s xs = some (s', rest, complete)) : s'.Fine ∧
      (complete = false → rest = [] ∧ ∀ ys, remaining s (xs ++ ys) = remaining s' ys) ∧
      (complete = true → s'.isFresh ∧ s'.buffer ≠ [] ∧ ∀ ys, remaining s (xs ++ ys) = ended
        s'.buffer (frames (rest ++ ys))) := by
  induction xs generalizing s with
  | nil =>
    cases h
    exact ⟨hfine, fun _ => ⟨rfl, fun _ => rfl⟩, nofun⟩
  | cons byte xs ih =>
    unfold scan at h
    split at h
    · cases h
    · rename_i s₁ taken hbyte
      cases h
      obtain ⟨hfine', -, hcomplete⟩ := byte_frames hfine hbyte
      obtain ⟨hfresh, hbegun, hframes⟩ := hcomplete rfl
      refine ⟨hfine', nofun, fun _ => ⟨hfresh, hbegun, fun ys => ?_⟩⟩
      rw [List.cons_append, hframes]
      cases taken <;> rfl
    · rename_i s₁ taken hbyte
      obtain ⟨hfine', hmore, -⟩ := byte_frames hfine hbyte
      have hframes := hmore rfl
      obtain ⟨hfine'', hopen, hdone⟩ := ih hfine' h
      refine ⟨hfine'', fun hc => ⟨(hopen hc).1, fun ys => ?_⟩, fun hc =>
        ⟨(hdone hc).1, (hdone hc).2.1, fun ys => ?_⟩⟩
      · rw [List.cons_append, hframes, (hopen hc).2]
      · rw [List.cons_append, hframes, (hdone hc).2.2]

theorem scan_none {s : Scan} {xs : Bytes} (hfine : s.Fine) (h : scan s xs = none) (ys : Bytes) :
    ∃ frame, (frame ∈ (remaining s (xs ++ ys)).1 ∨ frame = (remaining s (xs ++ ys)).2) ∧
      frameBytes < frame.length := by
  induction xs generalizing s with
  | nil => cases h
  | cons byte xs ih =>
    unfold scan at h
    split at h
    · rename_i hbyte
      exact ⟨_, first_mem _, byte_none hbyte (xs ++ ys)⟩
    · cases h
    · rename_i s₁ taken hbyte
      obtain ⟨hfine', hmore, -⟩ := byte_frames hfine hbyte
      rw [List.cons_append, hmore rfl]
      exact ih hfine' h

theorem remaining_end {s : Scan} (h : s.boundaryCR = false) : remaining s [] = ([], s.buffer) := by
  unfold remaining
  rw [h, if_neg Bool.false_ne_true]
  split
  · unfold afterCR
    rw [split]
  · rw [split]

/-! ## 2. One pull -/

/-- The frames from the one in the buffer on; `held` when that one is complete. -/
def ahead (held : Bool) (s : State) (ys : Bytes) : Frames :=
  if held then ended s.scan.buffer (frames (s.pending ++ ys)) else remaining s.scan (s.pending ++ ys)

def State.Admits (s : State) (ys : Bytes) : Prop := s.upstreamEOF = true → ys = []

/-- The body ends where a frame ends, and has its declared length. -/
def Whole (config : Config) (body : Bytes) : Prop :=
  body ≠ [] ∧ (frames body).2 = [] ∧ config.expected.all (· == body.length) = true

section Pulls

variable {config : Config}

/-- **What was delivered, the state and the frames of the body.** `fresh` revalidations have succeeded. -/
structure Holds (config : Config) (held : Bool) (s : State) (received : Bytes) (fresh : Nat) : Prop where
  size : s.size = received.length
  fine : s.scan.Fine
  checked : held = true → validateFrame config.inspect s.scan.buffer = true ∧ s.scan.isFresh ∧
    s.scan.buffer ≠ []
  /-- What is handed on of a frame are whole windows of it. -/
  windows : s.frameReady = true → ∃ windows, s.offset = windows * windowBytes ∧
    s.offset ≤ s.scan.buffer.length
  whole : ∃ whole : List Bytes, (∀ frame ∈ whole, validateFrame config.inspect frame = true) ∧
    s.delivered.flatten = whole.flatten ++ (if s.frameReady then s.scan.buffer.take s.offset else []) ∧
    whole.length + (if s.frameReady then 1 else 0) ≤ fresh ∧
    ∀ ys, s.Admits ys → frames (received ++ ys) = (whole ++ (ahead held s ys).1, (ahead held s ys).2)

/-- Why a pull fails: the body, or the number of its reads. -/
def Trouble (config : Config) (s : State) (received : Bytes) : Prop :=
  (∀ ys, s.Admits ys → ∃ frame, (frame ∈ (frames (received ++ ys)).1 ∨ frame = (frames (received ++ ys)).2) ∧
    frameBytes < frame.length) ∨
  (∀ ys, s.Admits ys → ∃ frame ∈ (frames (received ++ ys)).1, validateFrame config.inspect frame = false) ∨
  (s.upstreamEOF = true ∧ ¬ Whole config received) ∨ (s.upstreamEOF = false ∧ maximumReads < s.reads + 1)

/-- What a pull comes to that has no frame to hand on. -/
inductive Pulled (config : Config) (s s' : State) (received : Bytes) (fresh : Nat) : Prop
  | validated (h : Holds config true s' received fresh) (hphase : s'.phase = .revalidating)
    (hreads : s'.reads = s.reads)
  | reads (h : Holds config false s' received fresh) (hphase : s'.phase = .reading)
    (hopen : s'.upstreamEOF = false)
      (hpending : s'.pending = []) (hreads : s'.reads = s.reads + 1)
  | retires (h : Holds config false s' received fresh) (hphase : s'.phase = .retiring)
    (hdone : s'.upstreamEOF = true)
      (hwhole : Whole config received ∧ s'.pending = [] ∧ s'.scan.buffer = [] ∧ s'.scan.boundaryCR = false)
      (hreads : s'.reads = s.reads)
  | fails (hphase : s'.phase = .failed) (htrouble : Trouble config s received)

theorem validate_pulled {s s₁ : State} {received : Bytes} {fresh : Nat} (hready : s₁.frameReady = false)
    (hsame : s₁.upstreamEOF = s.upstreamEOF ∧ s₁.reads = s.reads)
      (hsize : s₁.size = received.length) (hfine : s₁.scan.Fine)
    (hfresh : s₁.scan.isFresh) (hbegun : s₁.scan.buffer ≠ []) {whole : List Bytes}
    (hwhole : ∀ frame ∈ whole, validateFrame config.inspect frame = true)
      (hdelivered : s₁.delivered.flatten = whole.flatten)
    (hcount : whole.length ≤ fresh)
    (hframes : ∀ ys, s.Admits ys → frames (received ++ ys) =
      (whole ++ (ahead true s₁ ys).1, (ahead true s₁ ys).2)) :
    Pulled config s (validate config s₁) received fresh := by
  unfold validate
  split
  · rename_i hvalid
    refine .validated ⟨hsize, hfine, fun _ => ⟨hvalid, hfresh, hbegun⟩,
      fun hr => absurd (hready.symm.trans hr) Bool.false_ne_true, whole, hwhole, ?_,
        ?_, fun ys hys => ?_⟩ rfl hsame.2
    · rw [hready, hdelivered, if_neg Bool.false_ne_true, List.append_nil]
    · rw [hready]
      exact hcount
    · exact hframes ys fun hdone => hys (hsame.1.trans hdone)
  · rename_i hinvalid
    refine .fails rfl (.inr (.inl fun ys hys => ⟨s₁.scan.buffer, ?_, Bool.eq_false_of_not_eq_true hinvalid⟩))
    rw [hframes ys hys]
    exact List.mem_append_right _ List.mem_cons_self

theorem validate_kept (config : Config) (s : State) : (validate config s).frameReady = s.frameReady ∧
    (validate config s).delivered = s.delivered ∧ (validate config s).upstreamEOF = s.upstreamEOF := by
  unfold validate
  split <;> exact ⟨rfl, rfl, rfl⟩

theorem advance_scan {s : State} (hready : s.frameReady = false) : advance config s =
    match scan s.scan s.pending with
    | none => s.fail
    | some (scan, pending, complete) =>
      let s := { s with scan, pending }
      if complete then validate config s
      else if s.upstreamEOF && s.scan.boundaryCR then
        validate config { s with scan := { s.scan with boundaryCR := false, skipLF := false } }
      else if s.upstreamEOF then finishBody config s
      else read s :=
  if_neg (by rw [hready]; exact Bool.false_ne_true)

theorem advance_kept {s : State} (hready : s.frameReady = false) : (advance config s).frameReady = false ∧
    (advance config s).delivered = s.delivered ∧ (advance config s).upstreamEOF = s.upstreamEOF := by
  unfold advance
  rw [hready, Bool.false_and, if_neg Bool.false_ne_true]
  split
  · exact ⟨hready, rfl, rfl⟩
  · dsimp only
    split
    · exact validate_kept config _
    · split
      · exact validate_kept config _
      · split
        · unfold finishBody
          split <;> exact ⟨rfl, rfl, rfl⟩
        · unfold read
          split <;> exact ⟨rfl, rfl, rfl⟩

theorem advance_pulled {s : State} {received : Bytes} {fresh : Nat} (hready : s.frameReady = false)
    (h : Holds config false s received fresh) : Pulled config s (advance config s) received fresh := by
  obtain ⟨whole, hwhole, hdelivered, hcount, hframes⟩ := h.whole
  rw [hready, if_neg Bool.false_ne_true, List.append_nil] at hdelivered
  rw [hready] at hcount
  unfold advance
  rw [hready, Bool.false_and, if_neg Bool.false_ne_true]
  split
  · rename_i hscan
    refine .fails rfl (.inl fun ys hys => ?_)
    obtain ⟨frame, hin, hlong⟩ := scan_none h.fine hscan ys
    rw [hframes ys hys]
    exact ⟨frame, hin.imp (List.mem_append_right _) id, hlong⟩
  · rename_i scan pending complete hscan
    obtain ⟨hfine, hopen, hdone⟩ := scan_frames h.fine hscan
    dsimp only
    split
    · rename_i hcomplete
      obtain ⟨hfresh, hbegun, hnext⟩ := hdone hcomplete
      refine validate_pulled rfl ⟨rfl, rfl⟩ h.size hfine hfresh hbegun hwhole hdelivered
        hcount fun ys hys => ?_
      rw [hframes ys hys]
      unfold ahead
      rw [if_neg Bool.false_ne_true, hnext, if_pos rfl]
    · rename_i hcomplete
      obtain ⟨rfl, hnext⟩ := hopen (Bool.eq_false_of_not_eq_true hcomplete)
      have hahead :
    ∀ ys, s.Admits ys → frames (received ++ ys) = (whole ++ (remaining scan ys).1, (remaining scan ys).2) := by
        intro ys hys
        rw [hframes ys hys]
        unfold ahead
        rw [if_neg Bool.false_ne_true, hnext]
      split
      · rename_i hboth
        rw [Bool.and_eq_true] at hboth
        obtain ⟨hsize, hbegun⟩ := hfine.bounds hboth.2
        refine validate_pulled rfl ⟨rfl, rfl⟩ h.size ⟨nofun, nofun⟩ ⟨hsize, rfl, rfl⟩ hbegun hwhole
          hdelivered hcount
          fun ys hys => ?_
        obtain rfl := hys hboth.1
        rw [hahead [] fun _ => rfl]
        unfold ahead remaining
        rw [if_pos hboth.2, if_pos rfl]
        rfl
      · rename_i hboth
        rw [Bool.and_eq_true] at hboth
        split
        · rename_i heof
          have hbound : scan.boundaryCR = false := Bool.eq_false_of_not_eq_true fun hcr => hboth ⟨heof, hcr⟩
          have hend := hahead [] fun _ => rfl
          rw [List.append_nil, remaining_end hbound, List.append_nil] at hend
          unfold finishBody
          have hiff :
    (scan.buffer.isEmpty && s.size != 0 && config.expected.all (· == s.size)) = true ↔ Whole config received := by
            unfold Whole
            rw [Bool.and_eq_true, Bool.and_eq_true, List.isEmpty_iff, bne_iff_ne, hend, h.size, Ne,
              List.length_eq_zero_iff,
              and_comm (a := scan.buffer = []), and_assoc]
          split
          · rename_i hwell
            have hempty : scan.buffer = [] := by
              rw [Bool.and_eq_true, Bool.and_eq_true, List.isEmpty_iff] at hwell
              exact hwell.1.1
            refine .retires ⟨h.size, hfine, nofun, nofun, whole, hwhole, ?_, ?_, fun ys hys => ?_⟩ rfl heof
              ⟨hiff.mp hwell, rfl, hempty, hbound⟩ rfl
            · rw [hdelivered, if_neg Bool.false_ne_true, List.append_nil]
            · exact hcount
            · exact hahead ys hys
          · rename_i hwell
            exact .fails rfl (.inr (.inr (.inl ⟨heof, fun hw => hwell (hiff.mpr hw)⟩)))
        · rename_i heof
          rw [Bool.not_eq_true] at heof
          unfold read
          split
          · rename_i hreads
            exact .fails rfl (.inr (.inr (.inr ⟨heof, hreads⟩)))
          · refine .reads ⟨h.size, hfine, nofun, nofun, whole, hwhole, ?_, ?_, fun ys hys => ?_⟩ rfl
              heof rfl rfl
            · rw [hdelivered, if_neg Bool.false_ne_true, List.append_nil]
            · exact hcount
            · exact hahead ys hys

theorem deliver_delivered (s : State) :
    (deliver s).delivered = s.delivered ++ [(s.scan.buffer.drop s.offset).take windowBytes] := by
  unfold deliver
  dsimp only
  split <;> rfl

theorem deliver_holds {s : State} {received : Bytes} {fresh : Nat} (hready : s.frameReady = true)
    (hoffset : s.offset < s.scan.buffer.length) (h : Holds config true s received fresh) :
    Holds config (deliver s).frameReady (deliver s) received fresh ∧ (deliver s).phase = .idle ∧
      ((deliver s).frameReady = true → (deliver s).offset < (deliver s).scan.buffer.length) ∧
      (deliver s).upstreamEOF = s.upstreamEOF ∧ (deliver s).reads = s.reads := by
  obtain ⟨hvalid, hfresh, hbegun⟩ := h.checked rfl
  obtain ⟨whole, hwhole, hdelivered, hcount, hframes⟩ := h.whole
  rw [hready, if_pos rfl] at hdelivered hcount
  have htake : s.scan.buffer.take s.offset ++ (s.scan.buffer.drop s.offset).take windowBytes =
      s.scan.buffer.take (s.offset + ((s.scan.buffer.drop s.offset).take windowBytes).length) := by
    rw [List.take_add, List.length_take, ← List.take_eq_take_min]
  have hshown : (s.delivered ++ [(s.scan.buffer.drop s.offset).take windowBytes]).flatten = whole.flatten ++
      s.scan.buffer.take (s.offset + ((s.scan.buffer.drop s.offset).take windowBytes).length) := by
    rw [List.flatten_append, List.flatten_singleton, hdelivered, List.append_assoc, htake]
  unfold deliver
  dsimp only
  split
  · rename_i hend
    have hagain : Scan.isFresh { s.scan with buffer := [] } := hfresh
    have hnew : ∀ zs, remaining { s.scan with buffer := [] } zs = frames zs := fun zs =>
      remaining_fresh hagain zs
    have hfine : Scan.Fine { s.scan with buffer := [] } :=
      ⟨fun hskip => absurd (hfresh.2.1.symm.trans hskip) Bool.false_ne_true,
        fun hbound => absurd (hfresh.2.2.symm.trans hbound) Bool.false_ne_true⟩
    refine ⟨⟨h.size, hfine, nofun, nofun, whole ++ [s.scan.buffer], ?_, ?_, ?_, fun ys hys => ?_⟩,
      rfl, nofun, rfl, rfl⟩
    · rw [List.forall_mem_append]
      exact ⟨hwhole, List.forall_mem_singleton.mpr hvalid⟩
    · rw [hshown, hend, List.take_length, List.flatten_append, List.flatten_singleton]
      exact (List.append_nil _).symm
    · rw [List.length_append]
      exact hcount
    · rw [hframes ys hys]
      unfold ahead
      rw [if_pos rfl, if_neg Bool.false_ne_true, hnew]
      exact Prod.ext (List.append_assoc whole [s.scan.buffer] _).symm rfl
  · rename_i hend
    rw [hready]
    have hle : ((s.scan.buffer.drop s.offset).take windowBytes).length ≤ s.scan.buffer.length - s.offset := by
      rw [List.length_take, List.length_drop]
      exact Nat.min_le_right _ _
    -- a window that does not end the frame is a whole one
    have hwindow : ((s.scan.buffer.drop s.offset).take windowBytes).length = windowBytes := by
      rw [List.length_take, List.length_drop] at hend ⊢
      omega
    obtain ⟨windows, hoffset', -⟩ := h.windows hready
    refine ⟨⟨h.size, h.fine, fun _ => ⟨hvalid, hfresh, hbegun⟩, fun _ => ⟨windows + 1, ?_, ?_⟩,
      whole, hwhole, hshown,
      hcount, hframes⟩, rfl, fun _ => ?_, rfl, rfl⟩
    · rw [Nat.succ_mul, ← hoffset', hwindow]
    · show s.offset + ((s.scan.buffer.drop s.offset).take windowBytes).length ≤ s.scan.buffer.length
      omega
    · show s.offset + ((s.scan.buffer.drop s.offset).take windowBytes).length < s.scan.buffer.length
      refine Nat.lt_of_le_of_ne ?_ hend
      omega

end Pulls

end ClawRouter.CopilotInference
