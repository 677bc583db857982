/-
  Subject:   Whole runs of a Copilot event stream: what is delivered at any time, when it ends cleanly, that it ends.

  * `Reached`: what every run keeps; **`reached`**;
  * **`copilot_stream`**.
-/
import ClawRouter.Copilot.Delivered

namespace ClawRouter.CopilotInference

open EventFrames

/-! ## 1. Runs -/

namespace Event

def bytes : Event → Bytes
  | .read value | .readEnd value => value
  | _ => []

def isRead : Event → Bool
  | .read _ | .readEnd _ => true
  | _ => false

/-- Nothing outside the body and the authority goes wrong. -/
def isSmooth : Event → Bool
  | .readFailed | .retired false | .abort | .cancel => false
  | _ => true

end Event

def received (tr : List Event) : Bytes := tr.flatMap Event.bytes

def revalidations (tr : List Event) : Nat := tr.countP (· == .revalidated true)

def readsOf (tr : List Event) : List Event := tr.filter Event.isRead

/-- A body, as it is cut; the last read may bring bytes too. -/
structure Upstream where
  chunks : List Bytes
  last : Bytes

namespace Upstream

def body (u : Upstream) : Bytes := u.chunks.flatten ++ u.last

def reads (u : Upstream) : List Event := u.chunks.map .read ++ [.readEnd u.last]

/-- The limits of bytes, of reads and of frames. -/
structure Within (u : Upstream) : Prop where
  bytes : u.body.length ≤ maximum
  windows : ∀ event ∈ u.reads, event.bytes.length ≤ windowBytes
  reads : u.chunks.length < maximumReads
  frames : ∀ frame, frame ∈ (frames u.body).1 ∨ frame = (frames u.body).2 → frame.length ≤ frameBytes

end Upstream

def Serves (u : Upstream) (tr : List Event) : Prop := readsOf tr <+: u.reads

/-- The body is whole and its frames are valid. -/
def Clean (config : Config) (body : Bytes) : Prop :=
  Whole config body ∧ ∀ frame ∈ (frames body).1, validateFrame config.inspect frame = true

/-- **Whole frames and whole windows of one more**, all of them valid, and a revalidation for each. -/
def Shown (config : Config) (body : Bytes) (fresh : Nat) (delivered : List Bytes) : Prop :=
  ∃ whole part, delivered.flatten = whole.flatten ++ part ∧
    (∀ frame ∈ whole, validateFrame config.inspect frame = true) ∧
    ((part = [] ∧ whole <+: (frames body).1 ∧ whole.length ≤ fresh) ∨
      ∃ frame windows, validateFrame config.inspect frame = true ∧ whole ++ [frame] <+: (frames body).1 ∧
        whole.length + 1 ≤ fresh ∧ part = frame.take (windows * windowBytes) ∧
          windows * windowBytes ≤ frame.length)

theorem received_append (tr : List Event) (event : Event) :
    received (tr ++ [event]) = received tr ++ event.bytes := by
  unfold received
  rw [List.flatMap_append, List.flatMap_singleton]

theorem readsOf_append (tr : List Event) (event : Event) :
    readsOf (tr ++ [event]) = readsOf tr ++ if event.isRead then [event] else [] := by
  unfold readsOf
  rw [List.filter_append]
  cases hread : event.isRead with
  | true => rw [List.filter_cons_of_pos hread]; rfl
  | false => rw [List.filter_cons_of_neg (by rw [hread]; exact Bool.false_ne_true)]; rfl

theorem received_reads (tr : List Event) : received tr = (readsOf tr).flatMap Event.bytes := by
  induction tr with
  | nil => rfl
  | cons event tr ih =>
    unfold received readsOf at *
    rw [List.flatMap_cons, ih]
    cases event <;> rfl

section Served

variable {u : Upstream} {tr : List Event}

theorem body_eq : u.body = u.reads.flatMap Event.bytes := by
  unfold Upstream.body Upstream.reads
  rw [List.flatMap_append, List.flatMap_singleton, List.flatMap_map]
  congr 1
  exact List.flatMap_id.symm

theorem not_last {value : Bytes} : Event.readEnd value ∉ u.chunks.map Event.read := by
  rw [List.mem_map]
  rintro ⟨_, -, hsame⟩
  cases hsame

theorem served (h : Serves u tr) :
    ∃ more, u.reads = readsOf tr ++ more ∧ u.body = received tr ++ more.flatMap Event.bytes ∧
    ((∃ value, Event.readEnd value ∈ readsOf tr) ↔ more = []) := by
  obtain ⟨more, hmore⟩ := h
  refine ⟨more, hmore.symm, ?_, ?_⟩
  · rw [body_eq, ← hmore, List.flatMap_append, received_reads]
  · constructor
    · rintro ⟨value, hin⟩
      rcases List.eq_nil_or_concat more with hnil | ⟨init, event, rfl⟩
      · exact hnil
      · rw [List.concat_eq_append, ← List.append_assoc] at hmore
        have hchunks := (List.append_inj' hmore rfl).1
        exact absurd (hchunks ▸ List.mem_append_left _ hin) not_last
    · rintro rfl
      rw [List.append_nil] at hmore
      exact ⟨u.last, hmore ▸ List.mem_append_right _ List.mem_cons_self⟩

end Served

/-! ## 2. What every run keeps -/

def Good (config : Config) (s : State) (body : Bytes) (fresh : Nat) : Prop :=
  match s.phase with
  | .idle => Holds config s.frameReady s body fresh ∧ (s.frameReady = true → s.offset < s.scan.buffer.length)
  | .reading => Holds config false s body fresh ∧ s.frameReady = false ∧ s.upstreamEOF = false ∧ s.pending = []
  | .revalidating => Holds config true s body fresh ∧ s.frameReady = false
  | .retiring | .finalRevalidating | .closed =>
    Holds config false s body fresh ∧ s.frameReady = false ∧ s.upstreamEOF = true ∧
      Whole config body ∧ s.pending = [] ∧ s.scan.buffer = [] ∧ s.scan.boundaryCR = false
  | .failed => True

/-- How much a phase may still do without a read or a delivery. -/
def Phase.rank : Phase → Nat
  | .idle => 4
  | .reading => 1
  | .revalidating => 1
  | .retiring => 2
  | .finalRevalidating => 1
  | .closed => 0
  | .failed => 0

/-- The reads and the bytes that are still to come. -/
def work (u : Upstream) (tr : List Event) (s : State) : Nat :=
  5 * (u.body.length - s.delivered.flatten.length) + 5 * (u.reads.length - (readsOf tr).length) + s.phase.rank

/-- What a run has made of a relay. -/
structure Reached (config : Config) (u : Upstream) (tr : List Event) (s : State) : Prop where
  good : Good config s (received tr) (revalidations tr)
  shown : Shown config u.body (revalidations tr) s.delivered
  reads : s.phase ≠ .failed → s.reads = (readsOf tr).length + if s.phase = .reading then 1 else 0
  eof : s.phase ≠ .failed → (s.upstreamEOF = true ↔ ∃ value, Event.readEnd value ∈ readsOf tr)
  fresh : s.phase ≠ .failed → ∀ ok, Event.revalidated ok ∈ tr → ok = true
  fails : s.phase = .failed → (∀ event ∈ tr, event.isSmooth = true) → Event.revalidated false ∈ tr ∨
    ¬ Clean config u.body
  bounded : tr.length + work u tr s ≤ 5 * (u.body.length + u.reads.length) + 4

section Reaches

variable {config : Config} {u : Upstream} {tr : List Event} {s s' : State} {event : Event}

theorem Shown.mono {body : Bytes} {fresh fresh' : Nat} {delivered : List Bytes}
    (h : Shown config body fresh delivered)
    (hle : fresh ≤ fresh') : Shown config body fresh' delivered := by
  obtain ⟨whole, part, hdelivered, hvalid, hpart⟩ := h
  refine ⟨whole, part, hdelivered, hvalid, ?_⟩
  rcases hpart with ⟨hnone, hprefix, hcount⟩ | ⟨frame, windows, hframe, hprefix, hcount, hof⟩
  · exact .inl ⟨hnone, hprefix, Nat.le_trans hcount hle⟩
  · exact .inr ⟨frame, windows, hframe, hprefix, Nat.le_trans hcount hle, hof⟩

theorem Shown.length_le {body : Bytes} {fresh : Nat} {delivered : List Bytes}
    (h : Shown config body fresh delivered) :
    delivered.flatten.length ≤ body.length := by
  obtain ⟨whole, part, hdelivered, -, hpart⟩ := h
  have hbody : (frames body).1.flatten.length ≤ body.length := by
    conv_rhs => rw [← frames_flatten body]
    rw [List.length_append]
    exact Nat.le_add_right _ _
  have hflat : ∀ {xs ys : List Bytes}, xs <+: ys → xs.flatten.length ≤ ys.flatten.length := by
    rintro xs ys ⟨more, rfl⟩
    rw [List.flatten_append, List.length_append]
    exact Nat.le_add_right _ _
  rw [hdelivered, List.length_append]
  rcases hpart with ⟨rfl, hprefix, -⟩ | ⟨frame, windows, -, hprefix, -, rfl, -⟩
  · exact Nat.le_trans (hflat hprefix) hbody
  · have hlong := hflat hprefix
    rw [List.flatten_append, List.flatten_singleton, List.length_append] at hlong
    have hshort := (List.take_prefix (windows * windowBytes) frame).length_le
    omega

theorem Holds.shown {held : Bool} {bytes more : Bytes} {fresh : Nat} (h : Holds config held s bytes fresh)
    (hheld : s.frameReady = true → held = true) (hmore : s.Admits more) :
    Shown config (bytes ++ more) fresh s.delivered := by
  obtain ⟨whole, hwhole, hdelivered, hcount, hframes⟩ := h.whole
  have hframes := hframes more hmore
  cases hready : s.frameReady with
  | false =>
    rw [hready] at hdelivered hcount
    exact ⟨whole, [], hdelivered, hwhole, .inl ⟨rfl, by rw [hframes]; exact List.prefix_append _ _, hcount⟩⟩
  | true =>
    rw [hready] at hdelivered hcount
    obtain rfl := hheld hready
    obtain ⟨windows, hoffset, hle⟩ := h.windows hready
    refine ⟨whole, _, hdelivered, hwhole, .inr ⟨s.scan.buffer, windows, (h.checked rfl).1, ?_, hcount,
      by rw [← hoffset]; rfl, hoffset ▸ hle⟩⟩
    rw [hframes]
    exact (List.prefix_append_right_inj whole).mpr (List.prefix_cons_inj _ |>.mpr (List.nil_prefix))

theorem trouble_unclean {bytes more : Bytes} (h : Trouble config s bytes)
    (hbody : u.body = bytes ++ more) (hmore : s.Admits more)
    (hwithin : u.Within) (hreads : s.upstreamEOF = false → s.reads ≤ u.chunks.length) :
    ¬ Clean config u.body := by
  rintro ⟨hwhole, hvalid⟩
  rcases h with hlong | hinvalid | ⟨heof, hnot⟩ | ⟨hopen, hcount⟩
  · obtain ⟨frame, hin, hlong⟩ := hlong more hmore
    rw [← hbody] at hin
    exact absurd (hwithin.frames frame hin) (Nat.not_le.mpr hlong)
  · obtain ⟨frame, hin, hinvalid⟩ := hinvalid more hmore
    rw [← hbody] at hin
    rw [hvalid frame hin] at hinvalid
    cases hinvalid
  · obtain rfl := hmore heof
    rw [List.append_nil] at hbody
    exact hnot (hbody ▸ hwhole)
  · have hfew := hreads hopen
    have hlimit := hwithin.reads
    omega

theorem Holds.mono {held : Bool} {bytes : Bytes} {fresh fresh' : Nat}
    (h : Holds config held s bytes fresh) (hle : fresh ≤ fresh') :
    Holds config held s bytes fresh' := by
  obtain ⟨whole, hwhole, hdelivered, hcount, hframes⟩ := h.whole
  exact ⟨h.size, h.fine, h.checked, h.windows, whole, hwhole, hdelivered, Nat.le_trans hcount hle, hframes⟩

theorem revalidations_append (tr : List Event) (event : Event) :
    revalidations (tr ++ [event]) = revalidations tr + if event == .revalidated true then 1 else 0 := by
  unfold revalidations
  rw [List.countP_append, List.countP_singleton]

theorem revalidations_le (tr : List Event) (event : Event) :
    revalidations tr ≤ revalidations (tr ++ [event]) :=
  revalidations_append tr event ▸ Nat.le_add_right _ _

theorem unread (h : event.isRead = false) :
    received (tr ++ [event]) = received tr ∧ readsOf (tr ++ [event]) = readsOf tr := by
  rw [received_append, readsOf_append, h, if_neg Bool.false_ne_true, List.append_nil]
  refine ⟨?_, rfl⟩
  cases event with
  | read value | readEnd value => cases h
  | _ => exact List.append_nil _

theorem Serves.before (h : Serves u (tr ++ [event])) : Serves u tr := by
  unfold Serves at *
  rw [readsOf_append] at h
  exact (List.prefix_append _ _).trans h

theorem reached_open {k : Nat} (hphase : s.phase ≠ .failed)
    (hgood : Good config s (received tr) (revalidations tr))
    (hshown : Shown config u.body (revalidations tr) s.delivered)
    (hreads : s.reads = (readsOf tr).length + if s.phase = .reading then 1 else 0)
    (heof : s.upstreamEOF = true ↔ ∃ value, Event.readEnd value ∈ readsOf tr)
    (hfresh : ∀ ok, Event.revalidated ok ∈ tr → ok = true) (hrank : s.phase.rank ≤ k)
    (hbounded : tr.length + (5 * (u.body.length - s.delivered.flatten.length) + 5 *
      (u.reads.length - (readsOf tr).length) + k) ≤
      5 * (u.body.length + u.reads.length) + 4) : Reached config u tr s :=
  ⟨hgood, hshown, fun _ => hreads, fun _ => heof, fun _ => hfresh, fun hfailed => absurd hfailed hphase,
    Nat.le_trans (Nat.add_le_add_left (Nat.add_le_add_left hrank _) _) hbounded⟩

theorem reached_failed (hphase : s.phase = .failed)
    (hshown : Shown config u.body (revalidations tr) s.delivered)
    (hfails : (∀ event ∈ tr, event.isSmooth = true) → Event.revalidated false ∈ tr ∨ ¬ Clean config u.body)
    (hbounded : tr.length + (5 * (u.body.length - s.delivered.flatten.length) + 5 *
      (u.reads.length - (readsOf tr).length)) ≤
      5 * (u.body.length + u.reads.length) + 4) : Reached config u tr s := by
  refine ⟨?_, hshown, fun hopen => absurd hphase hopen, fun hopen => absurd hphase
    hopen, fun hopen => absurd hphase hopen,
    fun _ => hfails, ?_⟩
  · unfold Good
    rw [hphase]
    trivial
  · unfold work
    rw [hphase]
    exact hbounded

theorem pulled_reached (hserves : Serves u tr) (hwithin : u.Within) (hready : s.frameReady = false)
    (h : Holds config false s (received tr) (revalidations tr))
      (hshown : Shown config u.body (revalidations tr) s.delivered)
    (hreads : s.reads = (readsOf tr).length) (heof : s.upstreamEOF = true ↔
      ∃ value, Event.readEnd value ∈ readsOf tr)
    (hfresh : ∀ ok, Event.revalidated ok ∈ tr → ok = true)
    (hbounded : tr.length + (5 * (u.body.length - s.delivered.flatten.length) + 5 *
      (u.reads.length - (readsOf tr).length) + 2) ≤
      5 * (u.body.length + u.reads.length) + 4) : Reached config u tr (advance config s) := by
  have hpulled := advance_pulled hready h
  obtain ⟨hready', hdelivered, heof'⟩ := @advance_kept config s hready
  obtain ⟨more, hmore, hbody, hlast⟩ := served hserves
  have hadmits : s.Admits (more.flatMap Event.bytes) := by
    intro hend
    rw [hlast.mp (heof.mp hend)]
    rfl
  have hfew : s.upstreamEOF = false → s.reads ≤ u.chunks.length := by
    intro hopen
    have hlength := congrArg List.length hmore
    unfold Upstream.reads at hlength
    rw [List.length_append, List.length_append, List.length_map, List.length_singleton] at hlength
    have hpos : 0 < more.length := List.length_pos_iff.mpr fun hnil => by
      rw [heof.mpr (hlast.mpr hnil)] at hopen
      cases hopen
    omega
  rw [← hdelivered] at hshown hbounded
  rw [← heof'] at heof
  generalize advance config s = s' at *
  cases hpulled with
  | validated h hphase hsame =>
    refine reached_open (by rw [hphase]; decide) ?_ hshown ?_ heof hfresh (by rw [hphase]; decide) hbounded
    · unfold Good
      rw [hphase]
      exact ⟨h, hready'⟩
    · rw [hphase, hsame, hreads]
      rfl
  | reads h hphase hopen hpending hsame =>
    refine reached_open (by rw [hphase]; decide) ?_ hshown ?_ heof hfresh (by rw [hphase]; decide) hbounded
    · unfold Good
      rw [hphase]
      exact ⟨h, hready', hopen, hpending⟩
    · rw [hphase, hsame, hreads]
      rfl
  | retires h hphase hdone hwhole hsame =>
    refine reached_open (by rw [hphase]; decide) ?_ hshown ?_ heof hfresh (by rw [hphase]; decide) hbounded
    · unfold Good
      rw [hphase]
      exact ⟨h, hready', hdone, hwhole⟩
    · rw [hphase, hsame, hreads]
      rfl
  | fails hphase htrouble =>
    refine reached_failed hphase hshown (fun _ => .inr
      (trouble_unclean htrouble hbody hadmits hwithin hfew)) ?_
    exact Nat.le_trans (Nat.add_le_add_left (Nat.le_add_right _ 2) _) hbounded

theorem delivered_reached (hserves : Serves u tr) (hready : s.frameReady = true)
    (hoffset : s.offset < s.scan.buffer.length)
    (h : Holds config true s (received tr) (revalidations tr))
    (hreads : s.reads = (readsOf tr).length) (heof : s.upstreamEOF = true ↔
      ∃ value, Event.readEnd value ∈ readsOf tr)
    (hfresh : ∀ ok, Event.revalidated ok ∈ tr → ok = true)
    (hbounded : tr.length + (5 * (u.body.length - s.delivered.flatten.length) + 5 *
      (u.reads.length - (readsOf tr).length)) ≤
      5 * (u.body.length + u.reads.length) + 4) : Reached config u tr (deliver s) := by
  obtain ⟨more, -, hbody, hlast⟩ := served hserves
  obtain ⟨h', hphase, hleft, heof', hreads'⟩ := deliver_holds hready hoffset h
  have hadmits : (deliver s).Admits (more.flatMap Event.bytes) := by
    intro hend
    rw [heof'] at hend
    rw [hlast.mp (heof.mp hend)]
    rfl
  have hshown : Shown config u.body (revalidations tr) (deliver s).delivered := by
    rw [hbody]
    exact h'.shown id hadmits
  have hgrows : s.delivered.flatten.length < (deliver s).delivered.flatten.length := by
    rw [deliver_delivered, List.flatten_append, List.flatten_singleton, List.length_append,
      List.length_take, List.length_drop]
    have hwindow : 0 < windowBytes := by decide
    omega
  have hfits := hshown.length_le
  have hrank : (deliver s).phase.rank ≤ 4 := by
    rw [hphase]
    decide
  refine reached_open (by rw [hphase]; decide) ?_ hshown ?_ ?_ hfresh hrank (by omega)
  · unfold Good
    rw [hphase]
    exact ⟨h', hleft⟩
  · rw [hphase, hreads', hreads]
    rfl
  · rw [heof']
    exact heof

/-- The state and the events up to the next one. -/
structure Before (config : Config) (u : Upstream) (tr : List Event) (s : State) (event : Event) : Prop where
  shown : Shown config u.body (revalidations (tr ++ [event])) s.delivered
  reads : s.phase ≠ .reading → event.isRead = false → s.reads = (readsOf (tr ++ [event])).length
  eof : event.isRead = false → (s.upstreamEOF = true ↔ ∃ value, Event.readEnd value ∈ readsOf (tr ++ [event]))
  fresh : event ≠ .revalidated false → ∀ ok, Event.revalidated ok ∈ tr ++ [event] → ok = true
  bounded : (tr ++ [event]).length + (5 * (u.body.length - s.delivered.flatten.length) +
    5 * (u.reads.length - (readsOf tr).length) + s.phase.rank) ≤ 5 * (u.body.length + u.reads.length) + 5
  rank : 0 < s.phase.rank
  grows : (readsOf tr).length ≤ (readsOf (tr ++ [event])).length

theorem not_ended (h : s.ended = false) : s.phase ≠ .failed ∧ 0 < s.phase.rank := by
  unfold State.ended at h
  cases hphase : s.phase with
  | closed | failed => rw [hphase] at h; cases h
  | _ => exact ⟨nofun, by decide⟩

theorem Reached.before (h : Reached config u tr s) (hended : s.ended = false) :
    Before config u tr s event := by
  obtain ⟨hopen, hrank⟩ := not_ended hended
  refine ⟨h.shown.mono (revalidations_le tr event), fun hphase hread => ?_, fun hread =>
    ?_, fun hok ok hin => ?_, ?_, hrank, ?_⟩
  · rw [(unread hread).2, h.reads hopen, if_neg hphase]
    rfl
  · rw [(unread hread).2]
    exact h.eof hopen
  · rcases List.mem_append.mp hin with hin | hin
    · exact h.fresh hopen ok hin
    · cases List.mem_singleton.mp hin
      cases ok with
      | true => rfl
      | false => exact absurd rfl hok
  · have hbounded := h.bounded
    unfold work at hbounded
    rw [List.length_append, List.length_singleton]
    omega
  · rw [readsOf_append, List.length_append]
    exact Nat.le_add_right _ _

theorem Before.failed (h : Before config u tr s event)
    (hwhy : event.isSmooth = false ∨ event = .revalidated false ∨ ¬ Clean config u.body) :
    Reached config u (tr ++ [event]) s.fail := by
  refine reached_failed rfl h.shown (fun hall => ?_) ?_
  · rcases hwhy with hbroken | rfl | hunclean
    · rw [hall event (List.mem_append_right _ List.mem_cons_self)] at hbroken
      cases hbroken
    · exact .inl (List.mem_append_right _ List.mem_cons_self)
    · exact .inr hunclean
  · have hbounded := h.bounded
    have hrank := h.rank
    have hgrows := h.grows
    show _ + (5 * (u.body.length - s.delivered.flatten.length) + _) ≤ _
    omega

theorem advance_ready (hready : s.frameReady = true) (hoffset : s.offset < s.scan.buffer.length) :
    advance config s = deliver s := by
  unfold advance
  rw [hready, Bool.true_and, if_pos (decide_eq_true hoffset)]

theorem Holds.vouched {bytes : Bytes} {fresh : Nat} (h : Holds config true s bytes fresh)
    (hready : s.frameReady = false) :
    Holds config true { s with frameReady := true, offset := 0 } bytes (fresh + 1) := by
  obtain ⟨whole, hwhole, hdelivered, hcount, hframes⟩ := h.whole
  rw [hready] at hdelivered hcount
  exact ⟨h.size, h.fine, h.checked, fun _ => ⟨0, (Nat.zero_mul _).symm, Nat.zero_le _⟩, whole,
    hwhole, hdelivered,
    Nat.succ_le_succ hcount, hframes⟩

theorem read_reached {value : Bytes} {done : Bool} (h : Reached config u tr s) (hphase : s.phase = .reading)
    (hbytes : event.bytes = value) (hread : event.isRead = true)
      (hdone : done = true ↔ ∃ v, Event.readEnd v = event)
    (hwithin : u.Within) (hserves : Serves u (tr ++ [event])) :
    Reached config u (tr ++ [event]) (takeRead config s value done) := by
  have hopen : s.phase ≠ .failed := by
    rw [hphase]
    decide
  have hended : s.ended = false := by
    unfold State.ended
    rw [hphase]
    rfl
  have hbefore : Before config u tr s event := h.before hended
  have hgood := h.good
  unfold Good at hgood
  rw [hphase] at hgood
  obtain ⟨hholds, hready, heof, hpending⟩ := hgood
  obtain ⟨whole, hwhole, hdelivered, hcount, hframes⟩ := hholds.whole
  have hreceived : received (tr ++ [event]) = received tr ++ value := by rw [received_append, hbytes]
  have hreads : readsOf (tr ++ [event]) = readsOf tr ++ [event] := by rw [readsOf_append, hread, if_pos rfl]
  obtain ⟨more, hmore, hbody, -⟩ := served hserves
  have hfits : ¬ (windowBytes < value.length ∨ maximum - s.size < value.length) := by
    have hlimit := hwithin.bytes
    have hwindow := hwithin.windows event (hmore ▸ List.mem_append_left
      _ (hreads ▸ List.mem_append_right _ List.mem_cons_self))
    rw [hbody, hreceived, List.length_append, List.length_append] at hlimit
    rw [hbytes] at hwindow
    rw [hholds.size]
    omega
  unfold takeRead
  rw [if_neg hfits]
  refine pulled_reached hserves hwithin hready
    ⟨?_, hholds.fine, nofun, hholds.windows, whole, hwhole, hdelivered,
    Nat.le_trans hcount (revalidations_le tr event), fun ys _ => ?_⟩ hbefore.shown ?_ ?_ (hbefore.fresh ?_) ?_
  · rw [hreceived, List.length_append, ← hholds.size]
  · rw [hreceived, List.append_assoc, hframes (value ++ ys) fun hend => by cases heof.symm.trans hend]
    unfold ahead
    rw [hpending]
    rfl
  · rw [hreads, List.length_append]
    exact (h.reads hopen).trans (by rw [if_pos hphase]; rfl)
  · have hnone : ¬ ∃ v, Event.readEnd v ∈ readsOf tr := fun hin =>
      by cases heof.symm.trans ((h.eof hopen).mpr hin)
    refine hdone.trans ⟨fun ⟨v, hv⟩ => ⟨v, ?_⟩, fun ⟨v, hv⟩ => ?_⟩
    · rw [hreads, hv]
      exact List.mem_append_right _ List.mem_cons_self
    · rw [hreads] at hv
      rcases List.mem_append.mp hv with hin | hin
      · exact absurd ⟨v, hin⟩ hnone
      · exact ⟨v, List.mem_singleton.mp hin⟩
  · rintro rfl
    cases hread
  · have hbounded := hbefore.bounded
    have hone : s.phase.rank = 1 := by
      rw [hphase]
      rfl
    have hlength := congrArg List.length hmore
    rw [hreads, List.length_append, List.length_append, List.length_singleton] at hlength
    rw [hreads, @List.length_append _ (readsOf tr), List.length_singleton]
    dsimp only
    omega

theorem Before.finishes {phase : Phase} (h : Before config u tr s event) (hread : event.isRead = false)
    (hok : event ≠ .revalidated false) (hphase : s.phase ≠ .reading)
      (hdone : phase = .finalRevalidating ∨ phase = .closed)
    (hrank : phase.rank < s.phase.rank) (hholds : Holds config false s (received tr) (revalidations tr))
    (hend : s.frameReady = false ∧ s.upstreamEOF = true ∧ Whole config (received tr) ∧
      s.pending = [] ∧ s.scan.buffer = [] ∧
      s.scan.boundaryCR = false) : Reached config u (tr ++ [event]) { s with phase := phase } := by
  obtain ⟨hreceived, hreads⟩ := @unread tr event hread
  obtain ⟨whole, hwhole, hdelivered, hcount, hframes⟩ := hholds.whole
  have hkept : Holds config false { s with phase := phase } (received (tr ++ [event]))
    (revalidations (tr ++ [event])) := by
    rw [hreceived]
    exact ⟨hholds.size, hholds.fine, nofun, hholds.windows, whole, hwhole, hdelivered,
      Nat.le_trans hcount (revalidations_le tr event), hframes⟩
  have hbounded := h.bounded
  rw [← hreceived] at hend
  refine reached_open ?_ ?_ h.shown ?_ (h.eof hread) (h.fresh hok) (Nat.le_refl phase.rank) ?_
  · rcases hdone with rfl | rfl <;> exact nofun
  · rcases hdone with rfl | rfl <;> exact ⟨hkept, hend⟩
  · rcases hdone with rfl | rfl <;> exact h.reads hphase hread
  · rw [hreads]
    dsimp only
    omega

theorem reached_step (h : Reached config u tr s) (hheader : config.headerError = false) (hwithin : u.Within)
    (hserves : Serves u (tr ++ [event])) (hended : s.ended = false) (hstep : step config s event = some s') :
    Reached config u (tr ++ [event]) s' := by
  obtain ⟨hopen, -⟩ := not_ended hended
  have hbefore : Before config u tr s event := h.before hended
  have hgood := h.good
  unfold Good at hgood
  unfold step at hstep
  rw [hended, if_neg Bool.false_ne_true] at hstep
  split at hstep
  · rename_i hphase
    rw [hphase] at hgood
    cases hstep
    rw [hheader, if_neg Bool.false_ne_true]
    obtain ⟨hholds, hoffset⟩ := hgood
    obtain ⟨hreceived, hreads⟩ := @unread tr .pull rfl
    have hbounded := hbefore.bounded
    have hrank : s.phase.rank = 4 := by
      rw [hphase]
      rfl
    have hcounted := hbefore.reads (by rw [hphase]; decide) rfl
    rw [← hreceived] at hholds
    cases hready : s.frameReady with
    | false =>
      rw [hready] at hholds
      refine pulled_reached hserves hwithin hready (hholds.mono (revalidations_le tr .pull))
        hbefore.shown hcounted (hbefore.eof rfl)
        (hbefore.fresh nofun) ?_
      rw [hreads]
      omega
    | true =>
      rw [hready] at hholds
      rw [advance_ready hready (hoffset hready)]
      refine delivered_reached hserves hready (hoffset hready)
        (hholds.mono (revalidations_le tr .pull)) hcounted (hbefore.eof rfl)
        (hbefore.fresh nofun) ?_
      rw [hreads]
      omega
  · rename_i value hphase
    cases hstep
    exact read_reached h hphase rfl rfl ⟨nofun, nofun⟩ hwithin hserves
  · rename_i value hphase
    cases hstep
    exact read_reached h hphase rfl rfl ⟨fun _ => ⟨value, rfl⟩, fun _ => rfl⟩ hwithin hserves
  · rename_i hphase
    cases hstep
    exact hbefore.failed (.inl rfl)
  · rename_i hphase
    rw [hphase] at hgood
    cases hstep
    obtain ⟨hholds, hready⟩ := hgood
    obtain ⟨hreceived, hreads⟩ := @unread tr (.revalidated true) rfl
    have hbounded := hbefore.bounded
    have hrank : s.phase.rank = 1 := by
      rw [hphase]
      rfl
    rw [← hreceived] at hholds
    have hoffset : 0 < s.scan.buffer.length := List.length_pos_iff.mpr (hholds.checked rfl).2.2
    rw [advance_ready rfl hoffset]
    refine delivered_reached hserves rfl hoffset ?_ (hbefore.reads (by rw [hphase]; decide) rfl)
      (hbefore.eof rfl)
      (hbefore.fresh nofun) ?_
    · rw [revalidations_append]
      exact hholds.vouched hready
    · rw [hreads]
      dsimp only
      omega
  · rename_i hphase
    rw [hphase] at hgood
    cases hstep
    exact hbefore.finishes rfl nofun (by rw [hphase]; decide) (.inr rfl) (by rw [hphase]; decide) hgood.1 hgood.2
  · cases hstep
    exact hbefore.failed (.inr (.inl rfl))
  · cases hstep
    exact hbefore.failed (.inr (.inl rfl))
  · rename_i hphase
    rw [hphase] at hgood
    cases hstep
    exact hbefore.finishes rfl nofun (by rw [hphase]; decide) (.inl rfl) (by rw [hphase]; decide) hgood.1 hgood.2
  · cases hstep
    exact hbefore.failed (.inl rfl)
  · cases hstep
    exact hbefore.failed (.inl rfl)
  · cases hstep
    exact hbefore.failed (.inl rfl)
  · cases hstep

/-! ## 3. The stream -/

def Live (config : Config) (s : State) (event : Event) (s' : State) : Prop :=
  s.ended = false ∧ step config s event = some s'

theorem reached_start : Reached config u [] .start := by
  have hholds : Holds config false .start [] 0 :=
    ⟨rfl, ⟨nofun, nofun⟩, nofun, nofun, [], List.forall_mem_nil _, rfl, Nat.le_refl 0, fun _ _ => rfl⟩
  refine reached_open nofun ⟨hholds, nofun⟩ ⟨[], [], rfl, List.forall_mem_nil _, .inl
    ⟨rfl, List.nil_prefix, Nat.le_refl 0⟩⟩ rfl
    ⟨nofun, fun ⟨_, hin⟩ => absurd hin List.not_mem_nil⟩ (fun _ hin => absurd hin List.not_mem_nil)
      (Nat.le_refl 4) ?_
  show 0 + (5 * (u.body.length - 0) + 5 * (u.reads.length - 0) + 4) ≤ _
  omega

theorem reached (hheader : config.headerError = false) (hwithin : u.Within)
    (h : Trace.Run (Live config) .start tr s)
    (hserves : Serves u tr) : Reached config u tr s := by
  induction h with
  | start => exact reached_start
  | next _ hlive ih => exact reached_step (ih hserves.before) hheader hwithin hserves hlive.1 hlive.2

theorem step_ended (h : s.ended = true) : step config s event = some s := by
  unfold step
  rw [h, if_pos rfl]

theorem live_run (h : Trace.Run (Step config) .start tr s) :
    ∃ live late, tr = live ++ late ∧ Trace.Run (Live config) .start live s ∧
      (s.ended = false → late = []) := by
  induction h with
  | start => exact ⟨[], [], rfl, .start, fun _ => rfl⟩
  | @next tr s s' event _ hstep ih =>
    obtain ⟨live, late, rfl, hlive, hlate⟩ := ih
    cases hended : s.ended with
    | false =>
      obtain rfl := hlate hended
      exact ⟨live ++ [event], [], by rw [List.append_nil, List.append_nil], hlive.next ⟨hended, hstep⟩, fun _ => rfl⟩
    | true =>
      cases (step_ended hended).symm.trans hstep
      exact ⟨live, late ++ [event], List.append_assoc _ _ _, hlive, fun hopen => by
        cases hended.symm.trans hopen⟩

/-- What is handed on is of the frame in the buffer, which is valid and has been revalidated since. -/
def Vouched (config : Config) (s : State) (event : Event) (s' : State) : Prop :=
  (s'.delivered = s.delivered ∨
    validateFrame config.inspect s.scan.buffer = true ∧
      (s.frameReady = true ∨ event = .revalidated true ∧ s.phase = .revalidating) ∧
      ∃ window, s'.delivered = s.delivered ++ [window] ∧ window <:+: s.scan.buffer) ∧
  (s'.frameReady = true → s'.scan.buffer = s.scan.buffer ∧
    (s.frameReady = true ∨ event = .revalidated true ∧ s.phase = .revalidating))

theorem deliver_buffer (h : (deliver s).frameReady = true) : (deliver s).scan.buffer = s.scan.buffer := by
  unfold deliver at *
  dsimp only at *
  split
  · rename_i hend
    rw [if_pos hend] at h
    cases h
  · rfl

theorem step_vouched (h : Reached config u tr s) (hended : s.ended = false)
    (hstep : step config s event = some s') :
    Vouched config s event s' := by
  have hgood := h.good
  unfold Good at hgood
  have hwindow : ((s.scan.buffer.drop s.offset).take windowBytes) <:+: s.scan.buffer :=
    (List.take_prefix _ _).isInfix.trans (List.drop_suffix _ _).isInfix
  unfold step at hstep
  rw [hended, if_neg Bool.false_ne_true] at hstep
  have hpull : ∀ {s₁ : State}, s₁.frameReady = false → s₁.delivered = s.delivered →
    Vouched config s event (advance config s₁) := by
    intro s₁ hready hsame
    obtain ⟨hready', hdelivered, -⟩ := @advance_kept config s₁ hready
    exact ⟨.inl (hdelivered.trans hsame), fun hr => by cases hready'.symm.trans hr⟩
  have hkept : ∀ phase, Vouched config s event { s with phase := phase } := fun _ =>
    ⟨.inl rfl, fun hr => ⟨rfl, .inl hr⟩⟩
  have hread : ∀ (value : Bytes) (done : Bool), s.phase = .reading → Vouched config s event
    (takeRead config s value done) := by
    intro value done hphase
    rw [hphase] at hgood
    unfold takeRead
    split
    · exact hkept .failed
    · exact hpull hgood.2.1 rfl
  split at hstep
  · rename_i hphase
    rw [hphase] at hgood
    cases hstep
    split
    · exact hkept .failed
    · cases hready : s.frameReady with
      | false => exact hpull hready rfl
      | true =>
        obtain ⟨hholds, hoffset⟩ := hgood
        rw [hready] at hholds
        rw [advance_ready hready (hoffset hready)]
        exact ⟨.inr ⟨(hholds.checked rfl).1, .inl hready, _, deliver_delivered s, hwindow⟩,
          fun hr => ⟨deliver_buffer hr, .inl hready⟩⟩
  · rename_i hphase
    cases hstep
    exact hread _ _ hphase
  · rename_i hphase
    cases hstep
    exact hread _ _ hphase
  · cases hstep
    exact hkept .failed
  · rename_i hphase
    rw [hphase] at hgood
    cases hstep
    obtain ⟨hholds, hready⟩ := hgood
    have hoffset : 0 < s.scan.buffer.length := List.length_pos_iff.mpr (hholds.checked rfl).2.2
    rw [advance_ready rfl hoffset]
    exact ⟨.inr ⟨(hholds.checked rfl).1, .inr ⟨rfl, hphase⟩, _, deliver_delivered _,
      (List.take_prefix _ _).isInfix⟩, fun hr => ⟨deliver_buffer hr, .inr ⟨rfl, hphase⟩⟩⟩
  · cases hstep
    exact hkept .closed
  · cases hstep
    exact hkept .failed
  · cases hstep
    exact hkept .failed
  · cases hstep
    exact hkept .finalRevalidating
  · cases hstep
    exact hkept .failed
  · cases hstep
    exact hkept .failed
  · cases hstep
    exact hkept .failed
  · cases hstep

theorem goes_on (h : Reached config u tr s) (hended : s.ended = false) (hserves : Serves u tr) :
    ∃ event s', event.isSmooth = true ∧ Serves u (tr ++ [event]) ∧ step config s event = some s' := by
  have hquiet : ∀ event : Event, event.isRead = false → Serves u (tr ++ [event]) := by
    intro event hread
    unfold Serves
    rw [(@unread tr event hread).2]
    exact hserves
  have hgoes : ∀ event : Event, event.isSmooth = true → Serves u (tr ++ [event]) →
    (step config s event).isSome = true →
      ∃ event s', event.isSmooth = true ∧ Serves u (tr ++ [event]) ∧ step config s event = some s' := by
    intro event hsmooth hserved hsome
    obtain ⟨s', hstep⟩ := Option.isSome_iff_exists.mp hsome
    exact ⟨event, s', hsmooth, hserved, hstep⟩
  cases hphase : s.phase with
  | idle =>
    refine hgoes .pull rfl (hquiet .pull rfl) ?_
    unfold step
    rw [hended, if_neg Bool.false_ne_true, hphase]
    rfl
  | reading =>
    have hgood := h.good
    unfold Good at hgood
    rw [hphase] at hgood
    obtain ⟨more, hmore, -, hlast⟩ := served hserves
    have heof := h.eof (by rw [hphase]; decide)
    cases more with
    | nil => cases hgood.2.2.1.symm.trans (heof.mpr (hlast.mpr rfl))
    | cons event rest =>
      have hnext : event.isRead = true → Serves u (tr ++ [event]) := by
        intro hread
        refine ⟨rest, ?_⟩
        rw [readsOf_append, hread, if_pos rfl, List.append_assoc]
        exact hmore.symm
      have hin : event ∈ u.reads := hmore ▸ List.mem_append_right _ List.mem_cons_self
      rcases List.mem_append.mp hin with hin | hin
      · obtain ⟨value, -, rfl⟩ := List.mem_map.mp hin
        refine hgoes (.read value) rfl (hnext rfl) ?_
        unfold step
        rw [hended, if_neg Bool.false_ne_true, hphase]
        rfl
      · cases List.mem_singleton.mp hin
        refine hgoes (.readEnd u.last) rfl (hnext rfl) ?_
        unfold step
        rw [hended, if_neg Bool.false_ne_true, hphase]
        rfl
  | revalidating | finalRevalidating =>
    refine hgoes (.revalidated true) rfl (hquiet _ rfl) ?_
    unfold step
    rw [hended, if_neg Bool.false_ne_true, hphase]
    rfl
  | retiring =>
    refine hgoes (.retired true) rfl (hquiet _ rfl) ?_
    unfold step
    rw [hended, if_neg Bool.false_ne_true, hphase]
    rfl
  | closed =>
    unfold State.ended at hended
    rw [hphase] at hended
    cases hended
  | failed => exact absurd hphase (not_ended hended).1

/-- **A Copilot event stream.** Whole frames are delivered in their order, and whole windows of the
    next one, each valid and
    revalidated; it ends cleanly if the body is clean and no revalidation fails, however the body is
    cut; nothing is delivered after the end. -/
theorem copilot_stream (hheader : config.headerError = false) (hwithin : u.Within)
    (h : Trace.Run (Step config) .start tr s)
    (hserves : Serves u tr) :
    ∃ live late, tr = live ++ late ∧ Trace.Run (Live config) .start live s ∧ (s.ended = false → late = []) ∧
      (s.ended = true → ∀ event, step config s event = some s) ∧
      Shown config u.body (revalidations live) s.delivered ∧
      (∀ event s', s.ended = false → step config s event = some s' → Vouched config s event s') ∧
      (s.ended = true → (∀ event ∈ live, event.isSmooth = true) →
        (s.phase = .closed ↔ Clean config u.body ∧ Event.revalidated false ∉ live)) ∧
      (s.phase = .closed → s.delivered.flatten = u.body) ∧
        live.length ≤ 5 * (u.body.length + u.reads.length) + 4 ∧
      (s.ended = false → ∃ event s', event.isSmooth = true ∧ Serves u (tr ++ [event]) ∧
        step config s event = some s') := by
  obtain ⟨live, late, rfl, hlive, hlate⟩ := live_run h
  have hserved : Serves u live := by
    unfold Serves readsOf at *
    rw [List.filter_append] at hserves
    exact (List.prefix_append _ _).trans hserves
  have hreached := reached hheader hwithin hlive hserved
  have hclosed : s.phase = .closed → Clean config u.body ∧ s.delivered.flatten = u.body := by
    intro hphase
    have hgood := hreached.good
    unfold Good at hgood
    rw [hphase] at hgood
    obtain ⟨hholds, hready, heof, hwhole, hpending, hbuffer, hbound⟩ := hgood
    obtain ⟨more, -, hbody, hlast⟩ := served hserved
    rw [hlast.mp ((hreached.eof (by rw [hphase]; decide)).mp heof)] at hbody
    have hbody : u.body = received live := hbody.trans (List.append_nil _)
    obtain ⟨whole, hvalid, hdelivered, -, hframes⟩ := hholds.whole
    have hframes := hframes [] fun _ => rfl
    unfold ahead at hframes
    rw [if_neg Bool.false_ne_true, hpending, List.append_nil, List.append_nil, remaining_end hbound,
      List.append_nil, hbuffer] at hframes
    rw [hready, if_neg Bool.false_ne_true, List.append_nil] at hdelivered
    rw [hbody]
    refine ⟨⟨hwhole, fun frame hin => hvalid frame (by rw [hframes] at hin; exact hin)⟩, ?_⟩
    conv_rhs => rw [← frames_flatten (received live), hframes]
    rw [hdelivered]
    exact (List.append_nil _).symm
  refine ⟨live, late, rfl, hlive, hlate, fun hended _ => step_ended hended, hreached.shown,
    fun event s' hended hstep => step_vouched hreached hended hstep, fun hended hsmooth =>
      ⟨fun hphase => ⟨(hclosed hphase).1, ?_⟩, ?_⟩,
    fun hphase => (hclosed hphase).2, Nat.le_trans (Nat.le_add_right _ _) hreached.bounded, fun hended => ?_⟩
  · intro hin
    cases hreached.fresh (by rw [hphase]; decide) false hin
  · rintro ⟨hclean, hok⟩
    unfold State.ended at hended
    rw [Bool.or_eq_true, beq_iff_eq, beq_iff_eq] at hended
    rcases hended with hphase | hphase
    · exact hphase
    · rcases hreached.fails hphase hsmooth with hin | hnot
      · exact absurd hin hok
      · exact absurd hclean hnot
  · obtain rfl := hlate hended
    rw [List.append_nil]
    exact goes_on hreached hended hserved

end Reaches

section Example

def plainConfig : Config := ⟨false, none, fun _ => false⟩

/-! A frame that is longer than a window, in two reads. -/

def letters (n : Nat) : Bytes := List.replicate n 97

def longFrame (n : Nat) : Bytes := letters n ++ [10, 10]

theorem letters_succ (n : Nat) (xs : Bytes) : letters (n + 1) ++ xs = 97 :: (letters n ++ xs) := rfl

theorem snoc_letters (n : Nat) (buffer : Bytes) :
    buffer ++ letters (n + 1) = buffer ++ [97] ++ letters n := by
  rw [List.append_assoc]
  rfl

theorem split_letters (n : Nat) (cur xs : Bytes) :
    split cur false (letters n ++ xs) = split (cur ++ letters n) false xs := by
  induction n generalizing cur with
  | zero => rw [letters, List.replicate_zero, List.nil_append, List.append_nil]
  | succ n ih => rw [letters_succ, split_byte _ _ _ rfl, ih, snoc_letters]

theorem frames_long (n : Nat) : frames (longFrame (n + 1)) = ([longFrame (n + 1)], []) := by
  unfold frames longFrame
  rw [letters_succ, split_byte _ _ _ rfl, split_letters, split_lf_line, split_lf]
  rw [List.append_assoc, List.append_assoc, List.append_assoc]
  rfl

theorem scan_letters (n k : Nat) (buffer rest : Bytes) (h : buffer.length + n ≤ frameBytes) :
    scan ⟨buffer, k, false, false⟩ (letters n ++ rest) = scan
      ⟨buffer ++ letters n, k + n, false, false⟩ rest := by
  induction n generalizing buffer k with
  | zero => rw [letters, List.replicate_zero, List.nil_append, List.append_nil, Nat.add_zero]
  | succ n ih =>
    have hroom : buffer.length ≠ frameBytes := by omega
    have hbyte : Scan.byte ⟨buffer, k, false, false⟩ 97 = some
      (⟨buffer ++ [97], k + 1, false, false⟩, true, false) := by
      unfold Scan.byte
      rw [if_neg Bool.false_ne_true, if_neg hroom]
      rfl
    rw [letters_succ, scan, hbyte]
    dsimp only
    rw [ih (k + 1) (buffer ++ [97]) (by rw [List.length_append, List.length_singleton]; omega),
      snoc_letters, Nat.add_right_comm,
      Nat.add_assoc]

theorem scan_long {k n : Nat} (h : k + n + 3 ≤ frameBytes) :
    scan ⟨letters k, k, false, false⟩ (letters (n + 1) ++ [10, 10]) =
      some (⟨longFrame (k + n + 1), 0, false, false⟩, [], true) := by
  have hlength : ∀ n, (letters n).length = n := fun n => List.length_replicate
  have hjoin : letters k ++ letters (n + 1) = letters (k + n + 1) := List.replicate_append_replicate
  have hfirst : Scan.byte ⟨letters (k + n + 1), k + (n + 1), false, false⟩ 10 =
      some (⟨letters (k + n + 1) ++ [10], 0, false, false⟩, true, false) := by
    unfold Scan.byte
    rw [if_neg Bool.false_ne_true, if_neg (by rw [hlength]; omega)]
    rfl
  have hsecond : Scan.byte ⟨letters (k + n + 1) ++ [10], 0, false, false⟩ 10 =
      some (⟨letters (k + n + 1) ++ [10] ++ [10], 0, false, false⟩, true, true) := by
    unfold Scan.byte
    rw [if_neg Bool.false_ne_true, if_neg (by rw [List.length_append, hlength, List.length_singleton]; omega)]
    rfl
  unfold longFrame
  rw [scan_letters _ _ _ _ (by rw [hlength]; omega), hjoin, scan, hfirst]
  dsimp only
  rw [scan, hsecond, List.append_assoc]
  rfl

theorem decode_letters (n : Nat) (xs : Bytes) {text : Utf16.Text}
    (h : TextDecoder.decodeFrom true TextDecoder.between xs = some text) :
    TextDecoder.decodeFrom true TextDecoder.between (letters n ++ xs) = some
      (List.replicate n 97 ++ text) := by
  induction n with
  | zero => exact h
  | succ n ih =>
    have hbyte : TextDecoder.nextByte true TextDecoder.between 97 = some ([97], TextDecoder.between) := rfl
    rw [letters_succ, TextDecoder.decodeFrom, hbyte]
    show (TextDecoder.decodeFrom true TextDecoder.between (letters n ++ xs)).bind
      (fun more => some ([97] ++ more)) = _
    rw [ih]
    rfl

theorem splitLines_letters (n : Nat) (line rest : Utf16.Text) :
    splitLines line (List.replicate n 97 ++ rest) = splitLines (line ++ List.replicate n 97) rest := by
  induction n generalizing line with
  | zero => rw [List.replicate_zero, List.nil_append, List.append_nil]
  | succ n ih =>
    have hunit : ∀ more : Utf16.Text, splitLines line (97 :: more) = splitLines (line ++ [97]) more := by
      intro more
      rw [splitLines, if_neg (by decide)]
      exact fun _ hcr => absurd hcr (by decide)
    rw [List.replicate_succ, List.cons_append, hunit, ih, List.append_assoc]
    rfl

theorem validate_long (n : Nat) : validateFrame plainConfig.inspect (longFrame (n + 1)) = true := by
  have hdecode : TextDecoder.decode true (longFrame (n + 1)) = some
    (List.replicate (n + 1) 97 ++ [10, 10]) := by
    have hend : TextDecoder.decodeFrom true TextDecoder.between [10, 10] = some [10, 10] := rfl
    unfold TextDecoder.decode longFrame
    rw [decode_letters (n + 1) [10, 10] hend]
    rfl
  have hlines : splitLines [] (List.replicate (n + 1) 97 ++ [10, 10]) =
    [List.replicate (n + 1) 97, [], []] := by
    rw [splitLines_letters]
    rfl
  have hdata : dataOf (List.replicate (n + 1) 97 ++ [10, 10]) = [] := by
    unfold dataOf
    rw [hlines]
    rfl
  unfold validateFrame
  rw [hdecode]
  dsimp only
  rw [hdata]
  rfl

theorem longFrame_length (n : Nat) : (longFrame (n + 1)).length = n + 3 := by
  unfold longFrame letters
  rw [List.length_append, List.length_replicate]
  rfl

theorem deliver_part (h : s.offset + windowBytes < s.scan.buffer.length) : deliver s =
    { s with
      delivered := s.delivered ++ [(s.scan.buffer.drop s.offset).take windowBytes]
      offset := s.offset + windowBytes, phase := .idle } := by
  have hlength : ((s.scan.buffer.drop s.offset).take windowBytes).length = windowBytes := by
    rw [List.length_take, List.length_drop]
    omega
  unfold deliver
  dsimp only
  rw [hlength, if_neg (Nat.ne_of_lt h)]

theorem deliver_last (hle : s.offset ≤ s.scan.buffer.length)
    (h : s.scan.buffer.length ≤ s.offset + windowBytes) :
    deliver s =
      { s with
        delivered := s.delivered ++ [s.scan.buffer.drop s.offset], phase := .idle
        scan := { s.scan with buffer := [] }, offset := 0, frameReady := false } := by
  have htake : (s.scan.buffer.drop s.offset).take windowBytes = s.scan.buffer.drop s.offset :=
    List.take_of_length_le (by rw [List.length_drop]; omega)
  unfold deliver
  dsimp only
  rw [htake, List.length_drop, if_pos (by omega)]

section Run

variable (k n : Nat)

def longUpstream : Upstream := ⟨[letters k, letters (n + 1) ++ [10, 10]], []⟩

/-- The state while the long frame is revalidated. -/
def longHeld : State :=
  ⟨⟨longFrame (k + n + 1), 0, false, false⟩, 0, false, [], false, k + n + 3, 2, .revalidating, []⟩

/-- One window is handed on. -/
def longPart : State :=
  { longHeld k n with
    frameReady := true, offset := windowBytes, phase := .idle, delivered :=
      [(longFrame (k + n + 1)).take windowBytes] }

def longEnd : State :=
  ⟨.start, 0, false, [], true, k + n + 3, 3, .closed,
    [(longFrame (k + n + 1)).take windowBytes, (longFrame (k + n + 1)).drop windowBytes]⟩

theorem long_body : (longUpstream k n).body = longFrame (k + n + 1) := by
  unfold Upstream.body longUpstream longFrame
  rw [List.flatten_cons, List.flatten_singleton, List.append_nil, ← List.append_assoc]
  exact congrArg (· ++ [10, 10]) List.replicate_append_replicate

variable {k n}

theorem long_within (hk : k ≤ windowBytes) (hn : n + 3 ≤ windowBytes) : (longUpstream k n).Within := by
  refine ⟨?_, ?_, by show 2 < maximumReads; decide, ?_⟩
  · rw [long_body, longFrame_length]
    unfold maximum
    unfold windowBytes at hk hn
    omega
  · intro event hin
    simp only [longUpstream, Upstream.reads, List.map_cons, List.map_nil, List.cons_append, List.nil_append,
      List.mem_cons, List.not_mem_nil, or_false] at hin
    rcases hin with rfl | rfl | rfl
    · exact Nat.le_trans (Nat.le_of_eq List.length_replicate) hk
    · show (longFrame (n + 1)).length ≤ windowBytes
      rw [longFrame_length]
      exact hn
    · exact Nat.zero_le _
  · rw [long_body, frames_long]
    rintro frame (hin | rfl)
    · cases List.mem_singleton.mp hin
      rw [longFrame_length]
      unfold frameBytes
      unfold windowBytes at hk hn
      omega
    · exact Nat.zero_le _

theorem long_run (hk : k ≤ windowBytes) (hn : n + 3 ≤ windowBytes) (hlong : windowBytes < k + n + 3) :
    Trace.Run (Step plainConfig) .start [.pull, .read (letters k), .read
      (letters (n + 1) ++ [10, 10]), .revalidated true]
      (longPart k n) := by
  have hlength := longFrame_length (k + n)
  have hframe : k + n + 3 ≤ frameBytes := by
    unfold frameBytes
    unfold windowBytes at hk hn
    omega
  have hfirst : step plainConfig { State.start with reads := 1, phase := .reading } (.read (letters k)) = some
      ⟨⟨letters k, k, false, false⟩, 0, false, [], false, k, 2, .reading, []⟩ := by
    have hscan := scan_letters k 0 [] [] (by rw [List.length_nil]; omega)
    rw [List.append_nil, List.nil_append, Nat.zero_add] at hscan
    have hk' : (letters k).length = k := List.length_replicate
    show some (takeRead plainConfig _ (letters k) false) = _
    unfold takeRead
    rw [if_neg (by
      rw [hk']
      show ¬ (windowBytes < k ∨ maximum - 0 < k)
      unfold maximum
      unfold windowBytes at hk ⊢
      omega), hk']
    rw [advance_scan rfl]
    dsimp only [State.start, Scan.start]
    rw [Nat.zero_add, hscan]
    rfl
  have hsecond : step plainConfig ⟨⟨letters k, k, false, false⟩, 0, false, [], false, k, 2, .reading, []⟩
      (.read (letters (n + 1) ++ [10, 10])) = some (longHeld k n) := by
    have hvalue : (letters (n + 1) ++ [10, 10]).length = n + 3 := longFrame_length n
    show some (takeRead plainConfig _ (letters (n + 1) ++ [10, 10]) false) = _
    unfold takeRead
    rw [if_neg (by
      rw [hvalue]
      show ¬ (windowBytes < n + 3 ∨ maximum - k < n + 3)
      unfold maximum
      unfold windowBytes at hk hn ⊢
      omega), hvalue]
    rw [advance_scan rfl, scan_long hframe]
    dsimp only
    rw [if_pos rfl, validate, if_pos (validate_long (k + n))]
    rfl
  have hdeliver : step plainConfig (longHeld k n) (.revalidated true) = some (longPart k n) := by
    show some (advance plainConfig { longHeld k n with frameReady := true, offset := 0 }) = _
    rw [advance_ready rfl (by
      show 0 < (longFrame (k + n + 1)).length
      omega), deliver_part (by
      show 0 + windowBytes < (longFrame (k + n + 1)).length
      omega)]
    exact congrArg (fun offset => some { longPart k n with offset := offset }) (Nat.zero_add windowBytes)
  exact (((Trace.Run.start.next rfl).next hfirst).next hsecond).next hdeliver

theorem long_end (hk : k ≤ windowBytes) (hn : n + 3 ≤ windowBytes) (hlong : windowBytes < k + n + 3) :
    Trace.Run (Step plainConfig) .start
      ([.pull, .read (letters k), .read (letters (n + 1) ++ [10, 10]), .revalidated true] ++
        [.pull] ++ [.pull] ++
        [.readEnd []] ++ [.retired true] ++ [.revalidated true]) (longEnd k n) := by
  have hlength := longFrame_length (k + n)
  have hdeliver : step plainConfig (longPart k n) .pull = some
      ⟨.start, 0, false, [], false, k + n + 3, 2, .idle,
        [(longFrame (k + n + 1)).take windowBytes, (longFrame (k + n + 1)).drop windowBytes]⟩ := by
    show some (advance plainConfig (longPart k n)) = _
    rw [advance_ready rfl (by
      show windowBytes < (longFrame (k + n + 1)).length
      omega), deliver_last (by
      show windowBytes ≤ (longFrame (k + n + 1)).length
      omega) (by
      show (longFrame (k + n + 1)).length ≤ windowBytes + windowBytes
      omega)]
    rfl
  exact (((((long_run hk hn hlong).next hdeliver).next rfl).next rfl).next rfl).next rfl

end Run

theorem copilot_stream_long : (longEnd 10000 10000).delivered.flatten = (longUpstream 10000 10000).body ∧
    Clean plainConfig (longUpstream 10000 10000).body := by
  have hrun := @long_end 10000 10000 (by decide) (by decide) (by decide)
  obtain ⟨live, late, htr, -, -, -, -, -, hiff, hall, -⟩ := copilot_stream rfl
    (long_within (by decide) (by decide)) hrun (List.prefix_refl _)
  have hsmooth : ∀ event ∈ live, event.isSmooth = true := by
    intro event hin
    have hin := htr ▸ List.mem_append_left late hin
    simp only [List.cons_append, List.nil_append, List.mem_cons, List.not_mem_nil, or_false] at hin
    rcases hin with rfl | rfl | rfl | rfl | rfl | rfl | rfl | rfl | rfl <;> rfl
  exact ⟨hall rfl, ((hiff rfl hsmooth).mp rfl).1⟩

/-- Between two windows of a frame of 20003 bytes. -/
theorem part_delivered : ∃ (u : Upstream) (tr : List Event) (s : State), u.Within ∧ Serves u tr ∧
    Trace.Run (Step plainConfig) .start tr s ∧ ¬ ∃ whole, whole <+: (frames u.body).1 ∧
      s.delivered.flatten = whole.flatten := by
  refine ⟨longUpstream 10000 10000, _, _, long_within (by decide) (by decide), ⟨[.readEnd []], rfl⟩,
    @long_run 10000 10000 (by decide) (by decide) (by decide), ?_⟩
  have hlength := longFrame_length (10000 + 10000)
  have hshown : (longPart 10000 10000).delivered.flatten.length = windowBytes := by
    show [(longFrame (10000 + 10000 + 1)).take windowBytes].flatten.length = _
    rw [List.flatten_singleton, List.length_take, hlength]
    rfl
  rw [long_body, frames_long]
  rintro ⟨whole, ⟨more, hmore⟩, hflat⟩
  rw [hflat] at hshown
  cases whole with
  | nil => cases hshown
  | cons frame rest =>
    obtain ⟨rfl, hrest⟩ := List.cons.inj hmore
    rw [(List.append_eq_nil_iff.mp hrest).1, List.flatten_singleton, hlength] at hshown
    cases hshown

end Example

end ClawRouter.CopilotInference
