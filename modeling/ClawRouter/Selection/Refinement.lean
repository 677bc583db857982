/-
  Subject:   An isolate selects for the authority (src/worker/admission-cache.ts, authority.ts).

  An isolate answers the requests of a policy and a provider from one snapshot, and flushes what it
  owes when a timer fires. A flush sends its records in batches of 256, one after the other; a call can
  be lost, and a batch of a lost call can still arrive. Beside it stands the run in which the authority
  answers the same requests itself.

  * **`selections_refine`**: the answers are the same, each selection is owed or reported once, and
    after the flushes the tables are the same.

  Counters are statistics to the source ("small cross-isolate drift is accepted"): it replaces a count
  above a million by one, and of two flushes under way at once the older can leave its cursor last.
-/
import ClawRouter.Selection.Pool

namespace ClawRouter.Selection

open Fallible Grants Keyed

/-! ## 1. The system -/

/-- A run of `flushSelections`: the records from the batch on that is out, and whether the authority has
    that batch already. -/
structure Flush where
  records : List SelectionRecord
  applied : Bool

/-- The records the authority does not have yet. -/
def Flush.unapplied (f : Flush) : List SelectionRecord := if f.applied then f.records.drop 256 else f.records

/-- An isolate, the tables and the batches on the way. -/
structure System where
  isolate : Isolate
  tables : Tables
  flushes : List Flush
  /-- Batches whose call was given up. -/
  strays : List (List SelectionRecord)

def System.sent (s : System) : List SelectionRecord := s.strays.flatten ++ s.flushes.flatMap Flush.unapplied

/-- What a step is, as far as the claim is about it. A flush reports its records, and says whether
    another one is under way. -/
inductive Label (Bindings : Type)
  | select (request : AdmissionSelection) (result : Option (GrantSelectionResult Bindings))
  | flush (records : List SelectionRecord) (overlaps : Bool)
  | lose
  | other

def IsTime (now : Int) : Prop := 0 < now ∧ now ≤ 8640000000000000

variable {now t : Int} {s s' : System} {D : Tables} {after before : List Flush}

section Run

variable {Bindings : Type} (W : Surroundings Bindings) (A : Admission Bindings)

/-- The steps of the system. -/
inductive Step (now : Int) (s : System) : Label Bindings → System → Prop
  | select {random : UInt32} {request : AdmissionSelection}
      {result : Option (GrantSelectionResult Bindings)} {I : Isolate} :
      IsTime now → localSelection W A random request now s.isolate = .ok (result, I) →
      Step now s (.select request result) { s with isolate := I }
  /-- The isolate selects from another pool. -/
  | elsewhere {p : PoolKey} {choice : GrantChoice} : p ≠ A.poolKey →
      Step now s .other
        { s with isolate := { s.isolate with pending := s.isolate.pending.note p choice now } }
  /-- The authority or another isolate selects from another pool. -/
  | foreign {T : Tables} : (∀ k, T.selection A.poolKey.text k = s.tables.selection A.poolKey.text k) →
      T.cursors A.poolKey.text = s.tables.cursors A.poolKey.text → Step now s .other { s with tables := T }
  | flush : Step now s
      (.flush (flushRecords s.isolate.pending) (s.flushes.any fun f => !f.records.isEmpty))
      { s with isolate := { s.isolate with pending := .empty },
               flushes := s.flushes ++ [⟨flushRecords s.isolate.pending, false⟩] }
  | apply {before after : List Flush} {f : Flush} {T : Tables} : s.flushes = before ++ f :: after →
      f.records ≠ [] → f.applied = false → recordSelections now s.tables (f.records.take 256) = .ok T →
      Step now s .other { s with tables := T, flushes := before ++ { f with applied := true } :: after }
  /-- The call ends and the next batch is sent. -/
  | proceed {before after : List Flush} {f : Flush} : s.flushes = before ++ f :: after →
      f.applied = true →
      Step now s .other { s with flushes := before ++ ⟨f.records.drop 256, false⟩ :: after }
  /-- The call fails and the next batch is sent. -/
  | lose {before after : List Flush} {f : Flush} : s.flushes = before ++ f :: after →
      f.records ≠ [] → f.applied = false →
      Step now s .lose { s with flushes := before ++ ⟨f.records.drop 256, false⟩ :: after,
                                strays := s.strays ++ [f.records.take 256] }
  /-- The batch of a failed call arrives after all. -/
  | stray {before after : List (List SelectionRecord)} {batch : List SelectionRecord} {T : Tables} :
      s.strays = before ++ batch :: after → recordSelections now s.tables batch = .ok T →
      Step now s .other { s with tables := T, strays := before ++ after }

/-! ## 2. The authority alone -/

abbrev Trace (Bindings : Type) := List (Int × Label Bindings)

def requests (tr : Trace Bindings) : List (Int × AdmissionSelection) :=
  tr.filterMap fun e =>
    match e.2 with
    | .select request _ => some (e.1, request)
    | _ => none

def results (tr : Trace Bindings) : List (Option (GrantSelectionResult Bindings)) :=
  tr.filterMap fun e =>
    match e.2 with
    | .select _ result => some result
    | _ => none

/-- The authority answers one more request; `word` has the random word of each. -/
def directStep (word : Nat → UInt32) (d : List (Option (GrantSelectionResult Bindings)) × Tables)
    (request : Int × AdmissionSelection) :
    Answer (List (Option (GrantSelectionResult Bindings)) × Tables) := do
  let (result, T) ← authoritySelection W A (word d.1.length) request.2 request.1 d.2
  return (d.1 ++ [result], T)

/-- The answers of the authority to requests, and the tables it is left with. -/
def directly (word : Nat → UInt32) (T : Tables) (rs : List (Int × AdmissionSelection)) :
    Answer (List (Option (GrantSelectionResult Bindings)) × Tables) :=
  rs.foldlM (directStep W A word) ([], T)

/-! ## 3. Counting -/

def countOf (c : Option Counter) : Nat := (c.map (·.count)).getD 0

def selected (key : String) (tr : Trace Bindings) : Nat := (results tr).countP fun r => servedKey r = some key

/-- What the records of a step report of a grant of a pool. -/
def Label.reports (poolKey key : String) : Label Bindings → Nat
  | .flush records _ => countOf (toll poolKey key records)
  | _ => 0

/-- What the records of a run report of a grant of a pool. -/
def reported (poolKey key : String) (tr : Trace Bindings) : Nat :=
  (tr.map fun e => e.2.reports poolKey key).sum

/-- No record of the pool has a count that the authority does not take as it is. -/
def InRange (tr : Trace Bindings) : Prop :=
  ∀ t records overlaps, (t, Label.flush records overlaps) ∈ tr →
    ∀ r ∈ records, r.poolKey = A.poolKey.text → r.count ≤ 1000000

/-- No call fails, and a flush begins when no other one is under way. -/
def Tidy (tr : Trace Bindings) : Prop :=
  (∀ t, (t, Label.lose) ∉ tr) ∧ ∀ t records, (t, Label.flush records true) ∉ tr

/-- Nothing of the pool is owed or on the way. -/
structure Settled (s : System) : Prop where
  owed : ∀ key, s.isolate.pending.owed A.poolKey key = none
  sent : ∀ r ∈ s.sent, r.poolKey ≠ A.poolKey.text

/-- A snapshot of the authority, and nothing of the pool on the way. -/
structure Start (t : Int) (s : System) : Prop where
  agree : Agree A.poolKey s.isolate s.tables
  settled : Settled A s
  late : ∀ key c, s.tables.selection A.poolKey.text key = some c → c.lastMs ≤ t

variable {W A}

/-! ## 4. What every run keeps -/

/-- The snapshot is what the authority would have, and what is owed has times and counts. -/
structure Kept (A : Admission Bindings) (D : Tables) (t : Int) (s : System) : Prop where
  agree : Agree A.poolKey s.isolate D
  late : ∀ key c, D.selection A.poolKey.text key = some c → c.lastMs ≤ t
  owed : ∀ key c, s.isolate.pending.owed A.poolKey key = some c →
    0 < c.count ∧ IsTime c.lastMs ∧ c.lastMs ≤ t

theorem Kept.start (h : Start A t s) : Kept A s.tables t s where
  agree := h.agree
  late := h.late
  owed := by
    intro key c hc
    rw [h.settled.owed key] at hc
    cases hc

section

variable (h : Kept A D t s)
include h

theorem Kept.wait (ht : t ≤ now) : Kept A D now s where
  agree := h.agree
  late := fun key c hc => (h.late key c hc).trans ht
  owed := fun key c hc => ⟨(h.owed key c hc).1, (h.owed key c hc).2.1, (h.owed key c hc).2.2.trans ht⟩

theorem select_cases {request : AdmissionSelection} {result : Option (GrantSelectionResult Bindings)}
    (hrandom : A.pool.routing.strategy ≠ .weightedRandom)
      (hstep : Step W A now s (.select request result) s') :
    IsTime now ∧ ((servedKey result = none ∧ s' = s ∧
          ∀ word, authoritySelection W A word request now D = .ok (result, D)) ∨
        ∃ choice : GrantChoice, servedKey result = some choice.selectedKey ∧
          s' = { s with isolate := s.isolate.note A.poolKey choice now } ∧
          ∀ word, authoritySelection W A word request now D = .ok
            (result, D.note A.poolKey.text choice now)) := by
  cases hstep with
  | @select random _ _ I htime hlocal =>
    refine ⟨htime, ?_⟩
    obtain ⟨r, ⟨hserved, hrun, hdirect⟩ | ⟨choice, hserved, hrun, hdirect⟩⟩ :=
      @selections_agree request Bindings W A random now s.isolate D h.agree hrandom
    · cases hlocal.symm.trans hrun
      exact .inl ⟨hserved, rfl, hdirect⟩
    · cases hlocal.symm.trans hrun
      exact .inr ⟨choice, hserved, rfl, hdirect⟩

theorem Kept.owed_note (htime : IsTime now) (ht : t ≤ now) (choice : GrantChoice) (key : String) (c : Counter)
    (hc : (s.isolate.pending.note A.poolKey choice now).owed A.poolKey key = some c) :
    0 < c.count ∧ IsTime c.lastMs ∧ c.lastMs ≤ now := by
  have hlate : ∀ c, s.isolate.pending.owed A.poolKey key = some c → c.lastMs ≤ now := fun c hc =>
    (h.owed key c hc).2.2.trans ht
  rw [Pending.note_owed _ _ _ _ _ _ hlate] at hc
  by_cases e : choice.selectedKey = key
  · rw [if_pos ⟨rfl, e⟩] at hc
    cases howed : s.isolate.pending.owed A.poolKey key with
    | none =>
      rw [howed] at hc
      cases hc
      exact ⟨Nat.one_pos, htime, le_refl now⟩
    | some c' =>
      rw [howed] at hc
      cases hc
      refine ⟨Nat.succ_pos _, ?_, max_le (hlate c' howed) (le_refl now)⟩
      rw [Counter.merge, max_eq_right (hlate c' howed)]
      exact htime
  · rw [if_neg fun h => e h.2, plus_none] at hc
    exact ⟨(h.owed key c hc).1, (h.owed key c hc).2.1, hlate c hc⟩

theorem Kept.note (htime : IsTime now) (ht : t ≤ now) (choice : GrantChoice) :
    Kept A (D.note A.poolKey.text choice now) now
      { s with isolate := s.isolate.note A.poolKey choice now } where
  agree := h.agree.note choice now
  late := by
    intro key c hc
    rw [Tables.note_selection] at hc
    split at hc
    · cases hc
      exact le_refl now
    · exact (h.late key c hc).trans ht
  owed := fun key c hc => h.owed_note htime ht choice key c hc

theorem Kept.step {a : Label Bindings}
    (ht : t ≤ now) (hstep : Step W A now s a s') (ha : ∀ request result, a ≠ .select request result) :
    Kept A D now s' := by
  have h := h.wait ht
  cases hstep with
  | @select _ request result => exact absurd rfl (ha request result)
  | @elsewhere p choice hp =>
    refine ⟨⟨h.agree.1, h.agree.2⟩, h.late, fun key c hc => h.owed key c ?_⟩
    rw [Pending.note_owed _ _ _ _ _ _ fun c hc => (h.owed key c hc).2.2, if_neg fun e => hp e.1,
      plus_none] at hc
    exact hc
  | foreign _ _ | apply _ _ _ _ | proceed _ _ | lose _ _ _ => exact ⟨h.agree, h.late, h.owed⟩
  | flush => exact ⟨⟨h.agree.1, h.agree.2⟩, h.late, fun key c hc => by cases hc⟩
  | stray _ _ => exact ⟨h.agree, h.late, h.owed⟩

end

/-! ## 5. The counters -/

/-- The tables, what is on the way and what is owed add up to the counters of the authority alone. -/
structure Even (A : Admission Bindings) (D : Tables) (s : System) : Prop where
  sound : ∀ r ∈ s.sent, r.poolKey = A.poolKey.text → r.Sound
  total : ∀ key, plus (plus (s.tables.selection A.poolKey.text key) (toll A.poolKey.text key s.sent))
    (s.isolate.pending.owed A.poolKey key) = D.selection A.poolKey.text key

theorem toll_foreign {poolKey key : String} {l : List SelectionRecord}
    (h : ∀ r ∈ l, r.poolKey ≠ poolKey) : toll poolKey key l = none := by
  induction l with
  | nil => rfl
  | cons r l ih =>
    rw [toll, ih fun r hr => h r (List.mem_cons_of_mem _ hr), plus_none, SelectionRecord.amount,
      if_neg fun e => h r List.mem_cons_self e.1]

theorem Even.start (h : Start A t s) : Even A s.tables s where
  sound := fun r hr e => absurd e (h.settled.sent r hr)
  total := fun key => by rw [toll_foreign h.settled.sent, h.settled.owed, plus_none, plus_none]

theorem sent_split {f : Flush} (h : s.flushes = before ++ f :: after) :
    s.sent = s.strays.flatten ++ (before.flatMap Flush.unapplied ++
      (f.unapplied ++ after.flatMap Flush.unapplied)) := by
  simp [System.sent, h]

theorem unapplied_take_drop {f : Flush} (h : f.applied = false) :
    f.unapplied = f.records.take 256 ++ f.records.drop 256 := by
  rw [List.take_append_drop, Flush.unapplied, h]
  rfl

theorem Even.step {a : Label Bindings} (h : Even A D s) (hkept : Kept A D t s) (hstep : Step W A now s a s')
    (ha : ∀ request result, a ≠ .select request result)
      (hrange : ∀ records overlaps, a = .flush records overlaps →
      ∀ r ∈ records, r.poolKey = A.poolKey.text → r.count ≤ 1000000) : Even A D s' := by
  cases hstep with
  | @select _ request result => exact absurd rfl (ha request result)
  | @elsewhere p choice hp =>
    refine ⟨h.sound, fun key => ?_⟩
    rw [← h.total key]
    congr 1
    unfold Pending.owed
    show ((noteSelection s.isolate.pending.selections p choice.selectedKey now).find? _).map _ = _
    rw [find?_noteSelection, if_neg fun e => hp e.1]
  | @foreign T hselection hcursors =>
    refine ⟨h.sound, fun key => ?_⟩
    rw [← h.total key]
    rw [hselection]
    rfl
  | flush =>
    have hsent : System.sent
        { s with isolate := { s.isolate with pending := .empty },
                 flushes := s.flushes ++ [⟨flushRecords s.isolate.pending, false⟩] } =
        s.sent ++ flushRecords s.isolate.pending := by
      simp [System.sent, Flush.unapplied]
    refine ⟨fun r hr hpool => ?_, fun key => ?_⟩
    · rw [hsent] at hr
      rcases List.mem_append.mp hr with hr | hr
      · exact h.sound r hr hpool
      · obtain ⟨p, hp, hpool', hkey, hcount, hlast⟩ := mem_flushRecords hr
        have hid : p.poolKey = A.poolKey := PoolKey.ext_text (hpool'.symm.trans hpool)
        have howed : s.isolate.pending.owed A.poolKey p.key = some p.counter := by
          have hfind := (Table.find?_eq_some (T := s.isolate.pending.selections)).mpr
            ⟨hp, show p.id = pendingId A.poolKey p.key by rw [← hid]; rfl⟩
          rw [Pending.owed, hfind]
          rfl
        obtain ⟨hpos, htime, -⟩ := hkept.owed p.key _ howed
        refine ⟨⟨hcount ▸ hpos, hrange _ _ rfl r hr hpool⟩, hlast ▸ htime.1, hlast ▸ ?_⟩
        exact htime.2.trans (by decide)
    · rw [hsent, toll_append, toll_flushRecords, ← h.total key]
      show plus (plus _ (plus _ _)) none = _
      rw [plus_none]
      ac_rfl
  | @apply before after f T hsplit hsome happlied hrecords =>
    have hsent := sent_split hsplit
    rw [unapplied_take_drop happlied] at hsent
    have hsent' : System.sent
        { s with tables := T, flushes := before ++ { f with applied := true } :: after } =
        s.strays.flatten ++ (before.flatMap Flush.unapplied ++
          (f.records.drop 256 ++ after.flatMap Flush.unapplied)) := by
      rw [sent_split rfl]
      rfl
    refine ⟨fun r hr hpool => h.sound r ?_ hpool, fun key => ?_⟩
    · rw [hsent'] at hr
      rw [hsent]
      simp only [List.mem_append] at hr ⊢
      tauto
    · have hT := (@recordSelections_ok now s.tables T A.poolKey.text _ hrecords).1 key fun r hr hpool =>
        h.sound r (by rw [hsent]; simp only [List.mem_append]; tauto) hpool
      rw [← h.total key, hsent, hsent']
      rw [hT]
      simp only [toll_append]
      ac_rfl
  | @proceed before after f hsplit happlied =>
    have hsent' : System.sent
        { s with flushes := before ++ ⟨f.records.drop 256, false⟩ :: after } = s.sent := by
      rw [sent_split hsplit, sent_split rfl, Flush.unapplied, Flush.unapplied, happlied]
      rfl
    exact ⟨fun r hr => h.sound r (hsent' ▸ hr), fun key => hsent'.symm ▸ h.total key⟩
  | @lose before after f hsplit hsome happlied =>
    have hsent := sent_split hsplit
    rw [unapplied_take_drop happlied] at hsent
    have hsent' : System.sent
        { s with flushes := before ++ ⟨f.records.drop 256, false⟩ :: after,
                 strays := s.strays ++ [f.records.take 256] } =
        s.strays.flatten ++ (f.records.take 256 ++ (before.flatMap Flush.unapplied ++
          (f.records.drop 256 ++ after.flatMap Flush.unapplied))) := by
      rw [sent_split rfl]
      simp [Flush.unapplied]
    refine ⟨fun r hr hpool => h.sound r ?_ hpool, fun key => ?_⟩
    · rw [hsent'] at hr
      rw [hsent]
      simp only [List.mem_append] at hr ⊢
      tauto
    · rw [← h.total key, hsent, hsent']
      simp only [toll_append]
      ac_rfl
  | @stray before after batch T hsplit hrecords =>
    have hsent : s.sent = before.flatten ++ (batch ++
      (after.flatten ++ s.flushes.flatMap Flush.unapplied)) := by
      simp [System.sent, hsplit]
    have hsent' : System.sent { s with tables := T, strays := before ++ after } =
        before.flatten ++ (after.flatten ++ s.flushes.flatMap Flush.unapplied) := by
      simp [System.sent]
    refine ⟨fun r hr hpool => h.sound r ?_ hpool, fun key => ?_⟩
    · rw [hsent'] at hr
      rw [hsent]
      simp only [List.mem_append] at hr ⊢
      tauto
    · have hT := (@recordSelections_ok now s.tables T A.poolKey.text _ hrecords).1 key fun r hr hpool =>
        h.sound r (by rw [hsent]; simp only [List.mem_append]; tauto) hpool
      rw [← h.total key, hsent, hsent']
      rw [hT]
      simp only [toll_append]
      ac_rfl

theorem Even.note (h : Even A D s) (hkept : Kept A D t s) (ht : t ≤ now) (choice : GrantChoice) :
    Even A (D.note A.poolKey.text choice now) { s with isolate := s.isolate.note A.poolKey choice now } where
  sound := h.sound
  total := by
    intro key
    have hlate : ∀ c, s.isolate.pending.owed A.poolKey key = some c → c.lastMs ≤ now := fun c hc =>
      (hkept.owed key c hc).2.2.trans ht
    show plus (plus _ _) ((s.isolate.pending.note A.poolKey choice now).owed A.poolKey key) = _
    rw [Tables.note_plus fun c hc => (hkept.late key c hc).trans ht, ← h.total key,
      Pending.note_owed _ _ _ _ _ _ hlate]
    simp only [true_and]
    ac_rfl

/-! ## 6. The cursor -/

/-- A flush has a record of the pool that the authority does not have. -/
def Flush.holds (poolKey : String) (f : Flush) : Prop := ∃ r ∈ f.unapplied, r.poolKey = poolKey

/-- One flush at most has records of the pool on the way, and the newest cursor is the one of the
authority alone. -/
structure Ordered (A : Admission Bindings) (D : Tables) (s : System) : Prop where
  strays : ∀ r ∈ s.strays.flatten, r.poolKey ≠ A.poolKey.text
  alone : s.flushes.Pairwise fun f g => ¬(f.holds A.poolKey.text ∧ g.holds A.poolKey.text)
  cursor : (s.isolate.pending.cursor A.poolKey).or
    ((cursorOf A.poolKey.text (s.flushes.flatMap Flush.unapplied)).or
      (s.tables.cursors A.poolKey.text)) = D.cursors A.poolKey.text

theorem cursorOf_foreign {poolKey : String} {l : List SelectionRecord}
    (h : ∀ r ∈ l, r.poolKey ≠ poolKey) : cursorOf poolKey l = none :=
  cursorOf_none fun r hr e => absurd e (h r hr)

theorem cursor_of_owed {P : Pending} {poolKey : PoolKey} (h : ∀ key, P.owed poolKey key = none) :
    P.cursor poolKey = none := by
  unfold Pending.cursor
  cases hfind : P.cursors.find? poolKey with
  | none => rfl
  | some e =>
    obtain ⟨hmem, rfl⟩ := Table.find?_eq_some.mp hfind
    have hheld := P.held e hmem
    have hnone := Option.map_eq_none_iff.mp (h e.2)
    rw [hnone] at hheld
    cases hheld

theorem Ordered.start (h : Start A t s) : Ordered A s.tables s where
  strays := fun r hr => h.settled.sent r (List.mem_append_left _ hr)
  alone := by
    refine List.pairwise_of_forall_mem_list fun f hf g _ ⟨⟨r, hr, hpool⟩, _⟩ => ?_
    exact h.settled.sent r (List.mem_append_right _ (List.mem_flatMap.mpr ⟨f, hf, hr⟩)) hpool
  cursor := by
    rw [cursor_of_owed h.settled.owed, cursorOf_foreign fun r hr =>
      h.settled.sent r (List.mem_append_right _ hr)]
    rfl

theorem alone_replace {poolKey : String} {f g : Flush}
    (h : (before ++ f :: after).Pairwise fun f g => ¬(f.holds poolKey ∧ g.holds poolKey))
    (hfg : g.holds poolKey → f.holds poolKey) :
    (before ++ g :: after).Pairwise fun f g => ¬(f.holds poolKey ∧ g.holds poolKey) := by
  obtain ⟨hbefore, hrest, hcross⟩ := List.pairwise_append.mp h
  obtain ⟨hf, hafter⟩ := List.pairwise_cons.mp hrest
  refine List.pairwise_append.mpr ⟨hbefore, List.pairwise_cons.mpr ⟨fun x hx hboth => ?_, hafter⟩,
    fun x hx y hy hboth => ?_⟩
  · exact hf x hx ⟨hfg hboth.1, hboth.2⟩
  · rcases List.mem_cons.mp hy with rfl | hy
    · exact hcross x hx f List.mem_cons_self ⟨hboth.1, hfg hboth.2⟩
    · exact hcross x hx y (List.mem_cons_of_mem _ hy) hboth

theorem alone_around {poolKey : String} {f : Flush}
    (h : (before ++ f :: after).Pairwise fun f g => ¬(f.holds poolKey ∧ g.holds poolKey))
      (hf : f.holds poolKey) :
    cursorOf poolKey (before.flatMap Flush.unapplied) = none ∧
      cursorOf poolKey (after.flatMap Flush.unapplied) = none := by
  obtain ⟨-, hrest, hcross⟩ := List.pairwise_append.mp h
  obtain ⟨hafter, -⟩ := List.pairwise_cons.mp hrest
  constructor
  · refine cursorOf_foreign fun r hr hpool => ?_
    obtain ⟨g, hg, hr⟩ := List.mem_flatMap.mp hr
    exact hcross g hg f List.mem_cons_self ⟨⟨r, hr, hpool⟩, hf⟩
  · refine cursorOf_foreign fun r hr hpool => ?_
    obtain ⟨g, hg, hr⟩ := List.mem_flatMap.mp hr
    exact hafter g hg ⟨hf, ⟨r, hr, hpool⟩⟩

theorem cursorOf_around (poolKey : String) (before after : List Flush) (f : Flush) :
    cursorOf poolKey ((before ++ f :: after).flatMap Flush.unapplied) =
      ((cursorOf poolKey (after.flatMap Flush.unapplied)).or (cursorOf poolKey f.unapplied)).or
        (cursorOf poolKey (before.flatMap Flush.unapplied)) := by
  rw [List.flatMap_append, List.flatMap_cons, cursorOf_append, cursorOf_append]

theorem Ordered.step {a : Label Bindings} (h : Ordered A D s)
    (hstep : Step W A now s a s') (ha : ∀ request result, a ≠ .select request result)
    (hlose : a ≠ .lose) (hflush : ∀ records, a ≠ .flush records true) : Ordered A D s' := by
  cases hstep with
  | @select _ request result => exact absurd rfl (ha request result)
  | @elsewhere p choice hp =>
    refine ⟨h.strays, h.alone, ?_⟩
    rw [← h.cursor]
    congr 1
    rw [Pending.note_cursor, if_neg hp, Option.none_or]
  | @foreign T hselection hcursors =>
    refine ⟨h.strays, h.alone, ?_⟩
    rw [hcursors]
    exact h.cursor
  | flush =>
    -- no other flush has anything left
    have hover : ∀ f ∈ s.flushes, f.unapplied = [] := by
      have hnone : (s.flushes.any fun f => !f.records.isEmpty) = false := by
        cases hany : s.flushes.any fun f => !f.records.isEmpty with
        | false => rfl
        | true => exact absurd (by rw [hany]) (hflush (flushRecords s.isolate.pending))
      intro f hf
      have hrecords : f.records = [] := by simpa using List.any_eq_false.mp hnone f hf
      simp [Flush.unapplied, hrecords]
    have hflat : s.flushes.flatMap Flush.unapplied = [] := List.flatMap_eq_nil_iff.mpr hover
    have hcursor := h.cursor
    rw [hflat] at hcursor
    refine ⟨h.strays, List.pairwise_append.mpr
      ⟨h.alone, List.pairwise_singleton _ _, fun f hf g _ hboth => ?_⟩, ?_⟩
    · obtain ⟨r, hr, -⟩ := hboth.1
      rw [hover f hf] at hr
      cases hr
    · rw [← hcursor]
      show (none : Option String).or ((cursorOf _
        ((s.flushes ++ [(⟨flushRecords s.isolate.pending, false⟩ : Flush)]).flatMap Flush.unapplied)).or _) = _
      rw [List.flatMap_append, hflat, List.flatMap_singleton, List.nil_append, Option.none_or]
      show (cursorOf _ (flushRecords s.isolate.pending)).or _ = _
      rw [cursorOf_flushRecords]
      rfl
  | @apply before after f T hsplit hsome happlied hrecords =>
    have htake := unapplied_take_drop happlied
    have halone := h.alone
    have hcursor := h.cursor
    rw [hsplit] at halone hcursor
    refine ⟨h.strays, alone_replace halone fun ⟨r, hr, hpool⟩ => ⟨r, ?_, hpool⟩, ?_⟩
    · rw [htake]
      exact List.mem_append_right _ hr
    · rw [← hcursor]
      rw [(@recordSelections_ok now s.tables T A.poolKey.text _ hrecords).2, cursorOf_around,
        cursorOf_around, htake]
      congr 1
      show (((cursorOf _ _).or (cursorOf _ (f.records.drop 256))).or _).or _ = _
      rw [cursorOf_append]
      by_cases hf : f.holds A.poolKey.text
      · obtain ⟨hbefore, hafter⟩ := alone_around halone hf
        rw [hbefore, hafter]
        simp [Option.or_assoc]
      · have hnone : ∀ r ∈ f.unapplied, r.poolKey ≠ A.poolKey.text := fun r hr e => hf ⟨r, hr, e⟩
        rw [htake] at hnone
        rw [cursorOf_foreign fun r hr => hnone r (List.mem_append_left _ hr),
          cursorOf_foreign fun r hr => hnone r (List.mem_append_right _ hr)]
        rfl
  | @proceed before after f hsplit happlied =>
    have hsame : (⟨f.records.drop 256, false⟩ : Flush).unapplied = f.unapplied := by
      rw [Flush.unapplied, Flush.unapplied, happlied]
      rfl
    have halone := h.alone
    have hcursor := h.cursor
    rw [hsplit] at halone hcursor
    refine ⟨h.strays, alone_replace halone fun ⟨r, hr, hpool⟩ => ⟨r, hsame ▸ hr, hpool⟩, ?_⟩
    rw [← hcursor]
    rw [cursorOf_around, cursorOf_around, hsame]
  | lose _ _ _ => exact absurd rfl hlose
  | @stray before after batch T hsplit hrecords =>
    have hforeign : ∀ r ∈ batch, r.poolKey ≠ A.poolKey.text := fun r hr =>
      h.strays r (by rw [hsplit]; simp [hr])
    refine ⟨fun r hr => h.strays r ?_, h.alone, ?_⟩
    · rw [hsplit]
      simp only [List.flatten_append, List.flatten_cons, List.mem_append] at hr ⊢
      tauto
    · rw [← h.cursor]
      rw [(@recordSelections_ok now s.tables T A.poolKey.text _ hrecords).2, cursorOf_foreign hforeign]
      rfl

theorem Ordered.note (h : Ordered A D s) (choice : GrantChoice) (now : Int) :
    Ordered A (D.note A.poolKey.text choice now)
      { s with isolate := s.isolate.note A.poolKey choice now } where
  strays := h.strays
  alone := h.alone
  cursor := by
    show ((s.isolate.pending.note A.poolKey choice now).cursor A.poolKey).or _ = _
    rw [Pending.note_cursor, if_pos rfl, Tables.note_cursors, ← h.cursor, Option.or_assoc]

/-! ## 7. Runs -/

/-- What holds along a run: the answers are those of the authority alone, whose tables `D` the rest is
about. -/
structure Along (W : Surroundings Bindings) (A : Admission Bindings) (word : Nat → UInt32) (T : Tables)
    (tr : Trace Bindings) (t : Int) (s : System) (D : Tables) : Prop where
  direct : directly W A word T (requests tr) = .ok (results tr, D)
  kept : Kept A D t s
  counted : ∀ key, selected key tr =
    reported A.poolKey.text key tr + countOf (s.isolate.pending.owed A.poolKey key)
  even : InRange A tr → Even A D s
  ordered : Tidy tr → Ordered A D s

theorem countOf_plus (a b : Option Counter) : countOf (plus a b) = countOf a + countOf b := by
  cases a with
  | none => simp [countOf]
  | some a =>
    cases b with
    | none => simp [countOf]
    | some b => rfl

theorem InRange.earlier {tr : Trace Bindings} {e : Int × Label Bindings}
    (h : InRange A (tr ++ [e])) : InRange A tr :=
  fun t records overlaps hmem => h t records overlaps (List.mem_append_left _ hmem)

theorem Tidy.earlier {tr : Trace Bindings} {e : Int × Label Bindings} (h : Tidy (tr ++ [e])) : Tidy tr :=
  ⟨fun t hmem => h.1 t (List.mem_append_left _ hmem), fun t records hmem => h.2 t records
    (List.mem_append_left _ hmem)⟩

theorem owed_step {a : Label Bindings} (hstep : Step W A now s a s')
    (ha : ∀ request result, a ≠ .select request result) (key : String) :
    countOf (s.isolate.pending.owed A.poolKey key) =
      a.reports A.poolKey.text key + countOf (s'.isolate.pending.owed A.poolKey key) := by
  cases hstep with
  | @select _ request result => exact absurd rfl (ha request result)
  | @elsewhere p choice hp =>
    have hsame : (s.isolate.pending.note p choice now).owed A.poolKey key = s.isolate.pending.owed
      A.poolKey key := by
      show ((noteSelection s.isolate.pending.selections p choice.selectedKey now).find? _).map _ = _
      rw [find?_noteSelection, if_neg fun e => hp e.1]
      rfl
    show _ = 0 + countOf ((s.isolate.pending.note p choice now).owed A.poolKey key)
    rw [hsame, Nat.zero_add]
  | flush =>
    show _ = countOf (toll A.poolKey.text key (flushRecords s.isolate.pending)) + 0
    rw [toll_flushRecords, Nat.add_zero]
  | foreign _ _ | apply _ _ _ _ | proceed _ _ | lose _ _ _ | stray _ _ => exact (Nat.zero_add _).symm

theorem Along.step {word : Nat → UInt32} {T : Tables} {tr : Trace Bindings}
    {a : Label Bindings} (hrandom : A.pool.routing.strategy ≠ .weightedRandom)
    (h : Along W A word T tr t s D) (ht : t ≤ now) (hstep : Step W A now s a s') :
    ∃ D', Along W A word T (tr ++ [(now, a)]) now s' D' := by
  by_cases ha : ∃ request result, a = .select request result
  · obtain ⟨request, result, rfl⟩ := ha
    have hrequests : requests (tr ++ [(now, Label.select request result)]) =
        requests tr ++ [(now, request)] := by simp [requests]
    have hresults : results (tr ++ [(now, Label.select request result)]) = results tr ++ [result] := by
      simp [results]
    have hdirect : ∀ D', authoritySelection W A (word (results tr).length) request now D = .ok (result, D') →
        directly W A word T (requests (tr ++ [(now, Label.select request result)])) =
          .ok (results (tr ++ [(now, Label.select request result)]), D') := by
      intro D' hD'
      have hprefix := h.direct
      unfold directly at hprefix ⊢
      rw [hrequests, hresults, List.foldlM_append, hprefix]
      show (directStep W A word (results tr, D) (now, request) >>= pure) = _
      unfold directStep
      rw [hD']
      rfl
    have hselected : ∀ key, selected key (tr ++ [(now, Label.select request result)]) =
        selected key tr + if servedKey result = some key then 1 else 0 := by
      intro key
      rw [selected, hresults, List.countP_append, List.countP_singleton]
      simp [selected]
    have hreported : ∀ key, reported A.poolKey.text key (tr ++ [(now, Label.select request result)]) =
        reported A.poolKey.text key tr := by
      intro key
      simp [reported, Label.reports]
    obtain ⟨htime, ⟨hserved, rfl, hrun⟩ | ⟨choice, hserved, rfl, hrun⟩⟩ := select_cases h.kept hrandom hstep
    · refine ⟨D, hdirect D (hrun _), h.kept.wait ht, fun key => ?_, fun hr => h.even hr.earlier,
        fun ho => h.ordered ho.earlier⟩
      rw [hselected, hreported, hserved, if_neg nofun, Nat.add_zero, h.counted]
    · refine ⟨D.note A.poolKey.text choice now, hdirect _ (hrun _), h.kept.note htime ht choice,
        fun key => ?_, fun hr => (h.even hr.earlier).note h.kept ht choice,
        fun ho => (h.ordered ho.earlier).note choice now⟩
      have hlate : ∀ c, s.isolate.pending.owed A.poolKey key = some c → c.lastMs ≤ now := fun c hc =>
        (h.kept.owed key c hc).2.2.trans ht
      show _ = _ + countOf ((s.isolate.pending.note A.poolKey choice now).owed A.poolKey key)
      rw [hselected, hreported, hserved, h.counted, Pending.note_owed _ _ _ _ _ _ hlate,
        countOf_plus, Nat.add_assoc]
      congr 2
      by_cases e : choice.selectedKey = key
      · rw [if_pos (by rw [e]), if_pos ⟨rfl, e⟩]
        rfl
      · rw [if_neg fun h => e (Option.some.inj h), if_neg fun h => e h.2]
        rfl
  · have ha : ∀ request result, a ≠ .select request result := fun request result e =>
      ha ⟨request, result, e⟩
    have hrequests : requests (tr ++ [(now, a)]) = requests tr := by
      cases a with
      | select request result => exact absurd rfl (ha request result)
      | flush _ _ | lose | other => simp [requests]
    have hresults : results (tr ++ [(now, a)]) = results tr := by
      cases a with
      | select request result => exact absurd rfl (ha request result)
      | flush _ _ | lose | other => simp [results]
    refine ⟨D, ?_, h.kept.step ht hstep ha, fun key => ?_, fun hr => ?_, fun ho => ?_⟩
    · rw [hrequests, hresults]
      exact h.direct
    · have hselected : selected key (tr ++ [(now, a)]) = selected key tr :=
        by rw [selected, hresults, selected]
      rw [hselected, h.counted, owed_step hstep ha, reported, reported, List.map_append, List.sum_append]
      simp [Nat.add_assoc]
    · exact (h.even hr.earlier).step h.kept hstep ha fun records overlaps e =>
        hr now records overlaps (by rw [e]; simp)
    · exact (h.ordered ho.earlier).step hstep ha (fun e => ho.1 now (by rw [e]; simp))
        fun records e => ho.2 now records (by rw [e]; simp)

theorem run_along {t₀ : Int} {s₀ : System} {tr : Trace Bindings}
    (hrandom : A.pool.routing.strategy ≠ .weightedRandom) (hstart : Start A t₀ s₀)
    (hrun : Timed.Run (Step W A) s₀ t₀ tr t s) (word : Nat → UInt32) :
    ∃ D, Along W A word s₀.tables tr t s D := by
  refine hrun.invariant_along (I := fun tr t s => ∃ D, Along W A word s₀.tables tr t s D)
    ⟨s₀.tables, rfl, Kept.start hstart, fun key => ?_, fun _ => Even.start hstart, fun _ =>
      Ordered.start hstart⟩ ?_
  · rw [hstart.settled.owed]
    rfl
  · intro tr t now s a s' ht ⟨D, h⟩ hstep
    exact h.step hrandom ht hstep

/-- **Selections of an isolate refine those of the authority.** In every run from a snapshot: the answers
are those the authority gives to the same requests at the same times; each selection of a grant is owed,
or in the one record of one flush; once nothing is owed or on the way the counters are the authority's,
where no record counts more than a million; and so is the cursor, where no call fails and no flush begins
before the one before has ended. -/
theorem selections_refine {t₀ t : Int} {s₀ s : System} {tr : Trace Bindings}
    (hrandom : A.pool.routing.strategy ≠ .weightedRandom) (hstart : Start A t₀ s₀)
    (hrun : Timed.Run (Step W A) s₀ t₀ tr t s) (word : Nat → UInt32) :
    ∃ D, directly W A word s₀.tables (requests tr) = .ok (results tr, D) ∧ (∀ key, selected key tr =
        reported A.poolKey.text key tr + countOf (s.isolate.pending.owed A.poolKey key)) ∧
      (InRange A tr → Settled A s → ∀ key, s.tables.selection A.poolKey.text key = D.selection
        A.poolKey.text key) ∧
      (Tidy tr → Settled A s → s.tables.cursors A.poolKey.text = D.cursors A.poolKey.text) := by
  obtain ⟨D, h⟩ := run_along hrandom hstart hrun word
  refine ⟨D, h.direct, h.counted, fun hr hsettled key => ?_, fun ho hsettled => ?_⟩
  · rw [← (h.even hr).total key, toll_foreign hsettled.sent, hsettled.owed, plus_none, plus_none]
  · rw [← (h.ordered ho).cursor, cursor_of_owed hsettled.owed, cursorOf_foreign fun r hr =>
      hsettled.sent r (List.mem_append_right _ hr)]
    rfl

theorem localSelection_ok (hrandom : A.pool.routing.strategy ≠ .weightedRandom) (random : UInt32)
    (request : AdmissionSelection) (now : Int) (I : Isolate) :
    ∃ x, localSelection W A random request now I = .ok x := by
  obtain ⟨r, ⟨-, h, -⟩ | ⟨choice, -, h, -⟩⟩ := @selections_agree request Bindings W A random now I
    ⟨fun _ k => I.counts k, fun _ => I.cursorKey⟩ ⟨rfl, fun _ => rfl⟩ hrandom
  · exact ⟨_, h⟩
  · exact ⟨_, h⟩

end Run

/-! ## 8. Two grants -/

section Sample

def sampleSurroundings : Surroundings Unit where
  localeCompare :=
  fun a b => Ord.compare (a.toList.map Char.toNat) (b.toList.map Char.toNat)
  toLowerCase := fun s => s
  providers := [⟨"codex", [⟨"chat", "openai.chat"⟩]⟩]
  grantSupports := fun _ _ _ => true
  operationConfigured := fun _ _ _ => true

def samplePool (strategy : Strategy) : SelectionInput Unit where
  routing :=
    { strategy := strategy, stickiness := .none, includedQuotaReservePercent := 0, denyStale := false,
      staleAfterSeconds := 300, switchAtUsedPercent := 90, hysteresisPercent := 10,
      eligibleGrants := fun _ => none, sharedGrants := fun _ => [] }
  candidates := [⟨"oauth/team/a", some sampleGrant⟩, ⟨"oauth/team/b", some sampleGrant⟩]
  states := fun _ => none
  revisions := fun _ => some 1
  identityHash := ""
  fallbackSessionHash := ""

def sampleAdmission (strategy : Strategy) : Admission Unit where
  providerId :=
  "codex"
  providers := []
  models := none
  connections := []
  poolKey := ⟨"codex/team/default", rfl⟩
  pool := samplePool strategy
  keys := by
    intro c hc
    rcases List.mem_cons.mp hc with rfl | hc
    · rfl
    · rw [List.mem_singleton.mp hc]
      rfl
  bounded := Nat.le_of_ble_eq_true rfl

def sampleRequest : AdmissionSelection where
  providerId :=
  "codex"
  endpointId := "chat"
  mode := .http
  model := none
  catalogModelId := none
  capability := "llm.chat"
  sessionHash := none
  excludedKeys := []
  pinnedKey := .free

/-- The answer to the request and the isolate after it. -/
def sampleServe (strategy : Strategy) (I : Isolate) : Option (GrantSelectionResult Unit) × Isolate :=
  match localSelection sampleSurroundings (sampleAdmission strategy) 0 sampleRequest 1 I with
  | .ok x => x
  | .error _ => (none, I)

theorem sampleServe_ok {strategy : Strategy} (h : strategy ≠ .weightedRandom) (I : Isolate) :
    localSelection sampleSurroundings (sampleAdmission strategy) 0 sampleRequest 1 I =
      .ok ((sampleServe strategy I).1, (sampleServe strategy I).2) := by
  obtain ⟨x, hx⟩ := @localSelection_ok Unit sampleSurroundings (sampleAdmission strategy) h 0 sampleRequest 1 I
  unfold sampleServe
  rw [hx]

def sampleTables : Tables := ⟨fun _ _ => none, fun _ => none⟩

def sampleStart : System := ⟨⟨none, fun _ => none, .empty⟩, sampleTables, [], []⟩

theorem sampleStart_start (strategy : Strategy) : Start (sampleAdmission strategy) 1 sampleStart where
  agree := ⟨rfl, fun _ => rfl⟩
  settled := ⟨fun _ => rfl, nofun⟩
  late := nofun

def sampleRecord (T : Tables) (records : List SelectionRecord) : Tables :=
  match recordSelections 1 T records with
  | .ok T => T
  | .error _ => T

theorem sampleRecord_ok {T : Tables} {records : List SelectionRecord}
    (h : (recordSelections 1 T records).isOk = true) :
    recordSelections 1 T records = .ok (sampleRecord T records) := by
  unfold sampleRecord
  cases hrun : recordSelections 1 T records with
  | ok T => rfl
  | error e =>
    rw [hrun] at h
    cases h

/-- The first grant is selected and a flush begins; then the second one, and another flush. -/
def sampleFirst : Isolate := (sampleServe .roundRobin sampleStart.isolate).2

def sampleSecond : Isolate := (sampleServe .roundRobin { sampleFirst with pending := .empty }).2

def sampleOlder : List SelectionRecord := flushRecords sampleFirst.pending

def sampleNewer : List SelectionRecord := flushRecords sampleSecond.pending

def sampleReordered : System where
  isolate :=
  { sampleSecond with pending := .empty }
  tables := sampleRecord (sampleRecord sampleTables sampleNewer) sampleOlder
  flushes := [⟨sampleOlder, true⟩, ⟨sampleNewer, true⟩]
  strays := []

theorem sampleReordered_run : ∃ tr, Timed.Run (Step sampleSurroundings (sampleAdmission .roundRobin))
    sampleStart 1 tr 1 sampleReordered ∧ ∀ t, (t, Label.lose) ∉ tr := by
  have htime : IsTime 1 := ⟨by decide, by decide⟩
  have hnewer : (recordSelections 1 sampleTables sampleNewer).isOk = true := by decide
  have holder : (recordSelections 1 (sampleRecord sampleTables sampleNewer) sampleOlder).isOk = true := by
    decide
  have hne : Strategy.roundRobin ≠ .weightedRandom := nofun
  have h₁ := Timed.Run.start.next (le_refl 1) (@Step.select Unit sampleSurroundings
    (sampleAdmission .roundRobin) 1 sampleStart 0 _ _ _ htime (sampleServe_ok hne sampleStart.isolate))
  have h₂ := h₁.next (le_refl 1) Step.flush
  have h₃ := h₂.next (le_refl 1) (Step.select htime
    (sampleServe_ok hne { sampleFirst with pending := .empty }))
  have h₄ := h₃.next (le_refl 1) Step.flush
  have h₅ := h₄.next (le_refl 1) (@Step.apply Unit sampleSurroundings (sampleAdmission .roundRobin) 1 _
    [⟨sampleOlder, false⟩] [] ⟨sampleNewer, false⟩ (sampleRecord sampleTables sampleNewer) rfl
    (by decide) rfl (sampleRecord_ok hnewer))
  have h₆ := h₅.next (le_refl 1) (@Step.apply Unit sampleSurroundings (sampleAdmission .roundRobin) 1 _
    [] [⟨sampleNewer, true⟩] ⟨sampleOlder, false⟩ _ rfl (by decide) rfl (sampleRecord_ok holder))
  exact ⟨_, h₆, by simp⟩

theorem sampleReordered_settled : Settled (sampleAdmission .roundRobin) sampleReordered where
  owed := fun _ => rfl
  sent := by
    have hsent : sampleReordered.sent = [] := by decide
    rw [hsent]
    exact nofun

def sampleRequirement : GrantRequirement :=
  ⟨⟨"codex", [⟨"chat", "openai.chat"⟩]⟩, ⟨"chat", "openai.chat"⟩, .http, none, false⟩

/-- What the request is answered under the priority strategy. -/
def sampleAnswer : Option (GrantSelectionResult Unit) :=
  some (selectionResult sampleSurroundings (samplePool .priority) sampleRequirement sampleRequest 1
    (some "oauth/team/a"))

def sampleKeep : GrantChoice := keep ⟨"oauth/team/a", 1, none⟩

theorem samplePriority_local (I : Isolate) :
    localSelection sampleSurroundings (sampleAdmission .priority) 0 sampleRequest 1 I =
      .ok (sampleAnswer, I.note (sampleAdmission .priority).poolKey sampleKeep 1) := by
  rfl

def sampleTimes : Nat → Isolate
  | 0 => sampleStart.isolate
  | n + 1 => (sampleTimes n).note (sampleAdmission .priority).poolKey sampleKeep 1

def sampleSelects (n : Nat) : Trace Unit := List.replicate n (1, .select sampleRequest sampleAnswer)

theorem sampleTimes_run (n : Nat) : Timed.Run (Step sampleSurroundings (sampleAdmission .priority))
    sampleStart 1 (sampleSelects n) 1 { sampleStart with isolate := sampleTimes n } := by
  induction n with
  | zero => exact .start
  | succ n ih =>
    have hstep := ih.next (le_refl 1) (Step.select ⟨by decide, by decide⟩
      (samplePriority_local (sampleTimes n)))
    rw [sampleSelects, List.replicate_succ']
    exact hstep

theorem sampleTimes_counts (n : Nat) : (sampleTimes (n + 1)).counts "oauth/team/a" = some ⟨n + 1, 1⟩ := by
  induction n with
  | zero => rfl
  | succ n ih =>
    show ((sampleTimes (n + 1)).note _ sampleKeep 1).counts "oauth/team/a" = _
    simp [Isolate.note, sampleKeep, keep, ih]

theorem sampleTimes_pending (n : Nat) : (sampleTimes (n + 1)).pending.selections.rows =
        [⟨(sampleAdmission .priority).poolKey, "oauth/team/a", n + 1, 1⟩] ∧
      (sampleTimes (n + 1)).pending.cursors.rows = [] := by
  induction n with
  | zero => exact ⟨rfl, rfl⟩
  | succ n ih =>
    obtain ⟨hrows, hcursors⟩ := ih
    have hfind : (sampleTimes (n + 1)).pending.selections.find?
        (pendingId (sampleAdmission .priority).poolKey "oauth/team/a") =
        some ⟨(sampleAdmission .priority).poolKey, "oauth/team/a", n + 1, 1⟩ :=
      Table.find?_eq_some.mpr ⟨by rw [hrows]; exact List.mem_cons_self, rfl⟩
    refine ⟨?_, hcursors⟩
    show (noteSelection (sampleTimes (n + 1)).pending.selections _ "oauth/team/a" 1).rows = _
    have hsome : ((sampleTimes (n + 1)).pending.selections.find? (PendingSelection.id
        (oneMore (sampleAdmission .priority).poolKey "oauth/team/a" 1
          (some ⟨(sampleAdmission .priority).poolKey, "oauth/team/a", n + 1, 1⟩)))).isSome = true := by
      have hid : PendingSelection.id (oneMore (sampleAdmission .priority).poolKey "oauth/team/a" 1
          (some ⟨(sampleAdmission .priority).poolKey, "oauth/team/a", n + 1, 1⟩)) =
          pendingId (sampleAdmission .priority).poolKey "oauth/team/a" := rfl
      rw [hid, hfind]
      rfl
    unfold noteSelection
    rw [hfind, Table.upsert, if_pos hsome]
    show ((sampleTimes (n + 1)).pending.selections.rows.map _) = _
    rw [hrows]
    simp [oneMore, PendingSelection.id]

/-- What a flush reports after so many selections. -/
def sampleRecords (n : Nat) : List SelectionRecord := [⟨"codex/team/default", "oauth/team/a", n, 1, none⟩]

theorem sampleTimes_flush (n : Nat) : flushRecords (sampleTimes (n + 1)).pending = sampleRecords (n + 1) := by
  unfold flushRecords
  rw [(sampleTimes_pending n).1, (sampleTimes_pending n).2]
  rfl

/-- The system after so many selections and a flush that arrived. -/
def sampleFlushed (n : Nat) : System where
  isolate :=
  { sampleTimes n with pending := .empty }
  tables := sampleRecord sampleTables (sampleRecords n)
  flushes := [⟨sampleRecords n, true⟩]
  strays := []

theorem sampleFlushed_run (n : Nat) :
    Timed.Run (Step sampleSurroundings (sampleAdmission .priority)) sampleStart 1
      (sampleSelects (n + 1) ++ [(1, .flush (sampleRecords (n + 1)) false)] ++ [(1, .other)]) 1
      (sampleFlushed (n + 1)) := by
  have h₁ := (sampleTimes_run (n + 1)).next (le_refl 1) Step.flush
  rw [sampleTimes_flush] at h₁
  have hpool : grantSelectionPoolKey "codex/team/default" = .ok "codex/team/default" := rfl
  have hkey : grantKey "oauth/team/a" = .ok "oauth/team/a" := rfl
  have hok : (recordSelections 1 sampleTables (sampleRecords (n + 1))).isOk = true := by
    unfold recordSelections sampleRecords
    simp only [List.foldlM_cons, List.foldlM_nil, recordOne, hpool, hkey]
    rfl
  exact h₁.next (le_refl 1) (@Step.apply Unit sampleSurroundings (sampleAdmission .priority) 1 _
    [] [] ⟨sampleRecords (n + 1), false⟩ (sampleRecord sampleTables (sampleRecords (n + 1))) rfl nofun rfl
    (sampleRecord_ok hok))

theorem sampleFlushed_settled (n : Nat) : Settled (sampleAdmission .priority) (sampleFlushed n) where
  owed := fun _ => rfl
  sent := by
    intro r hr
    cases hr

theorem sampleFlushed_tidy (n : Nat) :
    Tidy (sampleSelects n ++ [(1, .flush (sampleRecords n) false)] ++ [(1, .other)]) := by
  constructor
  · intro t hmem
    simp [sampleSelects] at hmem
  · intro t records hmem
    simp [sampleSelects] at hmem

/-- The tables have a selection that is later than the clock, and the snapshot is one of them. -/
def sampleFuture : System where
  isolate :=
  ⟨none, fun k => if k = "oauth/team/a" then some ⟨1, 100⟩ else none, .empty⟩
  tables := ⟨fun p k => if p = "codex/team/default" ∧ k = "oauth/team/a" then some ⟨1, 100⟩ else
    none, fun _ => none⟩
  flushes := []
  strays := []

def sampleLater : System where
  isolate :=
  { sampleFuture.isolate.note (sampleAdmission .priority).poolKey sampleKeep 1 with pending := .empty }
  tables := sampleRecord sampleFuture.tables (sampleRecords 1)
  flushes := [⟨sampleRecords 1, true⟩]
  strays := []

theorem sampleLater_run : Timed.Run (Step sampleSurroundings (sampleAdmission .priority)) sampleFuture 1
    (sampleSelects 1 ++ [(1, .flush (sampleRecords 1) false)] ++ [(1, .other)]) 1 sampleLater := by
  have h₁ := Timed.Run.start.next (le_refl 1) (@Step.select Unit sampleSurroundings
    (sampleAdmission .priority) 1 sampleFuture 0 _ _ _ ⟨by decide, by decide⟩
    (samplePriority_local sampleFuture.isolate))
  have h₂ := h₁.next (le_refl 1) Step.flush
  have hok : (recordSelections 1 sampleFuture.tables (sampleRecords 1)).isOk = true := by decide
  exact h₂.next (le_refl 1) (@Step.apply Unit sampleSurroundings (sampleAdmission .priority) 1 _
    [] [] ⟨sampleRecords 1, false⟩ (sampleRecord sampleFuture.tables (sampleRecords 1)) rfl nofun rfl
    (sampleRecord_ok hok))

/-- One selection of the rotating pool, and a flush of it that arrived. -/
def sampleDelivered : System where
  isolate :=
  { sampleFirst with pending := .empty }
  tables := sampleRecord sampleTables sampleOlder
  flushes := [⟨sampleOlder, true⟩]
  strays := []

/-- A run with one flush: the tables are the ones of the authority alone, which hold the selection. -/
theorem selections_refine_delivered : ∃ tr D,
    Timed.Run (Step sampleSurroundings (sampleAdmission .roundRobin)) sampleStart 1 tr 1 sampleDelivered ∧
      directly sampleSurroundings (sampleAdmission .roundRobin) (fun _ => 0) sampleStart.tables (requests tr) =
        .ok (results tr, D) ∧ selected "oauth/team/a" tr = 1 ∧
      D.selection "codex/team/default" "oauth/team/a" = some ⟨1, 1⟩ ∧
      D.cursors "codex/team/default" = some "oauth/team/a" := by
  have hne : Strategy.roundRobin ≠ .weightedRandom := nofun
  have hok : (recordSelections 1 sampleTables sampleOlder).isOk = true := by decide
  have h₁ := Timed.Run.start.next (le_refl 1) (@Step.select Unit sampleSurroundings
    (sampleAdmission .roundRobin) 1 sampleStart 0 _ _ _ ⟨by decide, by decide⟩
    (sampleServe_ok hne sampleStart.isolate))
  have h₂ := h₁.next (le_refl 1) Step.flush
  have h₃ := h₂.next (le_refl 1) (@Step.apply Unit sampleSurroundings (sampleAdmission .roundRobin) 1 _
    [] [] ⟨sampleOlder, false⟩ (sampleRecord sampleTables sampleOlder) rfl (by decide) rfl
    (sampleRecord_ok hok))
  have hsettled : Settled (sampleAdmission .roundRobin) sampleDelivered := by
    refine ⟨fun _ => rfl, ?_⟩
    have hsent : sampleDelivered.sent = [] := by decide
    rw [hsent]
    exact nofun
  have hrecords : ∀ r ∈ sampleOlder, r.count ≤ 1000000 := by decide
  have hserved : servedKey (sampleServe .roundRobin sampleStart.isolate).1 = some "oauth/team/a" := by
    decide
  obtain ⟨D, hdirect, hcounted, hselection, hcursors⟩ :=
    selections_refine (W := sampleSurroundings) (by decide) (sampleStart_start .roundRobin) h₃ fun _ => 0
  refine ⟨_, D, h₃, hdirect, by simp [selected, results, hserved], ?_, ?_⟩
  · rw [show "codex/team/default" = (sampleAdmission
      .roundRobin).poolKey.text from rfl, ← hselection ?_ hsettled]
    · decide
    · intro t records overlaps hmem r hr _
      simp at hmem
      obtain ⟨-, rfl, -⟩ := hmem
      exact hrecords r hr
  · rw [show "codex/team/default" = (sampleAdmission .roundRobin).poolKey.text from rfl, ← hcursors
      ⟨?_, ?_⟩ hsettled]
    · decide
    · simp
    · intro t records hmem
      simp [sampleStart] at hmem

/-- **Why the conditions are there.** Two flushes that overlap can leave the older cursor; a record of
more than a million selections counts as one; and a selection that is flushed does not move a time back,
as one that the authority makes does. -/
theorem selections_drift :
    (∃ tr s D, Timed.Run (Step sampleSurroundings (sampleAdmission .roundRobin)) sampleStart 1 tr 1 s ∧
      (∀ t, (t, Label.lose) ∉ tr) ∧ Settled (sampleAdmission .roundRobin) s ∧
      directly sampleSurroundings (sampleAdmission .roundRobin) (fun _ => 0) sampleStart.tables (requests tr) =
        .ok (results tr, D) ∧ s.tables.cursors "codex/team/default" ≠ D.cursors "codex/team/default") ∧
    (∃ tr s D, Timed.Run (Step sampleSurroundings (sampleAdmission .priority)) sampleStart 1 tr 1 s ∧
      Tidy tr ∧ Settled (sampleAdmission .priority) s ∧
      directly sampleSurroundings (sampleAdmission .priority) (fun _ => 0) sampleStart.tables (requests tr) =
        .ok (results tr, D) ∧ s.tables.selection "codex/team/default" "oauth/team/a" ≠
        D.selection "codex/team/default" "oauth/team/a") ∧
    ∃ tr s D, Timed.Run (Step sampleSurroundings (sampleAdmission .priority)) sampleFuture 1 tr 1 s ∧
      Agree (sampleAdmission .priority).poolKey sampleFuture.isolate sampleFuture.tables ∧
      Settled (sampleAdmission .priority) sampleFuture ∧ Tidy tr ∧ Settled (sampleAdmission .priority) s ∧
      directly sampleSurroundings (sampleAdmission .priority) (fun _ => 0) sampleFuture.tables (requests tr) =
        .ok (results tr, D) ∧ s.tables.selection "codex/team/default" "oauth/team/a" ≠
        D.selection "codex/team/default" "oauth/team/a" := by
  refine ⟨?_, ?_, ?_⟩
  · have hne : (sampleAdmission .roundRobin).pool.routing.strategy ≠ .weightedRandom := by decide
    obtain ⟨tr, hrun, hlose⟩ := sampleReordered_run
    obtain ⟨D, h⟩ := run_along hne (sampleStart_start .roundRobin) hrun fun _ => 0
    refine ⟨tr, _, D, hrun, hlose, sampleReordered_settled, h.direct, ?_⟩
    have hcursor : D.cursors "codex/team/default" = sampleReordered.isolate.cursorKey :=
      h.kept.agree.cursor.symm
    rw [hcursor]
    decide
  · have hne : (sampleAdmission .priority).pool.routing.strategy ≠ .weightedRandom := by decide
    have hrun := sampleFlushed_run 1000000
    obtain ⟨D, h⟩ := run_along hne (sampleStart_start .priority) hrun fun _ => 0
    refine ⟨_, _, D, hrun, sampleFlushed_tidy _, sampleFlushed_settled _, h.direct, ?_⟩
    have hcount : D.selection "codex/team/default" "oauth/team/a" = some ⟨1000001, 1⟩ :=
      (h.kept.agree.counts "oauth/team/a").symm.trans (sampleTimes_counts 1000000)
    rw [hcount]
    decide
  · refine ⟨_, _, sampleFuture.tables.note "codex/team/default" sampleKeep 1, sampleLater_run, ⟨rfl, ?_⟩,
      ⟨fun _ => rfl, nofun⟩, sampleFlushed_tidy 1, ⟨fun _ => rfl, ?_⟩, rfl, by decide⟩
    · intro k
      simp [sampleFuture, sampleAdmission]
    · intro r hr
      cases hr

end Sample

end ClawRouter.Selection
