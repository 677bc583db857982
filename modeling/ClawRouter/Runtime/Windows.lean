/-
  Subject:   Which quota windows of a grant are left when its observations have been merged, in
             whatever order they arrived (`mergeGrantRuntimeState` of src/worker/grant-runtime.ts).

  A snapshot retires the windows of its scope that it does not list and that are no newer. What makes
  the pruning final is that a snapshot lists no window observed before it: a newer snapshot that lists
  a retired window comes with a newer window.

  * **`windows_in_any_order`**: the result is the same in every order.
-/
import ClawRouter.Runtime.Merge

namespace ClawRouter.Runtime

open Newest Fallible

/-! ## 1. What was observed -/

def newestWindow (windows : List GrantQuotaWindow) (id : String) : Option GrantQuotaWindow :=
  newest (·.id) (·.instant) windows id

/-- The newest snapshot of a scope, with the scope. -/
def newestSnapshot (snapshots : List (String × WindowSnapshot)) (scope : String) :
    Option (String × WindowSnapshot) :=
  newest (·.1) (·.2.observedAt) snapshots scope

def allWindows (states : List GrantRuntimeState) : List GrantQuotaWindow := states.flatMap (·.observed)

def allSnapshots (states : List GrantRuntimeState) : List (String × WindowSnapshot) :=
  states.flatMap (·.windowSnapshots)

/-- Every id a snapshot lists is that of a window the state observed no earlier than the snapshot. -/
def Current (state : GrantRuntimeState) : Prop :=
  ∀ s ∈ state.windowSnapshots, ∀ id ∈ s.2.ids,
    ∃ window ∈ state.observed, window.id = id ∧ s.2.observedAt ≤ window.instant

/-- The newest snapshot of some scope leaves the window out. -/
def Retired (snapshots : List (String × WindowSnapshot)) (window : GrantQuotaWindow) : Prop :=
  ∃ scope s, newestSnapshot snapshots scope = some s ∧ retires s.1 s.2 window = true

section Retire

variable {snapshots : List (String × WindowSnapshot)} {window : GrantQuotaWindow}

theorem retires_iff {scope : String} {snapshot : WindowSnapshot} :
    retires scope snapshot window = true ↔ snapshotApplies scope window.id = true ∧
      window.instant ≤ snapshot.observedAt ∧ window.id ∉ snapshot.ids := by
  unfold retires
  rw [Bool.and_eq_true, Bool.and_eq_true, decide_eq_true_eq, Bool.not_eq_true', List.contains_eq_mem,
    decide_eq_false_iff_not, and_assoc]

theorem retired_collect :
    ((collect (·.1) (·.2.observedAt) snapshots).any fun s => retires s.1 s.2 window) = true ↔
      Retired snapshots window := by
  rw [List.any_eq_true]
  constructor
  · rintro ⟨s, hmem, hretires⟩
    exact ⟨s.1, s, mem_collect.mp hmem, hretires⟩
  · rintro ⟨scope, s, hnewest, hretires⟩
    have hscope : s.1 = scope := (newest_some _ _ hnewest).2.1
    refine ⟨s, mem_collect.mpr ?_, hretires⟩
    rw [hscope]
    exact hnewest

theorem retired_congr {snapshots' : List (String × WindowSnapshot)}
    (h : ∀ scope, newestSnapshot snapshots scope = newestSnapshot snapshots' scope) :
    Retired snapshots window ↔ Retired snapshots' window := by
  unfold Retired
  simp only [h]

end Retire

/-! ## 2. One merge -/

section Merge

variable {previous incoming : GrantRuntimeState} {nowMs : Int}

theorem dated_dated (window : GrantQuotaWindow) (t t' : Int) :
    (window.dated t).dated t' = window.dated t := rfl

theorem mem_observed_dated {state : GrantRuntimeState} {window : GrantQuotaWindow}
    (h : window ∈ state.observed) (t : Int) : window.dated t = window := by
  obtain ⟨w, -, rfl⟩ := List.mem_map.mp h
  exact dated_dated w _ t

theorem mergedState_observed :
    (mergedState previous incoming nowMs).observed = standingWindows previous incoming := by
  unfold GrantRuntimeState.observed
  rw [mergedState_windows]
  refine (List.map_congr_left fun w hw => ?_).trans (List.map_id _)
  have hmem := (newest_some _ _ (mem_collect.mp (List.mem_filter.mp hw).1)).1
  rcases List.mem_append.mp hmem with hw | hw
  · exact mem_observed_dated hw _
  · exact mem_observed_dated hw _

theorem mergedState_nodup : ((mergedState previous incoming nowMs).windows.map (·.id)).Nodup := by
  rw [mergedState_windows]
  exact (nodup_collect _).sublist (List.filter_sublist.map _)

open Classical in
theorem mergedState_newest (id : String) : newestWindow (mergedState previous incoming nowMs).observed id =
      (newestWindow (previous.observed ++ incoming.observed) id).filter fun w =>
        ¬ Retired (previous.windowSnapshots ++ incoming.windowSnapshots) w := by
  rw [mergedState_observed]
  unfold newestWindow standingWindows
  have hnodup : ((mergedWindows previous incoming).map (·.id)).Nodup := nodup_collect _
  have hfind : newest (·.id) (·.instant) (mergedWindows previous incoming) id =
      newest (·.id) (·.instant) (previous.observed ++ incoming.observed) id :=
    (newest_of_nodup hnodup id).trans (find_collect _ id)
  rw [newest_filter hnodup, hfind]
  refine congrArg (fun p => Option.filter p _) (funext fun w => ?_)
  rw [Bool.eq_iff_iff, Bool.not_eq_true', decide_eq_true_eq, ← Bool.not_eq_true, mergedSnapshots,
    retired_collect]

theorem mergedState_windowSnapshots :
    (mergedState previous incoming nowMs).windowSnapshots = mergedSnapshots previous incoming := by
  unfold mergedState
  dsimp only
  split
  · rename_i hnil
    obtain ⟨hp, hi⟩ := List.append_eq_nil_iff.mp (collect_eq_nil hnil)
    rw [hnil]
    split
    · exact hi
    · exact hp
  · rfl

theorem mergedState_snapshots (scope : String) :
    newestSnapshot (mergedState previous incoming nowMs).windowSnapshots scope =
      newestSnapshot (previous.windowSnapshots ++ incoming.windowSnapshots) scope := by
  rw [mergedState_windowSnapshots]
  unfold newestSnapshot mergedSnapshots
  rw [newest_of_nodup (nodup_collect _), find_collect]

end Merge

/-! ## 3. Whole lists of arrivals -/

/-- The newest window of an id among all that were observed, unless it is retired. -/
noncomputable def standingWindow (states : List GrantRuntimeState) (id : String) : Option GrantQuotaWindow :=
  open Classical in
  (newestWindow (allWindows states) id).filter fun w => ¬ Retired (allSnapshots states) w

section Standing

open Classical

variable {snapshots : List (String × WindowSnapshot)} {window : GrantQuotaWindow}

theorem filter_retired (h : Retired snapshots window) :
    ((some window).filter fun w => ¬ Retired snapshots w) = none := by
  rw [Option.filter_some, if_neg]
  rw [decide_eq_true_eq]
  exact fun hn => hn h

theorem filter_standing (h : ¬ Retired snapshots window) :
    ((some window).filter fun w => ¬ Retired snapshots w) = some window := by
  rw [Option.filter_some, if_pos]
  rw [decide_eq_true_eq]
  exact h

end Standing

/-- **What a state has merged.** -/
structure Merged (states : List GrantRuntimeState) (r : GrantRuntimeState) : Prop where
  dated : r.observed = r.windows
  once : (r.windows.map (·.id)).Nodup
  windows : ∀ id, newestWindow r.observed id = standingWindow states id
  snapshots : ∀ scope,
    newestSnapshot r.windowSnapshots scope = newestSnapshot (allSnapshots states) scope

section Arrivals

variable {states : List GrantRuntimeState} {r s : GrantRuntimeState} {nowMs : Int}

theorem allWindows_append (l l' : List GrantRuntimeState) :
    allWindows (l ++ l') = allWindows l ++ allWindows l' := List.flatMap_append

theorem allSnapshots_append (l l' : List GrantRuntimeState) :
    allSnapshots (l ++ l') = allSnapshots l ++ allSnapshots l' := List.flatMap_append

theorem allWindows_single (s : GrantRuntimeState) : allWindows [s] = s.observed := List.flatMap_singleton ..

theorem allSnapshots_single (s : GrantRuntimeState) : allSnapshots [s] = s.windowSnapshots :=
  List.flatMap_singleton ..

theorem newestSnapshot_append (l l' : List (String × WindowSnapshot)) (scope : String) :
    newestSnapshot (l ++ l') scope = later (·.2.observedAt) (newestSnapshot l scope)
      (newestSnapshot l' scope) :=
  newest_append _ _ l l' scope

theorem merged_two (a b : GrantRuntimeState) : Merged [a, b] (mergedState a b nowMs) := by
  refine ⟨mergedState_observed.trans mergedState_windows.symm, mergedState_nodup, fun id =>
    ?_, fun scope => ?_⟩
  · rw [mergedState_newest]
    unfold standingWindow allWindows allSnapshots
    rw [List.flatMap_cons, List.flatMap_cons, List.flatMap_nil, List.append_nil, List.flatMap_cons,
      List.flatMap_cons, List.flatMap_nil, List.append_nil]
  · rw [mergedState_snapshots]
    unfold allSnapshots
    rw [List.flatMap_cons, List.flatMap_cons, List.flatMap_nil, List.append_nil]

/-- **Retiring is final**: where no newer window of an id arrives, what was retired stays retired. -/
theorem retired_stays {l : GrantQuotaWindow} (hcur : Current s) (hretired : Retired (allSnapshots states) l)
    (hnewer : ∀ b ∈ s.observed, b.id = l.id → b.instant < l.instant)
    {x : GrantQuotaWindow} (hid : x.id = l.id) (hle : x.instant ≤ l.instant) :
    Retired (allSnapshots states ++ s.windowSnapshots) x := by
  obtain ⟨scope, sn, hnewest, hretires⟩ := hretired
  obtain ⟨happlies, htime, hunlisted⟩ := retires_iff.mp hretires
  have hscope : sn.1 = scope := (newest_some _ _ hnewest).2.1
  have hlater := newestSnapshot_append (allSnapshots states) s.windowSnapshots scope
  rw [hnewest] at hlater
  cases hs : newestSnapshot s.windowSnapshots scope with
  | none =>
    rw [hs, later_none_right] at hlater
    exact ⟨scope, sn, hlater, retires_iff.mpr
      ⟨by rw [hid]; exact happlies, le_trans hle htime, by rw [hid]; exact hunlisted⟩⟩
  | some sn' =>
    obtain ⟨hmem, hscope', -⟩ := newest_some _ _ hs
    rw [hs, later_some] at hlater
    split at hlater
    · rename_i htimes
      -- the new snapshot of the scope is in force; it would list the id only with a newer window
      refine ⟨scope, sn', hlater, retires_iff.mpr ⟨?_, ?_, fun hlists => ?_⟩⟩
      · rw [hid, hscope', ← hscope]
        exact happlies
      · exact le_trans hle (le_trans htime htimes)
      · obtain ⟨b, hb, hbid, hbtime⟩ := hcur sn' hmem x.id hlists
        have hlt := hnewer b hb (hbid.trans hid)
        exact absurd (le_trans htime (le_trans htimes hbtime)) (not_le.mpr hlt)
    · exact ⟨scope, sn, hlater, retires_iff.mpr
        ⟨by rw [hid]; exact happlies, le_trans hle htime, by rw [hid]; exact hunlisted⟩⟩

open Classical in
theorem merged_step (h : Merged states r) (hcur : Current s) :
    Merged (states ++ [s]) (mergedState r s nowMs) := by
  have hsnapshots : ∀ scope, newestSnapshot (r.windowSnapshots ++ s.windowSnapshots) scope =
      newestSnapshot (allSnapshots states ++ s.windowSnapshots) scope := by
    intro scope
    rw [newestSnapshot_append, newestSnapshot_append, h.snapshots]
  refine ⟨mergedState_observed.trans mergedState_windows.symm, mergedState_nodup, fun id =>
    ?_, fun scope => ?_⟩
  · rw [mergedState_newest]
    have hfilter : (fun w => decide (¬ Retired (r.windowSnapshots ++ s.windowSnapshots) w)) =
        fun w => decide (¬ Retired (allSnapshots states ++ s.windowSnapshots) w) :=
      funext fun w => decide_eq_decide.mpr (not_congr (retired_congr hsnapshots))
    have hleft : newestWindow (r.observed ++ s.observed) id =
        later (·.instant) (standingWindow states id) (newestWindow s.observed id) := by
      rw [← h.windows id]
      exact newest_append _ _ _ _ _
    have hright : newestWindow (allWindows (states ++ [s])) id =
        later (·.instant) (newestWindow (allWindows states) id) (newestWindow s.observed id) := by
      rw [allWindows_append, allWindows_single]
      exact newest_append _ _ _ _ _
    rw [hfilter, hleft]
    unfold standingWindow
    rw [hright, allSnapshots_append, allSnapshots_single]
    cases hl : newestWindow (allWindows states) id with
    | none => rfl
    | some l =>
      have hid : l.id = id := (newest_some _ _ hl).2.1
      by_cases hret : Retired (allSnapshots states) l
      · -- what arrives is either newer than the retired window, or retired with it
        rw [filter_retired hret, later_none_left]
        cases hb : newestWindow s.observed id with
        | none =>
          have hnone := newest_eq_none _ _ hb
          have hstays := retired_stays hcur hret
            (fun b hmem e => absurd (e.trans hid) (hnone b hmem)) rfl (le_refl l.instant)
          rw [later_none_right, filter_retired hstays]
          rfl
        | some b =>
          obtain ⟨-, hbid, hbmax⟩ := newest_some _ _ hb
          rw [later_some]
          split
          · rfl
          · rename_i hlt
            have hnewer : ∀ b' ∈ s.observed, b'.id = l.id → b'.instant < l.instant :=
              fun b' hmem e => lt_of_le_of_lt (hbmax b' hmem (e.trans hid)) (not_le.mp hlt)
            rw [filter_retired (retired_stays hcur hret hnewer rfl (le_refl l.instant)),
              filter_retired (retired_stays hcur hret hnewer (hbid.trans hid.symm) (le_of_lt (not_le.mp hlt)))]
      · rw [filter_standing hret]
  · rw [mergedState_snapshots, hsnapshots, allSnapshots_append, allSnapshots_single]

theorem merged_of_arrivals {a b : GrantRuntimeState × Int}
    {rest : List (GrantRuntimeState × Int)} {revision : Option GrantRevision}
    (hrev : ∀ x ∈ a :: b :: rest, x.1.grantRevision = revision) (hcur : ∀ x ∈ rest, Current x.1)
    (h : mergeAll (a :: b :: rest) = .ok (some r)) : Merged ((a :: b :: rest).map (·.1)) r := by
  have ha := hrev a List.mem_cons_self
  have hb := hrev b (List.mem_cons_of_mem _ List.mem_cons_self)
  have hstep : ∀ seen r (x : GrantRuntimeState × Int), Merged seen r → Current x.1 →
      Merged (seen ++ [x.1]) (mergedState r x.1 x.2) :=
    fun seen r x hP hx => merged_step hP hx
  have hall : ∀ x ∈ rest, Current x.1 ∧ x.1.grantRevision = revision := fun x hx =>
    ⟨hcur x hx, hrev x (List.mem_cons_of_mem _ (List.mem_cons_of_mem _ hx))⟩
  obtain ⟨out, e, hout⟩ := mergeAll_run hstep rest [a.1, b.1] _ (some r)
    (merged_two a.1 b.1) ((mergedState_revision (ha.trans hb.symm)).trans hb) hall
    (mergeAll_two (ha.trans hb.symm) h)
  cases e
  exact hout

end Arrivals

/-! ## 4. The result in every order -/

/-- Every snapshot lists exactly the ids of the state's own windows in its scope. -/
def Exact (state : GrantRuntimeState) : Prop :=
  ∀ s ∈ state.windowSnapshots, ∀ id, id ∈ s.2.ids ↔
    snapshotApplies s.1 id = true ∧ ∃ window ∈ state.windows, window.id = id

/-- Where an exact snapshot lists no window observed before it. -/
theorem Exact.current {state : GrantRuntimeState} (h : Exact state) (hlisted : ∀ s ∈ state.windowSnapshots,
    ∀ window ∈ state.observed, window.id ∈ s.2.ids → s.2.observedAt ≤ window.instant) : Current state := by
  intro s hs id hid
  obtain ⟨-, window, hwindow, rfl⟩ := (h s hs id).mp hid
  have hmem : window.dated state.observedAt ∈ state.observed := List.mem_map_of_mem hwindow
  exact ⟨_, hmem, rfl, hlisted s hs _ hmem hid⟩

/-- No two windows of an id, and no two snapshots of a scope, are of one time. -/
structure DistinctTimes (states : List GrantRuntimeState) : Prop where
  windows : Distinct (·.id) (·.instant) (allWindows states)
  snapshots : Distinct (·.1) (·.2.observedAt) (allSnapshots states)

theorem DistinctTimes.perm {states states' : List GrantRuntimeState} (h : DistinctTimes states)
    (hperm : states.Perm states') : DistinctTimes states' := by
  have hwindows : ∀ w, w ∈ allWindows states' ↔ w ∈ allWindows states := fun w =>
    (hperm.flatMap_right _).mem_iff.symm
  have hsnapshots : ∀ s, s ∈ allSnapshots states' ↔ s ∈ allSnapshots states := fun s =>
    (hperm.flatMap_right _).mem_iff.symm
  exact ⟨fun w hw w' hw' => h.windows w ((hwindows w).mp hw) w' ((hwindows w').mp hw'),
    fun s hs s' hs' => h.snapshots s ((hsnapshots s).mp hs) s' ((hsnapshots s').mp hs')⟩

/-- **The windows of a result**: one an id, the latest that was observed, and no newest snapshot leaves
    it out; and every such window is there. -/
structure Standing (states : List GrantRuntimeState) (r : GrantRuntimeState) : Prop where
  once : (r.windows.map (·.id)).Nodup
  latest : ∀ window ∈ r.windows, window ∈ allWindows states ∧
    ∀ other ∈ allWindows states, other.id = window.id → other.instant ≤ window.instant
  listed : ∀ window ∈ r.windows, ∀ scope s,
    newestSnapshot (allSnapshots states) scope = some s → snapshotApplies scope window.id = true →
      window.instant ≤ s.2.observedAt → window.id ∈ s.2.ids
  kept : ∀ window, newestWindow (allWindows states) window.id = some window →
    ¬ Retired (allSnapshots states) window → window ∈ r.windows

section Order

variable {states states' : List GrantRuntimeState} {r r' state : GrantRuntimeState}

theorem Merged.mem_iff (h : Merged states r) (window : GrantQuotaWindow) :
    window ∈ r.windows ↔ standingWindow states window.id = some window := by
  rw [← h.windows, h.dated, newestWindow, newest_of_nodup h.once]
  constructor
  · intro hmem
    cases hfind : r.windows.find? fun w => w.id = window.id with
    | none =>
      have hne : window.id ≠ window.id := by
        simpa using List.find?_eq_none.mp hfind window hmem
      exact absurd rfl hne
    | some w =>
      have hw : w.id = window.id := by simpa using List.find?_some hfind
      rw [List.inj_on_of_nodup_map h.once (List.mem_of_find?_eq_some hfind) hmem hw]
  · exact fun hfind => List.mem_of_find?_eq_some hfind

open Classical in
theorem standingWindow_some {id : String} {window : GrantQuotaWindow} :
    standingWindow states id = some window ↔
      newestWindow (allWindows states) id = some window ∧ ¬ Retired (allSnapshots states) window := by
  unfold standingWindow
  rw [Option.filter_eq_some_iff, decide_eq_true_eq]

theorem Merged.standing (h : Merged states r) : Standing states r := by
  refine ⟨h.once, fun window hw => ?_, fun window hw scope s hs happlies htime => ?_,
    fun window hnewest hstands => (h.mem_iff window).mpr (standingWindow_some.mpr ⟨hnewest, hstands⟩)⟩
  · obtain ⟨hnewest, -⟩ := standingWindow_some.mp ((h.mem_iff window).mp hw)
    obtain ⟨hmem, -, hmax⟩ := newest_some _ _ hnewest
    exact ⟨hmem, hmax⟩
  · obtain ⟨-, hstands⟩ := standingWindow_some.mp ((h.mem_iff window).mp hw)
    by_contra hunlisted
    have hscope : s.1 = scope := (newest_some _ _ hs).2.1
    exact hstands ⟨scope, s, hs, retires_iff.mpr ⟨by rw [hscope]; exact happlies, htime, hunlisted⟩⟩

open Classical in
theorem standingWindow_perm (h : states.Perm states') (hdistinct : DistinctTimes states)
    (id : String) : standingWindow states id = standingWindow states' id := by
  have hwindows : newestWindow (allWindows states) id = newestWindow (allWindows states') id :=
    newest_perm _ _ (h.flatMap_right _) hdistinct.windows id
  have hsnapshots : ∀ scope, newestSnapshot (allSnapshots states) scope = newestSnapshot
    (allSnapshots states') scope :=
    fun scope => newest_perm _ _ (h.flatMap_right _) hdistinct.snapshots scope
  unfold standingWindow
  rw [hwindows]
  refine congrArg (fun p => Option.filter p _) (funext fun w => ?_)
  exact decide_eq_decide.mpr (not_congr (retired_congr hsnapshots))

end Order

theorem merged_of_two {arrivals : List (GrantRuntimeState × Int)} {r : GrantRuntimeState}
    {revision : Option GrantRevision} (htwo : 2 ≤ arrivals.length)
    (hrev : ∀ a ∈ arrivals, a.1.grantRevision = revision) (hcur : ∀ a ∈ arrivals, Current a.1)
    (h : mergeAll arrivals = .ok (some r)) : Merged (arrivals.map (·.1)) r := by
  match arrivals, htwo with
  | a :: b :: rest, _ =>
    exact merged_of_arrivals hrev (fun x hx => hcur x (List.mem_cons_of_mem _ (List.mem_cons_of_mem _ hx))) h

theorem same_windows {arrivals arrivals' : List (GrantRuntimeState × Int)} {r r' : GrantRuntimeState}
    {revision : Option GrantRevision} (htwo : 2 ≤ arrivals.length)
    (hrev : ∀ a ∈ arrivals, a.1.grantRevision = revision) (hcur : ∀ a ∈ arrivals, Current a.1)
    (hperm : (arrivals'.map (·.1)).Perm (arrivals.map (·.1)))
    (h : mergeAll arrivals = .ok (some r)) (h' : mergeAll arrivals' = .ok (some r'))
    (hdistinct : DistinctTimes (arrivals.map (·.1))) (window : GrantQuotaWindow) :
    window ∈ r'.windows ↔ window ∈ r.windows := by
  have hlength : arrivals'.length = arrivals.length := by
    rw [← List.length_map (·.1), hperm.length_eq, List.length_map]
  have hmem' : ∀ a ∈ arrivals', ∃ a₀ ∈ arrivals, a₀.1 = a.1 := fun a ha =>
    List.mem_map.mp (hperm.mem_iff.mp (List.mem_map_of_mem ha))
  have hmerged := merged_of_two htwo hrev hcur h
  have hmerged' := merged_of_two (hlength ▸ htwo)
    (fun a ha => by obtain ⟨a₀, h₀, e⟩ := hmem' a ha; rw [← e]; exact hrev a₀ h₀)
    (fun a ha => by obtain ⟨a₀, h₀, e⟩ := hmem' a ha; rw [← e]; exact hcur a₀ h₀) h'
  rw [hmerged.mem_iff, hmerged'.mem_iff, standingWindow_perm hperm.symm hdistinct]

/-- **A retired window does not come back.** Two observations or more of one revision, none of whose
    snapshots lists a window observed before it, leave the latest window of each id but for those that
    a newest snapshot retires; and with pairwise distinct times they leave the same in every order. -/
theorem windows_in_any_order {arrivals : List (GrantRuntimeState × Int)} {r : GrantRuntimeState}
    {revision : Option GrantRevision} (hrev : ∀ a ∈ arrivals, a.1.grantRevision = revision)
    (hcur : ∀ a ∈ arrivals, Current a.1) (h : mergeAll arrivals = .ok (some r)) :
    (2 ≤ arrivals.length → Standing (arrivals.map (·.1)) r) ∧
      (arrivals.length = 1 → arrivals.map (·.1) = [r]) ∧
    ∀ (arrivals' : List (GrantRuntimeState × Int)) (r' : GrantRuntimeState),
      (arrivals'.map (·.1)).Perm (arrivals.map (·.1)) → mergeAll arrivals' = .ok (some r') →
      DistinctTimes (arrivals.map (·.1)) → ∀ window, window ∈ r'.windows ↔ window ∈ r.windows := by
  refine ⟨fun htwo => (merged_of_two htwo hrev hcur h).standing, fun hone => ?_, ?_⟩
  · obtain ⟨a, rfl⟩ := List.length_eq_one_iff.mp hone
    cases h
    rfl
  · intro arrivals' r' hperm h' hdistinct window
    rcases Nat.lt_or_ge arrivals.length 2 with hlt | htwo
    · -- a single observation is taken as it is
      rcases Nat.lt_or_ge arrivals.length 1 with hzero | hone
      · rw [List.length_eq_zero_iff.mp (Nat.lt_one_iff.mp hzero)] at h
        cases h
      · have e1 : arrivals.length = 1 := Nat.le_antisymm (Nat.le_of_lt_succ hlt) hone
        have e1' : arrivals'.length = 1 := by
          rw [← e1, ← List.length_map (·.1), hperm.length_eq, List.length_map]
        obtain ⟨a, rfl⟩ := List.length_eq_one_iff.mp e1
        obtain ⟨a', rfl⟩ := List.length_eq_one_iff.mp e1'
        cases h
        cases h'
        have e : a'.1 = a.1 := List.singleton_perm_singleton.mp hperm
        rw [e]
    · exact same_windows htwo hrev hcur hperm h h' hdistinct window

/-! ## 5. Windows that a newer snapshot lists -/

/-- The window `five-hour`, observed at the given time. -/
def fiveHour (observedAt : Int) : GrantQuotaWindow :=
  ⟨some observedAt, none, "five-hour", .subscription, none, none, some 0, some 100, none⟩

/-- A state with the given windows, and a snapshot of `five-hour` if it lists ids. -/
def observation (observedAt : Int) (windows : List GrantQuotaWindow) (ids : Option (List String)) :
    GrantRuntimeState where
  status := .available
  observedAt := observedAt
  source := .providerProbe
  cooldownUntil := none
  lastSignal := .quota
  grantRevision := none
  windows := windows
  windowSnapshots := match ids with
    | some ids => [("five-hour", ⟨observedAt, ids⟩)]
    | none => []
  account := none
  extraUsage := none

theorem observation_exact {observedAt : Int} {windows : List GrantQuotaWindow} {ids : Option (List String)}
    (h : ∀ l, ids = some l → ∀ id, id ∈ l ↔ id = "five-hour" ∧ ∃ w ∈ windows, w.id = id) :
    Exact (observation observedAt windows ids) := by
  intro s hs id
  cases ids with
  | none => cases hs
  | some l =>
    obtain rfl := List.mem_singleton.mp hs
    have happlies : snapshotApplies "five-hour" id = true ↔ id = "five-hour" := by
      have hstar : ¬ "five-hour".toList.getLast? = some '*' := by decide
      unfold snapshotApplies
      rw [if_neg hstar, beq_iff_eq]
    rw [happlies]
    exact h l rfl id

theorem windows_in_any_order_late : ∃ r r', mergeAll
      [(observation 3 [] (some []), 0), (observation 2 [fiveHour 2] none, 0)] = .ok (some r) ∧
    mergeAll [(observation 2 [fiveHour 2] none, 0), (observation 3 [] (some []), 0)] =
      .ok (some r') ∧ r.windows = [] ∧ ∀ window, window ∈ r'.windows ↔ window ∈ r.windows := by
  have h : mergeAll [(observation 3 [] (some []), 0), (observation 2 [fiveHour 2] none, 0)] =
      .ok (some (mergedState (observation 3 [] (some [])) (observation 2 [fiveHour 2] none) 0)) := rfl
  have h' : mergeAll [(observation 2 [fiveHour 2] none, 0), (observation 3 [] (some []), 0)] =
      .ok (some (mergedState (observation 2 [fiveHour 2] none) (observation 3 [] (some [])) 0)) := rfl
  have hcur : ∀ a ∈ [(observation 3 [] (some []), (0 : Int)), (observation 2 [fiveHour 2] none, 0)],
    Current a.1 := by
    intro a ha s hs id hid
    rcases List.mem_cons.mp ha with rfl | ha
    · obtain rfl := List.mem_singleton.mp hs
      cases hid
    · obtain rfl := List.mem_singleton.mp ha
      cases hs
  obtain ⟨-, -, horder⟩ := windows_in_any_order (fun a ha => by
    rcases List.mem_cons.mp ha with rfl | ha
    · exact (rfl : _ = none)
    · obtain rfl := List.mem_singleton.mp ha
      rfl) hcur h
  have hdistinct : DistinctTimes [observation 3 [] (some []), observation 2 [fiveHour 2] none] := by
    refine ⟨fun w hw w' hw' _ _ => ?_, fun s hs s' hs' _ _ => ?_⟩
    · exact (List.mem_singleton.mp hw).trans (List.mem_singleton.mp hw').symm
    · exact (List.mem_singleton.mp hs).trans (List.mem_singleton.mp hs').symm
  refine ⟨_, _, h, h', rfl, horder
    [(observation 2 [fiveHour 2] none, 0), (observation 3 [] (some []), 0)] _ ?_ h' hdistinct⟩
  exact List.Perm.swap _ _ _

/-- A snapshot at 4 that lists `five-hour` with a window of time 1 brings the id back although it was
    observed at 2 and retired at 3; had the snapshot of 3 come last, the window of 2 would be there. -/
theorem older_listed_window : ¬ ∀ (arrivals : List (GrantRuntimeState × Int)) (r : GrantRuntimeState),
      (∀ a ∈ arrivals, a.1.grantRevision = none) → (∀ a ∈ arrivals, Exact a.1) →
      mergeAll arrivals = .ok (some r) → ∀ window ∈ r.windows,
        ∀ other ∈ allWindows (arrivals.map (·.1)), other.id = window.id → other.instant ≤ window.instant := by
  intro h
  let v := observation 2 [fiveHour 2] none
  let s := observation 3 [] (some [])
  let t := observation 4 [fiveHour 1] (some ["five-hour"])
  have hmerge : mergeAll [(v, 0), (s, 0), (t, 0)] = .ok (some (mergedState (mergedState v s 0) t 0)) := rfl
  have hmem : fiveHour 1 ∈ (mergedState (mergedState v s 0) t 0).windows := by decide
  refine absurd (h _ _ ?_ ?_ hmerge _ hmem (fiveHour 2) (by decide) rfl) (by decide)
  · intro a ha
    have hcases : a = (v, 0) ∨ a = (s, 0) ∨ a = (t, 0) := by simpa using ha
    rcases hcases with rfl | rfl | rfl
    · rfl
    · rfl
    · rfl
  · intro a ha
    have hcases : a = (v, 0) ∨ a = (s, 0) ∨ a = (t, 0) := by simpa using ha
    rcases hcases with rfl | rfl | rfl
    · exact observation_exact fun l hl => by cases hl
    · exact observation_exact fun l hl id => by cases hl; simp
    · refine observation_exact fun l hl id => ?_
      cases hl
      simp only [List.mem_singleton]
      constructor
      · rintro rfl
        exact ⟨rfl, _, rfl, rfl⟩
      · exact fun hid => hid.1

end ClawRouter.Runtime
