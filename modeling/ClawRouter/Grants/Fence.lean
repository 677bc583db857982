/-
  Subject:   What the versions of the grant pools keep out.

  Calls of the owners arrive late, twice and in any order. The generation of a key never goes
  back, its revision moves with each change of its rows, and a row becomes active only by the
  publication that claims the latest admission of its key.

  * **`attachment_fence`**: the fence, in every run of the three calls.
-/
import ClawRouter.Grants.Attachment

namespace ClawRouter.Grants

open Fallible Keyed Trace

/-! ## 1. Keys -/

def GrantIdentity.path (i : GrantIdentity) : List String :=
  match i.scope with
  | .tenants => ["oauth", "tenants", i.scopeId, i.tokenRef]
  | .policies => ["oauth", i.scopeId, i.tokenRef]

theorem segments_inj {a b : String} (h : segments a = segments b) : a = b := by
  have hlists := List.map_injective_iff.mpr (fun _ _ e => String.ofList_injective e) h
  have e := congrArg (['/'].intercalate ·) hlists
  rw [List.intercalate_splitOn, List.intercalate_splitOn] at e
  exact String.toList_injective e

variable {key : String}

theorem grantKey_ok {value : String} (h : grantKey value = .ok key) :
    key = value ∧ ∃ rest, segments value = "oauth" :: rest := by
  unfold grantKey at h
  simp only [bind_ok, require_ok, pure_ok] at h
  obtain ⟨_, hc, rfl⟩ := h
  refine ⟨rfl, ?_⟩
  obtain ⟨rest, hrest⟩ := List.isPrefixOf_iff_prefix.mp
    (Bool.and_eq_true_iff.mp (Bool.and_eq_true_iff.mp hc).1).1
  unfold segments
  rw [← hrest, show "oauth/".toList = "oauth".toList ++ ['/'] from by decide, List.append_assoc,
    List.singleton_append, List.splitOn_append_cons_self_of_not_mem (by decide), List.map_cons,
    String.ofList_toList]
  exact ⟨_, rfl⟩

theorem grantSegment_ok {value field part : String} (h : grantSegment value field = .ok part) :
    part = value := by
  unfold grantSegment at h
  simp only [bind_ok, pure_ok] at h
  obtain ⟨_, -, rfl⟩ := h
  rfl

variable {i : GrantIdentity}

theorem identity_path (h : grantPoolIdentity key = .ok i) : segments key = i.path := by
  unfold grantPoolIdentity at h
  rw [bind_ok] at h
  obtain ⟨value, hvalue, h⟩ := h
  obtain ⟨rfl, rest, hrest⟩ := grantKey_ok hvalue
  split at h
  · rename_i first scopeId tokenRef hsegments
    simp only [bind_ok, pure_ok] at h
    obtain ⟨a, ha, b, hb, rfl⟩ := h
    cases grantSegment_ok ha
    cases grantSegment_ok hb
    rw [hsegments] at hrest
    cases hrest
    exact hsegments
  · rename_i first scopeId tokenRef hsegments
    simp only [bind_ok, pure_ok] at h
    obtain ⟨_, -, a, ha, b, hb, rfl⟩ := h
    cases grantSegment_ok ha
    cases grantSegment_ok hb
    rw [hsegments] at hrest
    cases hrest
    exact hsegments
  · cases h

theorem grantPoolIdentity_inj {key' : String}
    (h : grantPoolIdentity key = .ok i) (h' : grantPoolIdentity key' = .ok i) : key = key' :=
  segments_inj ((identity_path h).trans (identity_path h').symm)

/-! ## 2. The parts of the steps -/

variable {provider : Option String}

section Parts

variable {s s' : GrantPools} {i j : GrantIdentity} {p key : String}

theorem attachmentMember_key {m : Member} (h : s.attachmentMember i p = some m) :
    m.identity = i ∧ m.providerId = p := by
  have e := (Table.find?_eq_some.mp h).2
  exact ⟨congrArg Prod.fst e, congrArg Prod.snd e⟩

theorem anyMember_iff {q : Member → Bool} :
    s.anyMember i q = true ↔ ∃ p m, s.attachmentMember i p = some m ∧ q m = true := by
  unfold GrantPools.anyMember
  rw [List.any_eq_true]
  constructor
  · rintro ⟨m, hm, hq⟩
    obtain ⟨hi, hq'⟩ := Bool.and_eq_true_iff.mp hq
    cases (of_decide_eq_true hi : m.identity = i)
    exact ⟨m.providerId, m, Table.find?_eq_some.mpr ⟨hm, rfl⟩, hq'⟩
  · rintro ⟨p, m, hm, hq⟩
    obtain ⟨hmem, -⟩ := Table.find?_eq_some.mp hm
    refine ⟨m, hmem, Bool.and_eq_true_iff.mpr ⟨decide_eq_true (attachmentMember_key hm).1, hq⟩⟩

/-- No row of an identity is waiting for a publication. -/
def Quiet (s : GrantPools) (i : GrantIdentity) : Prop :=
  ∀ p m, s.attachmentMember i p = some m → m.status.isPending = false

theorem quiet_iff : s.anyMember i (fun m => m.status.isPending) = false ↔ Quiet s i := by
  rw [← Bool.not_eq_true, anyMember_iff]
  constructor
  · intro h p m hm
    by_contra hp
    exact h ⟨p, m, hm, Bool.not_eq_false _ ▸ hp⟩
  · rintro h ⟨p, m, hm, hp⟩
    rw [h p m hm] at hp
    cases hp

theorem storeAttachmentVersion_generation {g r : Int} {k : String} :
    (s.storeAttachmentVersion key g r).generation k = if key = k then g else s.generation k := by
  unfold GrantPools.generation GrantPools.storeAttachmentVersion
  rw [Table.find?_upsert]
  split
  · rfl
  · rfl

theorem storeAttachmentVersion_revision {g r : Int} {k : String} :
    (s.storeAttachmentVersion key g r).revision k = if key = k then r else s.revision k := by
  unfold GrantPools.revision GrantPools.storeAttachmentVersion
  rw [Table.find?_upsert]
  split
  · rfl
  · rfl

/-- A pending row remembers a state without a place in the pool, or none. -/
def Restorable (s : GrantPools) : Prop :=
  ∀ i p m st, s.attachmentMember i p = some m → m.pendingPreviousStatus = some st →
    st = .paused ∨ st = .reauthRequired

/-- A row after the places nobody claimed are given back. -/
def Member.restored (m : Member) : Option Member :=
  if m.status.isPending then
    m.pendingPreviousStatus.map fun st => { m with status := st, pendingPreviousStatus := none }
  else some m

theorem restore_member (h : Restorable s) : (s.restorePendingAttachment i).attachmentMember j p =
      if j = i then (s.attachmentMember j p).bind Member.restored else s.attachmentMember j p := by
  show ((s.members.update _ _ _).delete _).find? (j, p) = _
  rw [Table.find?_delete, Table.find?_update]
  cases hm : s.attachmentMember j p with
  | none =>
    rw [show s.members.find? (j, p) = none from hm]
    split
    · rfl
    · rfl
  | some m =>
    rw [show s.members.find? (j, p) = some m from hm]
    obtain ⟨hi, -⟩ := attachmentMember_key hm
    by_cases e : j = i
    · rw [if_pos e]
      unfold Member.restored
      cases hpending : m.status.isPending with
      | false => simp [hpending]
      | true =>
        cases hprevious : m.pendingPreviousStatus with
        | none => simp [hpending, hprevious, hi, e]
        | some st =>
          have hst : st.isPending = false := by
            rcases h j p m st hm hprevious with rfl | rfl
            · rfl
            · rfl
          simp [Member.takeBack, hpending, hprevious, hi, e, hst]
    · rw [if_neg e]
      simp [hi, e]

theorem restored_status {m m' : Member} (h : m.restored = some m')
    (hr : ∀ st, m.pendingPreviousStatus = some st → st = .paused ∨ st = .reauthRequired) :
    m'.status.isPending = false ∧ (m' = m ∨ m'.status = .paused ∨ m'.status = .reauthRequired) := by
  unfold Member.restored at h
  split at h
  · obtain ⟨st, hst, rfl⟩ := Option.map_eq_some_iff.mp h
    rcases hr st hst with rfl | rfl
    · exact ⟨rfl, .inr (.inl rfl)⟩
    · exact ⟨rfl, .inr (.inr rfl)⟩
  · rename_i hpending
    cases h
    exact ⟨Bool.not_eq_true _ ▸ hpending, .inl rfl⟩

theorem restore_quiet (h : Restorable s) : Quiet (s.restorePendingAttachment i) i := by
  intro p m hm
  rw [restore_member h, if_pos rfl] at hm
  obtain ⟨m₀, hm₀, hm⟩ := Option.bind_eq_some_iff.mp hm
  exact (restored_status hm (h i p m₀ · hm₀)).1

theorem publishMembers_member {status : Option GrantAttachmentStatus} :
    (s.publishMembers i provider status).attachmentMember j p = if j = i then
        match status, provider.bind (s.attachmentMember i) with
        | none, _ => none
        | some status, some member =>
          if p = member.providerId then (s.attachmentMember i p).map (Member.publish · status)
          else none
        | some _, none => (s.attachmentMember i p).filter fun m => !m.status.isPending
      else s.attachmentMember j p := by
  have hkey : ∀ {m : Member}, s.members.find? (j, p) = some m → m.identity = j ∧ m.providerId = p :=
    fun h => attachmentMember_key h
  unfold GrantPools.publishMembers
  cases status with
  | none =>
    show (s.members.delete _).find? (j, p) = _
    rw [Table.find?_delete]
    show _ = if j = i then none else s.members.find? (j, p)
    cases hm : s.members.find? (j, p) with
    | none => simp
    | some m => by_cases e : j = i <;> simp [(hkey hm).1, e]
  | some status =>
    cases hmember : provider.bind (s.attachmentMember i) with
    | none =>
      show (s.members.delete _).find? (j, p) = _
      rw [Table.find?_delete]
      show _ = if j = i then (s.members.find? (i, p)).filter _ else s.members.find? (j, p)
      by_cases e : j = i
      · subst e
        rw [if_pos rfl]
        cases hm : s.members.find? (j, p) with
        | none => rfl
        | some m =>
          have hi : m.identity = j := (hkey hm).1
          cases hp : m.status.isPending with
          | true | false => simp [Option.filter, hi, hp]
      · rw [if_neg e]
        cases hm : s.members.find? (j, p) with
        | none => rfl
        | some m => simp [(hkey hm).1, e]
    | some member =>
      show ((s.members.update _ _ _).delete _).find? (j, p) = _
      rw [Table.find?_delete, Table.find?_update]
      show _ = if j = i then
        (if p = member.providerId then (s.members.find? (i, p)).map _ else none)
        else s.members.find? (j, p)
      by_cases e : j = i
      · subst e
        rw [if_pos rfl]
        cases hm : s.members.find? (j, p) with
        | none => simp
        | some m =>
          by_cases ep : p = member.providerId
          · simp [(hkey hm).1, (hkey hm).2, ep, Member.publish]
          · simp [(hkey hm).1, (hkey hm).2, ep]
      · rw [if_neg e]
        cases hm : s.members.find? (j, p) with
        | none => rfl
        | some m => simp [(hkey hm).1, e]

theorem optional_ok {α β : Type} {check : α → Answer β} {value : Option α} {b : Option β}
    (h : optional check value = .ok b) :
    (value = none ∧ b = none) ∨ ∃ a c, value = some a ∧ b = some c ∧ check a = .ok c := by
  cases value with
  | none =>
    cases h
    exact .inl ⟨rfl, rfl⟩
  | some a =>
    unfold optional at h
    simp only [bind_ok, pure_ok] at h
    obtain ⟨c, hc, rfl⟩ := h
    exact .inr ⟨a, c, rfl, rfl, hc⟩

theorem attachmentMutation_ok {input : GrantAttachmentMutation} {m : Mutation}
    (h : s.attachmentMutation input = .ok m) :
    grantPoolIdentity input.key = .ok m.identity ∧ input.generation = some m.generation ∧
      m.current = s.snapshot input.key m.identity ∧ s.generation input.key ≤ m.generation ∧
      input.admissionRevision = m.admissionRevision.map some ∧ input.provider = m.provider ∧
      parseStatus input.status = .ok m.status := by
  have hbounded : ∀ {value : Option Int} {field : String} {lo hi n : Int},
      boundedInteger value field lo hi = .ok n → value = some n := by
    intro value field lo hi n hn
    unfold boundedInteger at hn
    simp only [bind_ok, demand_ok, pure_ok] at hn
    obtain ⟨_, rfl, _, -, rfl⟩ := hn
    rfl
  unfold GrantPools.attachmentMutation at h
  simp only [bind_ok, require_ok, pure_ok] at h
  obtain ⟨identity, hidentity, g, hg, r, -, a, ha, provider, hprovider, status, hstatus, _, hfence, rfl⟩ := h
  have hle := of_decide_eq_true (Bool.and_eq_true_iff.mp hfence).2
  refine ⟨hidentity, hbounded hg, rfl, hle, ?_, ?_, hstatus⟩
  · rcases optional_ok ha with ⟨e, rfl⟩ | ⟨sent, n, e, rfl, hn⟩
    · exact e
    · rw [e, hbounded hn]
      rfl
  · rcases optional_ok hprovider with ⟨e, rfl⟩ | ⟨sent, n, e, rfl, hn⟩
    · exact e
    · rw [e, grantSegment_ok hn]

/-! ### Places -/

variable {scope : PoolScope} {scopeId provider : String}

theorem occupied_restore (h : Restorable s) : (s.restorePendingAttachment i).occupied scope scopeId provider ≤
      s.occupied scope scopeId provider := by
  refine le_trans (Table.sumOn_delete_le fun _ _ => by decide) ?_
  rw [Table.sumOn_update]
  refine Table.sumOn_mono (fun _ _ => by decide) fun m hm hq => ?_
  split at hq
  · rename_i hp
    obtain ⟨st, hst⟩ := Option.isSome_iff_exists.mp (Bool.and_eq_true_iff.mp hp).2
    have hmember : s.attachmentMember m.identity m.providerId = some m := Table.find?_eq_some.mpr ⟨hm, rfl⟩
    have hoccupies : m.takeBack.status.occupies = true := (Bool.and_eq_true_iff.mp hq).2
    unfold Member.takeBack at hoccupies
    rw [hst] at hoccupies
    rcases h _ _ m st hmember hst with rfl | rfl
    · cases hoccupies
    · cases hoccupies
  · exact hq

theorem occupied_publishMembers {own : Option String} {status : Option GrantAttachmentStatus}
    (h : status = some .active → ∀ m, own.bind (s.attachmentMember i) = some m → m.status.occupies = true) :
    (s.publishMembers i own status).occupied scope scopeId provider ≤ s.occupied scope scopeId provider := by
  unfold GrantPools.occupied GrantPools.publishMembers
  cases status with
  | none => exact Table.sumOn_delete_le fun _ _ => by decide
  | some status =>
    cases hown : own.bind (s.attachmentMember i) with
    | none => exact Table.sumOn_delete_le fun _ _ => by decide
    | some member =>
      refine le_trans (Table.sumOn_delete_le fun _ _ => by decide) ?_
      rw [Table.sumOn_update]
      refine Table.sumOn_mono (fun _ _ => by decide) fun m hm hq => ?_
      split at hq
      · rename_i hp
        obtain ⟨hi, hprovider⟩ := Bool.and_eq_true_iff.mp hp
        obtain ⟨hpool, hoccupies⟩ := Bool.and_eq_true_iff.mp hq
        refine Bool.and_eq_true_iff.mpr ⟨hpool, ?_⟩
        -- the row that is published is the one of the provider
        obtain ⟨name, -, hmember⟩ := Option.bind_eq_some_iff.mp hown
        have hmem := (Table.find?_eq_some.mp hmember).1
        have e : m = member := Table.eq_of_key hm hmem (Prod.ext
          ((of_decide_eq_true hi).trans (attachmentMember_key hmember).1.symm)
          (of_decide_eq_true hprovider))
        cases status with
        | active =>
          rw [e]
          exact h rfl member hown
        | paused | reauthRequired => cases hoccupies
      · exact hq

theorem occupied_upsert {row : Member} :
    GrantPools.occupied { s with members := s.members.upsert row } scope scopeId provider ≤
      (if row.identity.scope = scope ∧ row.identity.scopeId = scopeId ∧ row.providerId = provider ∧
        row.status.occupies = true then 1 else 0) + s.occupied scope scopeId provider := by
  unfold GrantPools.occupied
  rw [Table.sumOn_upsert]
  refine add_le_add (le_of_eq ?_) (Table.sumOn_mono (fun _ _ => by decide) fun m _ h => ?_)
  · simp [and_assoc]
  · exact (Bool.and_eq_true_iff.mp h).1

end Parts

/-! ## 3. The steps -/

/-- What a successful call leaves: it is about the rows of one key. -/
structure Call (s s' : GrantPools) (key : String) (i : GrantIdentity) : Prop where
  identity : grantPoolIdentity key = .ok i
  other : ∀ j p, j ≠ i → s'.attachmentMember j p = s.attachmentMember j p
  versions : ∀ k, k ≠ key → s'.generation k = s.generation k ∧ s'.revision k = s.revision k
  generation : s.generation key ≤ s'.generation key
  revision : (s'.members = s.members ∧ s'.revision key = s.revision key) ∨
    s'.revision key = s.revision key + 1
  restorable : Restorable s'
  capacity : (∀ scope scopeId provider, s.occupied scope scopeId provider ≤ 32) →
    ∀ scope scopeId provider, s'.occupied scope scopeId provider ≤ 32

variable {x : GrantPools}

section Steps

variable {s s' : GrantPools} {input : GrantAttachmentMutation} {key : String}

theorem storeAttachmentVersion_attachmentMember {g r : Int} {p : String} :
    (s.storeAttachmentVersion key g r).attachmentMember i p = s.attachmentMember i p := rfl

theorem reserveMember_ok {status : Option GrantAttachmentStatus}
    (h : s.reserveMember i provider status = .ok s') :
    s' = s ∨ ∃ row : Member, s' = { s with members := s.members.upsert row } ∧
      row.identity = i ∧ row.status.isPending = true ∧ row.pendingPreviousStatus =
        GrantPools.previousStatus (s.attachmentMember i row.providerId) ∧
      (∀ m, s.attachmentMember i row.providerId = some m → m.status.occupies = false) ∧
      (row.status.occupies = true → s.occupied i.scope i.scopeId row.providerId < 32) := by
  unfold GrantPools.reserveMember at h
  split at h
  · rename_i p status
    dsimp only at h
    split at h
    · rename_i hc
      simp only [bind_ok, require_ok, pure_ok] at h
      obtain ⟨_, hroom, rfl⟩ := h
      refine .inr ⟨_, rfl, rfl, ?_, rfl, fun m hm => ?_, fun hplace => ?_⟩
      · split
        · rfl
        · rfl
      · rcases Bool.or_eq_true_iff.mp hc with hnone | hoccupies
        · rw [hm] at hnone
          cases hnone
        · rw [hm] at hoccupies
          simpa using (Bool.and_eq_true_iff.mp hoccupies).2
      · rcases Bool.or_eq_true_iff.mp hroom with hstatus | hroom
        · rw [if_neg (of_decide_eq_true hstatus)] at hplace
          cases hplace
        · exact of_decide_eq_true hroom
    · cases h
      exact .inl rfl
  · cases h
    exact .inl rfl

theorem previousStatus_restorable {p : String} {st : MemberStatus} (h : Restorable s)
    (hoccupies : ∀ m, s.attachmentMember i p = some m → m.status.occupies = false)
    (hst : GrantPools.previousStatus (s.attachmentMember i p) = some st) :
    st = .paused ∨ st = .reauthRequired := by
  cases hm : s.attachmentMember i p with
  | none =>
    rw [hm] at hst
    cases hst
  | some m =>
    rw [hm] at hst
    unfold GrantPools.previousStatus at hst
    dsimp only at hst
    split at hst
    · exact h i p m st hm hst
    · rename_i hpending
      cases hst
      have ho := hoccupies m hm
      cases hs : m.status with
      | paused => exact .inl rfl
      | reauthRequired => exact .inr rfl
      | legacy | active | pending =>
        rw [hs] at ho
        cases ho
      | pendingInactive =>
        rw [hs] at hpending
        exact absurd rfl hpending

theorem pending_not_selectable {st : MemberStatus} (h : st.isPending = true) : st.selectable = false := by
  cases st with
  | pending => rfl
  | pendingInactive => rfl
  | legacy | active | paused | reauthRequired => cases h

theorem occupies_cases {st : MemberStatus} (h : st.occupies = true) :
    st.selectable = true ∨ st.isPending = true := by
  cases st with
  | legacy | active => exact .inl rfl
  | pending => exact .inr rfl
  | pendingInactive | paused | reauthRequired => cases h

theorem Call.of_store {g : Int} (hidentity : grantPoolIdentity key = .ok i) (hle : s.generation key ≤ g)
    (hversions : x.versions = s.versions) (hother : ∀ j p, j ≠ i →
      x.attachmentMember j p = s.attachmentMember j p)
    (hrestorable : Restorable x) (hcapacity :
    (∀ scope scopeId provider, s.occupied scope scopeId provider ≤ 32) →
      ∀ scope scopeId provider, x.occupied scope scopeId provider ≤ 32) :
    Call s (x.storeAttachmentVersion key g (s.revision key + 1)) key i where
  identity := hidentity
  other := hother
  versions := fun k hk => by
    rw [storeAttachmentVersion_generation, storeAttachmentVersion_revision, if_neg (Ne.symm hk),
      if_neg (Ne.symm hk)]
    unfold GrantPools.generation GrantPools.revision
    rw [hversions]
    exact ⟨rfl, rfl⟩
  generation := by
    rw [storeAttachmentVersion_generation, if_pos rfl]
    exact hle
  revision := .inr (by rw [storeAttachmentVersion_revision, if_pos rfl])
  restorable := hrestorable
  capacity := hcapacity

theorem Call.same (hidentity : grantPoolIdentity key = .ok i) (hrestorable : Restorable s) :
    Call s s key i where
  identity := hidentity
  other := fun _ _ _ => rfl
  versions := fun _ _ => ⟨rfl, rfl⟩
  generation := le_refl _
  revision := .inl ⟨rfl, rfl⟩
  restorable := hrestorable
  capacity := fun h => h

theorem Call.congr (h : Call s x key i) (hmembers : s'.members = x.members)
    (hversions : s'.versions = x.versions) :
    Call s s' key i := by
  obtain ⟨members, versions, projections, runtime⟩ := s'
  cases hmembers
  cases hversions
  exact ⟨h.identity, h.other, h.versions, h.generation, h.revision, h.restorable, h.capacity⟩

theorem admit_ok {snapshot : GrantAttachmentSnapshot} (hr : Restorable s)
    (h : s.admitGrantAttachment input = .ok (s', snapshot)) :
    ∃ i, Call s s' input.key i ∧ snapshot.revision = s'.revision input.key ∧
      ∀ p m', s'.attachmentMember i p = some m' → m'.status.selectable = true →
        s.attachmentMember i p = some m' := by
  unfold GrantPools.admitGrantAttachment at h
  simp only [bind_ok, pure_ok] at h
  obtain ⟨m, hm, _, -, reserved, hreserved, h⟩ := h
  obtain ⟨rfl, rfl⟩ := Prod.mk.inj h
  obtain ⟨hidentity, -, hcurrent, hle, -⟩ := attachmentMutation_ok hm
  have hg : m.current.generation = s.generation input.key := by rw [hcurrent]; rfl
  have hrev : m.current.revision = s.revision input.key := by rw [hcurrent]; rfl
  rw [hg, hrev]
  rcases reserveMember_ok hreserved with
    rfl | ⟨row, rfl, hi, hpending, hprevious, hfree, hroom⟩
  · refine ⟨m.identity, .of_store hidentity (le_refl _) rfl (fun _ _ _ => rfl) hr fun h => h, rfl,
      fun p m' hm' _ => hm'⟩
  · -- the row of the admission is pending, and remembers what it was
    have hrow : ∀ j q, GrantPools.attachmentMember { s with members := s.members.upsert row } j q =
        if row.key = (j, q) then some row else s.attachmentMember j q :=
      fun j q => Table.find?_upsert _ _ _
    refine ⟨m.identity, .of_store hidentity (le_refl _) rfl (fun j q hj => ?_)
      (fun j q x st hx hst => ?_) (fun hcap scope scopeId provider => ?_), rfl,
      fun q m' hm' hselectable => ?_⟩
    · rw [hrow, if_neg fun e => hj ((congrArg Prod.fst e).symm.trans hi)]
    · rw [hrow] at hx
      split at hx
      · cases hx
        rw [hprevious] at hst
        exact previousStatus_restorable hr hfree hst
      · exact hr j q x st hx hst
    · refine le_trans occupied_upsert ?_
      split
      · rename_i hpool
        obtain ⟨rfl, rfl, rfl, hoccupies⟩ := hpool
        rw [← hi] at hroom
        have := hroom hoccupies
        omega
      · have := hcap scope scopeId provider
        omega
    · rw [storeAttachmentVersion_attachmentMember, hrow] at hm'
      split at hm'
      · cases hm'
        rw [pending_not_selectable hpending] at hselectable
        cases hselectable
      · exact hm'

/-- What is left of the rows of an identity before its publication. -/
structure Prepared (s x : GrantPools) (i : GrantIdentity) : Prop where
  other : ∀ j p, j ≠ i → x.attachmentMember j p = s.attachmentMember j p
  versions : x.versions = s.versions
  restorable : Restorable x
  capacity : ∀ scope scopeId provider,
    x.occupied scope scopeId provider ≤ s.occupied scope scopeId provider
  absent : ∀ p, s.attachmentMember i p = none → x.attachmentMember i p = none
  kept : ∀ p m, x.attachmentMember i p = some m → m.status.selectable = true →
    s.attachmentMember i p = some m

theorem Prepared.refl (h : Restorable s) : Prepared s s i :=
  ⟨fun _ _ _ => rfl, rfl, h, fun _ _ _ => le_refl _, fun _ h => h, fun _ _ h _ => h⟩

theorem restore_prepared (h : Restorable s) : Prepared s (s.restorePendingAttachment i) i where
  other := fun j p hj => by rw [restore_member h, if_neg hj]
  versions := rfl
  restorable := fun j p m st hm hst => by
    rw [restore_member h] at hm
    split at hm
    · obtain ⟨m₀, hm₀, hm⟩ := Option.bind_eq_some_iff.mp hm
      unfold Member.restored at hm
      split at hm
      · obtain ⟨_, -, rfl⟩ := Option.map_eq_some_iff.mp hm
        cases hst
      · cases hm
        exact h j p m st hm₀ hst
    · exact h j p m st hm hst
  capacity := fun _ _ _ => occupied_restore h
  absent := fun p hp => by
    rw [restore_member h, if_pos rfl, hp]
    rfl
  kept := fun p m hm hselectable => by
    rw [restore_member h, if_pos rfl] at hm
    obtain ⟨m₀, hm₀, hm⟩ := Option.bind_eq_some_iff.mp hm
    rcases (restored_status hm (h i p m₀ · hm₀)).2 with rfl | e | e
    · exact hm₀
    · rw [e] at hselectable
      cases hselectable
    · rw [e] at hselectable
      cases hselectable

theorem publishRoutingProjection_ok {g : Int} {projection : Option (Answer RoutingProjection)}
    (h : s.publishRoutingProjection key g projection = .ok s') :
    s'.members = s.members ∧ s'.versions = s.versions := by
  unfold GrantPools.publishRoutingProjection at h
  split at h
  · cases h
    exact ⟨rfl, rfl⟩
  · simp only [bind_ok, pure_ok] at h
    obtain ⟨_, -, _, -, rfl⟩ := h
    exact ⟨rfl, rfl⟩

theorem publishMembers_versions {status : Option GrantAttachmentStatus} :
    (s.publishMembers i provider status).versions = s.versions := by
  unfold GrantPools.publishMembers
  split
  · rfl
  · split
    · rfl
    · rfl

theorem forgetRuntime_tables {status : Option GrantAttachmentStatus} :
    (s.forgetRuntime key status).members = s.members ∧ (s.forgetRuntime key status).versions =
      s.versions := by
  unfold GrantPools.forgetRuntime
  split
  · exact ⟨rfl, rfl⟩
  · exact ⟨rfl, rfl⟩

theorem publishMembers_restorable {status : Option GrantAttachmentStatus} (h : Restorable s) :
    Restorable (s.publishMembers i provider status) := by
  intro j p m st hm hst
  rw [publishMembers_member] at hm
  split at hm
  · split at hm
    · cases hm
    · split at hm
      · obtain ⟨_, -, rfl⟩ := Option.map_eq_some_iff.mp hm
        cases hst
      · cases hm
    · exact h i p m st (Option.filter_eq_some_iff.mp hm).1 hst
  · exact h j p m st hm hst

/-- What a publication leaves of the rows of its key. -/
structure Published (s s' : GrantPools) (input : GrantAttachmentMutation) (i : GrantIdentity) :
    Prop where
  quiet : Quiet s' i
  absent : ∀ p, s.attachmentMember i p = none → s'.attachmentMember i p = none
  detached : input.status = none → ∀ p, s'.attachmentMember i p = none
  alone : ∀ p, input.provider = some p → (s'.attachmentMember i p).isSome = true →
    ∀ q, q ≠ p → s'.attachmentMember i q = none
  activated : ∀ p m', s'.attachmentMember i p = some m' → m'.status.selectable = true →
    (∃ m, s.attachmentMember i p = some m ∧ m.status.selectable = true) ∨
      (∃ g, input.generation = some g ∧ s.generation input.key < g) ∧
        input.admissionRevision = some (some (s.revision input.key)) ∧ ¬Quiet s i

theorem Published.congr (h : Published s x input i) (hmembers : s'.members = x.members) :
    Published s s' input i := by
  obtain ⟨members, versions, projections, runtime⟩ := s'
  cases hmembers
  exact ⟨h.quiet, h.absent, h.detached, h.alone, h.activated⟩

theorem replay_published {m : Mutation} (hm : s.attachmentMutation input = .ok m)
    (hx : Prepared s x m.identity) (hquiet : Quiet x m.identity)
    (hagrees : x.agrees m (x.snapshot input.key m.identity) = true) : Published s x input m.identity := by
  obtain ⟨-, -, -, -, -, hprovider, hstatus⟩ := attachmentMutation_ok hm
  have hnone : m.status = none → ∀ p, x.attachmentMember m.identity p = none := by
    intro e p
    unfold GrantPools.agrees at hagrees
    rw [e] at hagrees
    cases hrow : x.attachmentMember m.identity p with
    | none => rfl
    | some row =>
      have hattached : x.anyMember m.identity (fun m => !m.status.isPending) = true :=
        anyMember_iff.mpr ⟨p, row, hrow, by rw [hquiet p row hrow]; rfl⟩
      dsimp only [GrantPools.snapshot] at hagrees
      rw [hattached] at hagrees
      cases hagrees
  refine ⟨hquiet, hx.absent, fun e => hnone ?_, fun p hp hsome q hq => ?_,
    fun p m' hm' hselectable => .inl ⟨m', hx.kept p m' hm' hselectable, hselectable⟩⟩
  · rw [e] at hstatus
    exact (Except.ok.inj hstatus).symm
  · cases hst : m.status with
    | none => exact hnone hst q
    | some status =>
      obtain ⟨row, hrow⟩ := Option.isSome_iff_exists.mp hsome
      unfold GrantPools.agrees at hagrees
      rw [hst, ← hprovider, hp] at hagrees
      dsimp only [Option.bind_some] at hagrees
      rw [hrow] at hagrees
      cases hother : x.attachmentMember m.identity q with
      | none => rfl
      | some other =>
        have hany : x.anyMember m.identity (fun other => decide (other.providerId ≠ p)) = true :=
          anyMember_iff.mpr ⟨q, other, hother, decide_eq_true
            fun e => hq ((attachmentMember_key hother).2.symm.trans e)⟩
        have := (Bool.and_eq_true_iff.mp hagrees).2
        rw [show (some p).getD "" = p from rfl, hany] at this
        cases this

theorem new_published {m : Mutation} (hm : s.attachmentMutation input = .ok m) (hx : Prepared s x m.identity)
    (hpending : ¬Quiet x m.identity → s.generation input.key < m.generation ∧
      m.admissionRevision = some (s.revision input.key) ∧ ¬Quiet s m.identity)
    (hroom : m.status = some .active → ∀ row,
      m.provider.bind (x.attachmentMember m.identity) = some row → row.status.occupies = true) :
    Published s (x.publishMembers m.identity m.provider m.status) input m.identity := by
  obtain ⟨-, hgeneration, -, -, hadmission, hprovider, hstatus⟩ := attachmentMutation_ok hm
  cases hst : m.status with
  | none =>
    have hrow : ∀ p, (x.publishMembers m.identity m.provider none).attachmentMember m.identity p
        = none := fun p => publishMembers_member.trans (if_pos rfl)
    refine ⟨fun p row h => ?_, fun p _ => hrow p, fun _ => hrow, fun _ _ _ q _ => hrow q, fun p row h _ => ?_⟩
    · rw [hrow] at h
      cases h
    · rw [hrow] at h
      cases h
  | some status =>
    have hstated : input.status ≠ none := by
      intro e
      rw [e] at hstatus
      cases hst.symm.trans (Except.ok.inj hstatus).symm
    cases hown : m.provider.bind (x.attachmentMember m.identity) with
    | none =>
      -- the owner is not a member, and only its pending rows go
      have hrow : ∀ p, (x.publishMembers m.identity m.provider (some status)).attachmentMember
          m.identity p = (x.attachmentMember m.identity p).filter fun m => !m.status.isPending :=
        fun p => by rw [publishMembers_member, if_pos rfl, hown]
      refine ⟨fun p row h => ?_, fun p hp => ?_, fun e => absurd e hstated,
        fun p hp hsome q _ => ?_, fun p row h hselectable => .inl ⟨row, ?_, hselectable⟩⟩
      · rw [hrow] at h
        have := (Option.filter_eq_some_iff.mp h).2
        simpa using this
      · rw [hrow, hx.absent p hp]
        rfl
      · rw [← hprovider, hp] at hown
        rw [hrow, show x.attachmentMember m.identity p = none from hown] at hsome
        cases hsome
      · rw [hrow] at h
        exact hx.kept p row (Option.filter_eq_some_iff.mp h).1 hselectable
    | some own =>
      obtain ⟨name, hname, hmember⟩ := Option.bind_eq_some_iff.mp hown
      have hown' : own.providerId = name := (attachmentMember_key hmember).2
      have hrow : ∀ p, (x.publishMembers m.identity m.provider (some status)).attachmentMember
          m.identity p = if p = name then some (own.publish status) else none := fun p => by
        rw [publishMembers_member, if_pos rfl, hown]
        dsimp only
        rw [hown']
        split
        · rename_i e
          rw [e, hmember]
          rfl
        · rfl
      refine ⟨fun p row h => ?_, fun p hp => ?_, fun e => absurd e hstated,
        fun p hp _ q hq => ?_, fun p row h hselectable => ?_⟩
      · rw [hrow] at h
        split at h
        · cases h
          cases status with
          | active | paused | reauthRequired => rfl
        · cases h
      · rw [hrow, if_neg]
        rintro rfl
        rw [hx.absent p hp] at hmember
        cases hmember
      · rw [hprovider, hname] at hp
        cases hp
        rw [hrow, if_neg hq]
      · rw [hrow] at h
        split at h
        · rename_i e
          cases h
          subst e
          cases status with
          | paused | reauthRequired => cases hselectable
          | active =>
            rcases occupies_cases (hroom hst own hown) with hs | hs
            · exact .inl ⟨own, hx.kept p own hmember hs, hs⟩
            · refine .inr ?_
              have hquiet : ¬Quiet x m.identity := fun hq => by
                rw [hq p own hmember] at hs
                cases hs
              obtain ⟨hlt, hadmitted, hwaiting⟩ := hpending hquiet
              exact ⟨⟨m.generation, hgeneration, hlt⟩, by rw [hadmission, hadmitted]; rfl, hwaiting⟩
        · cases h

theorem publish_ok {result : GrantAttachmentResult} (hr : Restorable s)
    (h : s.publishGrantAttachment input = .ok (s', result)) :
    ∃ i, Call s s' input.key i ∧ Published s s' input i := by
  unfold GrantPools.publishGrantAttachment at h
  simp only [bind_ok] at h
  obtain ⟨m, hm, h⟩ := h
  obtain ⟨hidentity, -, hcurrent, hle, -⟩ := attachmentMutation_ok hm
  have hg : m.current.generation = s.generation input.key := by rw [hcurrent]; rfl
  have hrev : m.current.revision = s.revision input.key := by rw [hcurrent]; rfl
  have hpend : m.current.pending = s.anyMember m.identity fun m => m.status.isPending := by
    rw [hcurrent]
    rfl
  obtain ⟨x, hxdef⟩ : ∃ x, x = if GrantPools.restores m
      then s.restorePendingAttachment m.identity else s := ⟨_, rfl⟩
  rw [← hxdef] at h
  have hx : Prepared s x m.identity := by
    rw [hxdef]
    split
    · exact restore_prepared hr
    · exact .refl hr
  -- the reading after the restoration, where there is one
  have hsnapshot : (if GrantPools.restores m then x.snapshot input.key m.identity else m.current) =
      x.snapshot input.key m.identity := by
    split
    · rfl
    · rename_i e
      rw [hxdef, if_neg e, hcurrent]
  rw [hsnapshot] at h
  refine ⟨m.identity, ?_⟩
  split at h
  · rename_i hreplay
    obtain ⟨hgen, hquiet⟩ := Bool.and_eq_true_iff.mp hreplay
    have hquiet : Quiet x m.identity := quiet_iff.mp (by simpa [GrantPools.snapshot] using hquiet)
    simp only [bind_ok, require_ok, pure_ok] at h
    obtain ⟨_, hagrees, published, hpublish, h⟩ := h
    obtain ⟨rfl, rfl⟩ := Prod.mk.inj h
    obtain ⟨hmembers, hversions⟩ := publishRoutingProjection_ok hpublish
    have hpublished := replay_published hm hx hquiet hagrees
    split at hmembers
    · rename_i e
      rw [if_pos e] at hversions
      refine ⟨.congr (.of_store hidentity hle hx.versions hx.other hx.restorable fun hcap => ?_)
        hmembers ?_, hpublished.congr hmembers⟩
      · exact fun a b c => le_trans (hx.capacity a b c) (hcap a b c)
      · rw [hversions, hrev]
    · rename_i e
      rw [if_neg e] at hversions
      rw [if_neg e] at hxdef
      subst hxdef
      exact ⟨.congr (.same hidentity hr) hmembers hversions, hpublished.congr hmembers⟩
  · rename_i hnew
    simp only [bind_ok, require_ok, pure_ok] at h
    obtain ⟨_, hroom, published, hpublish, h⟩ := h
    obtain ⟨rfl, rfl⟩ := Prod.mk.inj h
    obtain ⟨hmembers, hversions⟩ := publishRoutingProjection_ok hpublish
    have hroom : m.status = some .active → ∀ row,
        m.provider.bind (x.attachmentMember m.identity) = some row → row.status.occupies = true := by
      intro e row hrow
      rcases Bool.or_eq_true_iff.mp hroom with hne | hall
      · exact absurd e (of_decide_eq_true hne)
      · rw [hrow] at hall
        exact hall
    have hwaiting : ¬Quiet x m.identity → s.generation input.key < m.generation ∧
        m.admissionRevision = some (s.revision input.key) ∧ ¬Quiet s m.identity := by
      intro hn
      by_cases e : GrantPools.restores m = true
      · rw [if_pos e] at hxdef
        rw [hxdef] at hn
        exact absurd (restore_quiet hr) hn
      · rw [if_neg e] at hxdef
        subst hxdef
        have hp : m.current.pending = true := by
          rw [hpend]
          by_contra hc
          exact hn (quiet_iff.mp (Bool.not_eq_true _ ▸ hc))
        unfold GrantPools.restores at e
        rw [hp, Bool.true_and, Bool.or_eq_true, not_or, decide_eq_true_eq, decide_eq_true_eq,
          not_not, hrev, hg] at e
        exact ⟨lt_of_le_of_ne hle (Ne.symm e.2), e.1, hn⟩
    have hfrom := new_published hm hx hwaiting hroom
    obtain ⟨hforgotten, hforgotten'⟩ := @forgetRuntime_tables
      (x.publishMembers m.identity m.provider m.status) input.key m.status
    have hcall : Call s ((x.publishMembers m.identity m.provider m.status).storeAttachmentVersion
        input.key m.generation (s.revision input.key + 1)) input.key m.identity := by
      refine .of_store hidentity hle (publishMembers_versions.trans hx.versions) (fun j p hj => ?_)
        (publishMembers_restorable hx.restorable) fun hcap a b c => ?_
      · rw [publishMembers_member, if_neg hj]
        exact hx.other j p hj
      · exact le_trans (occupied_publishMembers hroom) (le_trans (hx.capacity a b c) (hcap a b c))
    refine ⟨hcall.congr (hmembers.trans hforgotten) ?_, hfrom.congr (hmembers.trans hforgotten)⟩
    rw [hversions, ← hrev]
    unfold GrantPools.storeAttachmentVersion
    rw [hforgotten']

theorem cancel_ok {revision : Option Int} {result : GrantAttachmentResult} (hr : Restorable s)
    (h : s.cancelPendingAttachment key revision = .ok (s', result)) :
    ∃ i, Call s s' key i ∧ (s' = s ∨ Quiet s' i) ∧
      (∀ p, s.attachmentMember i p = none → s'.attachmentMember i p = none) ∧
      ∀ p m', s'.attachmentMember i p = some m' → m'.status.selectable = true →
        s.attachmentMember i p = some m' := by
  unfold GrantPools.cancelPendingAttachment at h
  simp only [bind_ok] at h
  obtain ⟨i, hidentity, _, -, h⟩ := h
  refine ⟨i, ?_⟩
  split at h
  · cases h
    exact ⟨.same hidentity hr, .inl rfl, fun _ h => h, fun _ _ h _ => h⟩
  · rename_i hgeneration
    obtain ⟨rfl, -⟩ := Prod.mk.inj (pure_ok.mp h)
    split
    · have hx : Prepared s (s.restorePendingAttachment i) i := restore_prepared hr
      refine ⟨.of_store hidentity ?_ rfl hx.other hx.restorable fun hcap a b c => ?_,
        .inr (restore_quiet hr), hx.absent, hx.kept⟩
      · exact le_of_eq (not_not.mp hgeneration)
      · exact le_trans (hx.capacity a b c) (hcap a b c)
    · exact ⟨.same hidentity hr, .inl rfl, fun _ h => h, fun _ _ h _ => h⟩

end Steps

/-! ## 4. Runs -/

/-- The revision that the last admission of a key was answered with. -/
def lastAdmitted (key : String) (tr : List (Op × Reply)) : Option Int :=
  tr.foldl (fun last a =>
    match a with
    | (.admitGrant input, .ok reply) => if input.key = key then some reply.1.revision else last
    | _ => last) none

def NotAdmitted (key : String) (tr : List (Op × Reply)) : Prop :=
  ∀ a ∈ tr, ∀ input reply, a = (.admitGrant input, .ok reply) → input.key ≠ key

/-- What every step keeps of the pools. -/
structure FenceInv (tr : List (Op × Reply)) (s : GrantPools) : Prop where
  restorable : Restorable s
  capacity : ∀ scope scopeId provider, s.occupied scope scopeId provider ≤ 32
  waiting : ∀ key i, grantPoolIdentity key = .ok i → ¬Quiet s i →
    lastAdmitted key tr = some (s.revision key)

variable {reply : GrantAttachmentSnapshot × Option Outcome}

section Runs

variable {s s' : GrantPools} {tr : List (Op × Reply)} {op : Op}

theorem lastAdmitted_snoc {a : Op × Reply} : lastAdmitted key (tr ++ [a]) = match a with
    | (.admitGrant input, .ok reply) =>
      if input.key = key then some reply.1.revision else lastAdmitted key tr
    | _ => lastAdmitted key tr := by
  unfold lastAdmitted
  rw [List.foldl_append]
  rfl

theorem step_error {error : HttpError} (h : Step s (op, .error error) s') : s' = s := by
  unfold Step exec at h
  split at h
  · cases h
  · exact (Prod.mk.inj h).1.symm

theorem step_ok (h : Step s (op, .ok reply) s') : attempt s op = .ok (s', reply) := by
  unfold Step exec at h
  split at h
  · rename_i hattempt
    obtain ⟨rfl, e⟩ := Prod.mk.inj h
    cases e
    exact hattempt
  · cases h

/-- What a call that succeeds has done, one kind after the other. -/
inductive Effect (s s' : GrantPools) : Op → GrantAttachmentSnapshot × Option Outcome → Prop
  | admitGrant {input : GrantAttachmentMutation} {reply : GrantAttachmentSnapshot × Option Outcome}
      {i : GrantIdentity} (call : Call s s' input.key i)
      (revision : reply.1.revision = s'.revision input.key)
      (kept : ∀ p m, s'.attachmentMember i p = some m → m.status.selectable = true →
        s.attachmentMember i p = some m) : Effect s s' (.admitGrant input) reply
  | publish {input : GrantAttachmentMutation} {reply : GrantAttachmentSnapshot × Option Outcome}
      {i : GrantIdentity} (call : Call s s' input.key i) (published : Published s s' input i) :
      Effect s s' (.publish input) reply
  | cancel {key : String} {revision : Option Int}
      {reply : GrantAttachmentSnapshot × Option Outcome} {i : GrantIdentity}
      (call : Call s s' key i) (quiet : s' = s ∨ Quiet s' i)
      (absent : ∀ p, s.attachmentMember i p = none → s'.attachmentMember i p = none)
      (kept : ∀ p m, s'.attachmentMember i p = some m → m.status.selectable = true →
        s.attachmentMember i p = some m) : Effect s s' (.cancelPending key revision) reply

theorem step_effect (hr : Restorable s) (h : Step s (op, .ok reply) s') : Effect s s' op reply := by
  have h := step_ok h
  unfold attempt at h
  cases op with
  | admitGrant input =>
    simp only [bind_ok, pure_ok] at h
    obtain ⟨⟨_, snapshot⟩, hadmit, h⟩ := h
    obtain ⟨rfl, rfl⟩ := Prod.mk.inj h
    obtain ⟨i, hcall, hrevision, hkept⟩ := admit_ok hr hadmit
    exact .admitGrant hcall hrevision hkept
  | publish input =>
    simp only [bind_ok, pure_ok] at h
    obtain ⟨⟨_, result⟩, hpublish, h⟩ := h
    obtain ⟨rfl, rfl⟩ := Prod.mk.inj h
    obtain ⟨i, hcall, hpublished⟩ := publish_ok hr hpublish
    exact .publish hcall hpublished
  | cancelPending key revision =>
    simp only [bind_ok, pure_ok] at h
    obtain ⟨⟨_, result⟩, hcancel, h⟩ := h
    obtain ⟨rfl, rfl⟩ := Prod.mk.inj h
    obtain ⟨i, hcall, hquiet, habsent, hkept⟩ := cancel_ok hr hcancel
    exact .cancel hcall hquiet habsent hkept

theorem Effect.call (h : Effect s s' op reply) : ∃ key i, Call s s' key i := by
  cases h with
  | admitGrant call _ _ | publish call _ | cancel call _ _ _ => exact ⟨_, _, call⟩

theorem Call.other_key {key' : String} {j : GrantIdentity} (h : Call s s' key i)
    (hj : grantPoolIdentity key' = .ok j) (hne : key' ≠ key) (p : String) :
    s'.attachmentMember j p = s.attachmentMember j p :=
  h.other j p fun e => hne (grantPoolIdentity_inj (e ▸ hj) h.identity)

theorem Call.same_identity {j : GrantIdentity} (h : Call s s' key i)
    (hj : grantPoolIdentity key = .ok j) : j = i := by
  have e := h.identity
  rw [hj] at e
  cases e
  rfl

theorem fence_step {reply : Reply} (hI : FenceInv tr s) (h : Step s (op, reply) s') :
    FenceInv (tr ++ [(op, reply)]) s' := by
  cases reply with
  | error error =>
    cases step_error h
    refine ⟨hI.restorable, hI.capacity, fun key i hi hn => ?_⟩
    rw [lastAdmitted_snoc]
    split
    · rename_i e
      cases e
    · exact hI.waiting key i hi hn
  | ok reply =>
    have heffect := step_effect hI.restorable h
    obtain ⟨_, _, hcall⟩ := heffect.call
    refine ⟨hcall.restorable, hcall.capacity hI.capacity, fun key i hi hn => ?_⟩
    -- a call of another key leaves the rows, the version and the last admission alone
    have helse : ∀ {key' : String} {i' : GrantIdentity}, Call s s' key' i' → key ≠ key' →
        lastAdmitted key tr = some (s'.revision key) := by
      intro key' i' hc hne
      rw [(hc.versions key hne).2]
      refine hI.waiting key i hi fun hq => hn fun p m hm => ?_
      rw [hc.other_key hi hne] at hm
      exact hq p m hm
    rw [lastAdmitted_snoc]
    cases heffect with
    | @admitGrant input reply i' call revision kept =>
      dsimp only
      by_cases e : input.key = key
      · rw [if_pos e, revision, e]
      · rw [if_neg e]
        exact helse call (Ne.symm e)
    | @publish input reply i' call published =>
      by_cases e : key = input.key
      · subst e
        rw [call.same_identity hi] at hn
        exact absurd published.quiet hn
      · exact helse call e
    | @cancel key' revision reply i' call quiet absent kept =>
      by_cases e : key = key'
      · subst e
        rcases quiet with rfl | quiet
        · exact hI.waiting key i hi hn
        · rw [call.same_identity hi] at hn
          exact absurd quiet hn
      · exact helse call e

/-- The rows that were there before the versions, within the places of their pools. -/
structure Legacy (s : GrantPools) : Prop where
  legacy : ∀ i p m, s.attachmentMember i p = some m →
    m.status = .legacy ∧ m.pendingPreviousStatus = none
  capacity : ∀ scope scopeId provider, s.occupied scope scopeId provider ≤ 32

theorem fence_run {s₀ : GrantPools} (h₀ : Legacy s₀) (h : Run Step s₀ tr s) : FenceInv tr s := by
  refine h.invariant_along (I := FenceInv) ⟨fun i p m st hm hst => ?_, h₀.capacity,
    fun key i _ hn => ?_⟩ fun tr s a s' hI hs => fence_step hI hs
  · rw [(h₀.legacy i p m hm).2] at hst
    cases hst
  · refine absurd (fun p m hm => ?_) hn
    rw [(h₀.legacy i p m hm).1]
    rfl

theorem absent_run (hI : FenceInv tr s)
    (hi : grantPoolIdentity key = .ok i) (hnone : ∀ p, s.attachmentMember i p = none)
    {tr' : List (Op × Reply)} (h : Run Step s tr' s') (hnot : NotAdmitted key tr') :
    ∀ p, s'.attachmentMember i p = none := by
  suffices hall : Restorable s' ∧ (NotAdmitted key tr' → ∀ p, s'.attachmentMember i p = none) from
    hall.2 hnot
  refine h.invariant_along (I := fun tr' s' => Restorable s' ∧
    (NotAdmitted key tr' → ∀ p, s'.attachmentMember i p = none))
    ⟨hI.restorable, fun _ => hnone⟩ ?_
  rintro tr₁ s₁ ⟨op, reply⟩ s₂ ⟨hr, hrows⟩ hstep
  cases reply with
  | error error =>
    cases step_error hstep
    exact ⟨hr, fun hn => hrows fun a ha => hn a (List.mem_append_left _ ha)⟩
  | ok reply =>
    have heffect := step_effect hr hstep
    obtain ⟨_, _, hcall⟩ := heffect.call
    refine ⟨hcall.restorable, fun hn p => ?_⟩
    have hbefore := hrows (fun a ha => hn a (List.mem_append_left _ ha)) p
    have hlast := hn _ (List.mem_append_right _ (List.mem_singleton_self _))
    cases heffect with
    | @admitGrant input reply i' call revision kept =>
      rw [call.other_key hi (Ne.symm (hlast input reply rfl))]
      exact hbefore
    | @publish input reply i' call published =>
      by_cases e : key = input.key
      · subst e
        rw [call.same_identity hi] at hbefore ⊢
        exact published.absent p hbefore
      · rw [call.other_key hi e]
        exact hbefore
    | @cancel key' revision reply i' call quiet absent kept =>
      by_cases e : key = key'
      · subst e
        rw [call.same_identity hi] at hbefore ⊢
        exact absent p hbefore
      · rw [call.other_key hi e]
        exact hbefore

/-- The fence around the rows of the pools, after the calls `tr`. -/
structure AttachmentFence (tr : List (Op × Reply)) (s : GrantPools) : Prop where
  /-- The generation of a key never decreases, and its revision increases with every call that
      changes one of its rows. -/
  generation : ∀ a s', Step s a s' → ∀ key, s.generation key ≤ s'.generation key
  revision : ∀ a s', Step s a s' → ∀ key i, grantPoolIdentity key = .ok i →
    s.revision key ≤ s'.revision key ∧
    ((∃ p, s'.attachmentMember i p ≠ s.attachmentMember i p) → s.revision key < s'.revision key)
  /-- A row becomes selectable only by a publication of a new generation that names the revision
      of the latest admission of its key. -/
  activated : ∀ op reply s', Step s (op, reply) s' → ∀ key i p m', grantPoolIdentity key = .ok i →
    s'.attachmentMember i p = some m' → m'.status.selectable = true →
    (∃ m, s.attachmentMember i p = some m ∧ m.status.selectable = true) ∨
    ∃ input g r, op = .publish input ∧ input.key = key ∧ input.generation = some g ∧
      s.generation key < g ∧ input.admissionRevision = some (some r) ∧ lastAdmitted key tr = some r
  /-- After a detachment, no row is there until an admission of the key succeeds. -/
  detached : ∀ input reply s', Step s (.publish input, .ok reply) s' → input.status = none →
    ∀ tr' s'', Run Step s' tr' s'' → NotAdmitted input.key tr' →
    ∀ i, grantPoolIdentity input.key = .ok i → ∀ p, s''.attachmentMember i p = none
  /-- After a publication no row of the key is pending, and a row of its provider is alone. -/
  published : ∀ input reply s', Step s (.publish input, .ok reply) s' →
    ∀ i, grantPoolIdentity input.key = .ok i → Quiet s' i ∧
      ∀ p, input.provider = some p → (s'.attachmentMember i p).isSome = true →
        ∀ q, q ≠ p → s'.attachmentMember i q = none
  /-- No pool has more than 32 places. -/
  capacity : ∀ scope scopeId provider, s.occupied scope scopeId provider ≤ 32

/-- **The attachment fence**, in every run of admissions, publications and cancellations. -/
theorem attachment_fence {s₀ : GrantPools} (h₀ : Legacy s₀) (h : Run Step s₀ tr s) :
    AttachmentFence tr s := by
  have hI := fence_run h₀ h
  refine ⟨fun a s' hs key => ?_, fun a s' hs key i hi => ?_, fun op reply s' hs key i p m' hi hm' hsel => ?_,
    fun input reply s' hs hstatus tr' s'' hrun hnot i hi => ?_, fun input reply s' hs i hi => ?_,
    hI.capacity⟩
  · obtain ⟨op, reply⟩ := a
    cases reply with
    | error error =>
      cases step_error hs
      exact le_refl _
    | ok reply =>
      obtain ⟨key', i', hcall⟩ := (step_effect hI.restorable hs).call
      by_cases e : key = key'
      · subst e
        exact hcall.generation
      · exact le_of_eq (hcall.versions key e).1.symm
  · obtain ⟨op, reply⟩ := a
    cases reply with
    | error error =>
      cases step_error hs
      exact ⟨le_refl _, fun ⟨p, hp⟩ => absurd rfl hp⟩
    | ok reply =>
      obtain ⟨key', i', hcall⟩ := (step_effect hI.restorable hs).call
      by_cases e : key = key'
      · subst e
        rcases hcall.revision with ⟨hmembers, hsame⟩ | hmore
        · refine ⟨le_of_eq hsame.symm, fun ⟨p, hp⟩ => absurd ?_ hp⟩
          unfold GrantPools.attachmentMember
          rw [hmembers]
        · omega
      · refine ⟨le_of_eq (hcall.versions key e).2.symm, fun ⟨p, hp⟩ => ?_⟩
        exact absurd (hcall.other_key hi e p) hp
  · cases reply with
    | error error =>
      cases step_error hs
      exact .inl ⟨m', hm', hsel⟩
    | ok reply =>
      cases step_effect hI.restorable hs with
      | @admitGrant input reply i' call revision kept =>
        by_cases e : key = input.key
        · subst e
          rw [call.same_identity hi] at hm' ⊢
          exact .inl ⟨m', kept p m' hm' hsel, hsel⟩
        · rw [call.other_key hi e] at hm'
          exact .inl ⟨m', hm', hsel⟩
      | @publish input reply i' call published =>
        by_cases e : key = input.key
        · subst e
          rw [call.same_identity hi] at hm' ⊢
          rcases published.activated p m' hm' hsel with h | ⟨⟨g, hg, hlt⟩, hadmitted, hwaiting⟩
          · exact .inl h
          · exact .inr ⟨input, g, _, rfl, rfl, hg, hlt, hadmitted, hI.waiting _ i' call.identity hwaiting⟩
        · rw [call.other_key hi e] at hm'
          exact .inl ⟨m', hm', hsel⟩
      | @cancel key' revision reply i' call quiet absent kept =>
        by_cases e : key = key'
        · subst e
          rw [call.same_identity hi] at hm' ⊢
          exact .inl ⟨m', kept p m' hm' hsel, hsel⟩
        · rw [call.other_key hi e] at hm'
          exact .inl ⟨m', hm', hsel⟩
  · have hI' := fence_step hI hs
    cases step_effect hI.restorable hs with
    | publish call published =>
      refine absent_run hI' hi (fun p => ?_) hrun hnot
      rw [call.same_identity hi]
      exact published.detached hstatus p
  · cases step_effect hI.restorable hs with
    | publish call published =>
      rw [call.same_identity hi]
      exact ⟨published.quiet, published.alone⟩

/-- Beside a legacy row another key is admitted, published and detached. -/
theorem attachment_fence_detached : ∃ s₀ tr s, Legacy s₀ ∧ Run Step s₀ tr s ∧
    (s.members.rows.map fun m => (m.identity.tokenRef, m.status)) = [("old", .legacy)] ∧
    lastAdmitted "oauth/team/new" tr = some 1 ∧ s.revision "oauth/team/new" = 3 ∧ AttachmentFence tr s := by
  let row : Member := ⟨⟨.policies, "team", "old"⟩, "openai", .legacy, none⟩
  let s₀ : GrantPools := ⟨⟨[row], List.nodup_singleton _⟩, Table.empty, Table.empty, Table.empty⟩
  have h₀ : Legacy s₀ := by
    refine ⟨fun i p m hm => ?_, fun scope scopeId provider => ?_⟩
    · cases List.mem_singleton.mp (Table.find?_eq_some.mp hm).1
      exact ⟨rfl, rfl⟩
    · show (([row].filter _).map fun _ => (1 : Int)).sum ≤ 32
      rw [List.filter_singleton]
      cases decide (row.identity.scope = scope) && decide (row.identity.scopeId = scopeId) &&
        decide (row.providerId = provider) && row.status.occupies with
      | false => decide
      | true => decide
  have h1 := Run.start.next (step_exec (s := s₀)
    (.admitGrant ⟨"oauth/team/new", some 0, some 0, none, some "openai", some "active", none⟩))
  have h2 := h1.next (step_exec
    (.publish ⟨"oauth/team/new", some 1, some 1, some (some 1), some "openai", some "active", none⟩))
  have h3 := h2.next (step_exec (.publish ⟨"oauth/team/new", some 2, some 2, none, some "openai",
    none, none⟩))
  exact ⟨s₀, _, _, h₀, h3, by decide +kernel, by decide +kernel, by decide +kernel, attachment_fence h₀ h3⟩

end Runs

end ClawRouter.Grants
