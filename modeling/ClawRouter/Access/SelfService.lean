/-
  Subject:   Runs of personal mutations of credentials (`mutateCredential` of
             src/worker/authority.ts with the scope `personal`).

  An owner creates, puts, rotates, renames and revokes keys. The other tables of the authority are
  whatever they are at each call; only the credentials carry over from one call to the next.

  * `personal_calls`: all of it along every run.
-/
import ClawRouter.Access.Seeding

namespace ClawRouter.Access

open Commands Keyed Js
open Trace (Run)
open Usage (normalizeEmail)

/-! ## 1. Calls -/

abbrev Credentials := Table ProxyCredentialEntry.credentialId

/-- A call: what it asks, the authority it finds and what it answers. -/
structure Call where
  request : CredentialMutation
  revision : String
  authority : Authority
  answer : Answer CredentialMutationResult

namespace Call

variable (call : Call)

def Updated : Prop := ∃ entry policy enabled, call.answer = .ok (.updated entry policy enabled)

def Puts (id : String) : Prop :=
  call.Updated ∧ call.request.operation.input.isSome = true ∧ call.request.credentialId = id

variable (platform : Platform)

def principalId : Option String := normalizeEmail platform.toLowerCase call.request.actor.email

def user : Option AccessControlUser := (call.principalId platform).bind (call.authority.getUser platform)

end Call

variable {credential : ProxyCredential} {entry : ProxyCredentialEntry} {tr : List Call}

section Personal

variable (platform : Platform)

/-- A personal call, on these keys. -/
structure PersonalStep (T : Credentials) (call : Call) (T' : Credentials) : Prop where
  before : call.authority.credentials = T
  personal : call.request.scope = .personal
  runs : ∃ s', mutateCredential platform call.request call.revision call.authority =
    (call.answer, s') ∧ s'.credentials = T'

/-! ## 2. What is proved of them -/

def isOwnedBy (p : String) (entry : ProxyCredentialEntry) : Bool := ownerOf platform entry.credential = some p

/-- No principal has more keys than the limits say. -/
structure Capped (T : Credentials) : Prop where
  enabled : ∀ p, (T.rows.countP fun entry => entry.credential.enabled && isOwnedBy platform p entry) ≤
    selfServiceCredentialLimit
  stored : ∀ p, T.rows.countP (isOwnedBy platform p) ≤ selfServiceCredentialRetentionLimit

/-- A call changes what belongs to its actor. -/
structure Confined (T : Credentials) (call : Call) (T' : Credentials) : Prop where
  /-- A row that is gone, or new, or not as it was, is the actor's. -/
  owned : ∀ entry, ¬(entry ∈ T.rows ↔ entry ∈ T'.rows) →
    ∃ p, call.principalId platform = some p ∧ isOwnedBy platform p entry = true
  /-- An enabled key is not deleted. -/
  kept : ∀ entry ∈ T.rows, entry.credential.enabled = true →
    ∃ entry' ∈ T'.rows, entry'.credentialId = entry.credentialId
  /-- A call that does not answer `updated`, or that throws, leaves the table as it is. -/
  untouched : ¬call.Updated → T' = T

/-- What a key got from the call that created or put it: a policy the actor held. -/
structure Granted (call : Call) (entry : ProxyCredentialEntry) : Prop where
  puts : call.Puts entry.credentialId
  owner : ownerOf platform entry.credential = call.principalId platform
  held : ∃ policy, call.authority.getPolicy entry.credential.policyId = some policy ∧
    holdsPolicy platform call.authority (call.user platform) (some policy) = .ok true ∧
    entry.credential.policyGeneration = policy.policy.generation ∧
    ∀ tier ∈ entry.credential.serviceTiers.getD [], tier ∈ grantedServiceTiers policy.policy

/-- The last call of the run that created or put the key granted it. -/
def LastGranted (tr : List Call) (entry : ProxyCredentialEntry) : Prop :=
  ∃ earlier call later, tr = earlier ++ call :: later ∧ Granted platform call entry ∧
    ∀ next ∈ later, ¬next.Puts entry.credentialId

/-! ## 3. The checks of a personal call -/

variable {platform} {s : Authority} {request : CredentialMutation}

/-- What a personal call that was not refused has shown. -/
structure Admitted (platform : Platform) (s : Authority) (request : CredentialMutation) (p : String) :
    Prop where
  actor : normalizeEmail platform.toLowerCase request.actor.email = some p
  own : ∀ entry, s.getCredential request.credentialId = some entry →
    isOwnedBy platform p entry = true
  held : request.operation.input.isSome = true →
    holdsPolicy platform s (s.getUser platform p)
      (s.getPolicy (policyIdOf request (s.getCredential request.credentialId))) = .ok true

section

variable (hscope : request.scope = .personal)
include hscope

theorem actorRefusal_none {principalId : Option String} {user : Option AccessControlUser}
    (h : actorRefusal request principalId user = none) :
    ∃ p, principalId = some p := by
  cases principalId with
  | some p => exact ⟨p, rfl⟩
  | none => simp [actorRefusal, hscope] at h

theorem keyRefusal_none {principalId : Option String} {existing : Option ProxyCredentialEntry}
    (h : keyRefusal platform request principalId existing = none) :
    ∀ entry, existing = some entry → ownerOf platform entry.credential = principalId := by
  rintro entry rfl
  refine Classical.byContradiction fun hne => ?_
  cases hop : request.operation <;> simp [keyRefusal, hop, hscope, hne] at h

theorem policyRefusal_none {user : Option AccessControlUser} {existing : Option ProxyCredentialEntry}
    {policy : Option AccessPolicyEntry}
    (hinput : request.operation.input.isSome = true)
    (h : policyRefusal platform s request user existing policy = .ok none) :
    holdsPolicy platform s user policy = .ok true := by
  unfold policyRefusal at h
  split at h
  · cases h
  · have hpersonal : (do
        let held ← holdsPolicy platform s user policy
        return if held then none else some CredentialRefusal.policyNotHeld) = .ok none := by
      cases hop : request.operation with
      | create input | put input => simpa only [hop, hscope] using h
      | rotate secretSha256 | rename name | revoke => rw [hop] at hinput; cases hinput
    obtain ⟨held, hheld, e⟩ := Fallible.bind_ok.mp hpersonal
    cases held with
    | true => exact hheld
    | false => cases e

theorem admitted_of_checked (h : refusal platform s request = .ok none) :
    ∃ p, Admitted platform s request p := by
  unfold refusal at h
  dsimp only at h
  split at h
  · cases h
  · rename_i hactor
    split at h
    · cases h
    · rename_i hkey
      obtain ⟨p, hp⟩ := actorRefusal_none hscope hactor
      refine ⟨p, hp, fun entry hentry => ?_, fun hinput => ?_⟩
      · have howner := keyRefusal_none hscope hkey entry hentry
        exact decide_eq_true (howner.trans hp)
      · have hheld := policyRefusal_none hscope hinput h
        rwa [hp] at hheld

end

/-! ## 4. The record of a personal call -/

/-- A key as a policy narrows it. -/
structure Narrowed (p : String) (policyId : String) (policy : AccessPolicyEntry)
    (credential : ProxyCredential) : Prop where
  principalId : credential.principalId = some p
  policyId : credential.policyId = policyId
  generation : credential.policyGeneration = policy.policy.generation
  tiers : ∀ tier ∈ credential.serviceTiers.getD [], tier ∈ grantedServiceTiers policy.policy

theorem nextPutCredential_narrowed {input : CredentialInput} {existing : Option ProxyCredential}
    {policy : AccessPolicyEntry} {p revision : String} (hscope : request.scope = .personal)
    (h : nextPutCredential platform request input existing policy.policy (some p) revision =
      .ok credential) : Narrowed p input.policyId policy credential := by
  unfold nextPutCredential at h
  simp only [Fallible.bind_ok, Fallible.require_ok, Fallible.pure_ok] at h
  obtain ⟨_, _, secret, _, expiry, _, name, _, _, htiers, attestation, _, rfl⟩ := h
  refine ⟨if_pos hscope, rfl, rfl, fun tier htier => ?_⟩
  have hpersonal : decide (request.scope = CredentialScope.admin) = false := by rw [hscope]; rfl
  rw [hpersonal, Bool.false_or] at htiers
  exact List.contains_iff_mem.mp (List.all_eq_true.mp htiers tier htier)

/-- What a rotation, a renaming or a revocation leaves as it was. -/
structure SameGrant (existing credential : ProxyCredential) : Prop where
  principalId : credential.principalId = existing.principalId
  policyId : credential.policyId = existing.policyId
  generation : credential.policyGeneration = existing.policyGeneration
  tiers : credential.serviceTiers = existing.serviceTiers

theorem nextOfExisting_same {existing : ProxyCredential}
    (h : nextOfExisting platform request existing = .ok credential) : SameGrant existing credential := by
  obtain ⟨_, _, h⟩ := Fallible.bind_ok.mp h
  split at h
  · simp only [Fallible.bind_ok, Fallible.pure_ok] at h
    obtain ⟨_, _, rfl⟩ := h
    exact ⟨rfl, rfl, rfl, rfl⟩
  · simp only [Fallible.bind_ok, Fallible.pure_ok] at h
    obtain ⟨_, _, rfl⟩ := h
    exact ⟨rfl, rfl, rfl, rfl⟩
  · cases h
    exact ⟨rfl, rfl, rfl, rfl⟩

/-- The record of an admitted call: granted now, or as it was. -/
inductive Recorded (platform : Platform) (s : Authority) (request : CredentialMutation) (p : String)
    (credential : ProxyCredential) : Prop
  | put (policy : AccessPolicyEntry) (input : request.operation.input.isSome = true)
      (found : s.getPolicy credential.policyId = some policy)
      (held : holdsPolicy platform s (s.getUser platform p) (some policy) = .ok true)
      (narrowed : Narrowed p credential.policyId policy credential)
  | kept (existing : ProxyCredentialEntry) (input : request.operation.input = none)
      (found : s.getCredential request.credentialId = some existing)
      (same : SameGrant existing.credential credential)
      (enabled : credential.enabled = true → existing.credential.enabled = true)

theorem recorded_of_next {p revision : String}
    (hscope : request.scope = .personal) (hadmitted : Admitted platform s request p)
    (h : nextCredential platform request (s.getCredential request.credentialId)
      (s.getPolicy (policyIdOf request (s.getCredential request.credentialId))) (some p) revision =
      .ok credential) : Recorded platform s request p credential := by
  unfold nextCredential at h
  split at h
  · rename_i existing input policy hinput hpolicy
    have hnarrowed := nextPutCredential_narrowed hscope h
    have hid : policyIdOf request (s.getCredential request.credentialId) = input.policyId := by
      rw [policyIdOf, hinput]
    have hsome : request.operation.input.isSome = true := by rw [hinput]; rfl
    have hheld := hadmitted.held hsome
    rw [hpolicy] at hheld
    rw [hid, ← hnarrowed.policyId] at hpolicy
    exact .put policy hsome hpolicy hheld (hnarrowed.policyId ▸ hnarrowed)
  · rename_i existing hinput hexisting
    exact .kept existing hinput hexisting (nextOfExisting_same h) (nextOfExisting_enabled hinput h).2
  · cases h

theorem Recorded.owner {p : String} {id : String}
    (h : Recorded platform s request p credential) (hadmitted : Admitted platform s request p) :
    isOwnedBy platform p ⟨id, credential⟩ = true := by
  cases h with
  | put policy _ _ _ narrowed =>
    refine decide_eq_true ?_
    show normalizeEmail platform.toLowerCase (credential.principalId.getD "") = some p
    rw [narrowed.principalId]
    exact Usage.normalizeEmail_idem platform.toCaseMapping hadmitted.actor
  | kept existing _ found same _ =>
    refine decide_eq_true ?_
    show normalizeEmail platform.toLowerCase (credential.principalId.getD "") = some p
    rw [same.principalId]
    exact of_decide_eq_true (hadmitted.own existing found)

/-! ## 5. Places -/

/-- The keys of the principal besides the one that is written. -/
def isOther (platform : Platform) (p key : String) (entry : ProxyCredentialEntry) : Bool :=
  isOwnedBy platform p entry && entry.credentialId ≠ key

theorem countP_ownedBesides (p key : String) (f : ProxyCredentialEntry → Bool) :
    (ownedBesides platform s key (some p)).countP f =
      s.credentials.rows.countP fun entry => f entry && isOther platform p key entry := by
  unfold ownedBesides listCredentials
  rw [((List.mergeSort_perm s.credentials.rows _).filter _).countP_eq, List.countP_filter]
  refine List.countP_congr fun entry _ => ?_
  simp only [isOther, isOwnedBy, Bool.and_eq_true]
  tauto

theorem length_ownedBesides (p key : String) : (ownedBesides platform s key (some p)).length =
      s.credentials.rows.countP (isOther platform p key) := by
  rw [← List.countP_true, countP_ownedBesides]
  exact List.countP_congr fun entry _ => by simp

theorem mem_ownedBesides {p key : String} (h : entry ∈ ownedBesides platform s key (some p)) :
    entry ∈ s.credentials.rows ∧ isOther platform p key entry = true := by
  obtain ⟨hlisted, hother⟩ := List.mem_filter.mp h
  refine ⟨List.mem_mergeSort.mp hlisted, ?_⟩
  rw [Bool.and_eq_true] at hother
  exact Bool.and_eq_true_iff.mpr ⟨hother.2, hother.1⟩

/-- The rows that make place for a personal key. -/
structure Places (platform : Platform) (s : Authority) (request : CredentialMutation) (p : String)
    (rows : List ProxyCredentialEntry) : Prop where
  mem : ∀ entry ∈ rows, entry ∈ s.credentials.rows ∧
    isOther platform p request.credentialId entry = true ∧ entry.credential.enabled = false
  few : request.operation.input.isSome = true → (s.credentials.rows.countP fun entry =>
    entry.credential.enabled && isOther platform p request.credentialId entry) <
      selfServiceCredentialLimit
  enough : request.operation.input.isSome = true → s.getCredential request.credentialId = none →
    s.credentials.rows.countP (isOther platform p request.credentialId) <
      selfServiceCredentialRetentionLimit + rows.length

theorem places_of_pruned {p : String} {rows : List ProxyCredentialEntry} (hscope : request.scope = .personal)
    (h : pruned platform s request (some p) (s.getCredential request.credentialId) = some rows) :
    Places platform s request p rows := by
  unfold pruned at h
  dsimp only at h
  rw [countP_ownedBesides, length_ownedBesides] at h
  split at h
  · split at h
    · cases h
    · rename_i hfew
      split at h
      · split at h
        · cases h
        · rename_i hfull hrevoked
          cases h
          refine ⟨fun entry hentry => ?_, fun _ => not_le.mp hfew, fun _ _ => ?_⟩
          · have hsorted := List.mem_mergeSort.mp (List.mem_of_mem_take hentry)
            obtain ⟨howned, hdisabled⟩ := List.mem_filter.mp hsorted
            obtain ⟨hrow, hother⟩ := mem_ownedBesides howned
            exact ⟨hrow, hother, by simpa using hdisabled⟩
          · rw [List.length_take]
            omega
      · rename_i hroom
        cases h
        refine ⟨List.forall_mem_nil _, fun _ => not_le.mp hfew, fun _ hnone => ?_⟩
        rw [hnone] at hroom
        simpa using hroom
  · rename_i hother
    cases h
    rw [hscope] at hother
    exact ⟨nofun, fun hinput => absurd (by simp [hinput]) hother, fun hinput => absurd
      (by simp [hinput]) hother⟩

/-! ## 6. One call keeps the caps -/

/-- Everything a personal call that wrote has done. -/
structure PersonalWrite (platform : Platform) (T : Credentials) (call : Call) (T' : Credentials)
    (p : String) (credential : ProxyCredential) (rows : List ProxyCredentialEntry) : Prop where
  before : call.authority.credentials = T
  updated : call.Updated
  admitted : Admitted platform call.authority call.request p
  recorded : Recorded platform call.authority call.request p credential
  places : Places platform call.authority call.request p rows
  table : T' = (T.delete (named rows)).upsert ⟨call.request.credentialId, credential⟩

section Step

variable {T T' : Credentials} {call : Call} {p : String} {credential : ProxyCredential}
  {rows : List ProxyCredentialEntry}

theorem personalStep_cases (h : PersonalStep platform T call T') : (T' = T ∧ ¬call.Updated) ∨
      ∃ p credential rows, PersonalWrite platform T call T' p credential rows := by
  obtain ⟨rfl, hscope, s', hrun, rfl⟩ := h
  rcases mutateCredential_run hrun with
    ⟨rfl, hno⟩ | ⟨credential, rows, policy, enabled, hpassed, hanswer, rfl⟩
  · refine .inl ⟨rfl, ?_⟩
    rintro ⟨entry, policy, enabled, e⟩
    exact hno entry policy enabled e
  · obtain ⟨p, hadmitted⟩ := admitted_of_checked hscope hpassed.checked
    have hnext := hpassed.next
    have hplaces := hpassed.places
    rw [hadmitted.actor] at hnext hplaces
    exact .inr ⟨p, credential, rows, rfl, ⟨_, policy, enabled, hanswer⟩, hadmitted,
      recorded_of_next hscope hadmitted hnext, places_of_pruned hscope hplaces, rfl⟩

theorem countP_delete_le (T : Credentials) (q f : ProxyCredentialEntry → Bool) :
    (T.delete q).rows.countP f ≤ T.rows.countP f :=
  List.Sublist.countP_le List.filter_sublist

theorem not_ownedBy {p q : String} (hne : q ≠ p)
    (h : isOwnedBy platform p entry = true) : isOwnedBy platform q entry = false := by
  have howner : ownerOf platform entry.credential = some p := of_decide_eq_true h
  refine decide_eq_false ?_
  rw [howner]
  exact fun e => hne (Option.some.inj e).symm

theorem others_of_existing {f : ProxyCredentialEntry → Bool}
    (hw : PersonalWrite platform T call T' p credential rows)
    (hentry : call.authority.getCredential call.request.credentialId = some entry) (hf : f entry = true) :
    T.rows.countP f = 1 + T.rows.countP fun x =>
      f x && decide (x.credentialId ≠ call.request.credentialId) := by
  obtain ⟨hrow, hkey⟩ := Table.find?_eq_some.mp hentry
  rw [hw.before] at hrow
  rw [Table.countP_split hrow hf, hkey]

theorem room_left (hcapped : Capped platform T) (hw : PersonalWrite platform T call T' p credential rows) :
    (T.delete (named rows)).rows.countP (isOther platform p call.request.credentialId) <
      selfServiceCredentialRetentionLimit := by
  have hstored := hcapped.stored p
  cases hentry : call.authority.getCredential call.request.credentialId with
  | some entry =>
    have hsplit := others_of_existing hw hentry (hw.admitted.own entry hentry)
    have hle := countP_delete_le T (named rows) (isOther platform p call.request.credentialId)
    unfold isOther at hle ⊢
    omega
  | none =>
    have hinput : call.request.operation.input.isSome = true := by
      cases hw.recorded with
      | put _ input _ _ _ => exact input
      | kept existing _ found _ _ => rw [hentry] at found; cases found
    have henough := hw.places.enough hinput hentry
    have hmem := hw.places.mem
    rw [hw.before] at henough hmem
    cases rows with
    | nil =>
      have hle := countP_delete_le T (named []) (isOther platform p call.request.credentialId)
      simp only [List.length_nil, Nat.add_zero] at henough
      omega
    | cons row rows =>
      -- the row that goes was one of at most a hundred
      obtain ⟨hrow, hother, _⟩ := hmem row List.mem_cons_self
      have hsplit := Table.countP_split hrow hother
      have hgone : (T.delete (named (row :: rows))).rows.countP
          (isOther platform p call.request.credentialId) ≤ T.rows.countP fun x =>
            isOther platform p call.request.credentialId x && decide (x.credentialId ≠ row.credentialId) := by
        show (T.rows.filter _).countP _ ≤ _
        rw [List.countP_filter]
        refine List.countP_mono_left fun x _ hx => ?_
        obtain ⟨hx, hnamed⟩ := Bool.and_eq_true_iff.mp hx
        refine Bool.and_eq_true_iff.mpr ⟨hx, decide_eq_true fun e => ?_⟩
        simp [named, e] at hnamed
      have howned : T.rows.countP (isOther platform p call.request.credentialId) ≤
          T.rows.countP (isOwnedBy platform p) :=
        List.countP_mono_left fun x _ hx => (Bool.and_eq_true_iff.mp hx).1
      omega

theorem capped_write (hcapped : Capped platform T)
    (hw : PersonalWrite platform T call T' p credential rows) : Capped platform T' := by
  have howner : isOwnedBy platform p ⟨call.request.credentialId, credential⟩ = true :=
    hw.recorded.owner hw.admitted
  constructor
  · intro q
    rw [hw.table, Table.countP_upsert]
    dsimp only
    have hle := countP_delete_le T (named rows) fun x =>
      (x.credential.enabled && isOwnedBy platform q x) && decide (x.credentialId ≠ call.request.credentialId)
    have hall : (T.rows.countP fun x => (x.credential.enabled && isOwnedBy platform q x) &&
        decide (x.credentialId ≠ call.request.credentialId)) ≤
        T.rows.countP fun x => x.credential.enabled && isOwnedBy platform q x :=
      List.countP_mono_left fun x _ hx => (Bool.and_eq_true_iff.mp hx).1
    have hcap := hcapped.enabled q
    by_cases henabled : credential.enabled = true
    · by_cases hq : q = p
      · subst hq
        rw [henabled, howner, Bool.and_self, if_pos rfl]
        cases hw.recorded with
        | put _ input _ _ _ =>
          have hfew := hw.places.few input
          rw [hw.before] at hfew
          unfold isOther at hfew
          simp only [Bool.and_assoc] at hle ⊢
          omega
        | kept existing _ found _ enabled =>
          have hsplit := others_of_existing hw found
            (f := fun x => x.credential.enabled && isOwnedBy platform q x)
            (Bool.and_eq_true_iff.mpr ⟨enabled henabled, hw.admitted.own existing found⟩)
          omega
      · rw [not_ownedBy hq howner, Bool.and_false, if_neg Bool.false_ne_true]
        omega
    · rw [Bool.eq_false_iff.mpr henabled, Bool.false_and, if_neg Bool.false_ne_true]
      omega
  · intro q
    rw [hw.table, Table.countP_upsert]
    dsimp only
    by_cases hq : q = p
    · subst hq
      have hroom := room_left hcapped hw
      unfold isOther at hroom
      rw [howner, if_pos rfl]
      omega
    · have hle := countP_delete_le T (named rows) fun x =>
        isOwnedBy platform q x && decide (x.credentialId ≠ call.request.credentialId)
      have hall : (T.rows.countP fun x => isOwnedBy platform q x &&
          decide (x.credentialId ≠ call.request.credentialId)) ≤
          T.rows.countP (isOwnedBy platform q) :=
        List.countP_mono_left fun x _ hx => (Bool.and_eq_true_iff.mp hx).1
      have hcap := hcapped.stored q
      rw [not_ownedBy hq howner, if_neg Bool.false_ne_true]
      omega

/-! ## 7. What one call changes -/

section

variable (hw : PersonalWrite platform T call T' p credential rows)
include hw

theorem mem_write :
    entry ∈ T'.rows ↔ entry = ⟨call.request.credentialId, credential⟩ ∨
      (entry ∈ T.rows ∧ named rows entry = false) ∧
        entry.credentialId ≠ call.request.credentialId := by
  rw [hw.table, Table.mem_upsert, Table.mem_delete]

theorem named_revoked (hentry : entry ∈ T.rows)
    (h : named rows entry = true) : isOwnedBy platform p entry = true ∧ entry.credential.enabled = false := by
  obtain ⟨row, hrow, hid⟩ := List.mem_map.mp (List.contains_iff_mem.mp h)
  obtain ⟨hstored, hother, hrevoked⟩ := hw.places.mem row hrow
  rw [hw.before] at hstored
  obtain rfl := Table.eq_of_key hstored hentry hid
  exact ⟨(Bool.and_eq_true_iff.mp hother).1, hrevoked⟩

theorem confined_write : Confined platform T call T' where
  owned := by
    intro entry hchange
    refine ⟨p, hw.admitted.actor, ?_⟩
    rw [mem_write hw] at hchange
    by_cases hnew : entry = ⟨call.request.credentialId, credential⟩
    · rw [hnew]
      exact hw.recorded.owner hw.admitted
    · have hentry : entry ∈ T.rows := by
        refine Classical.byContradiction fun hno => hchange ⟨fun h => absurd h hno, ?_⟩
        rintro (h | ⟨⟨h, _⟩, _⟩)
        · exact absurd h hnew
        · exact h
      by_cases hkey : entry.credentialId = call.request.credentialId
      · refine hw.admitted.own entry (Table.find?_eq_some.mpr ⟨?_, hkey⟩)
        rw [hw.before]
        exact hentry
      · cases hnamed : named rows entry with
        | true => exact (named_revoked hw hentry hnamed).1
        | false => exact absurd ⟨fun _ => .inr ⟨⟨hentry, hnamed⟩, hkey⟩, fun _ => hentry⟩ hchange
  kept := by
    intro entry hentry henabled
    by_cases hkey : entry.credentialId = call.request.credentialId
    · exact ⟨_, (mem_write hw).mpr (.inl rfl), hkey.symm⟩
    · refine ⟨entry, (mem_write hw).mpr (.inr ⟨⟨hentry, ?_⟩, hkey⟩), rfl⟩
      refine Bool.eq_false_iff.mpr fun hnamed => ?_
      rw [(named_revoked hw hentry hnamed).2] at henabled
      cases henabled
  untouched := fun hno => absurd hw.updated hno

end

theorem confined_step (h : PersonalStep platform T call T') : Confined platform T call T' := by
  rcases personalStep_cases h with ⟨rfl, _⟩ | ⟨p, credential, rows, hw⟩
  · exact ⟨fun entry hchange => absurd Iff.rfl hchange, fun entry hentry _ =>
      ⟨entry, hentry, rfl⟩, fun _ => rfl⟩
  · exact confined_write hw

/-! ## 8. What a key was granted -/

theorem LastGranted.later (h : LastGranted platform tr entry) (hno : ¬call.Puts entry.credentialId) :
    LastGranted platform (tr ++ [call]) entry := by
  obtain ⟨earlier, granting, later, rfl, hgranted, hlater⟩ := h
  refine ⟨earlier, granting, later ++ [call], by simp, hgranted, fun next hnext => ?_⟩
  rcases List.mem_append.mp hnext with hnext | hnext
  · exact hlater next hnext
  · rwa [List.mem_singleton.mp hnext]

theorem Granted.same {entry' : ProxyCredentialEntry} (h : Granted platform call entry)
    (hid : entry'.credentialId = entry.credentialId)
    (hsame : SameGrant entry.credential entry'.credential) : Granted platform call entry' where
  puts := hid ▸ h.puts
  owner := by
    rw [← h.owner]
    unfold ownerOf
    rw [hsame.principalId]
  held := by
    rw [hsame.policyId, hsame.generation, hsame.tiers]
    exact h.held

theorem granted_of_put {policy : AccessPolicyEntry} (hw : PersonalWrite platform T call T' p credential rows)
    (input : call.request.operation.input.isSome = true)
    (found : call.authority.getPolicy credential.policyId = some policy)
    (held : holdsPolicy platform call.authority (call.authority.getUser platform p) (some policy) = .ok true)
    (narrowed : Narrowed p credential.policyId policy credential) :
    Granted platform call ⟨call.request.credentialId, credential⟩ where
  puts := ⟨hw.updated, input, rfl⟩
  owner := by
    have howner : isOwnedBy platform p ⟨call.request.credentialId, credential⟩ = true :=
      hw.recorded.owner hw.admitted
    exact (of_decide_eq_true howner).trans hw.admitted.actor.symm
  held := by
    have huser : call.user platform = call.authority.getUser platform p := by
      rw [Call.user, Call.principalId, hw.admitted.actor]
      rfl
    refine ⟨policy, found, ?_, narrowed.generation, narrowed.tiers⟩
    rw [huser]
    exact held

theorem lastGranted_written (hall : ∀ entry ∈ T.rows, LastGranted platform tr entry)
    (hw : PersonalWrite platform T call T' p credential rows) :
    LastGranted platform (tr ++ [call]) ⟨call.request.credentialId, credential⟩ := by
  cases hw.recorded with
  | put policy input found held narrowed =>
    exact ⟨tr, call, [], rfl, granted_of_put hw input found held narrowed, fun _ hnext => absurd
      hnext List.not_mem_nil⟩
  | kept existing input found same _ =>
    obtain ⟨hrow, hid⟩ := Table.find?_eq_some.mp found
    rw [hw.before] at hrow
    obtain ⟨earlier, granting, later, htr, hgranted, hlater⟩ := hall existing hrow
    rw [hid] at hlater
    have hlast : LastGranted platform tr ⟨call.request.credentialId, credential⟩ :=
      ⟨earlier, granting, later, htr, hgranted.same hid.symm same, hlater⟩
    refine hlast.later ?_
    rintro ⟨_, hinput, _⟩
    rw [input] at hinput
    cases hinput

theorem lastGranted_step (hall : ∀ entry ∈ T.rows, LastGranted platform tr entry)
    (h : PersonalStep platform T call T') : ∀ entry ∈ T'.rows, LastGranted platform (tr ++ [call]) entry := by
  rcases personalStep_cases h with ⟨rfl, hno⟩ | ⟨p, credential, rows, hw⟩
  · exact fun entry hentry => (hall entry hentry).later fun hputs => hno hputs.1
  · intro entry hentry
    rcases (mem_write hw).mp hentry with rfl | ⟨⟨hold, _⟩, hkey⟩
    · exact lastGranted_written hall hw
    · exact (hall entry hold).later fun hputs => hkey hputs.2.2.symm

end Step

/-! ## 9. Runs -/

theorem capped_run {T : Credentials} (h : Run (PersonalStep platform) Table.empty tr T) :
    Capped platform T := by
  refine h.invariant (I := Capped platform) ⟨fun _ => Nat.zero_le _, fun _ => Nat.zero_le _⟩ ?_
  intro T call T' hcapped hstep
  rcases personalStep_cases hstep with ⟨rfl, _⟩ | ⟨p, credential, rows, hw⟩
  · exact hcapped
  · exact capped_write hcapped hw

/-- **Along every run of personal calls** the keys of a principal are few, each holds what its
    actor was granted when it was last created or put, and the next call changes only keys of its
    actor, deletes none that is enabled, and changes nothing where it does not answer `updated`. -/
theorem personal_calls {tr : List Call} {T : Credentials} (h : Run (PersonalStep platform) Table.empty tr T) :
    Capped platform T ∧ (∀ entry ∈ T.rows, LastGranted platform tr entry) ∧
      ∀ call T', PersonalStep platform T call T' → Confined platform T call T' := by
  refine ⟨capped_run h, ?_, fun call T' => confined_step⟩
  refine h.invariant_along (I := fun tr T => ∀ entry ∈ T.rows, LastGranted platform tr entry)
    (fun entry hentry => absurd hentry List.not_mem_nil) ?_
  intro tr T call T' hall hstep
  exact lastGranted_step hall hstep

end Personal

/-! ## 10. A first key -/

section Witness

def memberEmail : String := "member@example.com"

def memberBinding : PolicyBinding := ⟨⟨"user", memberEmail⟩, "team", some true, none⟩

/-- A member who is bound to the policy of the team. -/
def staffed : Authority :=
  { Authority.empty with
    principals := [principalKey memberBinding.toPrincipal]
    bindings := Table.empty.insert ⟨principalKey memberBinding.toPrincipal,
      bindingKey memberBinding, memberBinding⟩
    users := Table.empty.insert ⟨memberEmail, ⟨none, none, none, none, none, none, none⟩⟩
    policies := Table.empty.insert teamPolicy }

def firstCreate : CredentialMutation :=
  ⟨"key_1", .personal, ⟨.localAccount, memberEmail, .user⟩,
    .create ⟨none, none, true, "digest", "team", none, none, none⟩, none⟩

def firstCall : Call := ⟨firstCreate, "", staffed, (mutateCredential plainPlatform firstCreate "" staffed).1⟩

def firstKeys : Authority :=
  { staffed with credentials := (mutateCredential plainPlatform firstCreate "" staffed).2.credentials }

def secondCreate : CredentialMutation :=
  ⟨"key_2", .personal, ⟨.localAccount, memberEmail, .user⟩,
    .create ⟨none, none, true, "other digest", "team", none, none, none⟩, none⟩

def secondCall : Call :=
  ⟨secondCreate, "", firstKeys, (mutateCredential plainPlatform secondCreate "" firstKeys).1⟩

/-- The keys of both calls are there, and what is proved of runs holds of them. -/
theorem first_key_granted : ∃ tr T, Run (PersonalStep plainPlatform) Table.empty tr T ∧
    T.rows.length = 2 ∧ Capped plainPlatform T ∧ (∀ entry ∈ T.rows, LastGranted plainPlatform tr entry) ∧
    ∀ call T', PersonalStep plainPlatform T call T' → Confined plainPlatform T call T' := by
  have hfirst : PersonalStep plainPlatform Table.empty firstCall firstKeys.credentials :=
    ⟨rfl, rfl, _, rfl, rfl⟩
  have hsecond : PersonalStep plainPlatform firstKeys.credentials secondCall
      (mutateCredential plainPlatform secondCreate "" firstKeys).2.credentials :=
    ⟨rfl, rfl, _, rfl, rfl⟩
  have hrun := (Run.start.next hfirst).next hsecond
  exact ⟨_, _, hrun, by decide +kernel, personal_calls hrun⟩

end Witness

end ClawRouter.Access
