/-
  Subject:   What the authority does with its tables (src/worker/authority.ts): the writes of an
             administrator or an owner, and the seeds, which bring in what KV held before the
             authority existed.

  A seed carries a KV snapshot that may be old by the time it arrives. It writes a row only where
  there is none, and nothing once the import of that kind of record is closed.

  * `Only`: a write changes one item; `seed_shields`: a seed changes no fenced item.
-/
import ClawRouter.Access.Records
import ClawRouter.Lib.Command

namespace ClawRouter.Access

open Commands Commands.Command Keyed Js
open Usage (normalizeEmail)
open Grants (invalidAuthorityRequest)

abbrev Task (α : Type) := Command Authority HttpError α

variable (platform : Platform)

/-! ## 1. Writes -/

def putMeta (mark : Mark) : Task Unit :=
  update fun s => { s with marks := if s.hasMeta mark then s.marks else mark :: s.marks }

def storeUser (user : AccessControlUser) : Task Unit :=
  update fun s => { s with users := s.users.upsert user }

def putUser (raw : AccessControlUser) : Task Unit := do
  let user ← lift (normalizeUser platform raw)
  storeUser user

def storePolicy (entry : AccessPolicyEntry) : Task Unit :=
  update fun s => { s with policies := s.policies.upsert entry }

def putPolicy (entry : AccessPolicyEntry) : Task Unit := do
  lift (Fallible.require (entry.policyId ≠ "") (invalidAuthorityRequest "policyId is required"))
  storePolicy entry

def putCredential (entry : ProxyCredentialEntry) : Task Unit :=
  update fun s => { s with credentials := s.credentials.upsert entry }

/-- `INSERT OR IGNORE INTO policy_binding_principals`. -/
def storePrincipal (key : String) : Task Unit :=
  update fun s => { s with principals := if s.hasPrincipal key then s.principals
    else key :: s.principals }

/-- `INSERT OR REPLACE INTO policy_binding_entries`. -/
def storeBinding (key : String) (binding : PolicyBinding) : Task Unit :=
  update fun s => { s with bindings := s.bindings.upsert ⟨key, bindingKey binding, binding⟩ }

def putBinding (raw : PolicyBinding) : Task Unit := do
  let binding ← lift (normalizeBinding platform raw)
  storeBinding (principalKey binding.toPrincipal) binding
  storePrincipal (principalKey binding.toPrincipal)

/-- The fields of a change over those of the connection there is. -/
def mergeConnection (current : Option ProviderConnection) (mutation : ProviderConnectionMutation) :
    ProviderConnection where
  providerId := mutation.providerId
  enabled := mutation.enabled.getD ((current.map (·.enabled)).getD true)
  label := mutation.label.getD (current.bind (·.label))
  monthlyBudgetMicros := mutation.monthlyBudgetMicros.getD (current.bind (·.monthlyBudgetMicros))

/-- `INSERT OR REPLACE INTO provider_connections`. -/
def storeConnection (connection : ProviderConnection) : Task Unit :=
  update fun s => { s with connections := s.connections.upsert connection }

def putConnection (input : ProviderConnectionInput) : Task Unit := do
  let mutation ← lift (normalizeConnectionMutation input)
  let current ← query (·.getConnection mutation.providerId)
  storeConnection (mergeConnection current mutation)

def updateUserProfile (raw : AccessControlUser) : Task AccessControlUser := do
  let current ← query (·.getUser platform raw.email)
  let user ← lift (profileUpdate platform raw (current.map (·.record)))
  putUser platform user
  return user

def createUser (defaults : AccessControlUser) : Task Unit := do
  let existing ← query (·.getUser platform defaults.email)
  if existing.isSome then pure () else putUser platform defaults

def bindingBefore (a b : PolicyBinding) : Bool :=
  let byPriority := compare (a.priority.getD 100) (b.priority.getD 100)
  (byPriority.then ((platform.localeCompare a.principalType b.principalType).then
    ((platform.localeCompare a.principalId b.principalId).then
      (platform.localeCompare a.policyId b.policyId)))) ≠ .gt

def sortBindings (values : List PolicyBinding) : Answer (List PolicyBinding) := do
  let normalized ← values.mapM (normalizeBinding platform)
  return normalized.mergeSort (bindingBefore platform)

/-- `resolveBindings`, of the principals that are known. -/
def resolveBindings (s : Authority) (principals : List Principal) : Answer (List PolicyBinding) := do
  let known ← principals.mapM (normalizePrincipal platform)
  let keys := (known.map principalKey).filter s.hasPrincipal
  sortBindings platform ((keys.flatMap s.bindingsOf).map (·.binding))

/-! ## 2. Seeds -/

def whereMissing {α : Type} (found : Authority → Option α) (write : Task Unit) : Task Unit := do
  let existing ← query found
  if existing.isSome then pure () else write

/-- `if (this.hasMeta(mark)) return;` before an import. -/
def unlessClosed (mark : Mark) (load : Task Unit) : Task Unit := do
  let closed ← query (·.hasMeta mark)
  if closed then pure () else load

def initializeUsers (users : List AccessControlUser) : Task Unit :=
  unlessClosed .users (users.forM fun user =>
    whereMissing (·.getUser platform user.email) (putUser platform user))

def initializePolicies (entries : List AccessPolicyEntry) : Task Unit :=
  unlessClosed .policies (entries.forM fun entry =>
    whereMissing (·.getPolicy entry.policyId) (putPolicy entry))

def initializeConnections (items : List ProviderConnectionInput) : Task Unit :=
  unlessClosed .connections (items.forM fun item =>
    whereMissing (·.getConnection item.providerId) (putConnection item))

/-- An imported credential carries no attestation of an administrator. -/
def unattested (entry : ProxyCredentialEntry) : ProxyCredentialEntry :=
  { entry with credential := { entry.credential with copilotPublicIdentity := none } }

def initializeCredentials (entries : List ProxyCredentialEntry) : Task Unit :=
  unlessClosed .credentials (entries.forM fun entry =>
    whereMissing (·.getCredential entry.credentialId) (putCredential (unattested entry)))

/-- The bindings of one seed, then the mark of its principal. -/
def loadSeed (principal : Principal) (bindings : List PolicyBinding) : Task Unit := do
  (bindings.filter fun binding => binding.toPrincipal = principal).forM (putBinding platform)
  storePrincipal (principalKey principal)

def initializeSeed (seed : Seed) : Task Unit := do
  let principal ← lift (normalizePrincipal platform seed.principal)
  let known ← query (·.hasPrincipal (principalKey principal))
  if known then pure () else loadSeed platform principal seed.bindings

def initializeBindings (seeds : List Seed) : Task Unit :=
  unlessClosed .bindings (seeds.forM (initializeSeed platform))

/-- A binding goes to the seed of its principal, which is made where there is none. -/
def addToSeeds (seeds : List Seed) (principal : Principal) (binding : PolicyBinding) : List Seed :=
  if seeds.any fun seed => principalKey seed.principal = principalKey principal then
    seeds.map fun seed =>
      if principalKey seed.principal = principalKey principal then
        { seed with bindings := seed.bindings ++ [binding] }
      else seed
  else seeds ++ [⟨principal, [binding]⟩]

/-- The `grouped` map of `initializeAllBindings`. -/
def groupSeeds (bindings : List PolicyBinding) : Answer (List Seed) :=
  bindings.foldlM (fun seeds binding => do
    let principal ← normalizePrincipal platform binding.toPrincipal
    return addToSeeds seeds principal binding) []

def initializeAllBindings (bindings : List PolicyBinding) : Task Unit := do
  let seeds ← lift (groupSeeds platform bindings)
  initializeBindings platform seeds
  putMeta .bindings

/-! ### The bounded forms -/

/-- The users of a seed that will be written: the first of each address that has no row. -/
def candidateUsers (s : Authority) : List AccessControlUser → List String → Answer (List AccessControlUser)
  | [], _ => .ok []
  | raw :: rest, inserted =>
    let email := normalizeEmail platform.toLowerCase raw.email
    if email.any inserted.contains || (s.getUser platform raw.email).isSome then
      candidateUsers s rest inserted
    else do
      let user ← normalizeUser platform raw
      let more ← candidateUsers s rest (user.email :: inserted)
      return user :: more

/-- `initializeMaterializedUsers`. Every check and every normalization precedes the first write;
    `budgets` is what the budgets of the request answer. -/
def initializeMaterializedUsers (budgets : Answer Unit) (users : List AccessControlUser) : Task Unit :=
  unlessClosed .users do
    let candidates ← query fun s => candidateUsers platform s users []
    let candidates ← lift candidates
    lift budgets
    candidates.forM storeUser

/-- The entries of `/policies/initialize`: normalized by the caller or as they were in KV. -/
inductive CollectedPolicies
  | entries (entries : List AccessPolicyEntry)
  | raw (entries : List (String × Json)) (retainRequestContentDefault : Bool)

/-- The entries with their policies in normal form. -/
def CollectedPolicies.normal : CollectedPolicies → List (String × Answer AccessPolicy)
  | .entries list => list.map fun entry => (entry.policyId, .ok entry.policy)
  | .raw list retain =>
    list.map fun entry => (entry.1, platform.normalizePolicyRecord entry.2 retain)

/-- The policies of a seed that will be written: the first of each id that has no row. -/
def candidatePolicies (s : Authority) : List (String × Answer AccessPolicy) → List String →
    Answer (List AccessPolicyEntry)
  | [], _ => .ok []
  | (policyId, policy) :: rest, staged =>
    if (s.getPolicy policyId).isSome || staged.contains policyId then
      candidatePolicies s rest staged
    else do
      Fallible.require (policyId ≠ "") (invalidAuthorityRequest "policyId is required")
      let policy ← policy
      let more ← candidatePolicies s rest (policyId :: staged)
      return ⟨policyId, policy⟩ :: more

def initializeCollectedPolicies (budgets : Answer Unit) (input : CollectedPolicies) : Task Unit :=
  unlessClosed .policies do
    let candidates ← query fun s => candidatePolicies s (input.normal platform) []
    let candidates ← lift candidates
    lift budgets
    candidates.forM storePolicy

/-- What one seed of `initializeCollectedBindings` writes. -/
structure PreparedSeed where
  key : String
  writes : List PolicyBinding

/-- The seeds that will be written: the first of each principal that is not known. -/
def preparedSeeds (s : Authority) : List Seed → List String → Answer (List PreparedSeed)
  | [], _ => .ok []
  | seed :: rest, staged => do
    let principal ← normalizePrincipal platform seed.principal
    let key := principalKey principal
    if s.hasPrincipal key || staged.contains key then preparedSeeds s rest staged
    else do
      let writes ← (seed.bindings.filter fun raw => raw.toPrincipal = principal).mapM
        (normalizeBinding platform)
      let more ← preparedSeeds s rest (key :: staged)
      return ⟨key, writes⟩ :: more

def storeSeed (seed : PreparedSeed) : Task Unit := do
  seed.writes.forM fun binding => do
    storeBinding seed.key binding
    storePrincipal seed.key
  storePrincipal seed.key

def initializeCollectedBindings (budgets : Answer Unit) (seeds : List Seed) : Task Unit :=
  unlessClosed .bindings do
    let prepared ← query fun s => preparedSeeds platform s seeds []
    let prepared ← lift prepared
    lift budgets
    prepared.forM storeSeed

/-! ## 3. Writes that begin with a seed -/

/-- The bindings a user is to have. -/
structure UserBindingsRequest where
  user : AccessControlUser
  policyIds : List String
  seed : Seed

def putUserBindings (request : UserBindingsRequest) : Task Unit := do
  initializeBindings platform [request.seed]
  let user ← updateUserProfile platform request.user
  let principal : Principal := ⟨"user", user.email⟩
  let current ← query fun s => resolveBindings platform s [principal]
  let current ← lift current
  current.forM fun binding =>
    putBinding platform { binding with enabled := some (request.policyIds.contains binding.policyId) }
  (request.policyIds.eraseDups.filter fun id => !current.any fun binding => binding.policyId = id).forM
    fun policyId => putBinding platform
      { toPrincipal := principal, policyId, enabled := some true, priority := some 100 }

/-- `/mutate`: a binding of an administrator, after the seed of a principal. -/
def mutateBinding (seed : Seed) (binding : PolicyBinding) : Task Unit := do
  initializeBindings platform [seed]
  putBinding platform binding

/-! ## 4. Records and what protects them -/

/-- A record of the authority; the bindings of a principal are one. -/
inductive Item
  | user (email : String)
  | policy (id : String)
  | connection (id : String)
  | credential (id : String)
  | bindings (key : String)
  deriving DecidableEq

namespace Item

def mark : Item → Mark
  | .user _ => .users
  | .policy _ => .policies
  | .connection _ => .connections
  | .credential _ => .credentials
  | .bindings _ => .bindings

end Item

def Same : Item → Authority → Authority → Prop
  | .user email, s, s' => s'.users.find? email = s.users.find? email
  | .policy id, s, s' => s'.policies.find? id = s.policies.find? id
  | .connection id, s, s' => s'.connections.find? id = s.connections.find? id
  | .credential id, s, s' => s'.credentials.find? id = s.credentials.find? id
  | .bindings key, s, s' =>
    s'.hasPrincipal key = s.hasPrincipal key ∧ s'.bindingsOf key = s.bindingsOf key

def Present : Item → Authority → Prop
  | .user email, s => (s.users.find? email).isSome = true
  | .policy id, s => (s.policies.find? id).isSome = true
  | .connection id, s => (s.connections.find? id).isSome = true
  | .credential id, s => (s.credentials.find? id).isSome = true
  | .bindings key, s => s.hasPrincipal key = true

/-- What keeps a seed from the record: it is there, or its import is closed. -/
def Fenced (item : Item) (s : Authority) : Prop := Present item s ∨ s.hasMeta item.mark = true

def Only (it : Item) (s s' : Authority) : Prop := s'.marks = s.marks ∧ ∀ item, item ≠ it → Same item s s'

/-- An import of one kind changes no record of another kind, and none that is there. -/
def Leaves (mark : Mark) (s s' : Authority) : Prop :=
  s'.marks = s.marks ∧ ∀ item : Item, (item.mark = mark → Present item s) → Same item s s'

/-- **No fenced record changes**, and no fence is lost. -/
def Shields (s s' : Authority) : Prop := s.marks ⊆ s'.marks ∧ ∀ item, Fenced item s → Same item s s'

/-- Nothing but a credential is ever removed, and no import is opened again. -/
def Holds (s s' : Authority) : Prop :=
  s.marks ⊆ s'.marks ∧ ∀ item : Item, item.mark ≠ .credentials → Present item s → Present item s'

/-- The same, and no credential is written once the import of credentials is closed. -/
def Grows (s s' : Authority) : Prop :=
  Holds s s' ∧ (s.hasMeta .credentials = true → ∀ id, Same (.credential id) s s')

section Relations

variable {item it : Item} {mark : Mark} {s s' s'' : Authority}

theorem same_refl : ∀ (item : Item) (s : Authority), Same item s s
  | .user _, _ | .policy _, _ | .connection _, _ | .credential _, _ => rfl
  | .bindings _, _ => ⟨rfl, rfl⟩

theorem Same.trans (h : Same item s s') (h' : Same item s' s'') : Same item s s'' := by
  cases item with
  | user email | policy id | connection id | credential id => exact Eq.trans h' h
  | bindings key => exact ⟨h'.1.trans h.1, h'.2.trans h.2⟩

theorem Same.present (h : Same item s s') : Present item s' ↔ Present item s := by
  cases item with
  | user email | policy id | connection id
  | credential id => exact iff_of_eq (congrArg (fun r => Option.isSome r = true) h)
  | bindings key => exact iff_of_eq (congrArg (· = true) h.1)

theorem hasMeta_iff : s.hasMeta mark = true ↔ mark ∈ s.marks := by
  exact List.contains_iff_mem

theorem hasMeta_mono (h : s.marks ⊆ s'.marks) (hm : s.hasMeta mark = true) : s'.hasMeta mark = true :=
  hasMeta_iff.mpr (h (hasMeta_iff.mp hm))

theorem only_refl (it : Item) (s : Authority) : Only it s s := ⟨rfl, fun item _ => same_refl item s⟩

theorem Only.trans (h : Only it s s') (h' : Only it s' s'') : Only it s s'' :=
  ⟨h'.1.trans h.1, fun item hne => (h.2 item hne).trans (h'.2 item hne)⟩

theorem leaves_refl (mark : Mark) (s : Authority) : Leaves mark s s := ⟨rfl, fun item _ => same_refl item s⟩

theorem Leaves.trans (h : Leaves mark s s') (h' : Leaves mark s' s'') : Leaves mark s s'' := by
  refine ⟨h'.1.trans h.1, fun item hp => ?_⟩
  have hsame := h.2 item hp
  exact hsame.trans (h'.2 item fun e => hsame.present.mpr (hp e))

theorem Only.leaves (h : Only it s s') (hmark : it.mark = mark) (hmissing : ¬ Present it s) :
    Leaves mark s s' := by
  refine ⟨h.1, fun item hp => ?_⟩
  by_cases e : item = it
  · rw [e] at hp
    exact absurd (hp hmark) hmissing
  · exact h.2 item e

theorem shields_refl (s : Authority) : Shields s s := ⟨fun _ h => h, fun item _ => same_refl item s⟩

theorem Shields.fenced (h : Shields s s') (hf : Fenced item s) : Fenced item s' := by
  rcases hf with hp | hm
  · exact .inl ((h.2 item (.inl hp)).present.mpr hp)
  · exact .inr (hasMeta_mono h.1 hm)

theorem Shields.trans (h : Shields s s') (h' : Shields s' s'') : Shields s s'' :=
  ⟨fun _ hm => h'.1 (h.1 hm), fun item hf => (h.2 item hf).trans (h'.2 item (h.fenced hf))⟩

theorem Holds.trans (h : Holds s s') (h' : Holds s' s'') : Holds s s'' :=
  ⟨fun _ hm => h'.1 (h.1 hm), fun item hc hp => h'.2 item hc (h.2 item hc hp)⟩

theorem grows_refl (s : Authority) : Grows s s :=
  ⟨⟨fun _ h => h, fun _ _ h => h⟩, fun _ id => same_refl (.credential id) s⟩

theorem Grows.trans (h : Grows s s') (h' : Grows s' s'') : Grows s s'' :=
  ⟨h.1.trans h'.1, fun hm id => (h.2 hm id).trans (h'.2 (hasMeta_mono h.1.1 hm) id)⟩

theorem Shields.grows (h : Shields s s') : Grows s s' :=
  ⟨⟨h.1, fun item _ hp => (h.2 item (.inl hp)).present.mpr hp⟩,
    fun hm id => h.2 (.credential id) (.inr hm)⟩

theorem Only.grows (h : Only it s s') (hit : it.mark ≠ .credentials)
    (hp : Present it s → Present it s') : Grows s s' := by
  refine ⟨⟨fun _ hm => h.1 ▸ hm, fun item _ hitem => ?_⟩, fun _ id => h.2 _ fun e => hit ?_⟩
  · by_cases e : item = it
    · rw [e] at hitem ⊢
      exact hp hitem
    · exact (h.2 item e).present.mpr hitem
  · rw [← e]
    rfl

theorem Leaves.shields (h : Leaves mark s s') (hopen : s.hasMeta mark = false) : Shields s s' := by
  refine ⟨fun _ hm => h.1 ▸ hm, fun item hf => h.2 item fun e => ?_⟩
  rcases hf with hp | hm
  · exact hp
  · rw [e, hopen] at hm
    cases hm

end Relations

/-! ## 5. What the writes change -/

section Writes

variable {platform}

theorem only_storeUser (user : AccessControlUser) : Keeps (Only (.user user.email)) (storeUser user) := by
  intro s
  refine ⟨rfl, fun item hne => ?_⟩
  cases item with
  | user email =>
    show (s.users.upsert user).find? email = s.users.find? email
    rw [Table.find?_upsert, if_neg fun e => hne (by rw [e])]
  | policy id | connection id | credential id => rfl
  | bindings key => exact ⟨rfl, rfl⟩

theorem only_storePolicy (entry : AccessPolicyEntry) :
    Keeps (Only (.policy entry.policyId)) (storePolicy entry) := by
  intro s
  refine ⟨rfl, fun item hne => ?_⟩
  cases item with
  | user email => rfl
  | policy id =>
    show (s.policies.upsert entry).find? id = s.policies.find? id
    rw [Table.find?_upsert, if_neg fun e => hne (by rw [e])]
  | connection id => rfl
  | credential id => rfl
  | bindings key => exact ⟨rfl, rfl⟩

theorem only_storeConnection (connection : ProviderConnection) :
    Keeps (Only (.connection connection.providerId)) (storeConnection connection) := by
  intro s
  refine ⟨rfl, fun item hne => ?_⟩
  cases item with
  | user email => rfl
  | policy id => rfl
  | connection id =>
    show (s.connections.upsert connection).find? id = s.connections.find? id
    rw [Table.find?_upsert, if_neg fun e => hne (by rw [e])]
  | credential id => rfl
  | bindings key => exact ⟨rfl, rfl⟩

theorem only_putCredential (entry : ProxyCredentialEntry) :
    Keeps (Only (.credential entry.credentialId)) (putCredential entry) := by
  intro s
  refine ⟨rfl, fun item hne => ?_⟩
  cases item with
  | user email | policy id | connection id => rfl
  | credential id =>
    show (s.credentials.upsert entry).find? id = s.credentials.find? id
    rw [Table.find?_upsert, if_neg fun e => hne (by rw [e])]
  | bindings key => exact ⟨rfl, rfl⟩

theorem only_storePrincipal (key : String) : Keeps (Only (.bindings key)) (storePrincipal key) := by
  intro s
  refine ⟨rfl, fun item hne => ?_⟩
  cases item with
  | user email | policy id | connection id | credential id => rfl
  | bindings other =>
    have hother : other ≠ key := fun e => hne (by rw [e])
    refine ⟨?_, rfl⟩
    show List.contains (if s.hasPrincipal key then s.principals else key :: s.principals) other =
      s.principals.contains other
    split
    · rfl
    · rw [List.contains_cons, beq_eq_false_iff_ne.mpr hother, Bool.false_or]

theorem only_storeBinding (key : String) (binding : PolicyBinding) :
    Keeps (Only (.bindings key)) (storeBinding key binding) := by
  intro s
  refine ⟨rfl, fun item hne => ?_⟩
  cases item with
  | user email | policy id | connection id | credential id => rfl
  | bindings other =>
    have hother : other ≠ key := fun e => hne (by rw [e])
    refine ⟨rfl, ?_⟩
    refine Table.filter_upsert fun x hx => ?_
    have hkey : x.principalKey = key := congrArg Prod.fst hx
    exact decide_eq_false fun e => hother (e.symm.trans hkey)

theorem present_storeUser (user : AccessControlUser) (s : Authority) :
    Present (.user user.email) (storeUser user s).2 := by
  show ((s.users.upsert user).find? user.email).isSome = true
  rw [Table.find?_upsert, if_pos rfl]
  rfl

theorem present_storePolicy (entry : AccessPolicyEntry) (s : Authority) :
    Present (.policy entry.policyId) (storePolicy entry s).2 := by
  show ((s.policies.upsert entry).find? entry.policyId).isSome = true
  rw [Table.find?_upsert, if_pos rfl]
  rfl

theorem present_storeConnection (connection : ProviderConnection) (s : Authority) :
    Present (.connection connection.providerId) (storeConnection connection s).2 := by
  show ((s.connections.upsert connection).find? connection.providerId).isSome = true
  rw [Table.find?_upsert, if_pos rfl]
  rfl

theorem present_storePrincipal (key : String) (s : Authority) :
    Present (.bindings key) (storePrincipal key s).2 := by
  show List.contains (if s.hasPrincipal key then s.principals else key :: s.principals) key = true
  split
  · assumption
  · rw [List.contains_cons, beq_self_eq_true, Bool.true_or]

theorem only_putUser {raw : AccessControlUser} {it : Item}
    (h : ∀ user, normalizeUser platform raw = .ok user → it = .user user.email) :
    Keeps (Only it) (putUser platform raw) := by
  intro s
  refine keepsAt_lift_bind (only_refl it) fun user huser => ?_
  rw [h user huser]
  exact only_storeUser user s

theorem only_putPolicy (entry : AccessPolicyEntry) :
    Keeps (Only (.policy entry.policyId)) (putPolicy entry) := by
  intro s
  exact keepsAt_lift_bind (only_refl _) fun _ _ => only_storePolicy entry s

theorem providerId_of_normalize {input : ProviderConnectionInput}
    {mutation : ProviderConnectionMutation} (h : normalizeConnectionMutation input = .ok mutation) :
    mutation.providerId = input.providerId := by
  unfold normalizeConnectionMutation at h
  simp only [Fallible.bind_ok, Fallible.pure_ok] at h
  obtain ⟨_, _, _, _, _, _, rfl⟩ := h
  rfl

theorem only_putConnection (input : ProviderConnectionInput) :
    Keeps (Only (.connection input.providerId)) (putConnection input) := by
  intro s
  refine keepsAt_lift_bind (only_refl _) fun mutation hmutation => ?_
  refine keepsAt_query_bind ?_
  rw [← providerId_of_normalize hmutation]
  exact only_storeConnection (mergeConnection _ mutation) s

theorem only_putBinding {raw : PolicyBinding} {key : String}
    (h : ∀ binding, normalizeBinding platform raw = .ok binding → principalKey binding.toPrincipal = key) :
    Keeps (Only (.bindings key)) (putBinding platform raw) := by
  intro s
  refine keepsAt_lift_bind (only_refl _) fun binding hbinding => ?_
  rw [h binding hbinding]
  refine KeepsAt.bind (R := Only _) (fun _ _ _ => Only.trans)
    (only_storeBinding key binding s) fun _ s' _ => ?_
  exact only_storePrincipal key s'

end Writes

/-! ## 6. What the seeds change -/

variable {s : Authority}

section Seeds

variable {platform} {mark : Mark}

theorem leaves_whereMissing {α : Type} {found : Authority → Option α} {write : Task Unit} (it : Item)
    (hwrite : Keeps (Only it) write) (hmark : it.mark = mark)
      (hmissing : ∀ s, found s = none → ¬ Present it s) :
    Keeps (Leaves mark) (whereMissing found write) := by
  intro s
  refine keepsAt_query_bind ?_
  cases hf : found s with
  | some row => exact leaves_refl mark s
  | none => exact (hwrite s).leaves hmark (hmissing s hf)

theorem shields_unlessClosed {load : Task Unit}
    (h : ∀ s : Authority, s.hasMeta mark = false → KeepsAt (Leaves mark) load s) :
    Keeps Shields (unlessClosed mark load) := by
  intro s
  refine keepsAt_query_bind ?_
  cases hclosed : s.hasMeta mark with
  | true => exact shields_refl s
  | false => exact Leaves.shields (h s hclosed) hclosed

theorem unlessClosed_closed (h : s.hasMeta mark = true) (load : Task Unit) :
    unlessClosed mark load s = (.ok ⟨⟩, s) := by
  unfold unlessClosed
  rw [query_bind, h]
  rfl

theorem leaves_forM {ι : Type} {body : ι → Task Unit} {l : List ι}
    (h : ∀ x ∈ l, Keeps (Leaves mark) (body x)) : Keeps (Leaves mark) (l.forM body) :=
  keeps_forM (R := Leaves mark) (leaves_refl mark) (fun _ _ _ => Leaves.trans) h

theorem shields_initializeUsers (users : List AccessControlUser) :
    Keeps Shields (initializeUsers platform users) := by
  refine shields_unlessClosed fun s _ => leaves_forM (fun user _ => ?_) s
  cases hmail : normalizeEmail platform.toLowerCase user.email with
  | none =>
    -- without an address there is no row, and the write throws
    have hfail : ∀ u, normalizeUser platform user = .ok u → False := by
      intro u hu
      unfold normalizeUser at hu
      rw [hmail] at hu
      cases hu
    intro s
    refine keepsAt_query_bind ?_
    split
    · exact leaves_refl _ s
    · exact keepsAt_lift_bind (leaves_refl _) fun u hu => (hfail u hu).elim
  | some email =>
    refine leaves_whereMissing (.user email) (only_putUser fun u hu => ?_) rfl fun s hf hp => ?_
    · unfold normalizeUser at hu
      rw [hmail] at hu
      cases hu
      rfl
    · unfold Authority.getUser at hf
      rw [hmail] at hf
      have hp : (s.users.find? email).isSome = true := hp
      rw [show s.users.find? email = none from hf] at hp
      cases hp

theorem not_present_policy {id : String} (h : s.getPolicy id = none) : ¬ Present (.policy id) s := by
  intro hp
  have hp : (s.policies.find? id).isSome = true := hp
  rw [show s.policies.find? id = none from h] at hp
  cases hp

theorem shields_initializePolicies (entries : List AccessPolicyEntry) :
    Keeps Shields (initializePolicies entries) := by
  refine shields_unlessClosed fun s _ => leaves_forM (fun entry _ => ?_) s
  exact leaves_whereMissing _ (only_putPolicy entry) rfl fun _ => not_present_policy

theorem shields_initializeConnections (items : List ProviderConnectionInput) :
    Keeps Shields (initializeConnections items) := by
  refine shields_unlessClosed fun s _ => leaves_forM (fun item _ => ?_) s
  refine leaves_whereMissing _ (only_putConnection item) rfl fun s hf hp => ?_
  have hp : (s.connections.find? item.providerId).isSome = true := hp
  rw [show s.connections.find? item.providerId = none from hf] at hp
  cases hp

theorem shields_initializeCredentials (entries : List ProxyCredentialEntry) :
    Keeps Shields (initializeCredentials entries) := by
  refine shields_unlessClosed fun s _ => leaves_forM (fun entry _ => ?_) s
  refine leaves_whereMissing _ (only_putCredential (unattested entry)) rfl fun s hf hp => ?_
  have hp : (s.credentials.find? entry.credentialId).isSome = true := hp
  rw [show s.credentials.find? entry.credentialId = none from hf] at hp
  cases hp

/-- **The bindings of a seed go to the principal of the seed**, whatever principal they were
    written for. -/
theorem only_loadSeed {raw principal : Principal} {bindings : List PolicyBinding}
    (hraw : normalizePrincipal platform raw = .ok principal) :
    Keeps (Only (.bindings (principalKey principal))) (loadSeed platform principal bindings) := by
  intro s
  refine KeepsAt.bind (R := Only _) (fun _ _ _ => Only.trans) ?_ fun _ s' _ => only_storePrincipal _ s'
  refine keeps_forM (R := Only _) (only_refl _) (fun _ _ _ => Only.trans) (fun binding hbinding => ?_) s
  have hof : binding.toPrincipal = principal := by
    simpa using (List.mem_filter.mp hbinding).2
  refine only_putBinding fun stored hstored => ?_
  rw [normalizeBinding_principal (hof ▸ hraw) hstored, hof]

theorem leaves_initializeSeed (seed : Seed) : Keeps (Leaves .bindings) (initializeSeed platform seed) := by
  intro s
  refine keepsAt_lift_bind (leaves_refl _) fun principal hprincipal => ?_
  refine keepsAt_query_bind ?_
  cases hknown : s.hasPrincipal (principalKey principal) with
  | true => exact leaves_refl _ s
  | false =>
    refine (only_loadSeed hprincipal s).leaves rfl fun hp => ?_
    have hp : s.hasPrincipal (principalKey principal) = true := hp
    rw [hknown] at hp
    cases hp

theorem shields_initializeBindings (seeds : List Seed) : Keeps Shields (initializeBindings platform seeds) :=
  shields_unlessClosed fun s _ => leaves_forM (fun seed _ => leaves_initializeSeed seed) s

theorem shields_putMeta (mark : Mark) : Keeps Shields (putMeta mark) := by
  intro s
  refine ⟨fun m hm => ?_, fun item _ => ?_⟩
  · show m ∈ if s.hasMeta mark then s.marks else mark :: s.marks
    split
    · exact hm
    · exact List.mem_cons_of_mem _ hm
  · cases item with
    | user email | policy id | connection id | credential id => rfl
    | bindings key => exact ⟨rfl, rfl⟩

theorem hasMeta_putMeta (mark : Mark) (s : Authority) : (putMeta mark s).2.hasMeta mark = true := by
  refine hasMeta_iff.mpr ?_
  show mark ∈ if s.hasMeta mark then s.marks else mark :: s.marks
  split
  · rename_i hm
    exact hasMeta_iff.mp hm
  · exact List.mem_cons_self

theorem shields_initializeAllBindings (bindings : List PolicyBinding) :
    Keeps Shields (initializeAllBindings platform bindings) := by
  intro s
  refine keepsAt_lift_bind shields_refl fun seeds _ => ?_
  exact KeepsAt.bind (R := Shields) (fun _ _ _ => Shields.trans) (shields_initializeBindings seeds s)
    fun _ s' _ => shields_putMeta _ s'

theorem leaves_stores {ι : Type} {body : ι → Task Unit} (it : ι → Item) {l : List ι}
    (hbody : ∀ x ∈ l, Keeps (Only (it x)) (body x)) (hmark : ∀ x ∈ l, (it x).mark = mark)
    (hmissing : ∀ x ∈ l, ¬ Present (it x) s) : KeepsAt (Leaves mark) (l.forM body) s := by
  -- what was there in `s` is spared by each of the writes, whatever the others did
  let Spares : Authority → Authority → Prop := fun t t' =>
    t'.marks = t.marks ∧ ∀ item : Item, (item.mark = mark → Present item s) → Same item t t'
  have hrefl : ∀ t, Spares t t := fun t => ⟨rfl, fun item _ => same_refl item t⟩
  have htrans : ∀ t t' t'', Spares t t' → Spares t' t'' → Spares t t'' := fun _ _ _ h h' =>
    ⟨h'.1.trans h.1, fun item hp => (h.2 item hp).trans (h'.2 item hp)⟩
  refine keeps_forM (R := Spares) hrefl htrans (fun x hx t => ?_) s
  have honly := hbody x hx t
  refine ⟨honly.1, fun item hp => honly.2 item fun e => ?_⟩
  rw [e] at hp
  exact hmissing x hx (hp (hmark x hx))

theorem candidateUsers_missing :
    ∀ {raws : List AccessControlUser} {inserted : List String} {candidates : List AccessControlUser},
      candidateUsers platform s raws inserted = .ok candidates →
      ∀ user ∈ candidates, ¬ Present (.user user.email) s
  | [], _, candidates, h, user, hu => by
    cases h
    exact absurd hu List.not_mem_nil
  | raw :: rest, inserted, candidates, h, user, hu => by
    unfold candidateUsers at h
    dsimp only at h
    split at h
    · exact candidateUsers_missing h user hu
    · rename_i hcandidate
      simp only [Fallible.bind_ok, Fallible.pure_ok] at h
      obtain ⟨first, hfirst, more, hmore, rfl⟩ := h
      rcases List.mem_cons.mp hu with rfl | hu
      · unfold normalizeUser at hfirst
        simp only [Fallible.bind_ok, Fallible.demand_ok, Fallible.pure_ok] at hfirst
        obtain ⟨email, hemail, rfl⟩ := hfirst
        intro hp
        have hp : (s.users.find? email).isSome = true := hp
        refine hcandidate ?_
        have hget : (s.getUser platform raw.email).isSome = true := by
          unfold Authority.getUser
          rw [hemail]
          exact hp
        rw [hget, Bool.or_true]
      · exact candidateUsers_missing hmore user hu

theorem shields_initializeMaterializedUsers (budgets : Answer Unit) (users : List AccessControlUser) :
    Keeps Shields (initializeMaterializedUsers platform budgets users) := by
  refine shields_unlessClosed fun s _ => ?_
  refine keepsAt_query_bind ?_
  refine keepsAt_lift_bind (leaves_refl _) fun candidates hcandidates => ?_
  refine keepsAt_lift_bind (leaves_refl _) fun _ _ => ?_
  exact leaves_stores (fun user => .user user.email) (fun user _ => only_storeUser user)
    (fun _ _ => rfl) (candidateUsers_missing hcandidates)

theorem candidatePolicies_missing : ∀ {input : List (String × Answer AccessPolicy)} {staged : List String}
      {candidates : List AccessPolicyEntry}, candidatePolicies s input staged = .ok candidates →
      ∀ entry ∈ candidates, ¬ Present (.policy entry.policyId) s
  | [], _, candidates, h, entry, he => by
    cases h
    exact absurd he List.not_mem_nil
  | (policyId, policy) :: rest, staged, candidates, h, entry, he => by
    unfold candidatePolicies at h
    split at h
    · exact candidatePolicies_missing h entry he
    · rename_i hcandidate
      simp only [Fallible.bind_ok, Fallible.pure_ok] at h
      obtain ⟨_, _, value, _, more, hmore, rfl⟩ := h
      rcases List.mem_cons.mp he with rfl | he
      · intro hp
        have hp : (s.getPolicy policyId).isSome = true := hp
        exact hcandidate (by rw [hp, Bool.true_or])
      · exact candidatePolicies_missing hmore entry he

theorem shields_initializeCollectedPolicies (budgets : Answer Unit) (input : CollectedPolicies) :
    Keeps Shields (initializeCollectedPolicies platform budgets input) := by
  refine shields_unlessClosed fun s _ => ?_
  refine keepsAt_query_bind ?_
  refine keepsAt_lift_bind (leaves_refl _) fun candidates hcandidates => ?_
  refine keepsAt_lift_bind (leaves_refl _) fun _ _ => ?_
  exact leaves_stores (fun entry => .policy entry.policyId)
    (fun entry _ => only_storePolicy entry) (fun _ _ => rfl) (candidatePolicies_missing hcandidates)

theorem preparedSeeds_missing : ∀ {seeds : List Seed} {staged : List String} {prepared : List PreparedSeed},
      preparedSeeds platform s seeds staged = .ok prepared →
      ∀ seed ∈ prepared, ¬ Present (.bindings seed.key) s
  | [], _, prepared, h, seed, hs => by
    cases h
    exact absurd hs List.not_mem_nil
  | raw :: rest, staged, prepared, h, seed, hs => by
    obtain ⟨principal, _, h⟩ := Fallible.bind_ok.mp h
    dsimp only at h
    split at h
    · exact preparedSeeds_missing h seed hs
    · rename_i hunknown
      simp only [Fallible.bind_ok, Fallible.pure_ok] at h
      obtain ⟨writes, _, more, hmore, rfl⟩ := h
      rcases List.mem_cons.mp hs with rfl | hs
      · intro hp
        have hp : s.hasPrincipal (principalKey principal) = true := hp
        exact hunknown (by rw [hp, Bool.true_or])
      · exact preparedSeeds_missing hmore seed hs

theorem only_storeSeed (seed : PreparedSeed) : Keeps (Only (.bindings seed.key)) (storeSeed seed) := by
  intro s
  refine KeepsAt.bind (R := Only _) (fun _ _ _ => Only.trans) ?_ fun _ s' _ =>
    only_storePrincipal _ s'
  refine keeps_forM (R := Only _) (only_refl _) (fun _ _ _ => Only.trans) (fun binding _ t => ?_) s
  exact KeepsAt.bind (R := Only _) (fun _ _ _ => Only.trans) (only_storeBinding _ binding t)
    fun _ t' _ => only_storePrincipal _ t'

theorem shields_initializeCollectedBindings (budgets : Answer Unit) (seeds : List Seed) :
    Keeps Shields (initializeCollectedBindings platform budgets seeds) := by
  refine shields_unlessClosed fun s _ => ?_
  refine keepsAt_query_bind ?_
  refine keepsAt_lift_bind (leaves_refl _) fun prepared hprepared => ?_
  refine keepsAt_lift_bind (leaves_refl _) fun _ _ => ?_
  exact leaves_stores (fun seed => .bindings seed.key) (fun seed _ => only_storeSeed seed)
    (fun _ _ => rfl) (preparedSeeds_missing hprepared)

end Seeds

/-! ## 7. Nothing but a credential is removed -/

section Growth

variable {platform}

theorem grows_storeUser (user : AccessControlUser) : Keeps Grows (storeUser user) := fun s =>
  (only_storeUser user s).grows nofun fun _ => present_storeUser user s

theorem grows_putUser (raw : AccessControlUser) : Keeps Grows (putUser platform raw) := fun s =>
  keepsAt_lift_bind grows_refl fun user _ => grows_storeUser user s

theorem grows_putPolicy (entry : AccessPolicyEntry) : Keeps Grows (putPolicy entry) := fun s =>
  keepsAt_lift_bind grows_refl fun _ _ =>
    (only_storePolicy entry s).grows nofun fun _ => present_storePolicy entry s

theorem grows_putConnection (input : ProviderConnectionInput) : Keeps Grows (putConnection input) := by
  intro s
  refine keepsAt_lift_bind grows_refl fun mutation _ => ?_
  refine keepsAt_query_bind ?_
  exact (only_storeConnection _ s).grows nofun fun _ => present_storeConnection _ s

theorem grows_storePrincipal (key : String) : Keeps Grows (storePrincipal key) := fun s =>
  (only_storePrincipal key s).grows nofun fun _ => present_storePrincipal key s

theorem grows_storeBinding (key : String) (binding : PolicyBinding) :
    Keeps Grows (storeBinding key binding) := fun s =>
  (only_storeBinding key binding s).grows nofun fun hp => hp

theorem grows_putBinding (raw : PolicyBinding) : Keeps Grows (putBinding platform raw) := by
  intro s
  refine keepsAt_lift_bind grows_refl fun binding _ => ?_
  exact KeepsAt.bind (R := Grows) (fun _ _ _ => Grows.trans) (grows_storeBinding _ binding s)
    fun _ s' _ => grows_storePrincipal _ s'

theorem grows_updateUserProfile (raw : AccessControlUser) : Keeps Grows (updateUserProfile platform raw) := by
  intro s
  refine keepsAt_query_bind ?_
  refine keepsAt_lift_bind grows_refl fun user _ => ?_
  exact KeepsAt.bind (R := Grows) (fun _ _ _ => Grows.trans) (grows_putUser user s) fun _ s' _ =>
    grows_refl s'

theorem grows_createUser (defaults : AccessControlUser) : Keeps Grows (createUser platform defaults) := by
  intro s
  refine keepsAt_query_bind ?_
  split
  · exact grows_refl s
  · exact grows_putUser defaults s

theorem grows_initializeBindings (seeds : List Seed) : Keeps Grows (initializeBindings platform seeds) :=
  (shields_initializeBindings seeds).mono fun _ _ => Shields.grows

theorem grows_mutateBinding (seed : Seed) (binding : PolicyBinding) :
    Keeps Grows (mutateBinding platform seed binding) := fun s =>
  KeepsAt.bind (R := Grows) (fun _ _ _ => Grows.trans) (grows_initializeBindings [seed] s)
    fun _ s' _ => grows_putBinding binding s'

theorem grows_putUserBindings (request : UserBindingsRequest) :
    Keeps Grows (putUserBindings platform request) := by
  have htrans : ∀ s s' s'', Grows s s' → Grows s' s'' → Grows s s'' := fun _ _ _ => Grows.trans
  intro s
  refine KeepsAt.bind htrans (grows_initializeBindings [request.seed] s) fun _ s1 _ => ?_
  refine KeepsAt.bind htrans (grows_updateUserProfile request.user s1) fun user s2 _ => ?_
  refine keepsAt_query_bind ?_
  refine keepsAt_lift_bind grows_refl fun current _ => ?_
  refine KeepsAt.bind htrans ?_ fun _ s3 _ => ?_
  · exact keeps_forM grows_refl htrans (fun binding _ => grows_putBinding _) s2
  · exact keeps_forM grows_refl htrans (fun policyId _ => grows_putBinding _) s3

end Growth

end ClawRouter.Access
