/-
  Subject:   What a socket remembers refines the stores of its scopes.

  The socket answers from what it remembers, without asking. A binding that has not expired keeps its
  owner and the evidence of a response once it is final, whatever others do with the store; so what
  was acknowledged is still so, and the store would answer the same.

  * **`witness_refines`**: where the socket answers, the store would answer the same.
-/
import ClawRouter.Continuation.Witness

namespace ClawRouter.Continuation

open Timed Fallible Js

/-! ## 1. What a store acknowledges -/

variable {reply : Answer ContinuationReply} {owner : ContinuationOwner} {input : ContinuationInput}
variable {context : BackgroundContext}

section Stores

variable {now : Int} {s s' : ContinuationStore} {key : String}

/-- What stays of a binding that has not expired. -/
structure Binding.Kept (r r' : Binding) : Prop where
  owner : r'.owner = r.owner
  expires : r'.expiresAtMs = r.expiresAtMs
  evidence : ∀ producerId knowledge, r.pricingEvidence = .written (.final producerId knowledge) →
    r'.pricingEvidence = r.pricingEvidence

theorem exec_keeps {op : Op} (h : exec now s op = (s', reply))
    (hcounted : Counted s) (hcapacity : s.count ≤ continuationCapacity) {r : Binding}
    (hr : s.get key now = some r) : ∃ r', s'.get key now = some r' ∧ r.Kept r' := by
  have hchange := (exec_binding h hcounted hcapacity).2.2 key
  rw [hr] at hchange
  generalize hrow : s'.get key now = row at hchange
  cases hchange with
  | same => exact ⟨r, rfl, rfl, rfl, fun _ _ _ => rfl⟩
  | closed agrees => exact ⟨_, rfl, agrees.owner, agrees.expires, fun _ _ _ => agrees.evidence⟩
  | qualified called claimed known pending answered =>
    refine ⟨_, rfl, rfl, rfl, fun p k e => ?_⟩
    rw [pending] at e
    cases e

theorem get_later {t : Int} {r : Binding} (h : s.get key t = some r) (hlive : now < r.expiresAtMs) :
    s.get key now = some r :=
  get_eq_some.mpr ⟨(get_eq_some.mp h).1, hlive⟩

theorem refusal_not_stored {keys : List String} : refusal now keys owner input context s ≠ some .stored := by
  unfold refusal
  dsimp only
  split
  · simp
  · split
    · simp
    · split <;> simp

theorem register_stored {keys : List String} (h : register now keys owner input context s = .ok
    (s', .stored)) :
    refusal now keys owner input context s = none := by
  cases hr : refusal now keys owner input context s with
  | none => rfl
  | some outcome =>
    unfold register at h
    rw [hr] at h
    cases h
    exact absurd hr refusal_not_stored

theorem refusal_owner {keys : List String} (h : refusal now keys owner input context s = none) {r : Binding}
    (hkey : key ∈ keys) (hr : s.get key now = some r) : r.owner = owner := by
  unfold refusal at h
  dsimp only at h
  split at h
  · cases h
  · split at h
    · cases h
    · rename_i hany
      by_contra hne
      refine hany (List.any_eq_true.mpr ⟨(key, r), ?_, by simpa using hne⟩)
      refine List.mem_filterMap.mpr ⟨key, hkey, ?_⟩
      rw [hr]
      rfl

theorem handle_stored {owned : Option Bool}
    (h : handle now input context s = .ok (s', .registration .stored owned)) :
    ∃ owner, input.owner = some owner ∧
      register now input.keys.dedup owner input context s = .ok (s', .stored) ∧
      (∀ claim, input.responseClaim = some claim → owned.isSome) := by
  obtain ⟨_, _, h⟩ := bind_ok.mp h
  split at h
  · cases h
  · simp only [bind_ok, demand_ok, pure_ok] at h
    obtain ⟨_, _, _, _, _, _, _, _, e⟩ := h
    cases e
  · simp only [bind_ok, pure_ok] at h
    obtain ⟨owner, howner, ⟨s₁, outcome⟩, hregister, e⟩ := h
    cases e
    refine ⟨owner, authorize_ok howner, hregister, fun claim hclaim => ?_⟩
    rw [hclaim]
    rfl

theorem handle_qualified (h : handle now input context s = .ok (s', .qualification .qualified)) :
    ∃ owner claim knowledge, input.owner = some owner ∧ input.responseClaim = some claim ∧
      input.knowledge = some knowledge ∧ qualify now owner claim knowledge s = (s', .qualified) := by
  obtain ⟨_, _, h⟩ := bind_ok.mp h
  split at h
  · cases h
  · simp only [bind_ok, demand_ok, pure_ok] at h
    obtain ⟨owner, howner, claim, hclaim, _, _, knowledge, hknowledge, e⟩ := h
    obtain ⟨hstore, hreply⟩ := Prod.mk.inj e
    exact ⟨owner, claim, knowledge, authorize_ok howner, hclaim, hknowledge,
      Prod.ext hstore (ContinuationReply.qualification.inj hreply)⟩
  · simp only [bind_ok, pure_ok] at h
    obtain ⟨_, _, _, _, e⟩ := h
    cases e

theorem exec_handle {reply : ContinuationReply}
    (h : exec now s (.handle input context) = (s', .ok reply)) :
    handle now input context s = .ok (s', reply) := by
  unfold exec at h
  dsimp only at h
  split at h
  · rename_i hok
    cases h
    exact hok
  · cases h

theorem stored_owner {owned : Option Bool}
    (h : exec now s (.handle input context) = (s', .ok (.registration .stored owned)))
    (hcounted : Counted s) (hcapacity : s.count ≤ continuationCapacity) : ∃ owner, input.owner = some owner ∧
      ∀ key ∈ input.keys, ∃ r, s'.get key now = some r ∧ r.owner = owner := by
  obtain ⟨owner, howner, hregister, -⟩ := handle_stored (exec_handle h)
  refine ⟨owner, howner, fun key hkey => ?_⟩
  obtain ⟨-, -, ⟨hne, -⟩ | ⟨-, hstored⟩⟩ := register_spec hregister (List.nodup_dedup _) hcounted hcapacity
  · exact absurd rfl hne
  · have hmem := List.mem_dedup.mpr hkey
    cases hr : s.get key now with
    | some r =>
      obtain ⟨r', hr', hsame⟩ := hstored.bound key r hr
      exact ⟨r', hr', hsame.owner.trans (refusal_owner (register_stored hregister) hmem hr)⟩
    | none =>
      obtain ⟨r', hr', hsame⟩ := hstored.created key hr hmem
      refine ⟨r', hr', hsame.owner.trans ?_⟩
      unfold newBinding
      split
      · split <;> rfl
      · rfl

theorem qualified_final (h : exec now s (.handle input context) = (s', .ok (.qualification .qualified))) :
    ∃ owner claim knowledge, input.owner = some owner ∧ input.responseClaim = some claim ∧
      input.knowledge = some knowledge ∧ ∃ r, s'.get claim.key now = some r ∧ r.owner = owner ∧
        r.pricingEvidence = .written (.final claim.producerId knowledge) := by
  obtain ⟨owner, claim, knowledge, howner, hclaim, hknowledge, hq⟩ := handle_qualified (exec_handle h)
  refine ⟨owner, claim, knowledge, howner, hclaim, hknowledge, ?_⟩
  unfold qualify at hq
  split at hq
  · cases hq
  · rename_i row hrow
    split at hq
    · cases hq
    · rename_i hsame
      have ho := not_not.mp hsame
      split at hq
      · cases hq
      · rename_i evidence hevidence
        have hwritten : row.pricingEvidence = .written evidence := by
          unfold parseEvidence at hevidence
          split at hevidence
          · rename_i e
            cases hevidence
            exact e
          · cases hevidence
        split at hq
        · cases hq
        · rename_i hproducer
          have hid := not_not.mp hproducer
          split at hq
          · rename_i producerId known
            by_cases e : known = knowledge
            · rw [if_pos e] at hq
              cases hq
              refine ⟨row, hrow, ho, ?_⟩
              rw [hwritten, ← hid, ← e]
              rfl
            · rw [if_neg e] at hq
              cases hq
          · rename_i producerId
            cases hq
            refine ⟨{ row with pricingEvidence := .written (.final producerId knowledge) }, ?_, ho, ?_⟩
            · rw [get_writeEvidence, hrow, Option.map_some, if_pos rfl]
            · rw [← hid]
              rfl

end Stores

/-! ## 2. What an operation knows -/

variable {evidence : List (Option PricingEvidence)} {request : ResolveRequest} {identity : ResponseIdentity}
variable {pin : WebSocketContinuationPin} {identities : List ResponseIdentity}
    {owners : List ContinuationOwner}
variable {witnesses : List Witness}

variable {log more : List Acknowledgement} {endpointId generation providerId scope : String}
variable {stores : String → ContinuationStore}

namespace Socket

def Acked (log : List Acknowledgement) (scope key : String) (owner : ContinuationOwner)
    (evidence : Option PricingEvidence) : Prop :=
  ∃ ack ∈ log, ack.scope = scope ∧ ack.key = key ∧ ack.owner = owner ∧ ack.evidence = evidence

section Operations

variable {platform : Platform} {log : List Acknowledgement} {c : HttpContinuation platform}
variable {op : Operation platform}

theorem Acked.mono {key : String} {evidence : Option PricingEvidence}
    (h : Acked log scope key owner evidence) :
    Acked (more ++ log) scope key owner evidence := by
  obtain ⟨ack, hmem, hack⟩ := h
  exact ⟨ack, List.mem_append_right _ hmem, hack⟩

/-- The published identities and the final evidence were acknowledged. -/
structure ContinuationOk (log : List Acknowledgement) (c : HttpContinuation platform) : Prop where
  kinds : (c.evidence.map ResponseIdentity.kind).Nodup
  count : c.publishedCount ≤ c.evidence.length
  unbound : c.owner = none → c.publishedCount = 0
  published : ∀ owner, c.owner = some owner → ∀ identity ∈ c.evidence.take c.publishedCount,
    Acked log c.scope (platform.identityKey identity) owner none
  final : ∀ evidence, c.finalEvidence = some evidence →
    WebSocketContinuationWitnesses.isFinal evidence = true ∧
      ∃ owner identity, c.owner = some owner ∧ c.response = some identity ∧
        Acked log c.scope (platform.identityKey identity) owner (some evidence)

/-- What an operation has reached, where it waits. -/
def PhaseOk (log : List Acknowledgement) (c : HttpContinuation platform) : Phase → Prop
  | .registered _ (.ok (.registration .stored _)) => ∃ owner, c.owner = some owner ∧
      ∀ identity ∈ c.evidence, Acked log c.scope (platform.identityKey identity) owner none
  | .qualifying identity _ => c.flushed = true ∧ c.response = some identity
  | .qualified identity knowledge reply => c.flushed = true ∧ c.response = some identity ∧
      (reply = .ok (.qualification .qualified) → ∃ owner, c.owner = some owner ∧
        Acked log c.scope (platform.identityKey identity) owner (some (.final c.producerId knowledge)))
  | .published => c.flushed = true
  | _ => True

structure OperationOk (log : List Acknowledgement) (op : Operation platform) : Prop where
  continuation : ContinuationOk log op.continuation
  waits : PhaseOk log op.continuation op.phase

theorem ContinuationOk.mono (h : ContinuationOk log c) : ContinuationOk (more ++ log) c where
  kinds := h.kinds
  count := h.count
  unbound := h.unbound
  published owner ho identity hi := (h.published owner ho identity hi).mono
  final evidence he := by
    obtain ⟨hf, owner, identity, ho, hr, hack⟩ := h.final evidence he
    exact ⟨hf, owner, identity, ho, hr, hack.mono⟩

theorem PhaseOk.mono {phase : Phase} (h : PhaseOk log c phase) : PhaseOk (more ++ log) c phase := by
  unfold PhaseOk at h ⊢
  split
  · obtain ⟨owner, ho, hack⟩ := h
    exact ⟨owner, ho, fun identity hi => (hack identity hi).mono⟩
  · exact h
  · obtain ⟨hf, hr, hq⟩ := h
    refine ⟨hf, hr, fun e => ?_⟩
    obtain ⟨owner, ho, hack⟩ := hq e
    exact ⟨owner, ho, hack.mono⟩
  · exact h
  · trivial

theorem OperationOk.mono (h : OperationOk log op) : OperationOk (more ++ log) op :=
  ⟨h.continuation.mono, h.waits.mono⟩

theorem create_ok (request : ResolveRequest) (requested : Bool) (previous : Option ContinuationOwner)
    (inherited : ToolKnowledge) :
    ContinuationOk log (request.create platform requested previous inherited) where
  kinds := List.nodup_nil
  count := Nat.le_refl 0
  unbound _ := rfl
  published owner ho := by cases ho
  final evidence he := by cases he

theorem resolve_ok {answer : List ResponseIdentity →
      Answer (List (Option ContinuationOwner) × List (Option PricingEvidence))}
    (h : request.resolve platform answer = .ok (some c)) : ContinuationOk log c := by
  unfold ResolveRequest.resolve at h
  split at h
  · cases h
  · obtain ⟨identities, -, h⟩ := bind_ok.mp h
    split at h
    · cases h
      exact create_ok ..
    · obtain ⟨⟨owners, evidence⟩, -, h⟩ := bind_ok.mp h
      obtain ⟨⟨owner, inherited⟩, -, h⟩ := bind_ok.mp h
      cases h
      exact create_ok ..

theorem bind_ok' {c' : HttpContinuation platform} (h : ContinuationOk log c)
    (hunbound : c.owner = none) (hbind : c.bind owner = .ok c') : ContinuationOk log c' := by
  obtain ⟨_, -, e⟩ := bind_ok.mp hbind
  cases e
  have hcount := h.unbound hunbound
  refine ⟨h.kinds, h.count, fun e => (by cases e), fun owner _ identity hi => ?_, fun evidence he => ?_⟩
  · rw [hcount] at hi
    cases hi
  · obtain ⟨_, owner, _, ho, _⟩ := h.final evidence he
    rw [hunbound] at ho
    cases ho

theorem remember_ok {c' : HttpContinuation platform}
    (h : ContinuationOk log c) (hr : c.remember identity = .ok c') : ContinuationOk log c' := by
  unfold HttpContinuation.remember at hr
  split at hr
  · split at hr
    · cases hr
      exact h
    · cases hr
  · rename_i hnone
    cases hr
    refine ⟨?_, ?_, h.unbound, fun owner ho known hk => ?_, fun evidence he => ?_⟩
    · rw [List.map_append, List.nodup_append]
      refine ⟨h.kinds, List.nodup_singleton _, fun kind hk kind' hk' e => ?_⟩
      obtain ⟨known, hknown, hkind⟩ := List.mem_map.mp hk
      have hne := List.find?_eq_none.mp hnone known hknown
      rw [List.map_singleton, List.mem_singleton] at hk'
      exact hne (by simp [hkind, e, hk'])
    · exact Nat.le_trans h.count (by simp)
    · rw [List.take_append_of_le_length h.count] at hk
      exact h.published owner ho known hk
    · obtain ⟨hf, owner, known, ho, hresponse, hack⟩ := h.final evidence he
      refine ⟨hf, owner, known, ho, ?_, hack⟩
      unfold HttpContinuation.response at hresponse ⊢
      rw [List.find?_append, hresponse]
      rfl

theorem rememberAll_ok (identities : List ResponseIdentity) (h : ContinuationOk log c) :
    ContinuationOk log (c.rememberAll identities).1 := by
  induction identities generalizing c with
  | nil => exact h
  | cons identity rest ih =>
    unfold HttpContinuation.rememberAll
    split
    · rename_i hr
      exact ih (remember_ok h hr)
    · exact h

theorem qualify_ok (h : ContinuationOk log op.continuation) (hf : op.continuation.flushed = true) :
    OperationOk log op.qualify := by
  unfold Operation.qualify
  dsimp only
  split
  · split
    · exact ⟨h, hf⟩
    · split
      · exact ⟨⟨h.kinds, h.count, h.unbound, h.published, h.final⟩, hf⟩
      · split
        · rename_i hr
          exact ⟨⟨h.kinds, h.count, h.unbound, h.published, h.final⟩, hf, hr⟩
        · exact ⟨⟨h.kinds, h.count, h.unbound, h.published, h.final⟩, trivial⟩
  · exact ⟨h, hf⟩

theorem afterPublish_ok (frame : Json) (h : ContinuationOk log op.continuation)
    (hf : op.continuation.flushed = true) : OperationOk log (op.afterPublish frame) := by
  unfold Operation.afterPublish
  split
  · exact ⟨h, hf⟩
  · exact qualify_ok ⟨h.kinds, h.count, h.unbound, h.published, h.final⟩ hf

theorem publishFrame_ok (identities : List ResponseIdentity) (frame : Json) (h : OperationOk log op) :
    OperationOk log (op.publishFrame identities frame) := by
  have hr := rememberAll_ok identities h.continuation
  unfold Operation.publishFrame
  dsimp only
  split
  · exact ⟨hr, trivial⟩
  · split
    · rename_i hf
      exact afterPublish_ok frame hr hf
    · exact ⟨hr, trivial⟩

theorem published_ok {c' : HttpContinuation platform} {frame : Json}
    (h : ContinuationOk log c) (hp : PhaseOk log c (.registered frame reply))
    (hheard : c.published reply = .ok c') : ContinuationOk log c' ∧ c'.flushed = true := by
  have hall : ∀ claim, ContinuationOk log { c with claim := claim, publishedCount := c.evidence.length } ∧
      ({ c with claim := claim, publishedCount := c.evidence.length } : HttpContinuation
        platform).flushed = true := by
    intro claim
    unfold HttpContinuation.published at hheard
    split at hheard
    · obtain ⟨owner, ho, hack⟩ := hp
      refine ⟨⟨h.kinds, Nat.le_refl _, fun e => ?_, fun owner' ho' identity hi => ?_, h.final⟩, ?_⟩
      · rw [ho] at e
        cases e
      · have e : owner = owner' := Option.some.inj (ho.symm.trans ho')
        rw [← e]
        exact hack identity (List.mem_of_mem_take hi)
      · simp [HttpContinuation.flushed]
    · cases hheard
  have hclaim := hall c.claim
  unfold HttpContinuation.published at hheard
  split at hheard
  · split at hheard
    · rename_i owned _ _
      cases hheard
      exact hall (some _)
    · cases hheard
    · cases hheard
      exact hclaim
  · cases hheard

theorem hear_ok (h : OperationOk log op) : OperationOk log op.hear := by
  have hwaits := h.waits
  unfold Operation.hear
  split
  · rename_i frame reply hphase
    rw [hphase] at hwaits
    split
    · rename_i c hc
      obtain ⟨hok, hf⟩ := published_ok h.continuation hwaits hc
      exact afterPublish_ok frame hok hf
    · exact ⟨h.continuation, trivial⟩
  · rename_i identity knowledge reply hphase
    rw [hphase] at hwaits
    obtain ⟨hf, hresponse, hq⟩ := hwaits
    split
    · rename_i c hc
      unfold HttpContinuation.qualified at hc
      split at hc
      · cases hc
        obtain ⟨owner, ho, hack⟩ := hq rfl
        refine ⟨⟨h.continuation.kinds, h.continuation.count, h.continuation.unbound,
          h.continuation.published, fun evidence he => ?_⟩, hf⟩
        cases he
        exact ⟨rfl, owner, identity, ho, hresponse, hack⟩
      · cases hc
        exact ⟨h.continuation, hf⟩
      · cases hc
      · cases hc
        exact ⟨h.continuation, hf⟩
    · exact ⟨h.continuation, trivial⟩
  · exact h

theorem lose_ok (h : OperationOk log op) : OperationOk log op.lose := by
  have hwaits := h.waits
  unfold Operation.lose
  split
  · exact ⟨h.continuation, trivial⟩
  · exact ⟨h.continuation, trivial⟩
  · rename_i hphase
    rw [hphase] at hwaits
    exact ⟨h.continuation, hwaits.1⟩
  · rename_i hphase
    rw [hphase] at hwaits
    exact ⟨h.continuation, hwaits.1⟩
  · exact h

end Operations

/-! ## 3. What stays true -/

/-- What was acknowledged is so, until the binding expires. -/
def AckHolds (now : Int) (stores : String → ContinuationStore) (ack : Acknowledgement) : Prop :=
  now < ack.expiresAtMs → ∃ r, (stores ack.scope).get ack.key now = some r ∧ r.owner = ack.owner ∧
    r.expiresAtMs = ack.expiresAtMs ∧ ∀ producerId knowledge, ack.evidence = some
      (.final producerId knowledge) →
        r.pricingEvidence = .written (.final producerId knowledge)

/-- A witness is what was acknowledged; that of a response has its final evidence. -/
def EntryOk (platform : Platform) (log : List Acknowledgement) (entry : ResponseIdentity × Witness) : Prop :=
  Acked log entry.2.scope (platform.identityKey entry.1) entry.2.owner entry.2.evidence ∧
    (entry.1.kind = .response → ∃ producerId knowledge, entry.2.evidence = some (.final producerId knowledge))

/-- **The invariant.** -/
structure Sound {platform : Platform} (now : Int) (s : State platform) : Prop where
  stores : ∀ scope, Counted (s.stores scope) ∧ (s.stores scope).count ≤ continuationCapacity
  acknowledged : ∀ ack ∈ s.acknowledged, AckHolds now s.stores ack
  operations : ∀ i op, s.operations i = some op → OperationOk s.acknowledged op
  entries : ∀ entry ∈ s.witnesses.entries, EntryOk platform s.acknowledged entry

section Invariant

variable {platform : Platform} {s s' : State platform} {now t : Int}

theorem AckHolds.later {ack : Acknowledgement}
    (h : AckHolds t stores ack) (ht : t ≤ now) : AckHolds now stores ack := by
  intro hlive
  obtain ⟨r, hr, ho, he, hev⟩ := h (Int.lt_of_le_of_lt ht hlive)
  exact ⟨r, get_later hr (by rw [he]; exact hlive), ho, he, hev⟩

theorem AckHolds.call {ack : Acknowledgement}
    {op : Op} (h : AckHolds now stores ack) (hcounted : Counted (stores scope))
    (hcapacity : (stores scope).count ≤ continuationCapacity) :
    AckHolds now (Function.update stores scope (exec now (stores scope) op).1) ack := by
  intro hlive
  obtain ⟨r, hr, ho, he, hev⟩ := h hlive
  by_cases e : ack.scope = scope
  · rw [e] at hr
    obtain ⟨r', hr', hkept⟩ := exec_keeps (show exec now (stores scope) op = (_, _) from rfl)
      hcounted hcapacity hr
    refine ⟨r', ?_, hkept.owner.trans ho, hkept.expires.trans he, fun p k hack => ?_⟩
    · rw [e, Function.update_self]
      exact hr'
    · have hfinal := hev p k hack
      exact (hkept.evidence p k hfinal).trans hfinal
  · refine ⟨r, ?_, ho, he, hev⟩
    rw [Function.update_of_ne e]
    exact hr

theorem stores_call {op : Op} (h : ∀ scope, Counted (s.stores scope) ∧ (s.stores scope).count ≤
    continuationCapacity) :
    ∀ other, Counted ((s.call now scope op).stores other) ∧
      ((s.call now scope op).stores other).count ≤ continuationCapacity := by
  intro other
  unfold State.call
  by_cases e : other = scope
  · subst e
    obtain ⟨hc, hcap, -⟩ := exec_binding (show exec now (s.stores other) op = (_, _) from rfl)
      (h other).1 (h other).2
    simp only [Function.update_self]
    exact ⟨hc, hcap⟩
  · simp only [Function.update_of_ne e]
    exact h other

theorem acknowledgements_hold {ack : Acknowledgement}
    (h : ack ∈ acknowledgements now scope input (stores scope) reply) : AckHolds now stores ack := by
  intro _
  unfold acknowledgements at h
  split at h
  · obtain ⟨key, _, hack⟩ := List.mem_filterMap.mp h
    obtain ⟨r, hr, rfl⟩ := Option.map_eq_some_iff.mp hack
    exact ⟨r, hr, rfl, rfl, fun _ _ e => by cases e⟩
  · obtain ⟨key, _, hack⟩ := List.mem_filterMap.mp h
    obtain ⟨r, hr, rfl⟩ := Option.map_eq_some_iff.mp hack
    refine ⟨r, hr, rfl, rfl, fun p k e => ?_⟩
    unfold parseEvidence at e
    split at e
    · cases e
      assumption
    · cases e
  · cases h

theorem replied_ok {op : Operation platform} {store store' : ContinuationStore}
    (h : OperationOk log op) (hcall : op.call? = some input)
    (hexec : exec now store (.handle input context) = (store', reply)) (hcounted : Counted store)
    (hcapacity : store.count ≤ continuationCapacity) :
    OperationOk (acknowledgements now op.continuation.scope input store' reply ++ log)
      (op.replied reply) := by
  have hwaits := h.waits
  unfold Operation.call? at hcall
  unfold Operation.replied
  split at hcall
  · rename_i frame hphase
    cases hcall
    refine ⟨h.continuation.mono, ?_⟩
    unfold PhaseOk
    split
    · rename_i owned e
      cases e
      obtain ⟨owner, howner, hrows⟩ := stored_owner hexec hcounted hcapacity
      refine ⟨owner, howner, fun identity hi => ?_⟩
      obtain ⟨r, hr, ho⟩ := hrows (platform.identityKey identity) (List.mem_map_of_mem hi)
      refine ⟨⟨op.continuation.scope, platform.identityKey identity, r.owner, none, r.expiresAtMs⟩,
        List.mem_append_left _ ?_, rfl, rfl, ho, rfl⟩
      exact List.mem_filterMap.mpr ⟨_, List.mem_map_of_mem hi, by rw [hr]; rfl⟩
    all_goals trivial
  · rename_i identity knowledge hphase
    cases hcall
    rw [hphase] at hwaits
    refine ⟨h.continuation.mono, hwaits.1, hwaits.2, fun e => ?_⟩
    cases e
    obtain ⟨owner, claim, knowledge', howner, hclaim, hknowledge, r, hr, ho, hevidence⟩ :=
      qualified_final hexec
    cases hclaim
    cases hknowledge
    refine ⟨owner, howner, ⟨op.continuation.scope, platform.identityKey identity, r.owner,
      parseEvidence r.pricingEvidence, r.expiresAtMs⟩, List.mem_append_left _ ?_, rfl, rfl, ho, ?_⟩
    · exact List.mem_filterMap.mpr ⟨_, List.mem_singleton_self _, by rw [hr]; rfl⟩
    · rw [hevidence]
      rfl
  · cases hcall

theorem witness_ok {c : HttpContinuation platform} {evidence : PricingEvidence}
    (pin : WebSocketContinuationPin)
    (h : ContinuationOk log c) (hflushed : c.flushed = true) (ho : c.owner = some owner)
    (he : c.finalEvidence = some evidence) (hi : identity ∈ c.evidence) : EntryOk platform log
      (identity, WebSocketContinuationWitnesses.witnessOf c.scope owner pin evidence identity) := by
  obtain ⟨hfinal, owner', response, ho', hresponse, hack⟩ := h.final evidence he
  have hlength : c.evidence.length = c.publishedCount := by
    unfold HttpContinuation.flushed at hflushed
    rw [ho] at hflushed
    simpa using hflushed
  unfold EntryOk WebSocketContinuationWitnesses.witnessOf
  by_cases hkind : identity.kind = .response
  · rw [if_pos hkind]
    have hmem := List.mem_of_find?_eq_some hresponse
    have hkind' : response.kind = .response := by
      have := List.find?_some hresponse
      simpa using this
    have same : identity = response := List.inj_on_of_nodup_map h.kinds hi hmem (hkind.trans hkind'.symm)
    have howner : owner' = owner := Option.some.inj (ho'.symm.trans ho)
    rw [howner, ← same] at hack
    refine ⟨hack, fun _ => ?_⟩
    cases evidence with
    | final producerId knowledge => exact ⟨producerId, knowledge, rfl⟩
    | pending producerId => cases hfinal
  · rw [if_neg hkind]
    refine ⟨h.published owner ho identity ?_, fun e => absurd e hkind⟩
    rw [← hlength, List.take_length]
    exact hi

theorem mem_setEntry {entries : List (ResponseIdentity × Witness)} {witness : Witness}
    {e : ResponseIdentity × Witness}
    (h : e ∈ WebSocketContinuationWitnesses.setEntry entries identity witness) :
    e ∈ entries ∨ e = (identity, witness) := by
  have hmoved : e ∈ (entries.filter fun e => e.1 ≠ identity) ++ [(identity, witness)] := by
    unfold WebSocketContinuationWitnesses.setEntry at h
    dsimp only at h
    split at h
    · exact List.mem_of_mem_tail h
    · exact h
  rcases List.mem_append.mp hmoved with h | h
  · exact .inl (List.mem_of_mem_filter h)
  · exact .inr (List.mem_singleton.mp h)

theorem mem_remember {ws : WebSocketContinuationWitnesses} {evidence : PricingEvidence}
    {e : ResponseIdentity × Witness} (h : e ∈ (ws.remember scope owner pin identities evidence).entries) :
    e ∈ ws.entries ∨ ∃ identity ∈ identities,
      e = (identity, WebSocketContinuationWitnesses.witnessOf scope owner pin evidence identity) := by
  unfold WebSocketContinuationWitnesses.remember at h
  split at h
  · exact .inl h
  · generalize ws.entries = entries at h ⊢
    induction identities generalizing entries with
    | nil => exact .inl h
    | cons identity rest ih =>
      rcases ih _ h with h | ⟨known, hknown, e⟩
      · rcases mem_setEntry h with h | rfl
        · exact .inl h
        · exact .inr ⟨identity, List.mem_cons_self, rfl⟩
      · exact .inr ⟨known, List.mem_cons_of_mem _ hknown, e⟩

theorem EntryOk.mono {entry : ResponseIdentity × Witness}
    (h : EntryOk platform log entry) : EntryOk platform (more ++ log) entry := ⟨h.1.mono, h.2⟩

theorem Sound.later (h : Sound t s) (ht : t ≤ now) : Sound now s :=
  ⟨h.stores, fun ack hack => (h.acknowledged ack hack).later ht, h.operations, h.entries⟩

theorem Sound.goOn {i : Nat} {op : Operation platform} (h : Sound now s)
    (hop : OperationOk s.acknowledged op) : Sound now (s.goOn i op) := by
  refine ⟨h.stores, h.acknowledged, fun j op' hj => ?_, h.entries⟩
  change Function.update s.operations i (some op) j = some op' at hj
  by_cases e : j = i
  · subst e
    rw [Function.update_self] at hj
    cases hj
    exact hop
  · rw [Function.update_of_ne e] at hj
    exact h.operations j op' hj

theorem Sound.call (h : Sound now s) (scope : String) (op : Op) : Sound now (s.call now scope op) :=
  ⟨stores_call h.stores, fun ack hack => (h.acknowledged ack hack).call (h.stores scope).1 (h.stores scope).2,
    h.operations, h.entries⟩

theorem sound_step {a : Label} (h : Sound now s) (hstep : Step platform now s a s') : Sound now s' := by
  cases hstep with
  | create hi hresolve => exact h.goOn ⟨resolve_ok hresolve, trivial⟩
  | bind hi hphase hunbound hbind =>
    refine h.goOn ⟨bind_ok' (h.operations _ _ hi).continuation hunbound hbind, ?_⟩
    rw [hphase]
    trivial
  | frame hi hphase => exact h.goOn (publishFrame_ok _ _ (h.operations _ _ hi))
  | @serve i op input context store reply hi hcall hexec =>
    have hstore := h.stores op.continuation.scope
    have hlog : ∀ ack ∈ acknowledgements now op.continuation.scope input store reply,
        AckHolds now (s.call now op.continuation.scope (.handle input context)).stores ack := by
      intro ack hack
      refine @acknowledgements_hold reply input op.continuation.scope _ now ack ?_
      unfold State.call
      dsimp only
      rw [Function.update_self, hexec]
      exact hack
    have hcalled := h.call op.continuation.scope (.handle input context)
    have hmore : Sound now { s.call now op.continuation.scope (.handle input context) with
          acknowledged :=
            acknowledgements now op.continuation.scope input store reply ++ s.acknowledged } := by
      refine ⟨hcalled.stores, fun ack hack => ?_, fun j op' hj => (h.operations j op' hj).mono,
        fun entry he => (h.entries entry he).mono⟩
      rcases List.mem_append.mp hack with hack | hack
      · exact hlog ack hack
      · exact hcalled.acknowledged ack hack
    exact hmore.goOn (replied_ok (h.operations _ _ hi) hcall hexec hstore.1 hstore.2)
  | hear hi => exact h.goOn (hear_ok (h.operations _ _ hi))
  | lose hi => exact h.goOn (lose_ok (h.operations _ _ hi))
  | @remember i op pin hi hphase =>
    have hop := h.operations _ _ hi
    have hwaits := hop.waits
    rw [hphase] at hwaits
    have hgo : Sound now (s.goOn i { op with phase := .idle }) := h.goOn ⟨hop.continuation, trivial⟩
    refine ⟨hgo.stores, hgo.acknowledged, hgo.operations, fun entry he => ?_⟩
    unfold Operation.rememberWebSocket at he
    split at he
    · rename_i owner evidence ho hfinal
      split at he
      · exact h.entries entry he
      · rcases mem_remember he with he | ⟨identity, hidentity, rfl⟩
        · exact h.entries entry he
        · exact witness_ok pin hop.continuation hwaits ho hfinal hidentity
    · exact h.entries entry he
  | abort hi => exact h.goOn ⟨(h.operations _ _ hi).continuation, (h.operations _ _ hi).waits⟩
  | other => exact h.call _ _
  | close => exact ⟨h.stores, h.acknowledged, h.operations, fun entry he => by cases he⟩

theorem sound_run {t₀ : Int} {tr : List (Int × Label)}
    (hstores : ∀ scope, Counted (stores scope) ∧ (stores scope).count ≤ continuationCapacity)
    (h : Run (Step platform) (start platform stores) t₀ tr t s) : Sound t s := by
  refine h.invariant (I := fun t s => Sound t s) ⟨hstores, ?_, ?_, ?_⟩ ?_
  · intro ack hack
    cases hack
  · intro i op hi
    cases hi
  · intro entry he
    cases he
  · intro t t' s a s' ht hs hstep
    exact sound_step (hs.later ht) hstep

end Invariant

/-! ## 4. The socket answers as the store would -/

section Result

variable {platform : Platform} {s : State platform} {now : Int}

/-- The binding that was acknowledged for what the socket remembers of an identity has not expired. -/
def Live (s : State platform) (now : Int) (identity : ResponseIdentity) : Prop :=
  ∀ witness, s.witnesses.entries.lookup identity = some witness → ∃ ack ∈ s.acknowledged,
    ack.scope = witness.scope ∧ ack.key = platform.identityKey identity ∧ ack.owner = witness.owner ∧
      ack.evidence = witness.evidence ∧ now < ack.expiresAtMs

def Agrees (store : ContinuationStore) (now : Int) (key : String) (identity : ResponseIdentity)
    (witness : Witness) : Prop :=
  ∃ row, store.get key now = some row ∧ row.owner = witness.owner ∧
    (identity.kind = .response → parseEvidence row.pricingEvidence = witness.evidence)

theorem found_agrees (h : Sound now s) {witness : Witness}
    (hfound : s.witnesses.find scope generation providerId endpointId pin identity = some witness)
    (hlive : Live s now identity) :
    Agrees (s.stores scope) now (platform.identityKey identity) identity witness := by
  obtain ⟨hlookup, husable⟩ := Option.filter_eq_some_iff.mp hfound
  have hscope : witness.scope = scope := by
    unfold WebSocketContinuationWitnesses.usable at husable
    simp only [Bool.and_eq_true, decide_eq_true_eq] at husable
    exact husable.1.1.1.1.1.1.1
  obtain ⟨ack, hack, hackscope, hkey, howner, hevidence, hunexpired⟩ := hlive witness hlookup
  obtain ⟨row, hrow, ho, _, hev⟩ := h.acknowledged ack hack hunexpired
  rw [hackscope, hscope, hkey] at hrow
  refine ⟨row, hrow, ho.trans howner, fun hkind => ?_⟩
  obtain ⟨l₁, l₂, e, _⟩ := List.lookup_eq_some_iff.mp hlookup
  have hentry := h.entries (identity, witness) (by rw [e]; simp)
  obtain ⟨producerId, knowledge, hfinal⟩ := hentry.2 hkind
  rw [hev producerId knowledge (hevidence.trans hfinal), hfinal]
  rfl

theorem forall₂_of_mapM {α β : Type} {f : α → Option β} {l : List α} {l' : List β}
    (h : l.mapM f = some l') : List.Forall₂ (fun a b => f a = some b) l l' := by
  induction l generalizing l' with
  | nil =>
    cases h
    exact .nil
  | cons a l ih =>
    rw [List.mapM_cons] at h
    obtain ⟨b, hb, h⟩ := Option.bind_eq_some_iff.mp h
    obtain ⟨rest, hrest, h⟩ := Option.bind_eq_some_iff.mp h
    cases h
    exact .cons hb (ih hrest)

theorem resolve_witnesses {ws : WebSocketContinuationWitnesses} {pin : Option WebSocketContinuationPin}
        (h : ws.resolve identities scope generation providerId endpointId pin = some (owners, evidence)) :
    ∃ pin witnesses, owners = witnesses.map Witness.owner ∧ evidence = witnesses.map Witness.evidence ∧
      List.Forall₂ (fun identity witness =>
        ws.find scope generation providerId endpointId pin identity = some witness) identities witnesses := by
  unfold WebSocketContinuationWitnesses.resolve at h
  split at h
  · cases h
  · obtain ⟨pin, -, h⟩ := Option.bind_eq_some_iff.mp h
    obtain ⟨witnesses, hm, h⟩ := Option.bind_eq_some_iff.mp h
    cases h
    exact ⟨pin, witnesses, rfl, rfl, forall₂_of_mapM hm⟩

theorem witnesses_agree (h : Sound now s) (hfound : List.Forall₂ (fun identity witness =>
      s.witnesses.find scope generation providerId endpointId pin identity = some witness)
        identities witnesses)
    (hlive : ∀ identity ∈ identities, Live s now identity) : List.Forall₂ (fun identity witness =>
      Agrees (s.stores scope) now (platform.identityKey identity) identity witness) identities witnesses := by
  induction hfound with
  | nil => exact .nil
  | cons hw _ ih =>
    exact .cons (found_agrees h hw (hlive _ List.mem_cons_self))
      (ih fun identity hi => hlive identity (List.mem_cons_of_mem _ hi))

theorem resolve_rows (now : Int) (keys : List String) (store : ContinuationStore) : ∃ background,
    resolve now keys store = .resolved (keys.map fun key => (store.get key now).map Binding.owner)
      (keys.map fun key => (store.get key now).bind fun r => parseEvidence r.pricingEvidence) background := by
  unfold resolve
  simp only [List.map_map]
  exact ⟨_, rfl⟩

section

variable {store : ContinuationStore}
  (h : List.Forall₂ (fun identity witness => Agrees store now (platform.identityKey identity)
    identity witness) identities witnesses)
include h

theorem agree_owners :
    (identities.map fun identity => (store.get (platform.identityKey identity) now).map Binding.owner) =
      (witnesses.map Witness.owner).map some := by
  induction h with
  | nil => rfl
  | cons hagrees _ ih =>
    obtain ⟨row, hrow, ho, _⟩ := hagrees
    simp only [List.map_cons, hrow, Option.map_some, ho]
    exact congrArg _ ih

theorem agree_evidence {i : Nat} (hi : identities[i]? = some identity) (hkind : identity.kind = .response) :
    some ((store.get (platform.identityKey identity) now).bind fun r => parseEvidence r.pricingEvidence) =
      (witnesses.map Witness.evidence)[i]? := by
  induction h generalizing i with
  | nil => cases hi
  | cons hagrees _ ih =>
    cases i with
    | zero =>
      obtain ⟨row, hrow, _, hevidence⟩ := hagrees
      cases hi
      simp [hrow, hevidence hkind]
    | succ n => exact ih hi

end

theorem resolve_agrees (h : Sound now s) {pin : Option WebSocketContinuationPin}
        (hresolve : s.witnesses.resolve identities scope generation providerId endpointId pin =
      some (owners, evidence)) (hlive : ∀ identity ∈ identities, Live s now identity) : ∃ stored background,
      resolve now (identities.map platform.identityKey) (s.stores scope) =
        .resolved (owners.map some) stored background ∧
      ∀ (i : Nat) (identity : ResponseIdentity), identities[i]? = some identity →
        identity.kind = .response → stored[i]? = evidence[i]? := by
  obtain ⟨pin, witnesses, rfl, rfl, hfound⟩ := resolve_witnesses hresolve
  have hagree := witnesses_agree h hfound hlive
  obtain ⟨background, hrows⟩ := resolve_rows now (identities.map platform.identityKey) (s.stores scope)
  refine ⟨(identities.map platform.identityKey).map fun key =>
    ((s.stores scope).get key now).bind fun r => parseEvidence r.pricingEvidence, background, ?_,
    fun i identity hi hkind => ?_⟩
  · rw [hrows, ← agree_owners hagree, List.map_map]
    rfl
  · rw [← agree_evidence hagree hi hkind]
    simp [hi]

theorem decision_congr {owners owners' : List (Option ContinuationOwner)}
    {evidence' : List (Option PricingEvidence)}
    (hhead : owners.head? = owners'.head?) (hall : ∀ value, value ∈ owners ↔ value ∈ owners')
    (hevidence : ∀ i, identities.findIdx? (fun identity => identity.kind = .response) = some i →
      evidence[i]? = evidence'[i]?) :
    request.decision identities owners evidence = request.decision identities owners' evidence' := by
  have hsame : ∀ owner, (owners.all fun value => decide (value = some owner)) =
      owners'.all fun value => decide (value = some owner) := by
    intro owner
    rw [Bool.eq_iff_iff, List.all_eq_true, List.all_eq_true]
    exact ⟨fun h value hv => h value ((hall value).mpr hv), fun h value hv => h value ((hall value).mp hv)⟩
  unfold ResolveRequest.decision
  rw [hhead]
  simp only [hsame]
  cases hfind : identities.findIdx? (fun identity => identity.kind = .response) with
  | none => rfl
  | some i => simp only [Option.bind_some, hevidence i hfind]

theorem identities_forms (h : request.identities = .ok identities) :
    identities = [] ∨ (∃ identity, identities = [identity]) ∨
      ∃ response turn, identities = [response, turn] ∧ response.kind = .response := by
  have hkind : ∀ value response, responseIdentity .response value = .ok (some response) →
      response.kind = .response := by
    intro value response hr
    unfold responseIdentity at hr
    split at hr
    · cases hr
    · cases hr
    · split at hr
      · cases hr
      · split at hr
        · cases hr
        · cases hr
          rfl
    · cases hr
  obtain ⟨headerTurn, -, h⟩ := bind_ok.mp h
  obtain ⟨metadataTurn, -, h⟩ := bind_ok.mp h
  obtain ⟨_, -, h⟩ := bind_ok.mp h
  obtain ⟨response, hresponse, h⟩ := bind_ok.mp h
  cases h
  cases response with
  | none =>
    cases headerTurn.or metadataTurn with
    | none => exact .inl rfl
    | some turn => exact .inr (.inl ⟨turn, rfl⟩)
  | some response =>
    cases headerTurn.or metadataTurn with
    | none => exact .inr (.inl ⟨response, rfl⟩)
    | some turn => exact .inr (.inr ⟨response, turn, rfl, hkind _ _ hresponse⟩)

/-- What the store of a scope answers of identities. -/
def storeAnswer (s : State platform) (now : Int) (context : BackgroundContext) (scope : String)
    (identities : List ResponseIdentity) :
    Answer (List (Option ContinuationOwner) × List (Option PricingEvidence)) :=
  ResolveRequest.heard (exec now (s.stores scope)
    (.handle ⟨.resolve, identities.map platform.identityKey, none, none, none, none⟩ context)).2

theorem storeAnswer_eq (hhex : ∀ identity, isDigest (platform.identityKey identity) = true)
    (hlength : 1 ≤ identities.length ∧ identities.length ≤ 2) :
    storeAnswer s now context scope identities = .ok
      (((identities.map platform.identityKey).dedup.map fun key =>
          ((s.stores scope).get key now).map Binding.owner),
            (identities.map platform.identityKey).dedup.map fun key =>
          ((s.stores scope).get key now).bind fun r => parseEvidence r.pricingEvidence) := by
  obtain ⟨background, hrows⟩ := resolve_rows now (identities.map platform.identityKey).dedup (s.stores scope)
  have hwell : (1 ≤ (identities.map platform.identityKey).length &&
    (identities.map platform.identityKey).length ≤ 2 &&
      (identities.map platform.identityKey).all isDigest) = true := by
    simp [hlength.1, hlength.2, hhex]
  have hhandle : handle now ⟨.resolve, identities.map platform.identityKey, none, none, none, none⟩ context
      (s.stores scope) = .ok (s.stores scope,
        resolve now (identities.map platform.identityKey).dedup (s.stores scope)) := by
    unfold handle
    rw [hwell]
    rfl
  unfold storeAnswer exec
  dsimp only
  rw [hhandle, hrows]
  rfl

theorem witnessed_decision (h : Sound now s)
    (hhex : ∀ identity, isDigest (platform.identityKey identity) = true) (context : BackgroundContext)
        (hids : request.identities = .ok identities) (hne : identities.isEmpty = false)
        (hwitnessed : request.witnessed s.witnesses identities = some (owners, evidence))
    (hlive : ∀ identity ∈ identities, Live s now identity) :
    ∃ owners' evidence', storeAnswer s now context request.scope identities = .ok (owners', evidence') ∧
      request.decision identities (owners.map some) evidence = request.decision identities owners'
        evidence' := by
  obtain ⟨endpointId, -, hresolve⟩ := Option.bind_eq_some_iff.mp hwitnessed
  obtain ⟨pin, witnesses, rfl, rfl, hfound⟩ := resolve_witnesses hresolve
  have hagree := witnesses_agree h hfound hlive
  have howners := agree_owners hagree
  rcases identities_forms hids with rfl | ⟨identity, rfl⟩ | ⟨response, turn, rfl, hkind⟩
  · cases hne
  · refine ⟨_, _, storeAnswer_eq hhex (by simp), ?_⟩
    rw [← howners]
    refine decision_congr rfl (fun value => Iff.rfl) fun i hi => ?_
    obtain ⟨hlt, hresponse, -⟩ := List.findIdx?_eq_some_iff_getElem.mp hi
    have e : i = 0 := by simpa using hlt
    subst e
    rw [← agree_evidence hagree rfl (by simpa using hresponse)]
    rfl
  · refine ⟨_, _, storeAnswer_eq hhex (by simp), ?_⟩
    have hfirst := agree_evidence hagree (i := 0) rfl hkind
    have hindex : [response, turn].findIdx? (fun identity => identity.kind = .response) = some 0 := by
      simp [List.findIdx?_cons, hkind]
    rw [← howners]
    by_cases hkeys : platform.identityKey response = platform.identityKey turn
    · -- the store is asked of one key, and the socket told one owner twice
      have hdedup : ([response, turn].map platform.identityKey).dedup = [platform.identityKey turn] := by
        simp [hkeys]
      rw [hdedup]
      refine decision_congr (by simp [hkeys]) (fun value => by simp [hkeys]) fun i hi => ?_
      rw [hindex] at hi
      cases hi
      rw [← hfirst, hkeys]
      rfl
    · have hdedup : ([response, turn].map platform.identityKey).dedup =
          [platform.identityKey response, platform.identityKey turn] := by
        simp [hkeys]
      rw [hdedup]
      refine decision_congr rfl (fun value => Iff.rfl) fun i hi => ?_
      rw [hindex] at hi
      cases hi
      rw [← hfirst]
      rfl

/-- The socket, and where it does not know the store. -/
def socketAnswer (s : State platform) (now : Int) (context : BackgroundContext) (request : ResolveRequest)
    (identities : List ResponseIdentity) :
    Answer (List (Option ContinuationOwner) × List (Option PricingEvidence)) :=
  match request.witnessed s.witnesses identities with
  | some (owners, evidence) => .ok (owners.map some, evidence)
  | none => storeAnswer s now context request.scope identities

theorem same_decision (h : Sound now s)
    (hhex : ∀ identity, isDigest (platform.identityKey identity) = true) (context : BackgroundContext)
    (hlive : ∀ identities, request.identities = .ok identities → ∀ identity ∈ identities,
      Live s now identity) :
    request.resolve platform (socketAnswer s now context request) =
      request.resolve platform (storeAnswer s now context request.scope) := by
  unfold ResolveRequest.resolve
  split
  · rfl
  · cases hids : request.identities with
    | error e => rfl
    | ok identities =>
      dsimp only [Bind.bind, Except.bind]
      split
      · rfl
      · rename_i hne
        unfold socketAnswer
        cases hwitnessed : request.witnessed s.witnesses identities with
        | none => rfl
        | some answer =>
          obtain ⟨owners, evidence⟩ := answer
          obtain ⟨owners', evidence', hstore, hdecision⟩ := witnessed_decision h hhex context hids
            (by simpa using hne) hwitnessed (hlive identities hids)
          rw [hstore]
          dsimp only
          rw [hdecision]

/-- **The memory of a socket refines the store**, in every run of the socket and of everybody else who
calls a store: nothing is remembered that a store did not acknowledge, and as long as the bindings
that were acknowledged have not expired, the store answers the same owners and the same evidence of
a response, and a create is resolved as if the store had been asked. -/
theorem witness_refines {t : Int} {stores : String → ContinuationStore} {t₀ : Int} {tr : List (Int × Label)}
    (hstores : ∀ scope, Counted (stores scope) ∧ (stores scope).count ≤ continuationCapacity)
    (hhex : ∀ identity, isDigest (platform.identityKey identity) = true)
    (h : Run (Step platform) (start platform stores) t₀ tr t s) :
    (∀ entry ∈ s.witnesses.entries, Acked s.acknowledged entry.2.scope (platform.identityKey entry.1)
      entry.2.owner entry.2.evidence) ∧ ∀ now, t ≤ now →
      (∀ identities scope generation providerId endpointId pin owners evidence,
        s.witnesses.resolve identities scope generation providerId endpointId pin = some (owners, evidence) →
        (∀ identity ∈ identities, Live s now identity) → ∃ stored background,
          resolve now (identities.map platform.identityKey) (s.stores scope) =
            .resolved (owners.map some) stored background ∧
          ∀ (i : Nat) (identity : ResponseIdentity), identities[i]? = some identity →
            identity.kind = .response → stored[i]? = evidence[i]?) ∧ ∀ context (request : ResolveRequest),
        (∀ identities, request.identities = .ok identities → ∀ identity ∈ identities, Live s now identity) →
        request.resolve platform (socketAnswer s now context request) =
          request.resolve platform (storeAnswer s now context request.scope) := by
  have hsound := sound_run hstores h
  refine ⟨fun entry he => (hsound.entries entry he).1, fun now ht => ⟨?_, ?_⟩⟩
  · intro identities scope generation providerId endpointId pin owners evidence hresolve hlive
    exact resolve_agrees (hsound.later ht) hresolve hlive
  · intro context request hlive
    exact same_decision (hsound.later ht) hhex context hlive

/-- A platform whose frames are the ends of responses that used no tools. -/
def samplePlatform : Platform where
  identityKey identity :=
  if identity = ⟨.response, "resp_1"⟩ then
      "3dc9a3a15e5b376ff77fb09b7fc0987e5a3d3f495c48fe90092c17cf66403f9a"
    else "0000000000000000000000000000000000000000000000000000000000000000"
  Tools := Option (String × ToolKnowledge)
  createTools _ := none
  acceptFrame _ frame := (frame.get? "id").bind fun id => id.str?.map fun id => (id, .tokenOnly)
  invalidate tools := tools
  result tools := tools
  providerError _ := false

theorem published_of {phase : Phase} (h : (match phase with | .published => true | _ => false) = true) :
    phase = .published := by
  cases phase with
  | published => rfl
  | _ => cases h

/-- A response that is registered, qualified and remembered. -/
theorem witness_refines_remembered : ∃ tr, ∃ s : State samplePlatform,
    Run (Step samplePlatform) (start samplePlatform fun _ => ⟨Keyed.Table.empty, 0⟩) 0 tr 7 s ∧
      s.witnesses.entries.length = 1 ∧ ∃ owner evidence stored background,
        s.witnesses.resolve [⟨.response, "resp_1"⟩] "scope" "1" "openai" "responses"
          (some ⟨"openai", "responses", none, none⟩) = some ([owner], [evidence]) ∧
        resolve 7 ["3dc9a3a15e5b376ff77fb09b7fc0987e5a3d3f495c48fe90092c17cf66403f9a"]
          (s.stores "scope") = .resolved [some owner] stored background ∧ stored[0]? = some evidence := by
  let key := "3dc9a3a15e5b376ff77fb09b7fc0987e5a3d3f495c48fe90092c17cf66403f9a"
  let producerId := "109bbe301c444e527e45a4dc0d54698f7c81fbb042ce2fca57aec131ba94feba"
  let request : ResolveRequest := ⟨true, none, none, none, "scope", "1", "openai", some "responses",
    none, id, producerId⟩
  let owner : ContinuationOwner := ⟨"openai", "responses", none, none,
    "2fed7577854280254e4d5dc2491cb78de9b792ad1d93a59b9573a6d3efee0d4c", "1"⟩
  let response : ResponseIdentity := ⟨.response, "resp_1"⟩
  let pin : WebSocketContinuationPin := ⟨"openai", "responses", none, none⟩
  let context : BackgroundContext := ⟨false, false, false, none⟩
  let witness : Witness := ⟨"scope", owner, pin, some (.final producerId .tokenOnly)⟩
  suffices hrun : ∃ tr, ∃ s : State samplePlatform,
      Run (Step samplePlatform) (start samplePlatform fun _ => ⟨Keyed.Table.empty, 0⟩) 0 tr 7 s ∧
        s.witnesses.entries = [(response, witness)] ∧
        s.witnesses.resolve [response] "scope" "1" "openai" "responses" (some pin) =
          some ([owner], [some (.final producerId .tokenOnly)]) ∧
        (⟨"scope", key, owner, some (.final producerId .tokenOnly), 4 + continuationRetentionMs⟩ :
          Acknowledgement) ∈ s.acknowledged by
    obtain ⟨tr, s, h, hentries, hresolve, hack⟩ := hrun
    refine ⟨tr, s, h, by rw [hentries]; rfl, owner, some (.final producerId .tokenOnly), ?_⟩
    have hlive : ∀ identity ∈ [response], Live s 7 identity := by
      intro identity hi known hknown
      rw [List.mem_singleton.mp hi, hentries] at hknown
      cases hknown
      exact ⟨_, hack, rfl, by rw [List.mem_singleton.mp hi]; rfl, rfl, rfl, by decide⟩
    have hstores : ∀ _ : String, Counted (⟨Keyed.Table.empty, 0⟩ : ContinuationStore) ∧
        (0 : Int) ≤ continuationCapacity := fun _ => ⟨rfl, by decide⟩
    have hhex : ∀ identity, isDigest (samplePlatform.identityKey identity) = true := by
      intro identity
      by_cases e : identity = ⟨.response, "resp_1"⟩
      · simp only [samplePlatform, if_pos e]
        decide +kernel
      · simp only [samplePlatform, if_neg e]
        decide +kernel
    have refines := witness_refines hstores hhex h
    obtain ⟨stored, background, hstored, hev⟩ :=
      (refines.2 7 (Int.le_refl _)).1 [response] "scope" "1" "openai" "responses"
        (some pin) _ _ hresolve hlive
    exact ⟨stored, background, hresolve, hstored, hev 0 response rfl rfl⟩
  have h0 : Run (Step samplePlatform) (start samplePlatform fun _ => ⟨Keyed.Table.empty, 0⟩) 0
    [] 0 _ := .start
  have h1 := h0.next (show (0 : Int) ≤ 1 by omega)
    (@Step.create samplePlatform 1 _ 0 request _ (.error unavailable) rfl rfl)
  have h2 := h1.next (show (1 : Int) ≤ 2 by omega) (@Step.bind samplePlatform 2 _ 0 _ owner _ rfl rfl rfl rfl)
  have h3 := h2.next (show (2 : Int) ≤ 3 by omega)
    (@Step.frame samplePlatform 3 _ 0 _ [response] (.obj [("id", .str "resp_1")]) rfl rfl)
  have h4 := h3.next (show (3 : Int) ≤ 4 by omega)
    (@Step.serve samplePlatform 4 _ 0 _ _ context _ _ rfl rfl rfl)
  have h5 := h4.next (show (4 : Int) ≤ 5 by omega) (@Step.hear samplePlatform 5 _ 0 _ rfl)
  have h6 := h5.next (show (5 : Int) ≤ 6 by omega)
    (@Step.serve samplePlatform 6 _ 0 _ _ context _ _ rfl (Option.some_get (by decide +kernel)).symm rfl)
  have h7 := h6.next (show (6 : Int) ≤ 6 by omega) (@Step.hear samplePlatform 6 _ 0 _ rfl)
  have h8 := h7.next (show (6 : Int) ≤ 7 by omega)
    (@Step.remember samplePlatform 7 _ 0 _ pin rfl (published_of (by decide +kernel)))
  exact ⟨_, _, h8, by decide +kernel⟩

end Result

end Socket

end ClawRouter.Continuation
