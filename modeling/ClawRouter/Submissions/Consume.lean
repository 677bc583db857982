/-
  Subject:   Consuming a submission ticket (src/worker/pool-submissions.ts), by any number of
             requests with one ticket at once.

  `poolSubmissionApi` waits for others three times: it claims the ticket, has the owner of the grant
  store the submission, and completes the claim; where the submission was not stored, as far as it
  knows, it gives the claim back. Between two waits it is a function from the answer to what it waits
  for next (`Phase`). Every call may be lost, and so may its answer; a credential write may also be
  stored after its request has given up.

  * `claimed_effect`, `completed_effect`, `released_cases`: all the authority can do to the ticket.
-/
import ClawRouter.Submissions.Ticket

namespace ClawRouter.Submissions

open Fallible Grants Js

/-! ## 1. One request -/

/-- What a request brings; `segment` is the part of the path after `pool-submissions/`, decoded. -/
structure Request where
  segment : Option (Answer String)
  post : Bool
  bearer : Option String
  body : Answer Json

/-- What a submission is answered. -/
inductive Response
  | failed (error : HttpError)
  | alreadyConsumed (receipt : Option Receipt)
  | accepted (receipt : Receipt)
  deriving DecidableEq

def routeNotFound : HttpError := ⟨404, "route_not_found", "pool submission route not found"⟩

def methodNotAllowed : HttpError := ⟨405, "method_not_allowed", "pool submission method is not allowed"⟩

def invalidTicket : HttpError := ⟨400, "invalid_pool_submission_ticket", "submission ticket is invalid"⟩

def unauthorized : HttpError :=
  ⟨401, "pool_submission_unauthorized", "a submission ticket bearer token is required"⟩

def ticketDenied : HttpError :=
  ⟨401, "pool_submission_unauthorized", "submission ticket is invalid or already used"⟩

def ticketExpired : HttpError := ⟨410, "pool_submission_ticket_expired", "submission ticket has expired"⟩

def commitFailed : HttpError :=
  ⟨500, "pool_submission_commit_failed", "submission ticket could not be completed"⟩

def lost : HttpError := ⟨500, "internal_error", "internal server error"⟩

/-- How far a submission is. -/
inductive Phase
  | claiming (claim : ClaimRequest)
  | storing (claimId key : String) (grant : Submission)
  | completing (claimId : String) (receipt : Receipt)
  | releasing (claimId : String) (error : HttpError)
  | ended (response : Response)

def Phase.receipt : Phase → Option Receipt
  | .ended (.accepted receipt) => some receipt
  | .ended (.alreadyConsumed receipt) => receipt
  | _ => none

/-- The digests, the order of names and the dates of the platform. -/
structure Platform where
  sha256 : String → String
  localeLe : String → String → Bool
  dates : Dates

/-- `validGrantSegment(ticketId) && ticketId.startsWith("pst_")`. -/
def ticketSegment (value : String) : Bool :=
  !value.isEmpty && value.toList.all (fun c => c.isAlphanum || c = '.' || c = '_' || c = '-') &&
    "pst_".toList.isPrefixOf value.toList

section Request

variable (platform : Platform)

def canonical (body : Json) : String := canonicalJson platform.localeLe body

def begin (request : Request) : Answer ClaimRequest := do
  let segment ← demand request.segment routeNotFound
  require request.post methodNotAllowed
  let ticketId ← segment
  require (ticketSegment ticketId) invalidTicket
  let ticketToken ← demand request.bearer unauthorized
  let input ← request.body
  return ⟨ticketId, platform.sha256 ticketToken, platform.sha256 (canonical platform input)⟩

def firstPhase (request : Request) : Phase :=
  match begin platform request with
  | .ok claim => .claiming claim
  | .error e => .ended (.failed e)

def afterClaim (input : Json) (now : Int) : Answer ClaimResult → Phase
  | .error e => .ended (.failed e)
  | .ok .denied => .ended (.failed ticketDenied)
  | .ok .expired => .ended (.failed ticketExpired)
  | .ok (.alreadyConsumed _ receipt) => .ended (.alreadyConsumed receipt)
  | .ok (.claimed ticket claimId) =>
    match normalizeSubmission platform.dates now ticket input with
    | .ok grant => .storing claimId (submissionKey ticket) grant
    | .error e => .releasing claimId e

end Request

/-- What follows the answer of the grant's owner, the time of the stored row or why there is none. -/
def afterStore (claimId key : String) (now : Int) : Answer (Option Int) → Phase
  | .ok updatedAt => .completing claimId ⟨key, updatedAt.getD now⟩
  | .error e => .releasing claimId e

/-- What follows the answer to a completion; the submission is stored, so no claim is given back. -/
def afterComplete (receipt : Receipt) : Answer ClaimResult → Phase
  | .ok (.alreadyConsumed _ _) => .ended (.accepted receipt)
  | .ok _ => .ended (.failed commitFailed)
  | .error e => .ended (.failed e)

/-- The release is not waited for in earnest: its failure is ignored. -/
def afterRelease (error : HttpError) : Phase := .ended (.failed error)

/-! ## 2. All requests -/

/-- A request on its way, with the canonical text of its body. -/
structure Running where
  ticketId : String
  input : Json
  phase : Phase

/-- A credential write that was given up and may still be stored. -/
structure Late where
  claimId : String
  input : Json
  grant : Submission

/-- The grant of the ticket: the body that was stored last, and the grant made of it. -/
structure Stored where
  input : Json
  grant : Submission

/-- A ticket and its submissions. -/
structure State where
  ticket : Option Ticket
  grant : Option Stored
  running : Nat → Option Running
  late : List Late
  now : Int
  /-- The bodies stored so far, each with the claim it was stored under. -/
  written : List (String × Json)
  /-- The receipts returned so far, each with the body it was returned for. -/
  receipts : List (Receipt × Json)

namespace State

def goOn (s : State) (i : Nat) (r : Running) (phase : Phase) : State :=
  { s with running := Function.update s.running i (some { r with phase }) }

/-- The owner of the grant stores a submission. -/
def store (s : State) (claimId : String) (input : Json) (grant : Submission) : State :=
  { s with
    grant := some ⟨input, grant⟩
    written := (claimId, input) :: s.written }

/-- The receipt of a phase is known to a caller. -/
def told (s : State) (input : Json) (phase : Phase) : State :=
  { s with receipts := (phase.receipt.toList.map fun receipt => (receipt, input)) ++ s.receipts }

end State

/-- What becomes of a call: it is answered, its answer is lost, or it is lost itself. -/
inductive Fate
  | answered
  | answerLost
  | callLost
  deriving DecidableEq

def Fate.arrives : Fate → Bool
  | .callLost => false
  | _ => true

/-- What is heard of a call that would answer `a`. -/
def Fate.hear {α : Type} (fate : Fate) (a : Answer α) : Answer α :=
  match fate with
  | .answered => a
  | _ => .error lost

/-- What becomes of a credential write: as for a call, it may be refused, or be stored later. -/
inductive WriteFate
  | stored (answered : Bool)
  | refused (error : HttpError)
  | late
  | lost

/-- A step of a submission. -/
inductive Label
  | arrive (i : Nat) (request : Request)
  | claim (i : Nat) (claimId : String) (fate : Fate)
  | write (i : Nat) (fate : WriteFate)
  | land (late : Late)
  | complete (i : Nat) (fate : Fate)
  | release (i : Nat) (fate : Fate)
  | tick (time : Int)
  | purge

section System

variable (platform : Platform)

/-- `getSubmissionTicket`, where the one ticket is the only row. -/
def State.row (s : State) (id : String) : Option Ticket := s.ticket.filter fun ticket => ticket.id = id

/-- The ticket after a claim, and what the claim answers; one that throws changes nothing. -/
def claimed (s : State) (claim : ClaimRequest) (claimId : String) : Option Ticket × Answer ClaimResult :=
  match claimSubmissionTicket (s.row claim.id) claim claimId s.now with
  | .ok (row, result) => (row.or s.ticket, .ok result)
  | .error e => (s.ticket, .error e)

/-- The ticket after a completion, and what the completion answers. -/
def completed (s : State) (ticketId claimId : String) (receipt : Receipt) :
    Option Ticket × Answer ClaimResult :=
  match completeSubmissionTicket (s.row ticketId) ticketId claimId receipt with
  | .ok (row, result) => (row.or s.ticket, .ok result)
  | .error e => (s.ticket, .error e)

def released (s : State) (ticketId claimId : String) : Option Ticket :=
  match releaseSubmissionTicket (s.row ticketId) ticketId claimId with
  | .ok row => row.or s.ticket
  | .error _ => s.ticket

def inputOf (request : Request) : Json :=
  match request.body with
  | .ok input => input
  | .error _ => .null

/-- The identifier of the ticket a request names. -/
def ticketIdOf (request : Request) : String :=
  match request.segment with
  | some (.ok id) => id
  | _ => ""

/-- **What can happen next.** -/
inductive Step : State → Label → State → Prop
  | arrive {s : State} {i : Nat} {request : Request} :
      s.running i = none →
      Step s (.arrive i request)
        { s with
          running := Function.update s.running i
            (some ⟨ticketIdOf request, inputOf request, firstPhase platform request⟩) }
  | claim {s : State} {i : Nat} {r : Running} {claim : ClaimRequest} {claimId : String} {fate : Fate} :
      s.running i = some r → r.phase = .claiming claim →
      Step s (.claim i claimId fate)
        ((({ s with ticket := if fate.arrives then (claimed s claim claimId).1 else s.ticket }).goOn i r
          (afterClaim platform r.input s.now (fate.hear (claimed s claim claimId).2))).told r.input
            (afterClaim platform r.input s.now (fate.hear (claimed s claim claimId).2)))
  | stored {s : State} {i : Nat} {r : Running} {claimId key : String} {grant : Submission}
      {answered : Bool} :
      s.running i = some r → r.phase = .storing claimId key grant →
      Step s (.write i (.stored answered))
        ((s.store claimId r.input grant).goOn i r
          (afterStore claimId key s.now (if answered then .ok (some grant.updatedAt) else .error lost)))
  | refused {s : State} {i : Nat} {r : Running} {claimId key : String} {grant : Submission}
      {error : HttpError} :
      s.running i = some r → r.phase = .storing claimId key grant →
      Step s (.write i (.refused error)) (s.goOn i r (afterStore claimId key s.now (.error error)))
  | late {s : State} {i : Nat} {r : Running} {claimId key : String} {grant : Submission} :
      s.running i = some r → r.phase = .storing claimId key grant →
      Step s (.write i .late)
        (({ s with late := ⟨claimId, r.input, grant⟩ :: s.late }).goOn i r
          (afterStore claimId key s.now (.error lost)))
  | lost {s : State} {i : Nat} {r : Running} {claimId key : String} {grant : Submission} :
      s.running i = some r → r.phase = .storing claimId key grant →
      Step s (.write i .lost) (s.goOn i r (afterStore claimId key s.now (.error lost)))
  | land {s : State} {l₁ l₂ : List Late} {w : Late} :
      s.late = l₁ ++ w :: l₂ →
      Step s (.land w) (({ s with late := l₁ ++ l₂ }).store w.claimId w.input w.grant)
  | complete {s : State} {i : Nat} {r : Running} {claimId : String} {receipt : Receipt} {fate : Fate} :
      s.running i = some r → r.phase = .completing claimId receipt →
      Step s (.complete i fate)
        ((({ s with
            ticket := if fate.arrives then (completed s r.ticketId claimId receipt).1
              else s.ticket }).goOn i r
          (afterComplete receipt (fate.hear (completed s r.ticketId claimId receipt).2))).told r.input
            (afterComplete receipt (fate.hear (completed s r.ticketId claimId receipt).2)))
  | release {s : State} {i : Nat} {r : Running} {claimId : String} {error : HttpError} {fate : Fate} :
      s.running i = some r → r.phase = .releasing claimId error →
      Step s (.release i fate)
        (({ s with
            ticket := if fate.arrives then released s r.ticketId claimId else s.ticket }).goOn i r
          (afterRelease error))
  | tick {s : State} {time : Int} : s.now ≤ time → Step s (.tick time) { s with now := time }
  -- another ticket is issued, and the expired ones are deleted
  | purge {s : State} {ticket : Ticket} :
      s.ticket = some ticket → ticket.expiresAtMs < s.now → Step s .purge { s with ticket := none }

end System

def start (ticket : Ticket) (now : Int) : State where
  ticket :=
  some ticket
  grant := none
  running := fun _ => none
  late := []
  now := now
  written := []
  receipts := []

/-- A ticket as `normalizeSubmissionTicket` leaves it. -/
def Ticket.fresh (ticket : Ticket) : Prop :=
  ticket.state = .ready ∧ ticket.submissionSha256 = none ∧ ticket.claimId = none ∧ ticket.receipt = none

/-! ## 3. What the authority does -/

/-- What a claim can do to the ticket and answer. -/
inductive ClaimEffect (old : Option Ticket) (digest claimId : String) (now : Int) :
    Option Ticket → Answer ClaimResult → Prop
  | refused {answer : Answer ClaimResult} :
      (∀ view held, answer ≠ .ok (.claimed view held)) →
      (∀ view receipt, answer ≠ .ok (.alreadyConsumed view receipt)) →
      ClaimEffect old digest claimId now old answer
  | taken {t : Ticket} :
      old = some t → t.state = .ready →
      ClaimEffect old digest claimId now (some (t.claimedBy digest claimId now))
        (.ok (.claimed (t.claimedBy digest claimId now).toTicketView claimId))
  | shared {t : Ticket} {held : String} :
      old = some t → t.state = .claimed → t.claimId = some held → t.submissionSha256 = some digest →
      ClaimEffect old digest claimId now old (.ok (.claimed t.toTicketView held))
  | known {t : Ticket} :
      old = some t → t.state = .consumed → t.submissionSha256 = some digest →
      ClaimEffect old digest claimId now old (.ok (.alreadyConsumed t.toTicketView t.receipt))

theorem row_eq {s : State} {id : String} {t : Ticket} (h : s.row id = some t) :
    s.ticket = some t ∧ t.id = id := by
  unfold State.row at h
  rw [Option.filter_eq_some_iff] at h
  exact ⟨h.1, of_decide_eq_true h.2⟩

theorem claimed_refused {s : State} {digest claimId : String} {result : ClaimResult}
    (h1 : ∀ view held, result ≠ .claimed view held)
      (h2 : ∀ view receipt, result ≠ .alreadyConsumed view receipt) :
    ClaimEffect s.ticket digest claimId s.now s.ticket (.ok result) := by
  refine .refused (fun view held e => ?_) fun view receipt e => ?_
  · injection e with e
    exact h1 view held e
  · injection e with e
    exact h2 view receipt e

theorem claimTicket_effect {s : State} {t : Ticket} (ht : s.ticket = some t) (digest claimId : String) :
    ClaimEffect s.ticket digest claimId s.now (some (claimTicket t digest claimId s.now).1)
      (.ok (claimTicket t digest claimId s.now).2) := by
  unfold claimTicket
  cases hstate : t.state with
  | ready => exact .taken ht hstate
  | consumed =>
    by_cases hd : t.submissionSha256 = some digest
    · simp only [if_pos hd]
      rw [← ht]
      exact .known ht hstate hd
    · simp only [if_neg hd]
      rw [← ht]
      exact claimed_refused (fun _ _ e => by cases e) fun _ _ e => by cases e
  | claimed =>
    cases hc : t.claimId with
    | none =>
      rw [← ht]
      exact claimed_refused (fun _ _ e => by cases e) fun _ _ e => by cases e
    | some held =>
      by_cases hd : t.submissionSha256 = some digest
      · simp only [if_pos hd]
        rw [← ht]
        exact .shared ht hstate hc hd
      · simp only [if_neg hd]
        rw [← ht]
        exact claimed_refused (fun _ _ e => by cases e) fun _ _ e => by cases e

theorem claimed_effect (s : State) (claim : ClaimRequest) (claimId : String) :
    ClaimEffect s.ticket claim.submissionSha256 claimId s.now (claimed s claim claimId).1
      (claimed s claim claimId).2 := by
  unfold claimed
  cases h : claimSubmissionTicket (s.row claim.id) claim claimId s.now with
  | error e => exact .refused (fun _ _ h => by cases h) fun _ _ h => by cases h
  | ok out =>
    unfold claimSubmissionTicket at h
    rw [bind_ok] at h
    obtain ⟨_, _, h⟩ := h
    cases hrow : s.row claim.id with
    | none =>
      rw [hrow] at h
      cases h
      exact claimed_refused (fun _ _ e => by cases e) fun _ _ e => by cases e
    | some t =>
      obtain ⟨ht, _⟩ := row_eq hrow
      have keep : (some t).or s.ticket = s.ticket := by rw [ht]; rfl
      rw [hrow] at h
      dsimp only at h
      split at h
      · cases h
        dsimp only
        rw [keep]
        exact claimed_refused (fun _ _ e => by cases e) fun _ _ e => by cases e
      · split at h
        · cases h
          dsimp only
          rw [keep]
          exact claimed_refused (fun _ _ e => by cases e) fun _ _ e => by cases e
        · rw [bind_ok] at h
          obtain ⟨_, _, h⟩ := h
          cases h
          exact claimTicket_effect ht _ _

theorem holdsClaim_some {row : Option Ticket} {claimId : String} (h : holdsClaim row claimId = true) :
    ∃ t, row = some t ∧ t.state = .claimed ∧ t.claimId = some claimId := by
  unfold holdsClaim at h
  cases row with
  | none => cases h
  | some t =>
    rw [Option.any_some, Bool.and_eq_true, decide_eq_true_eq, decide_eq_true_eq] at h
    exact ⟨t, rfl, h.1, h.2⟩

/-- What a completion can do to the ticket and answer; `held` tells whether its claim has the ticket. -/
inductive CompleteEffect (old : Option Ticket) (held : Bool) (claimId : String) (receipt : Receipt) :
    Option Ticket → Answer ClaimResult → Prop
  | refused {answer : Answer ClaimResult} :
      (∀ view told, answer ≠ .ok (.alreadyConsumed view told)) →
      CompleteEffect old held claimId receipt old answer
  | done {t : Ticket} :
      held = true → old = some t → t.state = .claimed → t.claimId = some claimId →
      CompleteEffect old held claimId receipt (some (t.consumedWith receipt))
        (.ok (.alreadyConsumed (t.consumedWith receipt).toTicketView (some receipt)))

theorem completed_effect (s : State) (ticketId claimId : String) (receipt : Receipt) :
    CompleteEffect s.ticket (holdsClaim (s.row ticketId) claimId) claimId receipt
      (completed s ticketId claimId receipt).1 (completed s ticketId claimId receipt).2 := by
  unfold completed
  cases h : completeSubmissionTicket (s.row ticketId) ticketId claimId receipt with
  | error e => exact .refused fun _ _ h => by cases h
  | ok out =>
    unfold completeSubmissionTicket at h
    rw [bind_ok] at h
    obtain ⟨_, _, h⟩ := h
    cases hrow : s.row ticketId with
    | none =>
      rw [hrow] at h
      cases h
      refine .refused fun _ _ e => ?_
      injection e with e
      cases e
    | some t =>
      obtain ⟨ht, _⟩ := row_eq hrow
      rw [hrow] at h
      by_cases hh : holdsClaim (some t) claimId = true
      · simp only [if_pos hh] at h
        rw [bind_ok] at h
        obtain ⟨_, _, h⟩ := h
        cases h
        obtain ⟨t', e, hstate, hc⟩ := holdsClaim_some hh
        cases e
        exact .done hh ht hstate hc
      · simp only [if_neg hh] at h
        cases h
        have keep : (some t).or s.ticket = s.ticket := by rw [ht]; rfl
        dsimp only
        rw [keep]
        refine .refused fun _ _ e => ?_
        injection e with e
        cases e

/-- A release gives back a ticket its claim holds, or does nothing. -/
theorem released_cases (s : State) (ticketId claimId : String) : released s ticketId claimId = s.ticket ∨
      ∃ t, s.ticket = some t ∧ t.state = .claimed ∧ t.claimId = some claimId ∧
        holdsClaim (s.row ticketId) claimId = true ∧ released s ticketId claimId = some t.readyAgain := by
  unfold released
  cases h : releaseSubmissionTicket (s.row ticketId) ticketId claimId with
  | error e => exact .inl rfl
  | ok row =>
    unfold releaseSubmissionTicket at h
    rw [bind_ok] at h
    obtain ⟨_, _, h⟩ := h
    by_cases hh : holdsClaim (s.row ticketId) claimId = true
    · obtain ⟨t, hrow, hstate, hc⟩ := holdsClaim_some hh
      rw [hh, hrow] at h
      cases h
      exact .inr ⟨t, (row_eq hrow).1, hstate, hc, hh, rfl⟩
    · simp only [if_neg hh] at h
      cases h
      left
      show (s.row ticketId).or s.ticket = s.ticket
      cases hrow : s.row ticketId with
      | none => rfl
      | some t => rw [(row_eq hrow).1, Option.or_self]

end ClawRouter.Submissions
