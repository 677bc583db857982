/-
  Subject:   What one connection of Google Live did so far, and what it may do next, over every sequence of frames.

  A history keeps every frame with what it was answered. The maps of the connection are read off it: the ids that
  were seen are those that were announced, and what is pending was announced and neither cancelled nor finished
  since.

  * `Told`: the connection and its history agree; **`step_told`**;
  * **`google_live_protocol`**: the protocol, over every history.
-/
import ClawRouter.Lib.Entries
import ClawRouter.Lib.Trace
import ClawRouter.Live.GoogleLive

namespace ClawRouter.GoogleLive

open Utf16 Js Fallible

/-! ## 1. Entries of a frame -/

theorem lookup_remove (names : Names) (id other : Text) :
    (remove names id).lookup other = if other = id then none else names.lookup other :=
  Entries.lookup_filter_ne names id other

theorem checked {condition : Bool} {reason : String} {u : Unit}
    (h : require condition reason = .ok u) : condition = true := by
  cases condition with
  | true => rfl
  | false => cases h

variable {after pending pending' seen seen' : Names}

section Entries

variable {setup : GoogleLiveSetup}

theorem takeResult_ok {ids : List Text} {value : Value} {result : ToolResult}
    (h : takeResult setup ids pending value = .ok (result, after)) :
    result.id ∉ ids ∧ pending.lookup result.id = some result.name ∧
      ((result.willContinue = true ∨ result.scheduled = true) → mayContinue setup result.name = true) ∧
      after = if result.willContinue = true then pending else remove pending result.id := by
  obtain ⟨row, -, h⟩ := bind_ok.mp h
  obtain ⟨-, -, h⟩ := bind_ok.mp h
  obtain ⟨id, -, h⟩ := bind_ok.mp h
  obtain ⟨name, -, h⟩ := bind_ok.mp h
  obtain ⟨_, howner, h⟩ := bind_ok.mp h
  obtain ⟨-, -, h⟩ := bind_ok.mp h
  obtain ⟨-, -, h⟩ := bind_ok.mp h
  obtain ⟨_, hcontinue, h⟩ := bind_ok.mp h
  cases h
  have howner := checked howner
  rw [Bool.and_eq_true, Bool.not_eq_true', beq_iff_eq] at howner
  have hcontinue := checked hcontinue
  refine ⟨fun hin => ?_, howner.2, fun hsome => ?_, rfl⟩
  · rw [List.contains_iff_mem.mpr hin] at howner
    cases howner.1
  · have hneeds : (has row "scheduling" || isTrue (get row "willContinue")) = true := by
      rw [Bool.or_eq_true]
      exact hsome.symm
    rw [hneeds, Bool.not_true, Bool.false_or, Bool.and_eq_true] at hcontinue
    exact hcontinue.1

theorem takeResults_ok {values : List Value} {ids : List Text} {results : List ToolResult}
    (h : takeResults setup values ids pending = .ok (results, after)) : (results.map (·.id)).Nodup ∧
      (∀ result ∈ results, result.id ∉ ids ∧ pending.lookup result.id = some result.name ∧
        ((result.willContinue = true ∨ result.scheduled = true) → mayContinue setup result.name = true)) ∧
      ∀ id name, after.lookup id = some name → pending.lookup id = some name ∧
        ∀ result ∈ results, result.id = id → result.willContinue = true := by
  induction values generalizing ids pending results with
  | nil =>
    cases h
    exact ⟨List.nodup_nil, nofun, fun id name hin => ⟨hin, nofun⟩⟩
  | cons value rest ih =>
    obtain ⟨⟨result, between⟩, hfirst, h⟩ := bind_ok.mp h
    obtain ⟨⟨others, last⟩, hrest, h⟩ := bind_ok.mp h
    cases h
    obtain ⟨hfresh, hpending, hallowed, rfl⟩ := takeResult_ok hfirst
    obtain ⟨hnodup, hothers, hafter⟩ := ih hrest
    have hkeep : ∀ {id name}, (if result.willContinue = true then pending else remove pending
      result.id).lookup id =
        some name → pending.lookup id = some name ∧ (id = result.id → result.willContinue = true) := by
      intro id name hin
      split at hin
      · rename_i hcontinues
        exact ⟨hin, fun _ => hcontinues⟩
      · rw [lookup_remove] at hin
        split at hin
        · cases hin
        · rename_i hne
          exact ⟨hin, fun e => absurd e hne⟩
    refine ⟨List.nodup_cons.mpr ⟨fun hin => ?_, hnodup⟩, fun other hin => ?_, fun id name hin => ?_⟩
    · obtain ⟨other, hother, hsame⟩ := List.mem_map.mp hin
      exact (hothers other hother).1 (by rw [hsame]; exact List.mem_cons_self)
    · rcases List.mem_cons.mp hin with rfl | hin
      · exact ⟨hfresh, hpending, hallowed⟩
      · obtain ⟨hnew, hlookup, hmay⟩ := hothers other hin
        exact ⟨fun hold => hnew (List.mem_cons_of_mem _ hold), (hkeep hlookup).1, hmay⟩
    · obtain ⟨hbetween, hcontinued⟩ := hafter id name hin
      obtain ⟨hold, hfirst⟩ := hkeep hbetween
      refine ⟨hold, fun other hother hid => ?_⟩
      rcases List.mem_cons.mp hother with rfl | hother
      · exact hfirst hid.symm
      · exact hcontinued other hother hid

theorem takeCall_ok {value : Value} {calls : List ToolCall}
    (h : takeCall setup seen pending value = .ok (calls, seen', pending')) :
    (calls = [] ∧ seen' = seen ∧ pending' = pending) ∨
      ∃ call, calls = [call] ∧ seen.lookup call.id = none ∧
        (setup.tools.any fun tool => tool.name == call.name) = true ∧
        seen' = seen ++ [(call.id, call.name)] ∧ pending' = remove pending call.id ++
          [(call.id, call.name)] := by
  obtain ⟨row, -, h⟩ := bind_ok.mp h
  obtain ⟨-, -, h⟩ := bind_ok.mp h
  obtain ⟨id, -, h⟩ := bind_ok.mp h
  obtain ⟨name, -, h⟩ := bind_ok.mp h
  obtain ⟨args, -, h⟩ := bind_ok.mp h
  obtain ⟨_, howner, h⟩ := bind_ok.mp h
  have howner := checked howner
  rw [Bool.and_eq_true] at howner
  split at h
  · cases h
    exact .inl ⟨rfl, rfl, rfl⟩
  · rename_i hnew
    obtain ⟨-, -, h⟩ := bind_ok.mp h
    cases h
    exact .inr ⟨⟨id, name, args⟩, rfl, Option.not_isSome_iff_eq_none.mp hnew, howner.1, rfl, rfl⟩

theorem takeCalls_ok {values : List Value} {calls : List ToolCall}
    (h : takeCalls setup values seen pending = .ok (calls, seen', pending')) :
    seen' = seen ++ calls.map (fun call => (call.id, call.name)) ∧
      ((seen.map (·.1)).Nodup → (seen'.map (·.1)).Nodup) ∧
      (∀ call ∈ calls, (setup.tools.any fun tool => tool.name == call.name) = true) ∧
      ∀ id name, pending'.lookup id = some name →
        pending.lookup id = some name ∨ ∃ call ∈ calls, call.id = id ∧ call.name = name := by
  induction values generalizing seen pending calls with
  | nil =>
    cases h
    exact ⟨(List.append_nil _).symm, id, nofun, fun id name hin => .inl hin⟩
  | cons value rest ih =>
    obtain ⟨⟨call, seen₁, pending₁⟩, hfirst, h⟩ := bind_ok.mp h
    obtain ⟨⟨others, seen₂, pending₂⟩, hrest, h⟩ := bind_ok.mp h
    cases h
    obtain ⟨hseen, hnodup, hdeclared, hpending⟩ := ih hrest
    rcases takeCall_ok hfirst with ⟨rfl, rfl, rfl⟩ | ⟨call, rfl, hnew, hname, rfl, rfl⟩
    · exact ⟨hseen, hnodup, hdeclared, hpending⟩
    · refine ⟨by rw [hseen, List.append_assoc]; rfl, fun hold => hnodup ?_, fun other hin => ?_, fun id name hin => ?_⟩
      · rw [List.map_append, List.nodup_append]
        refine ⟨hold, List.nodup_singleton _, fun a ha b hb hsame => ?_⟩
        obtain ⟨entry, hentry, rfl⟩ := List.mem_map.mp ha
        rw [List.mem_singleton.mp hb] at hsame
        have hsome := List.lookup_eq_none_iff.mp hnew entry hentry
        exact bne_iff_ne.mp hsome hsame.symm
      · rcases List.mem_cons.mp hin with rfl | hin
        · exact hname
        · exact hdeclared other hin
      · rcases hpending id name hin with hlookup | ⟨other, hother, hid, hname'⟩
        · rw [List.lookup_append, lookup_remove] at hlookup
          by_cases hid : id = call.id
          · rw [if_pos hid, Option.none_or, List.lookup_cons, hid, beq_self_eq_true] at hlookup
            exact .inr ⟨call, List.mem_cons_self, hid.symm, Option.some.inj hlookup⟩
          · rw [if_neg hid, List.lookup_cons, beq_eq_false_iff_ne.mpr hid] at hlookup
            left
            cases hold : pending.lookup id with
            | none =>
              rw [hold] at hlookup
              cases hlookup
            | some found =>
              rw [hold] at hlookup
              exact hlookup
        · exact .inr ⟨other, List.mem_cons_of_mem _ hother, hid, hname'⟩

theorem takeCancellations_ok {values : List Value} {ids canceled : List Text}
    (h : takeCancellations values pending = .ok (ids, canceled, after)) (id name : Text)
    (hin : after.lookup id = some name) : pending.lookup id = some name ∧ id ∉ ids := by
  induction values generalizing pending ids canceled with
  | nil =>
    cases h
    exact ⟨hin, List.not_mem_nil⟩
  | cons value rest ih =>
    obtain ⟨first, -, h⟩ := bind_ok.mp h
    obtain ⟨⟨others, gone, last⟩, hrest, h⟩ := bind_ok.mp h
    cases h
    obtain ⟨hlookup, hnot⟩ := ih hrest
    rw [lookup_remove] at hlookup
    split at hlookup
    · cases hlookup
    · rename_i hne
      exact ⟨hlookup, fun hmem => (List.mem_cons.mp hmem).elim hne hnot⟩

end Entries

variable {c c' : GoogleLiveConnection} {wire : Text} {body : Members} {history : List Event}

section Histories

variable {toText : Value → Text} {parse : Text → Option Value} {setup : GoogleLiveSetup}

theorem clientChecks_ok {results : List ToolResult}
    (h : clientChecks toText parse setup c wire = .ok (body, results, pending)) :
    (c.ready = true ∧ c.closed = false) ∧ (results.map (·.id)).Nodup ∧
      (∀ result ∈ results, c.pending.lookup result.id = some result.name ∧
        ((result.willContinue = true ∨ result.scheduled = true) → mayContinue setup result.name = true)) ∧
      ∀ id name, pending.lookup id = some name → c.pending.lookup id = some name ∧
        ∀ result ∈ results, result.id = id → result.willContinue = true := by
  obtain ⟨_, hready, h⟩ := bind_ok.mp h
  obtain ⟨frame, -, h⟩ := bind_ok.mp h
  obtain ⟨_, -, h⟩ := bind_ok.mp h
  obtain ⟨_, -, h⟩ := bind_ok.mp h
  have hready := checked hready
  rw [Bool.and_eq_true, Bool.not_eq_true'] at hready
  refine ⟨hready, ?_⟩
  split at h
  · obtain ⟨_, -, h⟩ := bind_ok.mp h
    cases h
    exact ⟨List.nodup_nil, nofun, fun id name hin => ⟨hin, nofun⟩⟩
  · split at h
    · obtain ⟨_, -, h⟩ := bind_ok.mp h
      cases h
      exact ⟨List.nodup_nil, nofun, fun id name hin => ⟨hin, nofun⟩⟩
    · obtain ⟨⟨taken, after⟩, hresponse, h⟩ := bind_ok.mp h
      cases h
      obtain ⟨response, -, hresponse⟩ := bind_ok.mp hresponse
      obtain ⟨_, -, hresponse⟩ := bind_ok.mp hresponse
      obtain ⟨values, -, hresponse⟩ := bind_ok.mp hresponse
      obtain ⟨hnodup, hresults, hafter⟩ := takeResults_ok hresponse
      exact ⟨hnodup, fun result hin => (hresults result hin).2, hafter⟩

theorem parseFrame_ok (h : parseFrame parse wire = .ok body) : parse wire = some (.obj body) := by
  unfold parseFrame object at h
  split at h
  · cases h
  · split at h
    · cases h
    · rename_i value hparse
      split at h
      · rename_i hvalue
        cases h
        rw [hparse]
        exact hvalue
      · cases h

theorem toolCall_ok {calls : List ToolCall} (h : toolCall setup seen pending body = .ok
    (calls, seen', pending')) :
    seen' = seen ++ calls.map (fun call => (call.id, call.name)) ∧
      ((seen.map (·.1)).Nodup → (seen'.map (·.1)).Nodup) ∧
      (∀ call ∈ calls, (setup.tools.any fun tool => tool.name == call.name) = true) ∧
      ∀ id name, pending'.lookup id = some name →
        pending.lookup id = some name ∨ ∃ call ∈ calls, call.id = id ∧ call.name = name := by
  unfold toolCall at h
  split at h
  · obtain ⟨call, -, h⟩ := bind_ok.mp h
    obtain ⟨_, -, h⟩ := bind_ok.mp h
    obtain ⟨values, -, h⟩ := bind_ok.mp h
    exact takeCalls_ok h
  · cases h
    exact ⟨(List.append_nil _).symm, id, nofun, fun id name hin => .inl hin⟩

theorem toolCallCancellation_ok {ids canceled : List Text}
    (h : toolCallCancellation pending body = .ok (ids, canceled, after)) (id name : Text)
    (hin : after.lookup id = some name) : pending.lookup id = some name ∧ id ∉ ids := by
  unfold toolCallCancellation at h
  split at h
  · obtain ⟨cancellation, -, h⟩ := bind_ok.mp h
    obtain ⟨_, -, h⟩ := bind_ok.mp h
    obtain ⟨values, -, h⟩ := bind_ok.mp h
    exact takeCancellations_ok h id name hin
  · cases h
    exact ⟨hin, List.not_mem_nil⟩

theorem setupComplete_ok {ready ready' : Bool} (h : setupComplete ready body = .ok ready') :
    ready' = (ready || has body "setupComplete") := by
  unfold setupComplete at h
  split at h
  · rename_i hcomplete
    obtain ⟨_, -, h⟩ := bind_ok.mp h
    obtain ⟨complete, -, h⟩ := bind_ok.mp h
    obtain ⟨_, -, h⟩ := bind_ok.mp h
    cases h
    rw [hcomplete, Bool.or_true]
  · rename_i hcomplete
    cases h
    rw [Bool.eq_false_iff.mpr hcomplete, Bool.or_false]

/-- `name` of the content of a frame. -/
def contentOf (body : Members) (name : String) : Option Value :=
  match get body "serverContent" with
  | some (.obj content) => get content name
  | _ => none

theorem object_ok {value : Option Value} {members : Members} (h : object value = .ok members) :
    value = some (.obj members) := by
  unfold object at h
  split at h
  · cases h
    rfl
  · cases h

theorem serverContent_ok {content : Content} (h : serverContent toText setup body = .ok content) :
    content.turnComplete = isTrue (contentOf body "turnComplete") ∧
      content.idle = isText (contentOf body "interactionStatus") "IDLE" := by
  unfold serverContent at h
  split at h
  · obtain ⟨members, hobject, h⟩ := bind_ok.mp h
    obtain ⟨_, -, h⟩ := bind_ok.mp h
    obtain ⟨_, -, h⟩ := bind_ok.mp h
    obtain ⟨_, -, h⟩ := bind_ok.mp h
    obtain ⟨input, -, h⟩ := bind_ok.mp h
    obtain ⟨output, -, h⟩ := bind_ok.mp h
    obtain ⟨audio, -, h⟩ := bind_ok.mp h
    cases h
    unfold contentOf
    rw [object_ok hobject]
    exact ⟨rfl, rfl⟩
  · rename_i hnone
    cases h
    have hget : get body "serverContent" = none := Option.not_isSome_iff_eq_none.mp hnone
    unfold contentOf
    rw [hget]
    exact ⟨rfl, rfl⟩

theorem serverChecks_ok {staged : Staged} (h : serverChecks toText parse setup c wire = .ok staged) :
    (c.closed = false ∧ parseFrame parse wire = .ok staged.observation.body) ∧
      (staged.observation.ready = true → c.ready = true ∨ has staged.observation.body "setupComplete" = true) ∧
      (staged.seen = c.seen ++ staged.observation.calls.map (fun call => (call.id, call.name)) ∧
        ((c.seen.map (·.1)).Nodup → (staged.seen.map (·.1)).Nodup) ∧
        ∀ call ∈ staged.observation.calls, (setup.tools.any fun tool => tool.name == call.name) = true) ∧
      (∀ id name, staged.pending.lookup id = some name → id ∉ staged.cancels ∧
        (c.pending.lookup id = some name ∨ ∃ call ∈ staged.observation.calls, call.id = id ∧
          call.name = name)) ∧
      staged.observation.responseDone = (isTrue (contentOf staged.observation.body "turnComplete") &&
        (!setup.extendedThinking || (c.interrupted || staged.observation.interrupted) ||
          isText (contentOf staged.observation.body "interactionStatus") "IDLE")) ∧
      staged.interrupted = ((c.interrupted || staged.observation.interrupted) &&
        !staged.observation.responseDone) := by
  obtain ⟨_, hclosed, h⟩ := bind_ok.mp h
  obtain ⟨body, hbody, h⟩ := bind_ok.mp h
  obtain ⟨_, -, h⟩ := bind_ok.mp h
  obtain ⟨_, -, h⟩ := bind_ok.mp h
  obtain ⟨_, -, h⟩ := bind_ok.mp h
  obtain ⟨ready, hready, h⟩ := bind_ok.mp h
  obtain ⟨usage, -, h⟩ := bind_ok.mp h
  obtain ⟨_, -, h⟩ := bind_ok.mp h
  obtain ⟨content, hcontent, h⟩ := bind_ok.mp h
  obtain ⟨⟨calls, seen, called⟩, hcalls, h⟩ := bind_ok.mp h
  obtain ⟨⟨cancels, canceled, pending⟩, hcancels, h⟩ := bind_ok.mp h
  obtain ⟨_, -, h⟩ := bind_ok.mp h
  obtain ⟨_, -, h⟩ := bind_ok.mp h
  cases h
  have hclosed := checked hclosed
  rw [Bool.not_eq_true'] at hclosed
  obtain ⟨hseen, hnodup, hdeclared, hcalled⟩ := toolCall_ok hcalls
  obtain ⟨hcomplete, hidle⟩ := serverContent_ok hcontent
  refine ⟨⟨hclosed, hbody⟩, fun hsome => ?_, ⟨hseen, hnodup, hdeclared⟩, fun id name hin => ?_, ?_, rfl⟩
  · have hor : ready = true := hsome
    rw [setupComplete_ok hready, Bool.or_eq_true] at hor
    exact hor
  · obtain ⟨hlookup, hnot⟩ := toolCallCancellation_ok hcancels id name hin
    exact ⟨hnot, hcalled id name hlookup⟩
  · rw [← hcomplete, ← hidle]

/-! ## 2. Histories -/

/-- A frame or a close, with what it was answered. -/
inductive Event
  | client (wire : Text) (result : Answer (Members × List ToolResult))
  | server (wire : Text) (result : Answer (GoogleLiveObservation × List Text))
  | close

variable (toText parse setup)

inductive Step (c : GoogleLiveConnection) : Event → GoogleLiveConnection → Prop
  | client (wire : Text) : Step c (.client wire (c.client toText parse setup wire).1)
    (c.client toText parse setup wire).2
  | server (wire : Text) : Step c (.server wire (c.server toText parse setup wire).1)
    (c.server toText parse setup wire).2
  | close : Step c .close c.close

variable {toText parse setup}

namespace Event

/-- What an accepted frame of the server shows. -/
def observation : Event → Option GoogleLiveObservation
  | .server _ (.ok (observation, _)) => some observation
  | _ => none

def calls (event : Event) : List ToolCall := (event.observation.map (·.calls)).getD []

def results : Event → List ToolResult
  | .client _ (.ok (_, results)) => results
  | _ => []

def cancels : Event → List Text
  | .server _ (.ok (_, ids)) => ids
  | _ => []

def interrupts (event : Event) : Bool := (event.observation.map (·.interrupted)).getD false

def responseDone (event : Event) : Bool := (event.observation.map (·.responseDone)).getD false

def completes (event : Event) : Bool := (event.observation.map fun o => has o.body "setupComplete").getD false

def rejected : Event → Option Rejection
  | .client _ (.error reason) => some reason
  | .server _ (.error reason) => some reason
  | _ => none

def closes (event : Event) : Prop := event = .close ∨ event.rejected = some .frameLimit

end Event

/-- The id was announced with this name, and neither cancelled nor finished since. -/
def Standing (history : List Event) (id name : Text) : Prop :=
  ∃ before announcing after, history = before ++ announcing :: after ∧
    (∃ call ∈ announcing.calls, call.id = id ∧ call.name = name) ∧
    ∀ event ∈ announcing :: after, id ∉ event.cancels ∧ ∀ result ∈ event.results, result.id = id →
      result.willContinue = true

/-- There was an interruption since the last response that was done. -/
def interruptedSince (history : List Event) : Bool :=
  history.foldl (fun interrupted event => (interrupted || event.interrupts) && !event.responseDone) false

def announced (history : List Event) : List ToolCall := history.flatMap Event.calls

/-- **The connection and its history agree.** -/
structure Told (setup : GoogleLiveSetup) (history : List Event) (c : GoogleLiveConnection) : Prop where
  open_ : c.closed = false → ∀ event ∈ history, ¬ event.closes
  ready : c.ready = true → c.closed = false ∧ ∃ event ∈ history, event.completes = true
  seen : c.closed = false → c.seen = (announced history).map fun call => (call.id, call.name)
  once : ((announced history).map (·.id)).Nodup
  declared : ∀ call ∈ announced history, (setup.tools.any fun tool => tool.name == call.name) = true
  pending : ∀ id name, c.pending.lookup id = some name → Standing history id name
  interrupted : c.closed = false → c.interrupted = interruptedSince history

theorem Standing.next {id name : Text} (h : Standing history id name) {event : Event}
    (hcancels : id ∉ event.cancels) (hresults : ∀ result ∈ event.results, result.id = id →
      result.willContinue = true) :
    Standing (history ++ [event]) id name := by
  obtain ⟨before, announcing, after, rfl, hcall, hsince⟩ := h
  refine ⟨before, announcing, after ++ [event], by rw [List.append_assoc]; rfl, hcall, fun other hin => ?_⟩
  rw [← List.cons_append] at hin
  rcases List.mem_append.mp hin with hin | hin
  · exact hsince other hin
  · rw [List.mem_singleton.mp hin]
    exact ⟨hcancels, hresults⟩

theorem announced_append (history : List Event) (event : Event) :
    announced (history ++ [event]) = announced history ++ event.calls := by
  unfold announced
  rw [List.flatMap_append, List.flatMap_singleton]

theorem interruptedSince_append (history : List Event) (event : Event) :
    interruptedSince (history ++ [event]) =
    ((interruptedSince history || event.interrupts) && !event.responseDone) := by
  unfold interruptedSince
  rw [List.foldl_append]
  rfl

theorem commit_cases {α β : Type} (c : GoogleLiveConnection) (checks : Check α)
    (assign : α → β × GoogleLiveConnection) :
    (∃ message, c.commit checks assign = (.error (.failed message), c)) ∨
      (∃ frames, c.commit checks assign = (.error .frameLimit, { c.close with frames := frames })) ∨
      ∃ a frames, checks = .ok a ∧ c.commit checks assign =
        (.ok (assign a).1, { (assign a).2 with frames := frames }) := by
  unfold GoogleLiveConnection.commit
  cases checks with
  | error message => exact .inl ⟨message, rfl⟩
  | ok a =>
    dsimp only
    split
    · exact .inr (.inl ⟨_, rfl⟩)
    · exact .inr (.inr ⟨a, _, rfl, rfl⟩)

theorem Told.quiet (h : Told setup history c) {event : Event} (hnothing : event.observation = none)
    (hopen : c'.closed = false → c.closed = false ∧ ¬ event.closes)
      (hready : c'.ready = true → c.ready = true ∧ c'.closed = false)
    (hseen : c'.closed = false → c'.seen = c.seen) (hinterrupted : c'.interrupted = c.interrupted)
    (hpending : ∀ id name, c'.pending.lookup id = some name → Standing (history ++ [event]) id name) :
    Told setup (history ++ [event]) c' := by
  have hcalls : announced (history ++ [event]) = announced history := by
    rw [announced_append]
    unfold Event.calls
    rw [hnothing]
    exact List.append_nil _
  refine ⟨fun hclosed other hin => ?_, fun hisReady => ?_, fun hclosed => ?_, ?_, ?_,
    hpending, fun hclosed => ?_⟩
  · obtain ⟨hbefore, hevent⟩ := hopen hclosed
    rcases List.mem_append.mp hin with hin | hin
    · exact h.open_ hbefore other hin
    · rw [List.mem_singleton.mp hin]
      exact hevent
  · obtain ⟨hbefore, hclosed⟩ := hready hisReady
    obtain ⟨-, other, hin, hcompletes⟩ := h.ready hbefore
    exact ⟨hclosed, other, List.mem_append_left _ hin, hcompletes⟩
  · rw [hcalls, hseen hclosed]
    exact h.seen (hopen hclosed).1
  · rw [hcalls]
    exact h.once
  · rw [hcalls]
    exact h.declared
  · rw [interruptedSince_append, hinterrupted, h.interrupted (hopen hclosed).1]
    unfold Event.interrupts Event.responseDone
    rw [hnothing]
    exact ((Bool.and_true _).trans (Bool.or_false _)).symm

/-- **Every frame keeps what the history tells.** -/
theorem step_told {event : Event}
    (hstep : Step toText parse setup c event c') (h : Told setup history c) :
    Told setup (history ++ [event]) c' := by
  have hstay : ∀ {event : Event}, event.cancels = [] → event.results = [] →
    ∀ id name, c.pending.lookup id = some name →
      Standing (history ++ [event]) id name := by
    intro event hcancels hresults id name hin
    refine (h.pending id name hin).next ?_ ?_
    · rw [hcancels]
      exact List.not_mem_nil
    · rw [hresults]
      exact nofun
  cases hstep with
  | close =>
    exact h.quiet rfl nofun nofun nofun rfl nofun
  | client wire =>
    unfold GoogleLiveConnection.client
    rcases commit_cases c (clientChecks toText parse setup c wire)
      (fun x => ((x.1, x.2.1), { c with pending := x.2.2 }))
      with ⟨message, hcommit⟩ | ⟨frames, hcommit⟩ | ⟨⟨body, results, pending⟩, frames, hchecks, hcommit⟩
    · rw [hcommit]
      refine h.quiet rfl (fun hclosed => ⟨hclosed, ?_⟩) (fun hready => ⟨hready, (h.ready hready).1⟩)
        (fun _ => rfl) rfl
        (hstay rfl rfl)
      rintro (hclose | hlimit)
      · cases hclose
      · cases hlimit
    · rw [hcommit]
      exact h.quiet rfl nofun nofun nofun rfl nofun
    · rw [hcommit]
      obtain ⟨⟨hready, hclosed⟩, hnodup, hresults, hafter⟩ := clientChecks_ok hchecks
      refine h.quiet rfl (fun _ => ⟨hclosed, ?_⟩) (fun _ => ⟨hready, hclosed⟩) (fun _ => rfl) rfl
        (fun id name hin => ?_)
      · rintro (hclose | hlimit)
        · cases hclose
        · cases hlimit
      · obtain ⟨hbefore, hcontinued⟩ := hafter id name hin
        exact (h.pending id name hbefore).next List.not_mem_nil hcontinued
  | server wire =>
    unfold GoogleLiveConnection.server
    rcases commit_cases c (serverChecks toText parse setup c wire)
      (fun staged => ((staged.observation, staged.cancels),
        { c with
          ready := staged.observation.ready, interrupted := staged.interrupted, seen :=
            staged.seen, pending := staged.pending }))
      with ⟨message, hcommit⟩ | ⟨frames, hcommit⟩ | ⟨staged, frames, hchecks, hcommit⟩
    · rw [hcommit]
      refine h.quiet rfl (fun hclosed => ⟨hclosed, ?_⟩) (fun hready => ⟨hready, (h.ready hready).1⟩)
        (fun _ => rfl) rfl
        (hstay rfl rfl)
      rintro (hclose | hlimit)
      · cases hclose
      · cases hlimit
    · rw [hcommit]
      exact h.quiet rfl nofun nofun nofun rfl nofun
    · rw [hcommit]
      obtain ⟨⟨hclosed, -⟩, hready, ⟨hseen, hnodup, hdeclared⟩, hpending, hdone, hinterrupted⟩ :=
        serverChecks_ok hchecks
      have hannounced : announced (history ++ [.server wire (.ok (staged.observation, staged.cancels))]) =
          announced history ++ staged.observation.calls := announced_append history _
      have hseen' : staged.seen =
          (announced history ++ staged.observation.calls).map fun call => (call.id, call.name) := by
        rw [hseen, h.seen hclosed, List.map_append]
      refine ⟨fun _ other hin => ?_, fun hisReady => ⟨hclosed, ?_⟩, fun _ => ?_,
        ?_, fun call hin => ?_, fun id name hin => ?_,
        fun _ => ?_⟩
      · rcases List.mem_append.mp hin with hin | hin
        · exact h.open_ hclosed other hin
        · rw [List.mem_singleton.mp hin]
          rintro (hclose | hlimit)
          · cases hclose
          · cases hlimit
      · rcases hready hisReady with hbefore | hcompletes
        · obtain ⟨-, other, hin, hother⟩ := h.ready hbefore
          exact ⟨other, List.mem_append_left _ hin, hother⟩
        · exact ⟨_, List.mem_append_right _ List.mem_cons_self, hcompletes⟩
      · rw [hannounced]
        exact hseen'
      · have hfirst : (c.seen.map (·.1)).Nodup := by
          rw [h.seen hclosed, List.map_map]
          exact h.once
        have hall := hnodup hfirst
        rw [hseen', List.map_map] at hall
        rw [hannounced]
        exact hall
      · rw [hannounced] at hin
        rcases List.mem_append.mp hin with hin | hin
        · exact h.declared call hin
        · exact hdeclared call hin
      · obtain ⟨hnot, hbefore | hcall⟩ := hpending id name hin
        · exact (h.pending id name hbefore).next hnot nofun
        · refine ⟨history, _, [], rfl, hcall, fun other hother => ?_⟩
          rw [List.mem_singleton.mp hother]
          exact ⟨hnot, nofun⟩
      · rw [interruptedSince_append, ← h.interrupted hclosed]
        exact hinterrupted

theorem told (h : Trace.Run (Step toText parse setup) .new history c) : Told setup history c :=
  h.invariant_along
    { open_ := fun _ => List.forall_mem_nil _
      ready := fun hready => by cases hready
      seen := fun _ => rfl
      once := List.nodup_nil
      declared := List.forall_mem_nil _
      pending := fun id name hin => by cases hin
      interrupted := fun _ => rfl } fun _ _ _ _ hs hstep => step_told hstep hs

theorem Step.client_eq {result : Answer (Members × List ToolResult)}
    (h : Step toText parse setup c (.client wire result) c') :
    c.client toText parse setup wire = (result, c') := by
  cases h with
  | client => rfl

theorem Step.server_eq {result : Answer (GoogleLiveObservation × List Text)}
    (h : Step toText parse setup c (.server wire result) c') :
    c.server toText parse setup wire = (result, c') := by
  cases h with
  | server => rfl

theorem rejected_unchanged {event : Event} (hstep : Step toText parse setup c event c')
    {message : String} (hrejected : event.rejected = some (.failed message)) : c' = c := by
  have hcommit : ∀ {α β : Type} {checks : Check α} {assign : α → β × GoogleLiveConnection},
      (c.commit checks assign).1 = .error (.failed message) → (c.commit checks assign).2 = c := by
    intro α β checks assign herror
    rcases commit_cases c checks assign with ⟨other, hcommit⟩ | ⟨frames, hcommit⟩ | ⟨a, frames, -, hcommit⟩
    · rw [hcommit]
    · rw [hcommit] at herror
      cases herror
    · rw [hcommit] at herror
      cases herror
  cases hstep with
  | close => cases hrejected
  | client wire =>
    cases hresult : (c.client toText parse setup wire).1 with
    | ok a =>
      rw [hresult] at hrejected
      cases hrejected
    | error reason =>
      rw [hresult] at hrejected
      cases hrejected
      exact hcommit hresult
  | server wire =>
    cases hresult : (c.server toText parse setup wire).1 with
    | ok a =>
      rw [hresult] at hrejected
      cases hrejected
    | error reason =>
      rw [hresult] at hrejected
      cases hrejected
      exact hcommit hresult

theorem client_accepted {results : List ToolResult}
    (h : Step toText parse setup c (.client wire (.ok (body, results))) c') :
    ∃ pending, clientChecks toText parse setup c wire = .ok (body, results, pending) := by
  have hclient := h.client_eq
  unfold GoogleLiveConnection.client at hclient
  rcases commit_cases c (clientChecks toText parse setup c wire)
    (fun x => ((x.1, x.2.1), { c with pending := x.2.2 }))
    with ⟨message, hcommit⟩ | ⟨frames, hcommit⟩ | ⟨⟨found, taken, pending⟩, frames, hchecks, hcommit⟩
  · rw [hcommit] at hclient
    cases hclient
  · rw [hcommit] at hclient
    cases hclient
  · rw [hcommit] at hclient
    cases hclient
    exact ⟨pending, hchecks⟩

theorem server_accepted {observation : GoogleLiveObservation} {ids : List Text}
    (h : Step toText parse setup c (.server wire (.ok (observation, ids))) c') :
    ∃ staged, serverChecks toText parse setup c wire = .ok staged ∧ staged.observation = observation := by
  have hserver := h.server_eq
  unfold GoogleLiveConnection.server at hserver
  rcases commit_cases c (serverChecks toText parse setup c wire)
    (fun staged => ((staged.observation, staged.cancels),
      { c with
        ready := staged.observation.ready, interrupted := staged.interrupted, seen :=
          staged.seen, pending := staged.pending }))
    with ⟨message, hcommit⟩ | ⟨frames, hcommit⟩ | ⟨staged, frames, hchecks, hcommit⟩
  · rw [hcommit] at hserver
    cases hserver
  · rw [hcommit] at hserver
    cases hserver
  · rw [hcommit] at hserver
    cases hserver
    exact ⟨staged, hchecks, rfl⟩

/-- **The protocol of a connection, over every sequence of frames.** A rejected frame, but for the
    limit of frames,
    changes nothing; the client is heard after setup is complete and before a close only; a call is
    announced once,
    with a declared name; a result is accepted of an id that stands under its name, once in a frame,
    and one that
    continues or is scheduled where setup and tool allow it; and a response is done exactly at a turn that is
    complete and, under extended thinking, was interrupted since the last one or is idle. -/
theorem google_live_protocol (toText : Value → Text) (parse : Text → Option Value) (setup : GoogleLiveSetup)
    {history : List Event} {c : GoogleLiveConnection}
      (h : Trace.Run (Step toText parse setup) .new history c) :
    (∀ event c' reason, Step toText parse setup c event c' → event.rejected = some reason →
      reason ≠ .frameLimit → c' = c) ∧
    ((announced history).map (·.id)).Nodup ∧
    (∀ call ∈ announced history, (setup.tools.any fun tool => tool.name == call.name) = true) ∧
    (∀ wire body results c', Step toText parse setup c (.client wire (.ok (body, results))) c' →
      (∃ event ∈ history, event.completes = true) ∧ (∀ event ∈ history, ¬ event.closes) ∧
        (results.map (·.id)).Nodup ∧
        ∀ result ∈ results, Standing history result.id result.name ∧
          ((result.willContinue = true ∨ result.scheduled = true) → mayContinue setup result.name = true)) ∧
    (∀ wire observation ids c', Step toText parse setup c (.server wire (.ok (observation, ids))) c' →
      parse wire = some (.obj observation.body) ∧
        observation.responseDone = (isTrue (contentOf observation.body "turnComplete") &&
          (!setup.extendedThinking || (interruptedSince history || observation.interrupted) ||
            isText (contentOf observation.body "interactionStatus") "IDLE"))) := by
  have htold := told h
  refine ⟨fun event c' reason hstep hrejected hlimit => ?_, htold.once, htold.declared,
    fun wire body results c' hstep => ?_, fun wire observation ids c' hstep => ?_⟩
  · cases reason with
    | failed message => exact rejected_unchanged hstep hrejected
    | frameLimit => exact absurd rfl hlimit
  · obtain ⟨pending, hchecks⟩ := client_accepted hstep
    obtain ⟨⟨hready, hclosed⟩, hnodup, hresults, -⟩ := clientChecks_ok hchecks
    refine ⟨(htold.ready hready).2, htold.open_ hclosed, hnodup, fun result hin => ?_⟩
    obtain ⟨hpending, hallowed⟩ := hresults result hin
    exact ⟨htold.pending result.id result.name hpending, hallowed⟩
  · obtain ⟨staged, hchecks, rfl⟩ := server_accepted hstep
    obtain ⟨⟨hclosed, hbody⟩, -, -, -, hdone, -⟩ := serverChecks_ok hchecks
    refine ⟨parseFrame_ok hbody, ?_⟩
    rw [hdone, htold.interrupted hclosed]

end Histories

section Example

/-- A frame that completes setup, one that calls a tool, and its result. -/
def setupFrame : Text := Js.text "\x7b\x22setupComplete\x22:\x7b\x7d\x7d"

def callFrame : Text :=
  Js.text "\x7b\x22toolCall\x22:\x7b\x22functionCalls\x22:[\x7b\x22id\x22:\x22a\x22,\x22name\x22:\x22look_up\x22\x7d]\x7d\x7d"

def resultFrame : Text :=
  Js.text ("\x7b\x22toolResponse\x22:\x7b\x22functionResponses\x22:" ++
  "[\x7b\x22id\x22:\x22a\x22,\x22name\x22:\x22look_up\x22,\x22response\x22:\x7b\x7d\x7d]\x7d\x7d")

def sampleCall : Members := [(Js.text "id", .str (Js.text "a")), (Js.text "name", .str (Js.text "look_up"))]

/-- `JSON.parse` of them. -/
def parseSample (wire : Text) : Option Value :=
  [(setupFrame, Value.obj [(Js.text "setupComplete", .obj [])]),
    (callFrame, .obj [(Js.text "toolCall", .obj [(Js.text "functionCalls", .arr [.obj sampleCall])])]),
    (resultFrame, .obj [(Js.text "toolResponse", .obj [(Js.text "functionResponses",
      .arr [.obj (sampleCall ++ [(Js.text "response", .obj [])])])])])].lookup wire

def plainSetup : GoogleLiveSetup := ⟨[⟨Js.text "look_up", false⟩], false, true, true, false, false, true⟩

def readied : Answer (GoogleLiveObservation × List Text) × GoogleLiveConnection :=
  GoogleLiveConnection.new.server (fun _ => []) parseSample plainSetup setupFrame

def called : Answer (GoogleLiveObservation × List Text) × GoogleLiveConnection :=
  readied.2.server (fun _ => []) parseSample plainSetup callFrame

def answered : Answer (Members × List ToolResult) × GoogleLiveConnection :=
  called.2.client (fun _ => []) parseSample plainSetup resultFrame

/-- The call is announced, its result is accepted, and it stood under its name. -/
theorem readied_protocol :
    (announced [.server setupFrame readied.1, .server callFrame called.1]).map (·.id) = [Js.text "a"] ∧
    ∃ body results, answered.1 = .ok (body, results) ∧ results.map (·.id) = [Js.text "a"] ∧
      ∀ result ∈ results, Standing [.server setupFrame readied.1, .server callFrame called.1]
        result.id result.name := by
  have hrun : Trace.Run (Step (fun _ => []) parseSample plainSetup) .new
      [.server setupFrame readied.1, .server callFrame called.1] called.2 :=
    (Trace.Run.start.next (.server setupFrame)).next (.server callFrame)
  obtain ⟨-, -, -, hclient, -⟩ := google_live_protocol (fun _ => []) parseSample plainSetup hrun
  have hids : answered.1.toOption.map (fun taken => taken.2.map (·.id)) = some [Js.text "a"] :=
    by decide +kernel
  refine ⟨by decide +kernel, ?_⟩
  cases hanswer : answered.1 with
  | error reason =>
    rw [hanswer] at hids
    cases hids
  | ok taken =>
    rw [hanswer] at hids
    have hok : Step (fun _ => []) parseSample plainSetup called.2 (.client resultFrame (.ok taken))
      answered.2 := by
      rw [← hanswer]
      exact .client resultFrame
    obtain ⟨-, -, -, hresults⟩ := hclient resultFrame taken.1 taken.2 answered.2 hok
    exact ⟨taken.1, taken.2, rfl, Option.some.inj hids, fun result hin => (hresults result hin).1⟩

end Example

end ClawRouter.GoogleLive
