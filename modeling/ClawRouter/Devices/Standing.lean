/-
  Subject:   What a request of the owner knows, and what it may do with it.

  The tail gives a request the row for itself, and the synchronous code between two awaits gives it
  the clock. From what it has read there it writes a row: a new attempt under a new identifier, the
  poll of a pending one that is due, the end of the attempt that is stored, or what its own exchange
  came to. An exchange is started for the attempt the request has just stored.

  * `fetch_follows`, `mutate_follows`, `maintain_follows`: every request follows the rules.
-/
import ClawRouter.Devices.DeviceFlow

namespace ClawRouter.Devices

open Fallible Awaiting Credentials

/-! ## 1. Knowledge -/

/-- The exchange of a request: not started, in its hands, or given away. -/
inductive Held
  | nothing
  | unspent (kind : Kind) (attempt : DeviceAttempt)
  | spent
  deriving DecidableEq

def Held.spend (settles : Bool) (held : Held) : Held := if settles then .spent else held

/-- What a call knows while it runs. -/
structure Standing where
  /-- The request holds the tail. -/
  holds : Bool
  /-- The actor it has verified there. -/
  actor : Option String
  /-- The row it knows. -/
  row : Option (Option Row)
  /-- An identifier it has made, and not stored. -/
  fresh : Option String
  /-- The active attempt it has just stored. -/
  armed : Option (Kind × DeviceAttempt)
  exchange : Held
  /-- The time of its turn. -/
  turn : Option Int

namespace Standing

def initial : Standing := ⟨false, none, none, none, none, .nothing, none⟩

variable (v : Standing)

def entered : Standing :=
  { v with
  holds := true, actor := none, row := none, fresh := none, armed := none, turn := none }

def left : Standing :=
  { v with
  holds := false, actor := none, row := none, fresh := none, armed := none }

def resumed : Standing := { v with turn := none }

def saved (kind : Kind) (settles : Bool) (row : Row) : Standing :=
  { v with
  row := some (some row)
  fresh := none
  armed := ((row.attempts kind).filter (·.phase.active)).map fun attempt => (kind, attempt)
  exchange := v.exchange.spend settles }

end Standing

/-! ## 2. Rules -/

inductive Write (v : Standing) (kind : Kind) : Bool → Row → Prop
  | opens {row : Row} {attempt : DeviceAttempt} (fresh : v.fresh = some attempt.id)
      (phase : attempt.phase = .beginUnknown) (has : row.attempts kind = some attempt)
      (only : ∀ k, k ≠ kind → row.attempts k = none) (credential : row.credential = none) :
      Write v kind false row
  | polls {row : Row} {pending : DeviceAttempt} {now : Int} (known : v.row = some (some row))
      (has : row.attempts kind = some pending) (phase : pending.phase = .pending)
      (turn : v.turn = some now) (due : pending.nextPollAt ≤ now) (alive : now < pending.expiresAt) :
      Write v kind false (row.withAttempt kind { pending with phase := .pollUnknown })
  | concludes {settles : Bool} {row : Row} {present attempt : DeviceAttempt}
      (known : v.row = some (some row)) (has : row.attempts kind = some present)
      (same : attempt.id = present.id) (phase : attempt.phase.unfinished = false)
      (own : settles = true → ∃ k a, v.exchange = .unspent k a) :
      Write v kind settles (row.withAttempt kind attempt)
  | reopens {row : Row} {present own attempt : DeviceAttempt} (known : v.row = some (some row))
      (has : row.attempts kind = some present) (exchange : v.exchange = .unspent kind own)
      (id : present.id = own.id) (phase : present.phase = own.phase) (same : attempt.id = own.id)
      (pending : attempt.phase = .pending) :
      Write v kind true (row.withAttempt kind attempt)
  | installs {row new : Row} {present own committed : DeviceAttempt} {credential : DeviceCredential}
      (known : v.row = some (some row)) (has : row.attempts kind = some present)
      (exchange : v.exchange = .unspent kind own) (id : present.id = own.id)
      (phase : present.phase = own.phase) (polls : own.phase = .pollUnknown)
      (generation : row.generation = own.generation) (lineage : row.lineage = own.lineage)
      (key : row.grantKey = some own.key) (actor : v.actor = some own.actor)
      (commits : new.attempts kind = some committed) (same : committed.id = own.id)
      (final : committed.phase = .committed)
      (others : ∀ k, k ≠ kind → new.attempts k = none ∨ new.attempts k = row.attempts k)
      (carries : new.credential = some (.device credential)) :
      Write v kind true new

def allowed (v : Standing) : Call → Prop
  | .order => v.holds = false
  | .release | .read | .rewrite => v.holds = true
  | .put kind settles row => v.holds = true ∧ Write v kind settles row
  | .publish row => v.holds = true ∧ v.row = some (some row)
  | .start kind attempt startedAt =>
    v.holds = true ∧ v.armed = some (kind, attempt) ∧ v.turn = some startedAt ∧
      startedAt < attempt.expiresAt ∧ v.exchange = .nothing
  | _ => True

def possible (v : Standing) : (c : Call) → Except HttpError (Reply c) → Prop
  | .admin expected, .ok actor => ∀ e, expected = some e → actor = e
  | .now, .ok now => ∀ t, v.turn = some t → now = t
  | .order, .error _ | .release, .error _ | .now, .error _ | .uuid, .error _ => False
  | .inFlight _, .error _ | .stopInFlight _, .error _ | .stop, .error _ | .finish, .error _ => False
  | _, _ => True

def after (v : Standing) : (c : Call) → Except HttpError (Reply c) → Standing
  | .admin _, .ok actor => { v.resumed with actor := some actor }
  | .order, _ => v.entered
  | .release, _ => v.left
  | .read, .ok row => { v.resumed with row := some row }
  | .put kind settles row, .ok _ => v.saved kind settles row
  | .put _ settles _, .error _ => { v with exchange := v.exchange.spend settles, armed := none }
  | .rewrite, _ => { v.resumed with row := none, fresh := none, armed := none }
  | .now, .ok now => { v with turn := some now }
  | .uuid, .ok id => { v with fresh := some id }
  | .start kind attempt _, .ok _ => { v with armed := none, exchange := .unspent kind attempt }
  | .start _ _ _, .error _ => { v with armed := none, exchange := .spent }
  | .admin _, .error _ | .read, .error _ | .ack, _ | .publish _, _ | .remote, _ | .wait, _ => v.resumed
  | _, _ => v

def rules : Rules Call Reply HttpError Standing where
  allowed :=
  allowed
  answers v c r v' := possible v c r ∧ v' = after v c r

variable {actor : String}

section Follows

variable {α β : Type} {v : Standing} {Q : Except HttpError α → Standing → Prop}

theorem follows_call {c : Call} {f : Reply c → Program α} (ha : allowed v c)
    (hok : ∀ a, possible v c (.ok a) → Follows rules (f a) (after v c (.ok a)) Q)
    (herr : ∀ e, possible v c (.error e) → Q (.error e) (after v c (.error e))) :
    Follows rules (ask c >>= f) v Q := by
  refine follows_ask_bind ha (fun a s' h => ?_) fun e s' h => ?_
  · rw [h.2]
    exact hok a h.1
  · rw [h.2]
    exact herr e h.1

theorem follows_last {c : Call} {Q : Except HttpError (Reply c) → Standing → Prop} (ha : allowed v c)
    (h : ∀ r, possible v c r → Q r (after v c r)) : Follows rules (ask c) v Q := by
  refine follows_ask ha fun r s' hr => ?_
  rw [hr.2]
  exact h r hr.1

theorem follows_check {condition : Bool} {error : HttpError} {f : Unit → Program α}
    (hok : condition = true → Follows rules (f ()) v Q) (herr : Q (.error error) v) :
    Follows rules (check condition error >>= f) v Q := by
  cases condition with
  | true => exact hok rfl
  | false => exact herr

theorem follows_expect {value : Option β} {error : HttpError} {f : β → Program α}
    (hok : ∀ b, value = some b → Follows rules (f b) v Q) (herr : Q (.error error) v) :
    Follows rules (expect value error >>= f) v Q := by
  cases value with
  | some b => exact hok b rfl
  | none => exact herr

theorem follows_provided {condition : Bool} {run : Program Unit} {f : Unit → Program α}
    {P : Standing → Prop} (hv : P v) (hrun : Follows rules run v fun _ v' => P v')
    (hok : ∀ v', P v' → Follows rules (f ()) v' Q) (herr : ∀ e v', P v' → Q (.error e) v') :
    Follows rules (provided condition run >>= f) v Q := by
  cases condition with
  | true => exact hrun.bind (fun _ v' h => hok v' h) herr
  | false => exact hok v hv

theorem follows_verify {f : Unit → Program α}
    (hok : Follows rules (f ()) { v.resumed with actor := some actor } Q)
    (herr : ∀ e, Q (.error e) v.resumed) : Follows rules (verify actor >>= f) v Q := by
  refine follows_bind (follows_call (c := .admin (some actor)) True.intro (fun a ha => ?_) fun e _ => ?_)
  · rw [ha actor rfl]
    exact hok
  · exact herr e

theorem save_follows {kind : Kind} {settles : Bool} {row : Row}
    {Q : Except HttpError Unit → Standing → Prop} (hh : v.holds = true) (hw : Write v kind settles row)
    (hok : Q (.ok ()) (v.saved kind settles row).resumed) (herr : ∀ e v', v'.holds = true → Q (.error e) v') :
    Follows rules (save kind settles row) v Q := by
  refine follows_call ⟨hh, hw⟩ (fun _ _ => ?_) fun e _ => herr e _ hh
  refine follows_last True.intro fun r _ => ?_
  cases r with
  | ok _ => exact hok
  | error e => exact herr e _ hh

theorem follows_save {kind : Kind} {settles : Bool} {row : Row} {f : Unit → Program α}
    (hh : v.holds = true) (hw : Write v kind settles row)
    (hok : Follows rules (f ()) (v.saved kind settles row).resumed Q)
    (herr : ∀ e v', v'.holds = true → Q (.error e) v') : Follows rules (save kind settles row >>= f) v Q :=
  follows_bind (save_follows hh hw hok herr)

theorem follows_ordered {run : Program α} {P : Except HttpError α → Standing → Prop}
    (hv : v.holds = false) (h : Follows rules run v.entered P)
    (hP : ∀ r v', P r v' → v'.holds = true ∧ Q r v'.left) : Follows rules (ordered run) v Q := by
  refine follows_call (c := .order) hv (fun _ _ => ?_) fun _ he => he.elim
  refine h.always fun r v' hr => ?_
  refine follows_last (c := .release) (hP r v' hr).1 fun o ho => ?_
  cases o with
  | ok _ => exact (hP r v' hr).2
  | error _ => exact ho.elim

end Follows

/-! ## 3. What the parts of a flow promise -/

/-- What is asked of a flow. -/
structure Lawful (flow : Flow) : Prop where
  clear_id : ∀ a, (flow.clear a).id = a.id
  opened : ∀ {a authorization startedAt now b}, flow.opened a authorization startedAt now = .ok b →
    b.id = a.id ∧ b.phase = .pending
  again : ∀ {a intervalMs now b}, flow.again a intervalMs now = .ok b → b.id = a.id ∧ b.phase = .pending
  refused : ∀ refusal, (flow.refused refusal).unfinished = false
  installed : ∀ row credential generation lineage k,
    (flow.installed row credential generation lineage).attempts k = none ∨
      (flow.installed row credential generation lineage).attempts k = row.attempts k
  carries : ∀ row credential generation lineage,
    (flow.installed row credential generation lineage).credential = some (.device credential)
  committed : ∀ a generation lineage,
    (flow.committed a generation lineage).id = a.id ∧
      (flow.committed a generation lineage).phase = .committed

theorem minimax_lawful (codec : Codec) : Lawful (minimax codec) where
  clear_id _ := rfl
  opened h := by
    cases h
    exact ⟨rfl, rfl⟩
  again h := by
    simp only [minimax, bind_ok, pure_ok] at h
    obtain ⟨authorization, -, rfl⟩ := h
    exact ⟨rfl, rfl⟩
  refused _ := rfl
  installed _ _ _ _ k := by
    cases k <;> exact .inl rfl
  carries _ _ _ _ := rfl
  committed _ _ _ := ⟨rfl, rfl⟩

theorem copilot_lawful (codec : Codec) : Lawful (copilot codec) where
  clear_id _ := rfl
  opened h := by
    simp only [copilot] at h
    split at h
    · cases h
      exact ⟨rfl, rfl⟩
    · cases h
  again h := by
    simp only [copilot] at h
    split at h
    · cases h
      exact ⟨rfl, rfl⟩
    · cases h
  refused refusal := by
    cases refusal <;> rfl
  installed _ _ _ _ k := by
    cases k <;> exact .inr rfl
  carries _ _ _ _ := rfl
  committed _ _ _ := ⟨rfl, rfl⟩

theorem Lawful.terminal {flow : Flow} (L : Lawful flow) (attempt : DeviceAttempt) (phase : Phase) :
    (flow.terminal attempt phase).id = attempt.id ∧ (flow.terminal attempt phase).phase = phase :=
  ⟨L.clear_id attempt, rfl⟩

theorem flowOf_lawful (codecs : Kind → Codec) (kind : Kind) : Lawful (flowOf codecs kind) := by
  cases kind with
  | minimax => exact minimax_lawful _
  | copilot => exact copilot_lawful _

/-! ## 4. Before the exchange -/

def Inside {α : Type} (_ : Except HttpError α) (v : Standing) : Prop := v.holds = true

section Reserve

variable {flow : Flow} (L : Lawful flow) {v : Standing} {row : Row} {attempt present : DeviceAttempt}

include L in
theorem conclude_follows {settles : Bool} {phase : Phase} (hh : v.holds = true)
    (known : v.row = some (some row)) (has : row.attempts flow.kind = some present)
    (same : attempt.id = present.id) (ended : phase.unfinished = false)
    (own : settles = true → ∃ k a, v.exchange = .unspent k a) :
    Follows rules (flow.conclude settles row attempt phase) v Inside := by
  refine follows_save hh (.concludes known has ?_ ?_ own) (follows_pure hh) fun _ _ h => h
  · rw [(L.terminal attempt phase).1, same]
  · exact ended

include L in
theorem recover_follows (hh : v.holds = true) (known : v.row = some (some row))
    (has : row.attempts flow.kind = some attempt) : Follows rules (flow.recover row attempt) v Inside := by
  refine follows_check (fun _ => ?_) hh
  split
  · refine follows_call True.intro (fun seen _ => ?_) fun _ _ => hh
    split
    · exact follows_pure hh
    · exact conclude_follows L hh known has rfl rfl fun h => by cases h
  · split
    · refine follows_call True.intro (fun now _ => ?_) fun _ _ => hh
      split
      · exact conclude_follows L hh known has rfl rfl fun h => by cases h
      · exact follows_pure hh
    · split
      · exact follows_call ⟨hh, known⟩ (fun _ _ => follows_pure hh) fun _ _ => hh
      · exact follows_pure hh

/-- What a reservation comes to: an exchange that was started is the request's own. -/
def Reserves (flow : Flow) (actor : String) : Except HttpError Flow.Reservation → Standing → Prop
  | .ok (.started attempt _), v =>
    v.holds = true ∧ v.exchange = .unspent flow.kind attempt ∧ attempt.actor = actor ∧
      attempt.phase.active = true
  | _, v => v.holds = true

def Ready (v : Standing) : Prop := v.holds = true ∧ v.exchange = .nothing

theorem reserves_view {p : Program View} (h : Follows rules p v Inside) :
    Follows rules (p >>= fun seen => pure (.view seen)) v (Reserves flow actor) :=
  h.bind (fun _ _ h => follows_pure h) fun _ _ h => h

theorem start_follows (hv : Ready v) (armed : v.armed = some (flow.kind, attempt))
    (hactor : attempt.actor = actor) (active : attempt.phase.active = true) :
    Follows rules (flow.start attempt) v (Reserves flow actor) := by
  refine follows_call True.intro (fun now _ => ?_) fun _ _ => hv.1
  refine follows_check (fun alive => ?_) hv.1
  refine follows_call ⟨hv.1, armed, rfl, of_decide_eq_true alive, hv.2⟩ (fun _ _ => ?_) fun _ _ => hv.1
  exact follows_pure ⟨hv.1, rfl, hactor, active⟩

/-- A new row carries no attempt and no credential. -/
def Blank : Except HttpError Row → Standing → Prop
  | .ok row, v => Ready v ∧ (∀ k, row.attempts k = none) ∧ row.credential = none
  | .error _, v => v.holds = true

theorem beginDevice_follows (key : String) (input : BeginInput) (current : Option Row) (hv : Ready v) :
    Follows rules (flow.beginDevice key input current) v Blank := by
  have original : Follows rules (flow.assertOriginal key current) v fun _ v' => Ready v' := by
    cases current with
    | some row =>
      refine follows_lift ?_
      exact hv
    | none => exact follows_last True.intro fun _ _ => hv
  refine original.bind (fun _ v₁ hv₁ => ?_) fun _ _ h => h.1
  refine follows_check (fun _ => ?_) hv₁.1
  refine follows_provided hv₁ (follows_last hv₁.1 fun _ _ => hv₁) (fun v₂ hv₂ => ?_) fun _ _ h => h.1
  refine follows_call True.intro (fun _ _ => ?_) fun _ _ => hv₂.1
  refine follows_lift_bind (fun generation _ => ?_) fun _ _ => hv₂.1
  refine follows_call True.intro (fun lineage _ => ?_) fun _ _ => hv₂.1
  refine follows_call True.intro (fun _ _ => ?_) fun _ _ => hv₂.1
  refine follows_pure ⟨hv₂, fun k => ?_, rfl⟩
  cases k <;> rfl

theorem open_follows (key : String) (input : BeginInput) (actor : String) (current : Option Row)
    (hv : Ready v) : Follows rules (flow.open' key input actor current) v (Reserves flow actor) := by
  refine follows_provided hv (follows_last True.intro fun _ _ => hv) (fun v₁ hv₁ => ?_) fun _ _ h => h.1
  refine (beginDevice_follows key input current hv₁).bind (fun row v₂ hv₂ => ?_) fun _ _ h => h
  obtain ⟨hv₂, blank, bare⟩ := hv₂
  have verified : Follows rules (verify actor) v₂ fun _ v' => Ready v' :=
    follows_call True.intro (fun _ _ => follows_pure hv₂) fun _ _ => hv₂
  refine follows_provided hv₂ verified (fun v₃ hv₃ => ?_) fun _ _ h => h.1
  refine follows_call True.intro (fun id _ => ?_) fun _ _ => hv₃.1
  refine follows_call True.intro (fun now _ => ?_) fun _ _ => hv₃.1
  refine follows_lift_bind (fun _ _ => ?_) fun _ _ => hv₃.1
  refine follows_save hv₃.1 (.opens rfl rfl (Row.withAttempt_attempts _ _ _) (fun k hk => ?_) ?_)
    ?_ fun _ _ h => h
  · rw [Row.withAttempt_attempts_of_ne _ _ hk]
    exact blank k
  · rw [Row.withAttempt_credential]
    exact bare
  · refine follows_call ⟨hv₃.1, rfl⟩ (fun _ _ => ?_) fun _ _ => hv₃.1
    refine follows_verify (start_follows hv₃ ?_ rfl rfl) fun _ => hv₃.1
    show ((Row.attempts _ _).filter _).map _ = _
    rw [Row.withAttempt_attempts]
    rfl

include L in
theorem begin_follows (key : String) (input : BeginInput) (actor : String) {current : Option Row}
    (hv : Ready v) (known : v.row = some current) :
    Follows rules (flow.begin key input actor current) v (Reserves flow actor) := by
  unfold Flow.begin
  split
  · rename_i row attempt stored
    rw [Option.bind_eq_some_iff] at stored
    obtain ⟨_, rfl, stored⟩ := stored
    rw [Option.map_eq_some_iff] at stored
    obtain ⟨_, has, e⟩ := stored
    cases e
    split
    · refine follows_check (fun _ => ?_) hv.1
      exact reserves_view (recover_follows L hv.1 known has)
    · refine follows_check (fun _ => ?_) hv.1
      exact open_follows key input actor _ hv
  · refine follows_check (fun _ => ?_) hv.1
    exact open_follows key input actor _ hv

include L in
theorem poll_follows (hv : Ready v) (known : v.row = some (some row))
    (has : row.attempts flow.kind = some attempt) (phase : attempt.phase = .pending)
    (hactor : attempt.actor = actor) :
    Follows rules (flow.poll row attempt actor) v (Reserves flow actor) := by
  refine follows_call True.intro (fun now _ => ?_) fun _ _ => hv.1
  split
  · exact reserves_view (conclude_follows L hv.1 known has rfl rfl fun h => by cases h)
  · rename_i alive
    refine follows_call True.intro (fun now' same => ?_) fun _ _ => hv.1
    have e : now' = now := same now rfl
    subst e
    refine follows_check (fun due => ?_) hv.1
    -- nothing is awaited before the attempt is stored: the time stays
    refine @follows_provided _ _ _ _ _ _ (fun v' => v' = { v with turn := some now' }) rfl
      (follows_last True.intro fun _ _ => rfl) (fun v₁ e => ?_) (fun _ v₁ e => ?_)
    · subst e
      refine follows_lift_bind (fun _ _ => ?_) fun _ _ => hv.1
      refine follows_save hv.1 (.polls known has phase rfl (of_decide_eq_true due) ?_) ?_ fun _ _ h => h
      · exact Int.not_le.mp alive
      · refine follows_verify (start_follows hv ?_ hactor rfl) fun _ => hv.1
        show ((Row.attempts _ _).filter _).map _ = _
        rw [Row.withAttempt_attempts]
        rfl
    · rw [e]
      exact hv.1

include L in
theorem use_follows (key : String) (operation : Operation) (attemptId actor : String) (hv : Ready v)
    (known : v.row = some (some row)) (has : row.attempts flow.kind = some attempt) :
    Follows rules (flow.use key operation attemptId actor row attempt) v (Reserves flow actor) := by
  refine follows_check (fun asked => ?_) hv.1
  refine follows_check (fun _ => ?_) hv.1
  split
  · split
    · exact follows_pure hv.1
    · refine follows_call True.intro (fun _ _ => ?_) fun _ _ => hv.1
      exact reserves_view (conclude_follows L hv.1 known has rfl rfl fun h => by cases h)
  · split
    · exact reserves_view (recover_follows L hv.1 known has)
    · rename_i polls
      simp only [Bool.and_eq_true, decide_eq_true_eq] at asked
      simp only [Bool.or_eq_true, decide_eq_true_eq, not_or, not_not] at polls
      exact poll_follows L hv known has polls.2 asked.1.2.symm

include L in
theorem reserve_follows (key : String) (input : DeviceInput) (actor : String) (hv : Ready v) :
    Follows rules (flow.reserve key input actor) v (Reserves flow actor) := by
  refine follows_verify ?_ fun _ => hv.1
  refine follows_call hv.1 (fun current _ => ?_) fun _ _ => hv.1
  cases input with
  | begin input => exact begin_follows L key input actor hv rfl
  | use operation attemptId =>
    refine follows_expect (fun row hrow => ?_) hv.1
    refine follows_expect (fun attempt hattempt => ?_) hv.1
    subst hrow
    exact use_follows L key operation attemptId actor hv rfl hattempt

end Reserve

/-! ## 5. The exchange and after it -/

variable {startedAt : Int}

section Settle

variable {flow : Flow} (L : Lawful flow) {v : Standing} {current : Row} {attempt present : DeviceAttempt}

theorem pollUnknown_of_active {phase : Phase} (h : phase.active = true) (hb : phase ≠ .beginUnknown) :
    phase = .pollUnknown := by
  cases phase with
  | beginUnknown => exact absurd rfl hb
  | pollUnknown => rfl
  | _ => cases h

theorem decode_polled {reply : ProviderReply} {now : Int} {result : PollResult}
    (h : flow.decode attempt reply now = .ok (.polled result)) : attempt.phase ≠ .beginUnknown := by
  intro phase
  simp only [Flow.decode, phase, if_true, bind_ok, pure_ok] at h
  obtain ⟨_, _, e⟩ := h
  cases e

/-- The row holds the attempt of the request's own exchange. -/
structure Stands (flow : Flow) (v : Standing) (current : Row) (attempt present : DeviceAttempt) : Prop where
  holds : v.holds = true
  known : v.row = some (some current)
  has : current.attempts flow.kind = some present
  exchange : v.exchange = .unspent flow.kind attempt
  id : present.id = attempt.id
  phase : present.phase = attempt.phase
  owns : flow.owns current attempt = true

theorem keep_follows {kept : DeviceAttempt} (hs : Stands flow v current attempt present)
    (id : kept.id = attempt.id) (phase : kept.phase = .pending) :
    Follows rules (flow.keep current kept) v Inside :=
  follows_save hs.holds (.reopens hs.known hs.has hs.exchange hs.id hs.phase id phase)
    (follows_pure hs.holds) fun _ _ h => h

include L in
theorem refuse_follows {phase : Phase} (hs : Stands flow v current attempt present)
    (ended : phase.unfinished = false) : Follows rules (flow.conclude true current attempt phase) v Inside :=
  conclude_follows L hs.holds hs.known hs.has hs.id.symm ended fun _ => ⟨_, _, hs.exchange⟩

include L in
theorem install_follows {credential : DeviceCredential}
    (hs : Stands flow v current attempt present) (polls : attempt.phase = .pollUnknown)
    (hactor : attempt.actor = actor) :
    Follows rules (flow.install current present credential actor) v Inside := by
  have owns := hs.owns
  simp only [Flow.owns, Bool.and_eq_true, decide_eq_true_eq] at owns
  obtain ⟨⟨⟨⟨⟨generation, lineage⟩, key⟩, -⟩, -⟩, -⟩ := owns
  -- the row and the exchange stay known while the authority is asked
  let P : Standing → Prop := fun v' => v'.holds = true ∧ v'.row = v.row ∧ v'.exchange = v.exchange
  have hP : P v := ⟨hs.holds, rfl, rfl⟩
  refine follows_check (fun _ => ?_) hs.holds
  refine follows_provided hP (follows_last True.intro fun _ _ => hP) (fun v₁ h₁ => ?_) fun _ _ h => h.1
  refine follows_lift_bind (fun next _ => ?_) fun _ _ => h₁.1
  have named : Follows rules (flow.lineageOf current) v₁ fun _ v' => P v' := by
    unfold Flow.lineageOf
    split
    · exact follows_last True.intro fun r hr => by
        cases r with
        | ok _ => exact h₁
        | error _ => exact hr.elim
    · exact follows_pure h₁
  refine named.bind (fun name v₂ h₂ => ?_) fun _ _ h => h.1
  refine follows_call True.intro (fun _ _ => ?_) fun _ _ => h₂.1
  refine follows_call True.intro (fun _ _ => ?_) fun _ _ => h₂.1
  refine follows_verify ?_ fun _ => h₂.1
  refine follows_call True.intro (fun _ _ => ?_) fun _ _ => h₂.1
  refine follows_call True.intro (fun now _ => ?_) fun _ _ => h₂.1
  refine follows_check (fun _ => ?_) h₂.1
  have final := L.committed present next name
  refine follows_save h₂.1 (@Write.installs _ _ current _ present attempt _ credential
    (h₂.2.1.trans hs.known) hs.has (h₂.2.2.trans hs.exchange) hs.id hs.phase polls generation lineage key
    ?_ (Row.withAttempt_attempts _ _ _) ?_ final.2 (fun k hk => ?_) ?_) ?_ fun _ _ h => h
  · exact congrArg some hactor.symm
  · rw [final.1, hs.id]
  · rw [Row.withAttempt_attempts_of_ne _ _ hk]
    exact L.installed current credential next name k
  · rw [Row.withAttempt_credential]
    exact L.carries current credential next name
  · exact follows_call ⟨h₂.1, rfl⟩ (fun _ _ => follows_pure h₂.1) fun _ _ => h₂.1

def Fits (attempt : DeviceAttempt) : Result → Prop
  | .begun _ => True
  | .polled _ => attempt.phase = .pollUnknown

include L in
theorem apply_follows {result : Result} (hs : Stands flow v current attempt present)
    (fits : Fits attempt result)
    (hactor : attempt.actor = actor) :
    Follows rules (flow.apply current present attempt startedAt actor result) v Inside := by
  cases result with
  | begun result =>
    cases result with
    | authorization authorization =>
      refine follows_call True.intro (fun now _ => ?_) fun _ _ => hs.holds
      refine follows_lift_bind (fun kept hk => ?_) fun _ _ => hs.holds
      exact keep_follows ⟨hs.holds, hs.known, hs.has, hs.exchange, hs.id, hs.phase, hs.owns⟩
        (L.opened hk).1 (L.opened hk).2
    | refused => exact refuse_follows L hs (L.refused .other)
  | polled result =>
    cases result with
    | pending intervalMs =>
      refine follows_call True.intro (fun now _ => ?_) fun _ _ => hs.holds
      refine follows_lift_bind (fun kept hk => ?_) fun _ _ => hs.holds
      exact keep_follows ⟨hs.holds, hs.known, hs.has, hs.exchange, hs.id, hs.phase, hs.owns⟩
        (L.again hk).1 (L.again hk).2
    | success credential => exact install_follows L hs fits hactor
    | refused refusal => exact refuse_follows L hs (L.refused refusal)

include L in
theorem settle_follows {result : Result} (hh : v.holds = true)
    (exchange : v.exchange = .unspent flow.kind attempt) (fits : Fits attempt result)
    (hactor : attempt.actor = actor) :
    Follows rules (flow.settle attempt startedAt actor result) v Inside := by
  refine follows_verify ?_ fun _ => hh
  refine follows_call True.intro (fun _ _ => ?_) fun _ _ => hh
  refine follows_call hh (fun stored _ => ?_) fun _ _ => hh
  refine follows_expect (fun current hc => ?_) hh
  subst hc
  refine follows_expect (fun present has => ?_) hh
  refine follows_check (fun same => ?_) hh
  simp only [Bool.and_eq_true, decide_eq_true_eq] at same
  refine follows_check (fun owns => ?_) hh
  refine follows_call True.intro (fun now _ => ?_) fun _ _ => hh
  have hs : Stands flow { v.resumed with
      actor := some actor, row := some (some current), turn := some now } current attempt present :=
    ⟨hh, rfl, has, exchange, same.1, same.2, owns⟩
  split
  · exact refuse_follows L hs rfl
  · exact apply_follows L hs fits hactor

include L in
theorem giveUp_follows (hh : v.holds = true) : Follows rules (flow.giveUp attempt actor) v Inside := by
  refine follows_call hh (fun stored _ => ?_) fun _ _ => hh
  refine follows_expect (fun current hc => ?_) hh
  subst hc
  refine follows_expect (fun present has => ?_) hh
  refine follows_check (fun _ => ?_) hh
  refine follows_check (fun _ => ?_) hh
  split
  · have concluded : Follows rules (flow.conclude false current present .unknown)
        { v.resumed with row := some (some current) } Inside :=
      conclude_follows L hh rfl has rfl rfl fun h => by cases h
    refine concluded.bind (fun _ v' h => ?_) fun _ _ h => h
    exact follows_verify (follows_pure h) fun _ => h
  · exact follows_verify (follows_pure hh) fun _ => hh

def Outside {α : Type} (_ : Except HttpError α) (v : Standing) : Prop := v.holds = false

include L in
theorem conduct_follows (hv : v.holds = false)
    (exchange : v.exchange = .unspent flow.kind attempt) (active : attempt.phase.active = true)
    (hactor : attempt.actor = actor) : Follows rules (flow.conduct attempt startedAt actor) v Outside := by
  refine follows_call True.intro (fun reply _ => ?_) fun _ _ => hv
  refine follows_call True.intro (fun now _ => ?_) fun _ _ => hv
  refine follows_lift_bind (fun result hr => ?_) fun _ _ => hv
  have fits : Fits attempt result := by
    cases result with
    | begun _ => exact True.intro
    | polled _ => exact pollUnknown_of_active active (decode_polled hr)
  exact follows_ordered hv (settle_follows L rfl exchange fits hactor) fun _ _ h => ⟨h, rfl⟩

include L in
theorem exchange_follows (hv : v.holds = false)
    (exchange : v.exchange = .unspent flow.kind attempt) (active : attempt.phase.active = true)
    (hactor : attempt.actor = actor) : Follows rules (flow.exchange attempt startedAt actor) v Outside := by
  refine Follows.always (P := Outside) ?_ fun r v' hr => ?_
  · refine (conduct_follows L hv exchange active hactor).attempt (fun _ _ h => h) fun e v' h => ?_
    refine follows_call True.intro (fun _ _ => ?_) fun _ _ => h
    exact follows_ordered h (giveUp_follows L rfl) fun _ _ h => ⟨h, rfl⟩
  · refine follows_last True.intro fun o ho => ?_
    cases o with
    | ok _ => exact hr
    | error _ => exact ho.elim

/-! ## 6. Requests -/

include L in
/-- **A device request follows the rules.** -/
theorem fetch_follows (key : String) (input : DeviceInput) :
    Follows rules (flow.fetch key input) .initial Outside := by
  refine follows_call True.intro (fun actor _ => ?_) fun _ _ => rfl
  refine (follows_ordered rfl (reserve_follows L key input actor ⟨rfl, rfl⟩)
    (Q := fun r v' => v'.holds = false ∧ ∀ attempt startedAt, r = .ok (.started attempt startedAt) →
      v'.exchange = .unspent flow.kind attempt ∧ attempt.actor = actor ∧ attempt.phase.active = true)
    fun r v' h => ?_).bind (fun r v' h => ?_) fun _ _ h => h.1
  · cases r with
    | error _ => exact ⟨h, rfl, fun _ _ e => by cases e⟩
    | ok reservation =>
      cases reservation with
      | view _ => exact ⟨h, rfl, fun _ _ e => by cases e⟩
      | started attempt startedAt =>
        refine ⟨h.1, rfl, fun _ _ e => ?_⟩
        cases e
        exact h.2
  · cases r with
    | view _ => exact follows_pure h.1
    | started attempt startedAt =>
      obtain ⟨exchange, hactor, active⟩ := h.2 attempt startedAt rfl
      refine (exchange_follows L h.1 exchange active hactor).bind (fun _ _ h => ?_) fun _ _ h => h
      exact follows_pure h

include L in
theorem invalidate_follows (hh : v.holds = true) : Follows rules flow.invalidate v Inside := by
  refine follows_call True.intro (fun _ _ => ?_) fun _ _ => hh
  refine follows_call hh (fun current _ => ?_) fun _ _ => hh
  split
  · rename_i row attempt stored
    rw [Option.bind_eq_some_iff] at stored
    obtain ⟨_, rfl, stored⟩ := stored
    rw [Option.map_eq_some_iff] at stored
    obtain ⟨_, has, e⟩ := stored
    cases e
    split
    · exact save_follows hh (.concludes rfl has (L.terminal attempt .cancelled).1 rfl fun h => by cases h)
        hh fun _ _ h => h
    · exact follows_pure hh
  · exact follows_pure hh

end Settle

theorem rewrites_follows (n : Nat) {v : Standing} (hh : v.holds = true) :
    Follows rules (rewrites n) v Inside := by
  induction n generalizing v with
  | zero => exact follows_pure hh
  | succ n ih => exact follows_call hh (fun _ _ => ih hh) fun _ _ => hh

/-- **A generic mutation follows the rules.** -/
theorem mutate_follows (codecs : Kind → Codec) (n : Nat) :
    Follows rules (mutate codecs n) .initial Outside := by
  refine follows_ordered rfl ?_ fun _ _ h => ⟨h, rfl⟩
  refine (invalidate_follows (minimax_lawful _) rfl).bind (fun _ v₁ h₁ => ?_) fun _ _ h => h
  refine (invalidate_follows (copilot_lawful _) h₁).bind (fun _ v₂ h₂ => ?_) fun _ _ h => h
  exact rewrites_follows n h₂

theorem maintain_follows (n : Nat) : Follows rules (maintain n) .initial Outside :=
  follows_ordered rfl (rewrites_follows n rfl) fun _ _ h => ⟨h, rfl⟩

end ClawRouter.Devices
