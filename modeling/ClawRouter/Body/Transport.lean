/-
  Subject:   The streams of a JSON body (src/worker/json-body.ts, `jsonBodyStream` and
             `jsonBodyTransport`).

  A stream is pulled once for each read; one pull joins chunks to a text of 8192 units or more. The
  transport of a body is used once, counts what it emits and retires once.

  * `Inv`, **`Inv.step`**: what was received and what is left are the bytes of the body;
  * **`json_body_agrees`**: stream, size and transport agree with `JSON.stringify`.
-/
import ClawRouter.Body.Chunks
import ClawRouter.Lib.Json

namespace ClawRouter.Body

open Utf16 PlainJson

/-! ## 1. One pull -/

def coalesced : Nat := 8192

/-- What the loop of `pull` leaves: the text, the chunks to come, whether it saw the end. -/
structure Gathered where
  text : Text
  rest : List Text
  done : Bool

def gather (text : Text) : List Text → Gathered
  | [] => ⟨text, [], decide (text.length < coalesced)⟩
  | chunk :: rest =>
    if text.length < coalesced then gather (text ++ chunk) rest else ⟨text, chunk :: rest, false⟩

theorem gather_cons (text chunk : Text) (rest : List Text) : gather text (chunk :: rest) =
    if text.length < coalesced then gather (text ++ chunk) rest else ⟨text, chunk :: rest, false⟩ := rfl

theorem gather_rest_le (text : Text) (chunks : List Text) :
    (gather text chunks).rest.length ≤ chunks.length := by
  induction chunks generalizing text with
  | nil => exact Nat.le_refl 0
  | cons chunk rest ih =>
    rw [gather_cons]
    split
    · exact Nat.le_succ_of_le (ih (text ++ chunk))
    · exact Nat.le_refl _

variable {chunks : List Text}

theorem gather_rest_lt (h : (gather [] chunks).done = false) :
    (gather [] chunks).rest.length < chunks.length := by
  cases chunks with
  | nil => cases h
  | cons chunk rest => exact Nat.lt_succ_of_le (gather_rest_le ([] ++ chunk) rest)

theorem gather_rest_of_done {text : Text} (h : (gather text chunks).done = true) :
    (gather text chunks).rest = [] := by
  induction chunks generalizing text with
  | nil => rfl
  | cons chunk rest ih =>
    rw [gather_cons] at h ⊢
    split
    · rename_i hlt
      rw [if_pos hlt] at h
      exact ih h
    · rename_i hlt
      rw [if_neg hlt] at h
      cases h

theorem gather_flatten (text : Text) (chunks : List Text) :
    (gather text chunks).text ++ (gather text chunks).rest.flatten = text ++ chunks.flatten := by
  induction chunks generalizing text with
  | nil => rfl
  | cons chunk rest ih =>
    rw [gather_cons]
    split
    · rw [ih, List.flatten_cons, List.append_assoc]
    · rfl

theorem gather_whole {text : Text} (ht : Whole text) (h : ∀ c ∈ chunks, Fits c) :
    Whole (gather text chunks).text := by
  induction chunks generalizing text with
  | nil => exact ht
  | cons chunk rest ih =>
    rw [gather_cons]
    split
    · exact ih (ht.append (h chunk List.mem_cons_self).1) fun c hc => h c (List.mem_cons_of_mem chunk hc)
    · exact ht

theorem gather_rest_fits {text : Text} (h : ∀ c ∈ chunks, Fits c) :
    ∀ c ∈ (gather text chunks).rest, Fits c := by
  induction chunks generalizing text with
  | nil => exact List.forall_mem_nil _
  | cons chunk rest ih =>
    rw [gather_cons]
    split
    · exact ih fun c hc => h c (List.mem_cons_of_mem chunk hc)
    · exact h

/-- The bytes of one pull: three for each unit that was there before the last chunk, and that chunk. -/
def pullBytes : Nat := 3 * (coalesced - 1) + 6 * stringChunk

theorem gather_length_le {text : Text} (ht : Whole text)
    (hlen : (encode text).length ≤ pullBytes) (h : ∀ c ∈ chunks, Fits c) :
    (encode (gather text chunks).text).length ≤ pullBytes := by
  induction chunks generalizing text with
  | nil => exact hlen
  | cons chunk rest ih =>
    have hchunk := h chunk List.mem_cons_self
    rw [gather_cons]
    split
    · rename_i hlt
      refine ih (ht.append hchunk.1) ?_ fun c hc => h c (List.mem_cons_of_mem chunk hc)
      have hbefore := encode_length_le text
      have hone := hchunk.2
      rw [encode_append (ht.cut chunk), List.length_append]
      unfold pullBytes
      omega
    · exact hlen

/-! ## 2. `jsonBodyStream` -/

/-- What a reader receives, pull by pull until the stream is closed. -/
def pulled (chunks : List Text) : List (List UInt8) :=
  let g := gather [] chunks
  if _h : g.done = true then if g.text = [] then [] else [encode g.text]
  else encode g.text :: pulled g.rest
termination_by chunks.length
decreasing_by exact gather_rest_lt (Bool.eq_false_iff.mpr _h)

def jsonBodyStream (value : Value) : List (List UInt8) := pulled (jsonChunks value)

theorem encode_gather (h : ∀ c ∈ chunks, Fits c) :
    encode (gather [] chunks).text ++ encode (gather [] chunks).rest.flatten = encode chunks.flatten := by
  have hwhole := gather_whole Whole.nil h
  rw [← encode_append (hwhole.cut _), gather_flatten, List.nil_append]

theorem pulled_flatten (chunks : List Text) (h : ∀ c ∈ chunks, Fits c) :
    (pulled chunks).flatten = encode chunks.flatten := by
  induction chunks using pulled.induct with
  | case1 chunks g hdone htext =>
    have hg := encode_gather h
    rw [gather_rest_of_done hdone] at hg
    rw [pulled, dif_pos hdone, if_pos htext, ← hg, htext]
    rfl
  | case2 chunks g hdone htext =>
    have hg := encode_gather h
    rw [gather_rest_of_done hdone] at hg
    rw [pulled, dif_pos hdone, if_neg htext, ← hg]
    rfl
  | case3 chunks g hdone ih =>
    rw [pulled, dif_neg hdone, List.flatten_cons, ih (gather_rest_fits h), encode_gather h]

/-! ## 3. `jsonBodyTransport` -/

/-- Why a transport is over. -/
inductive Retirement
  | eof
  | cancel
  | error
  | discard
  deriving DecidableEq

/-- Why a transport can not be used. -/
inductive TransportError
  | invalidBound
  | exceedsBound
  | sizeChanged
  | singleUse
  | discarded
  | retired
  deriving DecidableEq

/-- `controller` says whether the variable of that name is set. -/
structure Transport where
  bytes : Nat
  body : Option Value
  chunks : Option (List Text)
  controller : Bool
  started : Bool
  emitted : Nat
  retirement : Option Retirement

def isSafeInteger (n : Rat) : Bool := n.den == 1 && n.num.natAbs ≤ Js.maxSafeInteger

def jsonBodyTransport (value : Value) (maximumBytes : Rat) : Except TransportError Transport :=
  if !isSafeInteger maximumBytes || maximumBytes < 1 then .error .invalidBound
  else
    let bytes := jsonBodyBytes value
    if !isSafeInteger bytes || maximumBytes < bytes then .error .exceedsBound
    else .ok ⟨bytes, some value, none, false, false, 0, none⟩

namespace Transport

def retire (reason : Retirement) (t : Transport) : Transport :=
  if t.retirement.isSome then t
  else { t with retirement := some reason, chunks := none, body := none, controller := false }

def stream (t : Transport) : Except TransportError Transport :=
  if t.started || t.retirement.isSome then .error .singleUse
  else .ok { t with started := true, chunks := t.body.map jsonChunks, body := none, controller := true }

/-- What a pull did: an error, or the bytes it enqueued and whether it closed the stream. -/
inductive Pulled
  | failed (error : TransportError)
  | enqueued (wire : List UInt8) (closed : Bool)

def pull (t : Transport) : Transport × Pulled :=
  match t.chunks with
  | none => (t.retire .error, .failed .retired)
  | some chunks =>
    let g := gather [] chunks
    let wire := encode g.text
    let t := { t with chunks := some g.rest, emitted := t.emitted + wire.length }
    if 64 * 1024 < wire.length ∨ t.bytes < t.emitted ∨ (g.done = true ∧ t.emitted ≠ t.bytes) then
      (t.retire .error, .failed .sizeChanged)
    else if g.done then (t.retire .eof, .enqueued wire true)
    else (t, .enqueued wire false)

/-- `discard`, and whether it puts its error to the stream. -/
def discard (t : Transport) : Transport × Bool :=
  if t.retirement.isSome then (t, false) else (t.retire .discard, t.controller)

end Transport

/-! ## 4. A reader and the owner of the transport -/

/-- The stream of a transport. -/
inductive StreamState
  | absent
  | readable
  | closed
  | errored (error : TransportError)
  deriving DecidableEq

/-- The transport, the stream its reader holds and what the reader received. -/
structure Session where
  transport : Transport
  wire : StreamState
  received : List UInt8

/-- A call on a transport. -/
inductive Call
  | stream
  | pull
  | cancel
  | discard
  deriving DecidableEq

namespace Session

def start (t : Transport) : Session := ⟨t, .absent, []⟩

/-- A stream that is closed or has failed is neither pulled nor cancelled. -/
def step (s : Session) : Call → Session
  | .stream =>
    match s.transport.stream with
    | .ok t => { s with transport := t, wire := .readable }
    | .error _ => s
  | .pull =>
    if s.wire = .readable then
      match s.transport.pull with
      | (t, .failed error) => { s with transport := t, wire := .errored error }
      | (t, .enqueued wire closed) =>
        ⟨t, if closed then .closed else .readable, s.received ++ wire⟩
    else s
  | .cancel =>
    if s.wire = .readable then { s with transport := s.transport.retire .cancel, wire := .closed } else s
  | .discard =>
    let (t, fails) := s.transport.discard
    { s with transport := t, wire := if fails then .errored .discarded else s.wire }

def run (s : Session) (calls : List Call) : Session := calls.foldl step s

end Session

/-! ## 5. Where a session stands -/

/-- Before the stream is taken, while it is read, and after the transport retired. -/
inductive Stage (value : Value) : Session → Prop
  | fresh :
      Stage value ⟨⟨jsonBodyBytes value, some value, none, false, false, 0, none⟩, .absent, []⟩
  | reading {chunks : List Text} {received : List UInt8} (fits : ∀ c ∈ chunks, Fits c)
      (left : received ++ encode chunks.flatten = encode (stringify value)) :
      Stage value
        ⟨⟨jsonBodyBytes value, none, some chunks, true, true, received.length, none⟩, .readable, received⟩
  | retired {reason : Retirement} {started : Bool} {emitted : Nat} {wire : StreamState}
    {received : List UInt8}
      (noError : reason ≠ .error) (notRead : wire ≠ .readable)
        (errored : ∀ e, wire = .errored e → e = .discarded)
      (front : received <+: encode (stringify value))
      (complete : reason = .eof → received = encode (stringify value) ∧ wire = .closed) :
      Stage value ⟨⟨jsonBodyBytes value, none, none, false, started, emitted, some reason⟩, wire, received⟩

section Steps

variable {value : Value}

/-- **A pull of a body that is being read never fails.** It enqueues the next bytes, and closes the stream
with the last of them. -/
theorem pull_reading {received : List UInt8} (fits : ∀ c ∈ chunks, Fits c)
    (left : received ++ encode chunks.flatten = encode (stringify value)) :
    let s : Session := ⟨⟨jsonBodyBytes value, none, some chunks, true, true, received.length, none⟩,
      .readable, received⟩
    let g := gather [] chunks
    s.step .pull = if g.done then
        ⟨⟨jsonBodyBytes value, none, none, false, true, (received ++ encode g.text).length,
          some .eof⟩, .closed,
          received ++ encode g.text⟩
      else
        ⟨⟨jsonBodyBytes value, none, some g.rest, true, true, (received ++ encode g.text).length,
          none⟩, .readable,
          received ++ encode g.text⟩ := by
  intro s g
  have hg := encode_gather fits
  have hbytes : jsonBodyBytes value = received.length + (encode g.text).length +
    (encode g.rest.flatten).length := by
    rw [jsonBodyBytes_eq, ← left, ← hg, List.length_append, List.length_append]
    exact (Nat.add_assoc _ _ _).symm
  have hsmall : (encode g.text).length ≤ pullBytes := gather_length_le Whole.nil (Nat.zero_le _) fits
  have hend : g.done = true → (encode g.rest.flatten).length = 0 := fun h => by
    rw [gather_rest_of_done h]
    rfl
  have hno : ¬(64 * 1024 < (encode g.text).length ∨ jsonBodyBytes value < received.length +
    (encode g.text).length ∨
      (g.done = true ∧ received.length + (encode g.text).length ≠ jsonBodyBytes value)) := by
    intro h
    rcases h with h | h | h
    · unfold pullBytes coalesced stringChunk at hsmall
      omega
    · omega
    · have := hend h.1
      omega
  have hpull : s.transport.pull = if g.done then
        (⟨jsonBodyBytes value, none, none, false, true, received.length + (encode g.text).length, some .eof⟩,
          .enqueued (encode g.text) true)
      else
        (⟨jsonBodyBytes value, none, some g.rest, true, true, received.length + (encode g.text).length, none⟩,
          .enqueued (encode g.text) false) := if_neg hno
  show (match s.transport.pull with
    | (t, .failed error) => { s with transport := t, wire := .errored error }
    | (t, .enqueued wire closed) => ⟨t, if closed then .closed else .readable, s.received ++ wire⟩) = _
  rw [hpull, List.length_append]
  cases g.done <;> rfl

theorem Stage.step {s : Session} (h : Stage value s) (call : Call) : Stage value (s.step call) := by
  cases h with
  | fresh =>
    cases call with
    | stream =>
      refine @Stage.reading value (jsonChunks value) [] (chunk_fits value) ?_
      rw [jsonChunks_flatten, List.nil_append]
    | pull | cancel => exact .fresh
    | discard =>
      have hreason : Retirement.discard ≠ .error := by decide
      refine .retired hreason (by simp) (fun e he => by cases he) ?_ fun he => by cases he
      exact List.nil_prefix
  | @reading chunks received fits left =>
    have hfront : received <+: encode (stringify value) := ⟨_, left⟩
    cases call with
    | stream => exact .reading fits left
    | pull =>
      have hg := encode_gather fits
      rw [pull_reading fits left]
      split
      · rename_i hdone
        rw [gather_rest_of_done hdone] at hg
        have hall : received ++ encode (gather [] chunks).text = encode (stringify value) := by
          rw [← left, ← hg]
          exact congrArg (received ++ ·) (List.append_nil _).symm
        have hprefix : received ++ encode (gather [] chunks).text <+: encode (stringify value) :=
          ⟨[], by rw [hall, List.append_nil]⟩
        exact .retired (by decide) (by decide) (fun e he => by cases he) hprefix fun _ => ⟨hall, rfl⟩
      · refine .reading (gather_rest_fits fits) ?_
        rw [← left, ← hg, List.append_assoc]
    | cancel =>
      have hreason : Retirement.cancel ≠ .error := by decide
      exact .retired hreason (by decide) (fun e he => by cases he) hfront fun he => by cases he
    | discard =>
      have hreason : Retirement.discard ≠ .error := by decide
      refine .retired hreason (by simp) (fun e he => ?_) hfront fun he => by cases he
      cases he
      rfl
  | @retired reason started emitted wire received noError notRead errored front complete =>
    have hsame : Stage value
        ⟨⟨jsonBodyBytes value, none, none, false, started, emitted, some reason⟩, wire, received⟩ :=
      .retired noError notRead errored front complete
    cases call with
    | stream =>
      simp only [Session.step, Transport.stream, Option.isSome_some, Bool.or_true, if_true]
      exact hsame
    | pull | cancel =>
      simp only [Session.step, if_neg notRead]
      exact hsame
    | discard => exact hsame

theorem Stage.run {s : Session} (h : Stage value s) (calls : List Call) : Stage value (s.run calls) := by
  induction calls generalizing s with
  | nil => exact h
  | cons call rest ih => exact ih (h.step call)

theorem reading_ends {received : List UInt8} (fits : ∀ c ∈ chunks, Fits c)
    (left : received ++ encode chunks.flatten = encode (stringify value)) (n : Nat) (hn : chunks.length < n) :
    ((⟨⟨jsonBodyBytes value, none, some chunks, true, true, received.length, none⟩, .readable, received⟩ :
      Session).run (List.replicate n .pull)).transport.retirement = some .eof := by
  induction n generalizing chunks received with
  | zero => cases hn
  | succ n ih =>
    have hg := encode_gather fits
    show ((Session.step _ .pull).run (List.replicate n .pull)).transport.retirement = some .eof
    rw [pull_reading fits left]
    split
    · -- a retired transport stays as it is
      clear ih hn
      induction n with
      | zero => rfl
      | succ n ih => exact ih
    · rename_i hdone
      have hlt := gather_rest_lt (Bool.eq_false_iff.mpr hdone)
      refine ih (gather_rest_fits fits) ?_ (by omega)
      rw [← left, ← hg, List.append_assoc]

end Steps

/-! ## 6. The body on the wire -/

theorem isSafeInteger_of_le {n : Nat} {bound : Rat} (hsafe : isSafeInteger bound = true)
    (h : (n : Rat) ≤ bound) :
    isSafeInteger n = true := by
  unfold isSafeInteger at hsafe ⊢
  simp only [Bool.and_eq_true, beq_iff_eq, decide_eq_true_eq] at hsafe ⊢
  obtain ⟨hden, hnum⟩ := hsafe
  have hbound : bound = (bound.num : Rat) := (Rat.coe_int_num_of_den_eq_one hden).symm
  rw [hbound] at h
  have hle : (n : Int) ≤ bound.num := by exact_mod_cast h
  refine ⟨Rat.den_natCast n, ?_⟩
  rw [Rat.num_natCast]
  omega

theorem jsonBodyTransport_eq {value : Value} {maximumBytes : Rat} (hsafe : isSafeInteger maximumBytes = true)
    (hone : 1 ≤ maximumBytes) (hle : (jsonBodyBytes value : Rat) ≤ maximumBytes) :
    jsonBodyTransport value maximumBytes = .ok
      ⟨jsonBodyBytes value, some value, none, false, false, 0, none⟩ := by
  have hbytes := isSafeInteger_of_le hsafe hle
  unfold jsonBodyTransport
  simp [hsafe, hbytes, not_lt.mpr hone, not_lt.mpr hle]

/-- **Stream, size and transport agree with `JSON.stringify`.** The bytes of the stream are those of the
text, their number is the size; with a valid bound that is no smaller, the transport exists, never fails in
any order of calls, hands out a front of those bytes and all of them when it retires with `eof`, which it
does when it is pulled often enough. -/
theorem json_body_agrees (value : Value) : (jsonBodyStream value).flatten = encode (stringify value) ∧
    jsonBodyBytes value = (encode (stringify value)).length ∧
    ∀ maximumBytes : Rat, isSafeInteger maximumBytes = true → 1 ≤ maximumBytes →
      (jsonBodyBytes value : Rat) ≤ maximumBytes →
      ∃ t, jsonBodyTransport value maximumBytes = .ok t ∧ t.bytes = jsonBodyBytes value ∧
        (∀ calls, let s := (Session.start t).run calls
          s.wire ≠ .errored .sizeChanged ∧ s.transport.retirement ≠ some .error ∧
            s.received <+: encode (stringify value) ∧
            (s.transport.retirement = some .eof → s.received = encode (stringify value))) ∧
        ∃ n, ∀ pulls ≥ n, let s := (Session.start t).run (.stream :: List.replicate pulls .pull)
          s.received = encode (stringify value) ∧ s.transport.retirement = some .eof ∧ s.wire = .closed := by
  refine ⟨?_, jsonBodyBytes_eq value, fun maximumBytes hsafe hone hle => ?_⟩
  · rw [← jsonChunks_flatten]
    exact pulled_flatten _ (chunk_fits value)
  · refine ⟨_, jsonBodyTransport_eq hsafe hone hle, rfl, fun calls => ?_, (jsonChunks value).length + 1, ?_⟩
    · intro s
      have hstage : Stage value s := Stage.fresh.run calls
      clear_value s
      cases hstage with
      | fresh => exact ⟨by simp, by simp, List.nil_prefix, fun he => by cases he⟩
      | reading fits left => exact ⟨by simp, by simp, ⟨_, left⟩, fun he => by cases he⟩
      | retired noError notRead errored front complete =>
        refine ⟨fun he => ?_, fun he => ?_, front, fun he => ?_⟩
        · cases errored _ he
        · cases he
          exact noError rfl
        · cases he
          exact (complete rfl).1
    · intro pulls hpulls s
      have hleft : [] ++ encode (jsonChunks value).flatten = encode (stringify value) := by
        rw [jsonChunks_flatten, List.nil_append]
      have heof : s.transport.retirement = some .eof := reading_ends (chunk_fits value) hleft pulls hpulls
      have hstage : Stage value s := Stage.fresh.run _
      clear_value s
      cases hstage with
      | fresh => cases heof
      | reading => cases heof
      | retired noError notRead errored front complete =>
        cases heof
        exact ⟨(complete rfl).1, rfl, (complete rfl).2⟩

/-- `{"a\"":["é",null]}`, with a slot that holds nothing, in a transport whose bound is its size. -/
def sampleValue : Value := .obj [([0x61, 0x22], some (.arr [some (.str [0xe9]), none]))]

theorem json_body_agrees_nulls : ∃ t, jsonBodyTransport sampleValue 19 = .ok t ∧ t.bytes = 19 ∧
      ∃ n, ∀ pulls ≥ n, ((Session.start t).run (.stream :: List.replicate pulls .pull)).received =
        encode (stringify sampleValue) := by
  obtain ⟨t, ht, hbytes, _, n, hn⟩ :=
    (json_body_agrees sampleValue).2.2 19 (by decide) (by decide) (by decide +kernel)
  exact ⟨t, ht, hbytes.trans (by decide +kernel), n, fun pulls hpulls => (hn pulls hpulls).1⟩

end ClawRouter.Body
