/-
  Subject:   The attempts to sign in (`localLogin`, `reserveLoginAttempt`, `releaseBucket` of
             src/worker/local-auth.ts), with any number of them waiting at a time.

  An attempt reserves in the bucket of its client and in that of all clients, waits, and ends. Between the two
  other attempts begin and end, and buckets are swept and made anew.

  * `held`: the attempts that a bucket has to count; **`counted`**: it counts them, in every run;
  * **`failed_sign_ins_bounded`**: all of it, over every run.
-/
import ClawRouter.Lib.Buckets
import ClawRouter.Lib.Trace
import ClawRouter.Lib.Value

namespace ClawRouter.LoginAttempts

open Utf16 Buckets

/-! ## 1. Attempts -/

def loginWindowMs : Int := 60000
def loginAttemptLimit : Nat := 10
def loginGlobalKey : Text := Js.text "global"
def loginGlobalLimit : Nat := 50

def clientKey (client : Text) : Text := Js.text "client:" ++ client.take 256

/-- How an attempt ends: with an invalid token or a disabled user, signed in, or with an error. -/
inductive Ending
  | rejected
  | successful
  | failed
  deriving DecidableEq

/-- A reservation, with the buckets it was made in and how the attempt ended. -/
structure Reservation where
  clientKey : Text
  clientEntry : Nat
  globalEntry : Nat
  ended : Option Ending

/-- `loginAttempts`, the attempts there were, and the time of the last. -/
structure LoginState where
  loginAttempts : Store Text
  attempts : List Reservation
  clock : Int

/-- `reserveLoginAttempt`; where it refuses, the state is only swept. -/
def reserveLoginAttempt (s : LoginState) (client : Text) (nowMs : Int) : LoginState × Bool :=
  let swept := s.loginAttempts.sweep nowMs
  let key := clientKey client
  if swept.count key ≥ loginAttemptLimit ∨ swept.count loginGlobalKey ≥ loginGlobalLimit then
    (⟨swept, s.attempts, nowMs⟩, false)
  else
    let entered := swept.enter key (nowMs + loginWindowMs)
    (⟨entered.enter loginGlobalKey (nowMs + loginWindowMs),
      s.attempts ++ [⟨key, swept.entry key, entered.entry loginGlobalKey, none⟩], nowMs⟩, true)

/-- `reservation.release()` of a reservation that is active. -/
def release (store : Store Text) (reservation : Reservation) : Store Text :=
  (store.leave reservation.clientKey reservation.clientEntry).leave loginGlobalKey reservation.globalEntry

/-- The end of an attempt: `settle` or `release`, of which only the first has an effect. -/
def finish (s : LoginState) (attempt : Nat) (ending : Ending) : LoginState :=
  match s.attempts[attempt]? with
  | none => s
  | some reservation =>
    if reservation.ended.isSome then s
    else
      { s with
        attempts := s.attempts.set attempt { reservation with ended := some ending }
        loginAttempts := if ending = .rejected then s.loginAttempts else release s.loginAttempts reservation }

/-- An attempt begins or ends. -/
inductive Event
  | login (client : Text) (nowMs : Int)
  | finish (attempt : Nat) (ending : Ending)

/-- Attempts begin and end in any order; the clock does not go back. -/
inductive Step : LoginState → Event → LoginState → Prop
  | login {s : LoginState} {client : Text} {nowMs : Int} :
      s.clock ≤ nowMs → Step s (.login client nowMs) (reserveLoginAttempt s client nowMs).1
  | finish {s : LoginState} {attempt : Nat} {ending : Ending} :
      Step s (.finish attempt ending) (finish s attempt ending)

def start (clock : Int) : LoginState := ⟨⟨fun _ => none, fun _ => ⟨0, 0⟩, 0⟩, [], clock⟩

/-! ## 2. What a bucket has to count -/

def Reservation.holds (reservation : Reservation) : Bool :=
  reservation.ended = none ∨ reservation.ended = some .rejected

def Reservation.madeIn (reservation : Reservation) (key : Text) (b : Nat) : Bool :=
  (reservation.clientKey = key ∧ reservation.clientEntry = b) ∨
    (loginGlobalKey = key ∧ reservation.globalEntry = b)

variable {reservation : Reservation}

theorem madeIn_iff {key : Text} {b : Nat} : reservation.madeIn key b = true ↔
    (reservation.clientKey = key ∧ reservation.clientEntry = b) ∨
      (loginGlobalKey = key ∧ reservation.globalEntry = b) := decide_eq_true_iff

def held (attempts : List Reservation) (key : Text) (b : Nat) : Nat :=
  attempts.countP fun reservation => reservation.holds && reservation.madeIn key b

def limit (key : Text) : Nat := if key = loginGlobalKey then loginGlobalLimit else loginAttemptLimit

theorem clientKey_ne (client : Text) : clientKey client ≠ loginGlobalKey := by
  intro h
  have hhead := congrArg List.head? h
  revert hhead
  exact nofun

/-- Every bucket counts what is held in it, and no client's key is the global one. -/
structure Sound (s : LoginState) : Prop where
  counted : Counted limit s.loginAttempts (held s.attempts) s.clock
  keys : ∀ reservation ∈ s.attempts, reservation.clientKey ≠ loginGlobalKey

theorem held_append (attempts : List Reservation) {key : Text} (hkey : key ≠ loginGlobalKey)
    (clientEntry globalEntry : Nat) :
    held (attempts ++ [⟨key, clientEntry, globalEntry, none⟩]) =
      more (more (held attempts) key clientEntry) loginGlobalKey globalEntry := by
  funext k c
  have hheld : held (attempts ++ [⟨key, clientEntry, globalEntry, none⟩]) k c =
      held attempts k c + if (Reservation.madeIn ⟨key, clientEntry, globalEntry, none⟩ k c) =
        true then 1 else 0 := by
    unfold held
    rw [List.countP_append, List.countP_singleton]
    rfl
  rw [hheld]
  unfold more
  by_cases hclient : k = key ∧ c = clientEntry
  · have hglobal : ¬ (k = loginGlobalKey ∧ c = globalEntry) := fun h => hkey (hclient.1.symm.trans h.1)
    rw [if_neg hglobal, if_pos hclient, if_pos (madeIn_iff.mpr (.inl ⟨hclient.1.symm, hclient.2.symm⟩))]
  · rw [if_neg hclient]
    by_cases hglobal : k = loginGlobalKey ∧ c = globalEntry
    · rw [if_pos hglobal, if_pos (madeIn_iff.mpr (.inr ⟨hglobal.1.symm, hglobal.2.symm⟩))]
    · have hnot : ¬ (Reservation.madeIn ⟨key, clientEntry, globalEntry, none⟩ k c) = true := by
        intro hmade
        rcases madeIn_iff.mp hmade with ⟨hk, hc⟩ | ⟨hk, hc⟩
        · exact hclient ⟨hk.symm, hc.symm⟩
        · exact hglobal ⟨hk.symm, hc.symm⟩
      rw [if_neg hglobal, if_neg hnot]
      rfl

theorem start_sound (clock : Int) : Sound (start clock) where
  counted :=
    { fresh := nofun
      used := fun _ _ h => absurd h (Nat.lt_irrefl 0)
      inj := nofun
      exact := nofun
      bound := fun _ _ => Nat.zero_le _
      kept := fun _ _ h => absurd h (Nat.lt_irrefl 0) }
  keys := nofun

variable {s : LoginState}

theorem reserve_sound (h : Sound s) (client : Text) {nowMs : Int} (hclock : s.clock ≤ nowMs) :
    Sound (reserveLoginAttempt s client nowMs).1 := by
  have hswept := h.counted.sweep hclock
  unfold reserveLoginAttempt
  dsimp only
  split
  · exact ⟨hswept, h.keys⟩
  · rename_i hroom
    have hclient : (s.loginAttempts.sweep nowMs).count (clientKey client) < limit (clientKey client) := by
      unfold limit
      rw [if_neg (clientKey_ne client)]
      exact Nat.lt_of_not_le fun hle => hroom (.inl hle)
    obtain ⟨hentered, -⟩ := hswept.enter hclient (nowMs + loginWindowMs)
    have hglobal : ((s.loginAttempts.sweep nowMs).enter (clientKey client)
      (nowMs + loginWindowMs)).count loginGlobalKey <
        limit loginGlobalKey := by
      rw [(hswept.count_enter (clientKey_ne client).symm _).1]
      exact Nat.lt_of_not_le fun hle => hroom (.inr hle)
    obtain ⟨hboth, -⟩ := hentered.enter hglobal (nowMs + loginWindowMs)
    refine ⟨?_, fun reservation hmem => ?_⟩
    · rw [held_append s.attempts (clientKey_ne client)]
      exact hboth
    · rcases List.mem_append.mp hmem with hmem | hmem
      · exact h.keys reservation hmem
      · rw [List.mem_singleton.mp hmem]
        exact clientKey_ne client

theorem held_finish {attempts : List Reservation} {attempt : Nat}
    (hin : attempts[attempt]? = some reservation) (hactive : reservation.ended = none)
    (hkey : reservation.clientKey ≠ loginGlobalKey) (ending : Ending) :
    held (attempts.set attempt { reservation with ended := some ending }) = if ending =
      .rejected then held attempts
      else less (less (held attempts) reservation.clientKey reservation.clientEntry) loginGlobalKey
        reservation.globalEntry := by
  obtain ⟨hlt, rfl⟩ := List.getElem?_eq_some_iff.mp hin
  funext k c
  have hheld : held (attempts.set attempt { attempts[attempt] with ended := some ending }) k c = _ :=
    List.countP_set hlt
  have hholds : attempts[attempt].holds = true := by
    unfold Reservation.holds
    rw [hactive]
    rfl
  have hafter : (Reservation.holds { attempts[attempt] with ended := some ending }) = decide
    (ending = .rejected) := by
    cases ending <;> rfl
  have hsame : Reservation.madeIn { attempts[attempt] with ended := some ending } k c =
    attempts[attempt].madeIn k c := rfl
  have hpos : attempts[attempt].madeIn k c = true → 0 < held attempts k c := fun hmade =>
    List.countP_pos_iff.mpr ⟨_, List.getElem_mem hlt, by rw [hholds, hmade]; rfl⟩
  rw [hheld, hholds, hafter, hsame, Bool.true_and]
  by_cases hrejected : ending = .rejected
  · rw [if_pos hrejected, decide_eq_true hrejected, Bool.true_and]
    split
    · rename_i hmade
      exact Nat.sub_add_cancel (hpos hmade)
    · rfl
  · rw [if_neg hrejected, decide_eq_false hrejected, Bool.false_and, if_neg Bool.false_ne_true]
    unfold less
    by_cases hclient : k = attempts[attempt].clientKey ∧ c = attempts[attempt].clientEntry
    · have hglobal : ¬ (k = loginGlobalKey ∧ c = attempts[attempt].globalEntry) := fun h =>
        hkey (hclient.1.symm.trans h.1)
      rw [if_neg hglobal, if_pos hclient, if_pos (madeIn_iff.mpr (.inl ⟨hclient.1.symm, hclient.2.symm⟩))]
      rfl
    · rw [if_neg hclient]
      by_cases hglobal : k = loginGlobalKey ∧ c = attempts[attempt].globalEntry
      · rw [if_pos hglobal, if_pos (madeIn_iff.mpr (.inr ⟨hglobal.1.symm, hglobal.2.symm⟩))]
        rfl
      · have hnot : ¬ attempts[attempt].madeIn k c = true := by
          intro hmade
          rcases madeIn_iff.mp hmade with ⟨hk, hc⟩ | ⟨hk, hc⟩
          · exact hclient ⟨hk.symm, hc.symm⟩
          · exact hglobal ⟨hk.symm, hc.symm⟩
        rw [if_neg hglobal, if_neg hnot]
        rfl

theorem held_pos {attempts : List Reservation} (hin : reservation ∈ attempts)
    (hholds : reservation.holds = true) {key : Text} {b : Nat} (hmade : reservation.madeIn key b = true) :
    0 < held attempts key b := List.countP_pos_iff.mpr ⟨reservation, hin, by rw [hholds, hmade]; rfl⟩

theorem finish_sound (h : Sound s) (attempt : Nat) (ending : Ending) : Sound (finish s attempt ending) := by
  unfold finish
  cases hin : s.attempts[attempt]? with
  | none => exact h
  | some reservation =>
    dsimp only
    split
    · exact h
    · rename_i hsome
      have hactive : reservation.ended = none := Option.not_isSome_iff_eq_none.mp hsome
      have hmem := List.mem_of_getElem? hin
      have hkey := h.keys reservation hmem
      have hholds : reservation.holds = true := by
        unfold Reservation.holds
        rw [hactive]
        rfl
      refine ⟨?_, fun other hother => ?_⟩
      · rw [held_finish hin hactive hkey ending]
        split
        · exact h.counted
        · have hclient := h.counted.leave (held_pos hmem hholds (madeIn_iff.mpr (.inl ⟨rfl, rfl⟩)))
          refine hclient.leave ?_
          unfold less
          rw [if_neg fun heq => hkey heq.1.symm]
          exact held_pos hmem hholds (madeIn_iff.mpr (.inr ⟨rfl, rfl⟩))
      · rcases List.mem_or_eq_of_mem_set hother with hother | rfl
        · exact h.keys other hother
        · exact hkey

/-! ## 3. Runs -/

theorem sound {clock : Int} {events : List Event} (h : Trace.Run Step (start clock) events s) : Sound s :=
  h.invariant (start_sound clock) fun s event s' hs hstep => by
    cases hstep with
    | login hclock => exact reserve_sound hs _ hclock
    | finish => exact finish_sound hs _ _

theorem ended_stays {s' : LoginState} {event : Event} (hstep : Step s event s') {attempt : Nat}
    (hin : s.attempts[attempt]? = some reservation) (hended : reservation.ended.isSome = true) :
    s'.attempts[attempt]? = some reservation := by
  cases hstep with
  | login hclock =>
    unfold reserveLoginAttempt
    dsimp only
    split
    · exact hin
    · obtain ⟨hlt, -⟩ := List.getElem?_eq_some_iff.mp hin
      rw [List.getElem?_append_left hlt]
      exact hin
  | @finish other ending =>
    unfold finish
    cases hother : s.attempts[other]? with
    | none => exact hin
    | some found =>
      dsimp only
      split
      · exact hin
      · rename_i hactive
        have hne : other ≠ attempt := by
          rintro rfl
          rw [hin] at hother
          cases hother
          exact hactive hended
        rw [List.getElem?_set_ne hne]
        exact hin

/-- **What the end of an attempt gives back**: one to each of its two buckets, where these are still live, and
    nothing where it was rejected or had ended before. -/
theorem finish_credits (s : LoginState) {attempt : Nat}
    (hin : s.attempts[attempt]? = some reservation) (hkey : reservation.clientKey ≠ loginGlobalKey)
      (ending : Ending)
    (b : Nat) : ((finish s attempt ending).loginAttempts.objects b).count =
      if reservation.ended.isSome = true ∨ ending = .rejected then (s.loginAttempts.objects b).count
      else (s.loginAttempts.objects b).count -
        (if b = reservation.clientEntry ∧ s.loginAttempts.live reservation.clientKey = some
          reservation.clientEntry
          then 1 else 0) -
        (if b = reservation.globalEntry ∧ s.loginAttempts.live loginGlobalKey = some reservation.globalEntry
          then 1 else 0) := by
  unfold finish
  rw [hin]
  dsimp only
  by_cases hended : reservation.ended.isSome = true
  · rw [if_pos hended, if_pos (.inl hended)]
  · rw [if_neg hended]
    by_cases hrejected : ending = .rejected
    · rw [if_pos hrejected, if_pos (.inr hrejected)]
    · rw [if_neg hrejected, if_neg fun h => h.elim hended hrejected]
      unfold release
      rw [count_leave, count_leave, live_leave _ _ _ hkey.symm]

theorem finish_ends (s : LoginState) {attempt : Nat} (hin : s.attempts[attempt]? = some reservation)
    (ending : Ending) :
    ∃ ended, (finish s attempt ending).attempts[attempt]? = some ended ∧ ended.ended.isSome = true := by
  obtain ⟨hlt, -⟩ := List.getElem?_eq_some_iff.mp hin
  unfold finish
  rw [hin]
  dsimp only
  by_cases hended : reservation.ended.isSome = true
  · rw [if_pos hended]
    exact ⟨reservation, hin, hended⟩
  · rw [if_neg hended]
    exact ⟨_, List.getElem?_set_self hlt, rfl⟩

theorem refused_globally (h : Sound s) {client : Text} {nowMs : Int} (hclock : s.clock ≤ nowMs)
    (hrefused : (reserveLoginAttempt s client nowMs).2 = false)
    (hnone : ∀ b, (s.loginAttempts.sweep nowMs).live (clientKey client) = some b →
      held s.attempts (clientKey client) b = 0) : ∃ b, (s.loginAttempts.sweep nowMs).live
        loginGlobalKey = some b ∧
      held s.attempts loginGlobalKey b = loginGlobalLimit := by
  have hswept := h.counted.sweep hclock
  have hclient : ¬ (s.loginAttempts.sweep nowMs).count (clientKey client) ≥ loginAttemptLimit := by
    cases hlive : (s.loginAttempts.sweep nowMs).live (clientKey client) with
    | none =>
      rw [Store.count_none hlive]
      decide
    | some b =>
      rw [hswept.count_eq hlive, hnone b hlive]
      decide
  unfold reserveLoginAttempt at hrefused
  dsimp only at hrefused
  split at hrefused
  · rename_i hfull
    have hglobal := hfull.resolve_left hclient
    cases hlive : (s.loginAttempts.sweep nowMs).live loginGlobalKey with
    | none =>
      rw [Store.count_none hlive] at hglobal
      exact absurd hglobal (by decide)
    | some b =>
      rw [hswept.count_eq hlive] at hglobal
      have hbound : held s.attempts loginGlobalKey b ≤ loginGlobalLimit := by
        have hle := h.counted.bound loginGlobalKey b
        unfold limit at hle
        rwa [if_pos rfl] at hle
      exact ⟨b, rfl, Nat.le_antisymm hbound hglobal⟩
  · cases hrefused

/-- **Failed sign-ins are bounded in every run.** In no bucket are more than 10 attempts of a
    client, or 50 of all,
    rejected or in flight; what is held in a bucket whose time is not over is counted in the live
    bucket of its key;
    a rejected attempt stays one; the end of an attempt credits its own two buckets at most, once;
    and a client of
    which nothing is held is refused at the global limit only. -/
theorem failed_sign_ins_bounded {clock : Int} {events : List Event} {s : LoginState}
    (h : Trace.Run Step (start clock) events s) : (∀ client b, held s.attempts (clientKey client) b ≤ 10) ∧
    (∀ b, held s.attempts loginGlobalKey b ≤ 50) ∧
    (∀ key b, 0 < held s.attempts key b → s.clock < (s.loginAttempts.objects b).resetAtMs →
      s.loginAttempts.live key = some b ∧ (s.loginAttempts.objects b).count = held s.attempts key b) ∧
    (∀ (attempt : Nat) (reservation : Reservation), s.attempts[attempt]? = some reservation →
      reservation.ended.isSome = true → ∀ (later : List Event) (s' : LoginState), Trace.Run Step s later s' →
        s'.attempts[attempt]? = some reservation) ∧
    (∀ (attempt : Nat) (reservation : Reservation), s.attempts[attempt]? = some reservation →
      ∀ (ending : Ending),
      (∃ ended, (finish s attempt ending).attempts[attempt]? = some ended ∧ ended.ended.isSome = true) ∧
      ∀ b, ((finish s attempt ending).loginAttempts.objects b).count =
        if reservation.ended.isSome = true ∨ ending = .rejected then (s.loginAttempts.objects b).count
        else (s.loginAttempts.objects b).count -
          (if b = reservation.clientEntry ∧ s.loginAttempts.live reservation.clientKey = some
            reservation.clientEntry
            then 1 else 0) -
          (if b = reservation.globalEntry ∧ s.loginAttempts.live loginGlobalKey = some reservation.globalEntry
            then 1 else 0)) ∧
    (∀ (client : Text) (nowMs : Int), s.clock ≤ nowMs → (reserveLoginAttempt s client nowMs).2 = false →
      (∀ b, (s.loginAttempts.sweep nowMs).live (clientKey client) = some b →
        held s.attempts (clientKey client) b = 0) →
      ∃ b, (s.loginAttempts.sweep nowMs).live loginGlobalKey = some b ∧
        held s.attempts loginGlobalKey b = 50) := by
  have hsound := sound h
  refine ⟨fun client b => ?_, fun b => ?_, fun key b hheld hreset =>
    ?_, fun attempt reservation hin hended later s' hrun => ?_,
    fun attempt reservation hin ending => ⟨finish_ends s hin ending, fun b => ?_⟩,
    fun client nowMs hclock hrefused hnone => refused_globally hsound hclock hrefused hnone⟩
  · have hle := hsound.counted.bound (clientKey client) b
    unfold limit at hle
    rwa [if_neg (clientKey_ne client)] at hle
  · have hle := hsound.counted.bound loginGlobalKey b
    unfold limit at hle
    rwa [if_pos rfl] at hle
  · have hlive := hsound.counted.kept key b hheld hreset
    exact ⟨hlive, (hsound.counted.exact key b hlive).1⟩
  · exact hrun.invariant (I := fun s => s.attempts[attempt]? = some reservation)
      hin fun s event s' hs hstep =>
      ended_stays hstep hs hended
  · exact finish_credits s hin (hsound.keys reservation (List.mem_of_getElem? hin)) ending b

/-- One client whose attempts fail, one after the other. -/
def failures : Nat → LoginState
  | 0 => start 0
  | n + 1 => finish (reserveLoginAttempt (failures n) (Js.text "::1") 5).1 n .rejected

theorem finish_clock (s : LoginState) (attempt : Nat) (ending : Ending) :
    (finish s attempt ending).clock = s.clock := by
  unfold finish
  split
  · rfl
  · split <;> rfl

theorem reserve_clock (s : LoginState) (client : Text) (nowMs : Int) :
    (reserveLoginAttempt s client nowMs).1.clock = nowMs := by
  unfold reserveLoginAttempt
  dsimp only
  split <;> rfl

theorem failures_clock (n : Nat) : (failures n).clock ≤ 5 := by
  cases n with
  | zero => decide
  | succ n => exact le_of_eq ((finish_clock _ _ _).trans (reserve_clock _ _ _))

theorem failures_run (n : Nat) : ∃ events, Trace.Run Step (start 0) events (failures n) := by
  induction n with
  | zero => exact ⟨[], .start⟩
  | succ n ih =>
    obtain ⟨events, hrun⟩ := ih
    exact ⟨_, (hrun.next (.login (failures_clock n))).next .finish⟩

/-- After ten failures of a client its next attempt is refused, in its bucket are ten, and another
    client is heard. -/
theorem one_failure : (reserveLoginAttempt (failures 10) (Js.text "::1") 6).2 = false ∧
    (failures 10).attempts.length = 10 ∧ held (failures 10).attempts (clientKey (Js.text "::1")) 0 ≤ 10 ∧
    (reserveLoginAttempt (failures 10) (Js.text "::2") 6).2 = true := by
  obtain ⟨events, hrun⟩ := failures_run 10
  obtain ⟨hclient, -, -, -, -, hrefused⟩ := failed_sign_ins_bounded hrun
  refine ⟨by decide +kernel, by decide +kernel, hclient (Js.text "::1") 0, ?_⟩
  by_contra hnot
  have hclock : (failures 10).clock ≤ 6 := (failures_clock 10).trans (by decide)
  obtain ⟨b, hlive, hglobal⟩ := hrefused (Js.text "::2") 6 hclock
    (Bool.eq_false_iff.mpr hnot) fun b hlive => by
    have hnone : ((failures 10).loginAttempts.sweep 6).live (clientKey (Js.text "::2")) = none :=
      by decide +kernel
    rw [hnone] at hlive
    cases hlive
  have hfew := List.countP_le_length (p := fun r : Reservation => r.holds && r.madeIn loginGlobalKey b)
    (l := (failures 10).attempts)
  have hlength : (failures 10).attempts.length = 10 := by decide +kernel
  unfold held at hglobal
  omega

end ClawRouter.LoginAttempts
