/-
  Subject:   `BodyLease` (src/worker/body-budget.ts): the memory that the request bodies of one isolate may take.

  One counter is shared by all leases. A lease grows to twice the bytes of a body, gives up what it holds, or
  hands it over to two successors; then it is transferred, and holds nothing ever after.

  * `Step`: the calls of any number of leases, in any order;
  * **`body_accounting_balances`**: the counter is what the leases hold, within the budget, over every run.
-/
import ClawRouter.Lib.Value
import ClawRouter.Lib.Trace
import Mathlib.Algebra.Order.BigOperators.Group.List

namespace ClawRouter.Body

open Js Trace

/-! ## 1. Leases -/

def bodyLeaseMinimum : Int := 1024 * 1024
def bodyBudgetBytes : Int := 96 * 1024 * 1024

/-- A part of the budget that a body holds. -/
structure BodyLease where
  held : Int
  transferred : Bool
  deriving DecidableEq

/-- What a caller may pass as a charge: a number, or anything else. -/
inductive Argument
  | number (n : Double)
  | other
  deriving DecidableEq

/-- The charge an argument is, none unless it is a safe integer from 1 to the budget. -/
def chargeOf : Argument → Option Int
  | .number (.finite q) =>
    if (Double.finite q).isSafeInteger && 0 < q.num && q.num ≤ bodyBudgetBytes then some q.num else none
  | _ => none

def isSafe (n : Int) : Bool := n.natAbs ≤ 9007199254740991

namespace BodyLease

def fresh : BodyLease := ⟨0, false⟩

/-- `grow`: the verdict, the counter and the lease. Byte counts are integers; the double of one is exact. -/
def grow (charged : Int) (lease : BodyLease) (bytes : Int) : Bool × Int × BodyLease :=
  if lease.transferred then (false, charged, lease)
  else
    let want := if bytes < bodyLeaseMinimum then 0 else 2 * bytes
    if want ≤ lease.held then (true, charged, lease)
    else if charged - lease.held + want > bodyBudgetBytes then (false, charged, lease)
    else (true, charged + (want - lease.held), { lease with held := want })

/-- `splitCharges`: the counter and the two successors; the lease itself is then `⟨0, true⟩`. -/
def splitCharges (charged : Int) (lease : BodyLease)
    (retainedInputChargeBytes responseChargeBytes : Argument) :
    Option (Int × BodyLease × BodyLease) :=
  if lease.transferred || !isSafe lease.held || lease.held ≤ 0 || lease.held > bodyBudgetBytes then none
  else
    match chargeOf retainedInputChargeBytes, chargeOf responseChargeBytes with
    | some retained, some response =>
      let total := retained + response
      let next := charged - lease.held + total
      if total > bodyBudgetBytes || !isSafe next || next < total || next > bodyBudgetBytes then none
      else some (next, { fresh with held := retained }, { fresh with held := response })
    | _, _ => none

def release (charged : Int) (lease : BodyLease) : Int × BodyLease :=
  (charged - lease.held, { lease with held := 0 })

end BodyLease

/-! ## 2. The module -/

/-- The counter of the module, and every lease there ever was. -/
structure BodyBudget where
  charged : Int
  leases : List BodyLease
  deriving DecidableEq

def BodyBudget.fresh : BodyBudget := ⟨0, []⟩

/-- A call on leases. -/
inductive LeaseOp
  | construct
  | grow (lease : Nat) (bytes : Int)
  | splitCharges (lease : Nat) (retainedInputChargeBytes responseChargeBytes : Argument)
  | release (lease : Nat)
  deriving DecidableEq

/-- The answer of such a call. -/
inductive LeaseAnswer
  | made (lease : Nat)
  | grown (ok : Bool)
  | split (successors : Option (Nat × Nat))
  | released
  deriving DecidableEq

/-- `grow` said false, or `splitCharges` null. -/
def LeaseAnswer.refused : LeaseAnswer → Bool
  | .grown ok => !ok
  | .split successors => successors.isNone
  | _ => false

/-- A call on a lease that was constructed. -/
def execLease (s : BodyBudget) : LeaseOp → Option (LeaseAnswer × BodyBudget)
  | .construct => some (.made s.leases.length, { s with leases := s.leases ++ [BodyLease.fresh] })
  | .grow i bytes =>
    s.leases[i]?.map fun lease =>
      let (ok, charged, lease) := lease.grow s.charged bytes
      (.grown ok, ⟨charged, s.leases.set i lease⟩)
  | .splitCharges i retained response =>
    s.leases[i]?.map fun lease =>
      match lease.splitCharges s.charged retained response with
      | none => (.split none, s)
      | some (next, retainedInput, response) =>
        (.split (some (s.leases.length, s.leases.length + 1)),
          ⟨next, s.leases.set i ⟨0, true⟩ ++ [retainedInput, response]⟩)
  | .release i =>
    s.leases[i]?.map fun lease =>
      let (charged, lease) := lease.release s.charged
      (.released, ⟨charged, s.leases.set i lease⟩)

/-- The call is one on this lease. -/
def LeaseOp.on (i : Nat) : LeaseOp → Bool
  | .construct => false
  | .grow j _ => j = i
  | .splitCharges j _ _ => j = i
  | .release j => j = i

def LeaseStep (s : BodyBudget) (event : LeaseOp × LeaseAnswer) (s' : BodyBudget) : Prop :=
  execLease s event.1 = some (event.2, s')

instance (s : BodyBudget) (event : LeaseOp × LeaseAnswer) (s' : BodyBudget) :
    Decidable (LeaseStep s event s') :=
  inferInstanceAs (Decidable (execLease s event.1 = some (event.2, s')))

/-! ## 3. What a call can do -/

/-- **Everything a call can do to the counter and the leases.** -/
inductive LeaseChange (s : BodyBudget) : LeaseOp × LeaseAnswer → BodyBudget → Prop
  | made : LeaseChange s (.construct, .made s.leases.length)
    { s with leases := s.leases ++ [BodyLease.fresh] }
  /-- A `grow` that charges nothing more, or that is refused. -/
  | kept {i : Nat} {bytes : Int} {lease : BodyLease} {ok : Bool} (found : s.leases[i]? = some lease)
      (live : lease.transferred = true → ok = false) : LeaseChange s (.grow i bytes, .grown ok) s
  | grown {i : Nat} {bytes want : Int} {lease : BodyLease} (found : s.leases[i]? = some lease)
      (live : lease.transferred = false) (more : lease.held < want)
      (room : s.charged - lease.held + want ≤ bodyBudgetBytes) :
      LeaseChange s (.grow i bytes, .grown true)
        ⟨s.charged + (want - lease.held), s.leases.set i { lease with held := want }⟩
  | unsplit {i : Nat} {retained response : Argument} {lease : BodyLease} (found : s.leases[i]? = some lease) :
      LeaseChange s (.splitCharges i retained response, .split none) s
  | split {i : Nat} {a b : Argument} {retained response : Int} {lease : BodyLease}
      (found : s.leases[i]? = some lease) (live : lease.transferred = false) (retains : 0 < retained)
      (responds : 0 < response) (room : s.charged - lease.held + (retained + response) ≤ bodyBudgetBytes) :
      LeaseChange s (.splitCharges i a b, .split (some (s.leases.length, s.leases.length + 1)))
        ⟨s.charged - lease.held + (retained + response),
          s.leases.set i ⟨0, true⟩ ++ [⟨retained, false⟩, ⟨response, false⟩]⟩
  | released {i : Nat} {lease : BodyLease} (found : s.leases[i]? = some lease) :
      LeaseChange s (.release i, .released) ⟨s.charged - lease.held, s.leases.set i { lease with held := 0 }⟩

theorem chargeOf_pos {argument : Argument} {charge : Int} (h : chargeOf argument = some charge) :
    0 < charge := by
  unfold chargeOf at h
  split at h
  · split at h
    · rename_i hc
      cases h
      simp only [Bool.and_eq_true, decide_eq_true_eq] at hc
      exact hc.1.2
    · cases h
  · cases h

variable {s s' : BodyBudget} {i : Nat} {lease : BodyLease}

theorem set_found (h : s.leases[i]? = some lease) : s.leases.set i lease = s.leases := by
  obtain ⟨hlt, e⟩ := List.getElem?_eq_some_iff.mp h
  rw [← e, List.set_getElem_self]

theorem grow_change {bytes : Int} {answer : LeaseAnswer} (found : s.leases[i]? = some lease)
    (h : (LeaseAnswer.grown (lease.grow s.charged bytes).1,
      BodyBudget.mk (lease.grow s.charged bytes).2.1 (s.leases.set i (lease.grow s.charged bytes).2.2)) =
        (answer, s')) : LeaseChange s (.grow i bytes, answer) s' := by
  unfold BodyLease.grow at h
  split at h
  · rename_i ht
    cases h
    rw [set_found found]
    exact .kept found fun _ => rfl
  · rename_i ht
    dsimp only at h
    generalize (if bytes < bodyLeaseMinimum then 0 else 2 * bytes) = want at h
    split at h
    · cases h
      rw [set_found found]
      exact .kept found fun e => absurd e ht
    · rename_i hmore
      split at h
      · cases h
        rw [set_found found]
        exact .kept found fun _ => rfl
      · rename_i hroom
        cases h
        exact .grown found (Bool.eq_false_iff.mpr ht) (by omega) (by omega)

theorem split_some {charged next : Int} {x y : BodyLease} {a b : Argument}
    (h : lease.splitCharges charged a b = some (next, x, y)) :
    lease.transferred = false ∧ ∃ retained response, 0 < retained ∧ 0 < response ∧
      next = charged - lease.held + (retained + response) ∧ next ≤ bodyBudgetBytes ∧
      x = ⟨retained, false⟩ ∧ y = ⟨response, false⟩ := by
  unfold BodyLease.splitCharges at h
  split at h
  · cases h
  · rename_i hheld
    simp only [Bool.or_eq_true, not_or, Bool.not_eq_true] at hheld
    refine ⟨hheld.1.1.1, ?_⟩
    split at h
    · rename_i retained response ha hb
      dsimp only at h
      split at h
      · cases h
      · rename_i hroom
        simp only [Bool.or_eq_true, not_or, Bool.not_eq_true, decide_eq_false_iff_not] at hroom
        cases h
        exact ⟨retained, response, chargeOf_pos ha, chargeOf_pos hb, rfl, by omega, rfl, rfl⟩
    · cases h

variable {event : LeaseOp × LeaseAnswer}

theorem step_change (h : LeaseStep s event s') : LeaseChange s event s' := by
  obtain ⟨op, answer⟩ := event
  unfold LeaseStep execLease at h
  dsimp only at h
  split at h
  · cases h
    exact .made
  · obtain ⟨lease, found, e⟩ := Option.map_eq_some_iff.mp h
    exact grow_change found e
  · obtain ⟨lease, found, e⟩ := Option.map_eq_some_iff.mp h
    split at e
    · cases e
      exact .unsplit found
    · rename_i hsplit
      obtain ⟨live, _, _, hx, hy, rfl, room, rfl, rfl⟩ := split_some hsplit
      cases e
      exact .split found live hx hy room
  · obtain ⟨lease, found, e⟩ := Option.map_eq_some_iff.mp h
    cases e
    exact .released found

/-! ## 4. The books balance -/

def heldBy (leases : List BodyLease) : Int := (leases.map BodyLease.held).sum

theorem heldBy_set {leases : List BodyLease} (h : leases[i]? = some lease)
    (next : BodyLease) : heldBy (leases.set i next) = heldBy leases - lease.held + next.held := by
  obtain ⟨hlt, rfl⟩ := List.getElem?_eq_some_iff.mp h
  unfold heldBy
  rw [List.map_set, List.sum_set', dif_pos (by rw [List.length_map]; exact hlt), List.getElem_map]
  omega

theorem heldBy_append (leases successors : List BodyLease) :
    heldBy (leases ++ successors) = heldBy leases + heldBy successors := by
  unfold heldBy
  rw [List.map_append, List.sum_append]

/-- The budget has what no lease holds. -/
structure Balanced (s : BodyBudget) : Prop where
  books : s.charged = heldBy s.leases
  nonneg : ∀ lease ∈ s.leases, 0 ≤ lease.held
  room : s.charged ≤ bodyBudgetBytes
  spent : ∀ lease ∈ s.leases, lease.transferred = true → lease.held = 0

theorem Balanced.fresh : Balanced BodyBudget.fresh where
  books := rfl
  nonneg := fun _ h => absurd h List.not_mem_nil
  room := by decide
  spent := fun _ h => absurd h List.not_mem_nil

theorem Balanced.charged_nonneg (h : Balanced s) : 0 ≤ s.charged := by
  rw [h.books]
  refine List.sum_nonneg fun held hheld => ?_
  obtain ⟨lease, hlease, rfl⟩ := List.mem_map.mp hheld
  exact h.nonneg lease hlease

theorem mem_set {leases : List BodyLease} {next : BodyLease} (h : lease ∈ leases.set i next) :
    lease ∈ leases ∨ lease = next := List.mem_or_eq_of_mem_set h

theorem Balanced.step (h : Balanced s) (hs : LeaseStep s event s') : Balanced s' := by
  cases step_change hs with
  | made =>
    refine ⟨?_, fun lease hl => ?_, h.room, fun lease hl ht => ?_⟩
    · rw [heldBy_append, ← h.books]
      exact (Int.add_zero _).symm
    · rcases List.mem_append.mp hl with hl | hl
      · exact h.nonneg lease hl
      · rw [List.mem_singleton.mp hl]
        exact Int.le_refl 0
    · rcases List.mem_append.mp hl with hl | hl
      · exact h.spent lease hl ht
      · rw [List.mem_singleton.mp hl]
        rfl
  | kept | unsplit => exact h
  | @grown i bytes want lease found live more room =>
    have hheld := h.nonneg lease (List.mem_of_getElem? found)
    refine ⟨?_, fun x hx => ?_, ?_, fun x hx ht => ?_⟩
    · rw [heldBy_set found, ← h.books]
      dsimp only
      omega
    · rcases mem_set hx with hx | rfl
      · exact h.nonneg x hx
      · dsimp only
        omega
    · dsimp only
      omega
    · rcases mem_set hx with hx | rfl
      · exact h.spent x hx ht
      · rw [live] at ht
        cases ht
  | @split i a b retained response lease found live retains responds room =>
    refine ⟨?_, fun x hx => ?_, room, fun x hx ht => ?_⟩
    · rw [heldBy_append, heldBy_set found, ← h.books]
      show s.charged - lease.held + (retained + response) = s.charged - lease.held + 0 +
        (retained + (response + 0))
      omega
    · rcases List.mem_append.mp hx with hx | hx
      · rcases mem_set hx with hx | rfl
        · exact h.nonneg x hx
        · exact Int.le_refl 0
      · rcases List.mem_cons.mp hx with rfl | hx
        · exact Int.le_of_lt retains
        · rw [List.mem_singleton.mp hx]
          exact Int.le_of_lt responds
    · rcases List.mem_append.mp hx with hx | hx
      · rcases mem_set hx with hx | rfl
        · exact h.spent x hx ht
        · rfl
      · rcases List.mem_cons.mp hx with rfl | hx
        · cases ht
        · rw [List.mem_singleton.mp hx] at ht
          cases ht
  | @released i lease found =>
    have hheld := h.nonneg lease (List.mem_of_getElem? found)
    refine ⟨?_, fun x hx => ?_, ?_, fun x hx ht => ?_⟩
    · rw [heldBy_set found, ← h.books]
      exact (Int.add_zero _).symm
    · rcases mem_set hx with hx | rfl
      · exact h.nonneg x hx
      · exact Int.le_refl 0
    · have := h.room
      dsimp only
      omega
    · rcases mem_set hx with hx | rfl
      · exact h.spent x hx ht
      · rfl

/-- **A transferred lease stays as it is, and no call charges or splits it.** -/
theorem Balanced.transferred
    (h : Balanced s) (found : s.leases[i]? = some lease) (ht : lease.transferred = true)
      (hs : LeaseStep s event s') :
    s'.leases[i]? = some lease ∧ (event.1.on i = true → event.2.refused = true ∨ event.1 = .release i) := by
  have hother : ∀ {j : Nat} {x : BodyLease} (next : BodyLease), s.leases[j]? = some x →
    x.transferred = false →
      (s.leases.set j next)[i]? = some lease ∧ (i = j → False) := by
    intro j x next hx hlive
    have hne : i ≠ j := by
      rintro rfl
      rw [found] at hx
      cases hx
      rw [ht] at hlive
      cases hlive
    exact ⟨by rw [List.getElem?_set_ne (Ne.symm hne)]; exact found, hne⟩
  have hlt := (List.getElem?_eq_some_iff.mp found).1
  cases step_change hs with
  | made => exact ⟨by rw [List.getElem?_append_left hlt]; exact found, fun h => absurd h Bool.false_ne_true⟩
  | @kept j bytes x ok hx live =>
    refine ⟨found, fun hon => .inl ?_⟩
    obtain rfl : j = i := of_decide_eq_true hon
    rw [found] at hx
    cases hx
    rw [live ht]
    rfl
  | grown hx live =>
    obtain ⟨hin, hne⟩ := hother _ hx live
    exact ⟨hin, fun hon => (hne (of_decide_eq_true hon).symm).elim⟩
  | unsplit => exact ⟨found, fun _ => .inl rfl⟩
  | split hx live =>
    obtain ⟨hin, hne⟩ := hother ⟨0, true⟩ hx live
    refine ⟨?_, fun hon => (hne (of_decide_eq_true hon).symm).elim⟩
    rw [List.getElem?_append_left (by rw [List.length_set]; exact hlt)]
    exact hin
  | @released j x hx =>
    refine ⟨?_, fun hon => .inr ?_⟩
    · by_cases hji : j = i
      · subst hji
        rw [found] at hx
        cases hx
        have hzero := h.spent lease (List.mem_of_getElem? found) ht
        rw [List.getElem?_set_self hlt]
        obtain ⟨held, transferred⟩ := lease
        cases hzero
        rfl
      · rw [List.getElem?_set_ne hji]
        exact found
    · rw [of_decide_eq_true hon]

theorem balanced {events : List (LeaseOp × LeaseAnswer)}
    (h : Run LeaseStep BodyBudget.fresh events s) : Balanced s :=
  h.invariant Balanced.fresh fun _ _ _ hs hstep => hs.step hstep

theorem refused_unchanged (h : LeaseStep s event s') (hrefused : event.2.refused = true) : s' = s := by
  cases step_change h with
  | kept | unsplit => rfl
  | made | grown | split | released => cases hrefused

theorem release_step (found : s.leases[i]? = some lease) (h : LeaseStep s (.release i, .released) s') :
    s'.charged = s.charged - lease.held ∧ s'.leases = s.leases.set i { lease with held := 0 } := by
  cases step_change h with
  | released hx =>
    rw [found] at hx
    cases hx
    exact ⟨rfl, rfl⟩

/-- **The accounting balances**: the counter is what the leases hold, from 0 to the budget; a refusal changes
nothing; a release gives up what its lease holds, and a second one nothing; a transferred lease
holds nothing, and
is never charged or split again. -/
theorem body_accounting_balances {events : List (LeaseOp × LeaseAnswer)} {s : BodyBudget}
    (h : Run LeaseStep BodyBudget.fresh events s) :
    s.charged = (s.leases.map BodyLease.held).sum ∧ 0 ≤ s.charged ∧ s.charged ≤ bodyBudgetBytes ∧
    (∀ lease ∈ s.leases, 0 ≤ lease.held) ∧ (∀ event s', LeaseStep s event s' →
      event.2.refused = true → s' = s) ∧
    (∀ (i : Nat) (lease : BodyLease) (s' : BodyBudget), s.leases[i]? = some lease →
      LeaseStep s (.release i, .released) s' →
        s'.charged = s.charged - lease.held ∧ s'.leases = s.leases.set i { lease with held := 0 } ∧
        ∀ s'', LeaseStep s' (.release i, .released) s'' → s'' = s') ∧
    (∀ (i : Nat) (lease : BodyLease), s.leases[i]? = some lease → lease.transferred = true →
      lease.held = 0 ∧ ∀ later s', Run LeaseStep s later s' → s'.leases[i]? = some lease ∧
        ∀ event ∈ later, event.1.on i = true → event.2.refused = true ∨ event.1 = .release i) := by
  have hbalanced := balanced h
  refine ⟨hbalanced.books, hbalanced.charged_nonneg, hbalanced.room, hbalanced.nonneg,
    fun event s' hs => refused_unchanged hs, fun i lease s' found hs => ?_, fun i lease found ht => ?_⟩
  · obtain ⟨hcharged, hleases⟩ := release_step found hs
    refine ⟨hcharged, hleases, fun s'' hs' => ?_⟩
    have hlt := (List.getElem?_eq_some_iff.mp found).1
    have hagain : s'.leases[i]? = some { lease with held := 0 } := by
      rw [hleases, List.getElem?_set_self hlt]
    obtain ⟨hcharged', hleases'⟩ := release_step hagain hs'
    obtain ⟨charged'', leases''⟩ := s''
    obtain ⟨charged', leases'⟩ := s'
    dsimp only at hcharged' hleases' hagain
    rw [hleases', hcharged', Int.sub_zero]
    exact congrArg (BodyBudget.mk charged') (set_found (s := ⟨charged', leases'⟩) hagain)
  · refine ⟨hbalanced.spent lease (List.mem_of_getElem? found) ht, fun later s' hrun => ?_⟩
    have hall := hrun.invariant_along (I := fun later s => Balanced s ∧ s.leases[i]? = some lease ∧
        ∀ event ∈ later, event.1.on i = true → event.2.refused = true ∨ event.1 = .release i)
      ⟨hbalanced, found, fun _ he => absurd he List.not_mem_nil⟩
      fun later s event s' ⟨hb, hin, hpast⟩ hstep => by
        obtain ⟨hin', hnow⟩ := hb.transferred hin ht hstep
        refine ⟨hb.step hstep, hin', fun e he => ?_⟩
        rcases List.mem_append.mp he with he | he
        · exact hpast e he
        · rw [List.mem_singleton.mp he]
          exact hnow
    exact hall.2

/-- A body of 32 MiB is handed over to two successors, and the first of them is released. -/
theorem body_handed_over :
    ∃ s, Run LeaseStep BodyBudget.fresh [(.construct, .made 0), (.grow 0 33554432, .grown true),
        (.splitCharges 0 (.number (.finite 33554432)) (.number (.finite 67108864)), .split (some (1, 2))),
        (.release 1, .released)] s ∧ s = ⟨67108864, [⟨0, true⟩, ⟨0, false⟩, ⟨67108864, false⟩]⟩ ∧
    s.charged = (s.leases.map BodyLease.held).sum := by
  have h0 : Run LeaseStep BodyBudget.fresh [] BodyBudget.fresh := .start
  have h1 := h0.next (show LeaseStep _ (.construct, .made 0) ⟨0, [⟨0, false⟩]⟩ from rfl)
  have h2 := h1.next (show LeaseStep _ (.grow 0 33554432, .grown true)
    ⟨67108864, [⟨67108864, false⟩]⟩ by decide)
  have h3 := h2.next (show LeaseStep _ (.splitCharges 0 (.number (.finite 33554432))
    (.number (.finite 67108864)),
    .split (some (1, 2))) ⟨100663296, [⟨0, true⟩, ⟨33554432, false⟩, ⟨67108864, false⟩]⟩ by decide)
  have h4 := h3.next (show LeaseStep _ (.release 1, .released)
    ⟨67108864, [⟨0, true⟩, ⟨0, false⟩, ⟨67108864, false⟩]⟩ by decide)
  exact ⟨_, h4, rfl, (body_accounting_balances h4).1⟩

end ClawRouter.Body
