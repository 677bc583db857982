/-
  Subject:   Loads of a cache, and what invalidates them (src/worker/hot-cache.ts).

  A load waits while somebody else is loading its key, and then begins: it takes the right to publish
  and calls its loader. When the loader is back, the load publishes or discards, if the right is still
  its own. Readers, writers and invalidations come at any moment between.

  * **`publications_fenced`**: a value that was loaded before an invalidation is not served after it.

  Every value is with the load it came from; what `set` stores comes from none.
-/
import ClawRouter.Cache.HotCache

namespace ClawRouter.Cache

/-! ## 1. The system -/

/-- A value with the load it is from. -/
structure Stamped (α : Type) where
  value : α
  origin : Option Nat
  deriving DecidableEq

/-- What a load returns. -/
structure Loaded (α : Type) where
  value : α
  cacheable : Bool
  expiresAt : Option Int
  storedAt : Option Int

/-- How a load ends. -/
inductive Outcome (α : Type)
  | loaded (l : Loaded α)
  | failed

/-- How far a caller is. -/
inductive Phase
  /-- In `waitForPublication`, for somebody else's publication. -/
  | waiting (pending : Publication) (deadline : Int)
  /-- `waitForPublication` has returned. -/
  | woken
  | loading (publication : Option Publication)
  /-- With a value of its own loader, or not. -/
  | ended (called : Bool)
  deriving DecidableEq

/-- A caller of the cache. -/
structure Task where
  key : String
  config : HotCacheConfig
  phase : Phase
  deriving DecidableEq

def Task.started (t : Task) : Bool :=
  match t.phase with
  | .loading _ => true
  | .ended called => called
  | _ => false

/-- The cache and its callers. -/
structure System (α : Type) (limit : Nat) where
  cache : HotCache (Stamped α) limit
  tasks : List Task

def joinWaitMs : Int := 5000

/-- What happens; `now` is a reading of the clock of the cache and `date` one of `Date.now`. -/
inductive Op (α : Type)
  /-- `accepted` says whether background work is taken on. -/
  | get (key : String) (config : HotCacheConfig) (now date : Int) (accepted : Bool)
  | load (key : String) (config : HotCacheConfig) (now date : Int)
  | revalidate (key : String) (config : HotCacheConfig) (now date : Int) (accepted : Bool)
  /-- A waiting load looks. -/
  | wake (i : Nat) (now date : Int)
  /-- A load goes on after `waitForPublication`. -/
  | resume (i : Nat) (now : Int)
  /-- A loader ends. -/
  | complete (i : Nat) (outcome : Outcome α) (now : Int)
  | set (key : String) (value : α) (config : HotCacheConfig) (expiresAt : Option Int) (storedAt : Int)
  | delete (key : String)
  | deleteKeys (predicate : String → Bool)
  | deleteWhere (predicate : String → α → Bool)
  | clear
  | peek (key : String) (config : HotCacheConfig) (now : Int)

namespace System

variable {α : Type} {limit : Nat}

def start (α : Type) (limit : Nat) : System α limit := ⟨.new _ limit, []⟩

/-- A load takes the right to publish and calls its loader. -/
def begin (s : System α limit) (i : Nat) (key : String) (config : HotCacheConfig) (now : Int) :
    System α limit :=
  let task : Task := ⟨key, config, .loading (s.cache.beginPublication key now).2⟩
  { cache := (s.cache.beginPublication key now).1,
    tasks := if i < s.tasks.length then s.tasks.set i task else s.tasks ++ [task] }

def load (s : System α limit) (key : String) (config : HotCacheConfig) (now date : Int) : System α limit :=
  match s.cache.publications key with
  | some pending => { s with tasks := s.tasks ++ [⟨key, config, .waiting pending (date + joinWaitMs)⟩] }
  | none => s.begin s.tasks.length key config now

def revalidate (s : System α limit) (key : String) (config : HotCacheConfig) (now date : Int)
    (accepted : Bool) : System α limit :=
  if (s.cache.publications key).isNone && accepted then s.load key config now date else s

/-- The cache after a look, and whether there was an entry. -/
def look (s : System α limit) (key : String) (config : HotCacheConfig) (now : Int) :
    System α limit × Option Bool :=
  ({ s with cache := (s.cache.peek key config now).1 }, (s.cache.peek key config now).2.map (·.2))

def get (s : System α limit) (key : String) (config : HotCacheConfig) (now date : Int) (accepted : Bool) :
    System α limit :=
  if config.maxAgeMs = 0 then s
  else match (s.look key config now).2 with
    | some true => (s.look key config now).1
    | some false => (s.look key config now).1.revalidate key config now date accepted
    | none => (s.look key config now).1.load key config now date

def turn (s : System α limit) (i : Nat) (task : Task) : System α limit :=
  { s with tasks := s.tasks.set i task }

def wake (s : System α limit) (i : Nat) (now date : Int) : System α limit :=
  match s.tasks[i]? with
  | some ⟨key, config, .waiting pending deadline⟩ =>
    if s.cache.ownsPublication key (some pending) && date < deadline then s
    else
      let (s', entry) := s.look key config now
      if entry.isSome then s'.turn i ⟨key, config, .woken⟩
      else match s'.cache.publications key with
        | some pending =>
          if date < deadline then s'.turn i ⟨key, config, .waiting pending deadline⟩
          else (s'.look key config now).1.turn i ⟨key, config, .woken⟩
        | none => (s'.look key config now).1.turn i ⟨key, config, .woken⟩
  | _ => s

def resume (s : System α limit) (i : Nat) (now : Int) : System α limit :=
  match s.tasks[i]? with
  | some ⟨key, config, .woken⟩ =>
    let (s', entry) := s.look key config now
    if entry.isSome then s'.turn i ⟨key, config, .ended false⟩ else s'.begin i key config now
  | _ => s

/-- What a load does with what its loader brought. -/
def settle (c : HotCache (Stamped α) limit) (i : Nat) (key : String) (config : HotCacheConfig)
    (publication : Option Publication) (outcome : Outcome α) (now : Int) : HotCache (Stamped α) limit :=
  match outcome with
  | .failed => c
  | .loaded l =>
    if l.cacheable then
      c.publish key publication ⟨l.value, some i⟩ config l.expiresAt
        ((l.storedAt.or (publication.map (·.acquiredAt))).getD now)
    else c.discardPublished key publication

def complete (s : System α limit) (i : Nat) (outcome : Outcome α) (now : Int) : System α limit :=
  match s.tasks[i]? with
  | some ⟨key, config, .loading publication⟩ =>
    { cache := (settle s.cache i key config publication outcome now).endPublication key publication,
      tasks := s.tasks.set i ⟨key, config, .ended true⟩ }
  | _ => s

def exec (s : System α limit) : Op α → System α limit
  | .get key config now date accepted => s.get key config now date accepted
  | .load key config now date => s.load key config now date
  | .revalidate key config now date accepted => s.revalidate key config now date accepted
  | .wake i now date => s.wake i now date
  | .resume i now => s.resume i now
  | .complete i outcome now => s.complete i outcome now
  | .set key value config expiresAt storedAt =>
    { s with cache := s.cache.set key ⟨value, none⟩ config expiresAt storedAt }
  | .delete key => { s with cache := s.cache.delete key }
  | .deleteKeys predicate => { s with cache := s.cache.deleteKeys predicate }
  | .deleteWhere predicate => { s with cache := s.cache.deleteWhere fun k v => predicate k v.value }
  | .clear => { s with cache := s.cache.clear }
  | .peek key config now => (s.look key config now).1

def run (s : System α limit) (ops : List (Op α)) : System α limit := ops.foldl exec s

end System

variable {tasks : List Task} {i j : Nat} {task : Task} {p : Option Publication} {config : HotCacheConfig}

section Proofs

variable {α : Type} {limit : Nat}

/-! ## 2. What everything is made of -/

/-- A cache that gave nobody a right, and took no value from a load. -/
structure Quiet (c c' : HotCache (Stamped α) limit) : Prop where
  made : c'.made = c.made
  rights : ∀ k p, c'.publications k = some p → c.publications k = some p
  entries : ∀ k e, c'.Holds k e → c.Holds k e ∨ e.value.origin = none

theorem Quiet.refl (c : HotCache (Stamped α) limit) : Quiet c c := ⟨rfl, fun _ _ h => h, fun _ _ h => .inl h⟩

theorem Quiet.trans {c c' c'' : HotCache (Stamped α) limit} (h : Quiet c c') (h' : Quiet c' c'') :
    Quiet c c'' where
  made := h'.made.trans h.made
  rights := fun k p hp => h.rights k p (h'.rights k p hp)
  entries := fun k e he => (h'.entries k e he).elim (h.entries k e) .inr

theorem quiet_revoke (c : HotCache (Stamped α) limit) (p : String → Bool) : Quiet c (c.revoke p) where
  made := rfl
  rights := by
    intro k q h
    unfold HotCache.revoke at h
    simp only at h
    split at h
    · cases h
    · exact h
  entries := fun _ _ h => .inl h

theorem quiet_drop (c : HotCache (Stamped α) limit) (p : String → Entry (Stamped α) → Bool) :
    Quiet c (c.drop p) where
  made := rfl
  rights := fun _ _ h => h
  entries := fun _ _ h => .inl (HotCache.holds_drop.mp h).1

theorem made_peek {V : Type} (c : HotCache V limit) (key : String) (config : HotCacheConfig) (now : Int) :
    (c.peek key config now).1.made = c.made := by
  unfold HotCache.peek
  split
  · rfl
  · cases c.entry? key with
    | none => rfl
    | some e =>
      by_cases huse : HotCache.usable config now e = true
      · simp only [huse, if_true]
        rfl
      · simp only [huse]
        rfl

theorem made_store {V : Type} (c : HotCache V limit) (key : String) (value : V) (config : HotCacheConfig)
    (expiresAt : Option Int) (storedAt : Int) :
    (c.store key value config expiresAt storedAt).made = c.made := by
  unfold HotCache.store
  split
  · rfl
  · split <;> rfl

theorem quiet_peek (c : HotCache (Stamped α) limit) (key : String) (config : HotCacheConfig) (now : Int) :
    Quiet c (c.peek key config now).1 where
  made := made_peek c key config now
  rights := fun k p h => by rwa [HotCache.publications_peek] at h
  entries := fun _ _ h => .inl (HotCache.holds_peek h)

theorem quiet_set (c : HotCache (Stamped α) limit) (key : String) (value : α) (config : HotCacheConfig)
    (expiresAt : Option Int) (storedAt : Int) :
    Quiet c (c.set key ⟨value, none⟩ config expiresAt storedAt) := by
  refine (quiet_revoke c fun k => k = key).trans ⟨made_store _ _ _ _ _ _, fun k p h => ?_, fun k e h => ?_⟩
  · exact HotCache.publications_store ▸ h
  · rcases HotCache.holds_store h with ⟨-, rfl⟩ | h
    · exact .inr rfl
    · exact .inl h

/-- The loads whose loaders were called are the same ones. -/
def SameStarted (tasks tasks' : List Task) : Prop :=
  ∀ (i : Nat) (t : Task), t.started = true → (tasks'[i]? = some t ↔ tasks[i]? = some t)

/-- What a step does to the cache. -/
inductive Move (s : System α limit) : System α limit → Prop
  | quiet {c : HotCache (Stamped α) limit} {tasks : List Task} :
      Quiet s.cache c → SameStarted s.tasks tasks → Move s ⟨c, tasks⟩
  | begin {i : Nat} {key : String} {config : HotCacheConfig} {now : Int} :
      (∀ t, s.tasks[i]? = some t → t.started = false) → i ≤ s.tasks.length →
      Move s (s.begin i key config now)
  | complete {i : Nat} {key : String} {config : HotCacheConfig} {publication : Option Publication}
      {outcome : Outcome α} {now : Int} : s.tasks[i]? = some ⟨key, config, .loading publication⟩ →
      Move s { cache := (System.settle s.cache i key config publication outcome now).endPublication key
                 publication,
               tasks := s.tasks.set i ⟨key, config, .ended true⟩ }

abbrev Moves : System α limit → System α limit → Prop := Relation.ReflTransGen Move

theorem SameStarted.refl (tasks : List Task) : SameStarted tasks tasks := fun _ _ _ => Iff.rfl

theorem sameStarted_set {task' : Task} (hold : tasks[i]? = some task)
    (h : task.started = false) (h' : task'.started = false) : SameStarted tasks (tasks.set i task') := by
  intro j t ht
  by_cases e : i = j
  · subst e
    have hlt : i < tasks.length := (List.getElem?_eq_some_iff.mp hold).1
    rw [List.getElem?_set_self hlt, hold]
    constructor
    · intro heq
      rw [Option.some.inj heq] at h'
      exact absurd ht (by rw [h']; exact Bool.false_ne_true)
    · intro heq
      rw [Option.some.inj heq] at h
      exact absurd ht (by rw [h]; exact Bool.false_ne_true)
  · rw [List.getElem?_set_ne e]

theorem sameStarted_append (h : task.started = false) : SameStarted tasks (tasks ++ [task]) := by
  intro j t ht
  rcases Nat.lt_trichotomy j tasks.length with hj | rfl | hj
  · rw [List.getElem?_append_left hj]
  · rw [List.getElem?_concat_length, List.getElem?_eq_none (le_refl _)]
    constructor
    · intro heq
      rw [Option.some.inj heq] at h
      exact absurd ht (by rw [h]; exact Bool.false_ne_true)
    · intro heq
      cases heq
  · rw [List.getElem?_eq_none (by rw [List.length_append, List.length_singleton]; exact hj),
      List.getElem?_eq_none (Nat.le_of_lt hj)]

section

variable (s : System α limit)

theorem move_look (key : String) (config : HotCacheConfig) (now : Int) : Move s (s.look key config now).1 :=
  .quiet (quiet_peek s.cache key config now) (.refl _)

theorem move_begin_last (key : String) (config : HotCacheConfig) (now : Int) :
    Move s (s.begin s.tasks.length key config now) := by
  refine .begin (fun t ht => ?_) (le_refl _)
  rw [List.getElem?_eq_none (le_refl _)] at ht
  cases ht

theorem move_load (key : String) (config : HotCacheConfig) (now date : Int) :
    Move s (s.load key config now date) := by
  unfold System.load
  cases s.cache.publications key with
  | some pending => exact .quiet (.refl _) (sameStarted_append rfl)
  | none => exact move_begin_last s key config now

theorem moves_revalidate (key : String) (config : HotCacheConfig) (now date : Int)
    (accepted : Bool) : Moves s (s.revalidate key config now date accepted) := by
  unfold System.revalidate
  split
  · exact .single (move_load s key config now date)
  · exact .refl

theorem moves_get (key : String) (config : HotCacheConfig) (now date : Int)
    (accepted : Bool) : Moves s (s.get key config now date accepted) := by
  unfold System.get
  split
  · exact .refl
  · have hlook := Relation.ReflTransGen.single (move_look s key config now)
    split
    · exact hlook
    · exact hlook.trans (moves_revalidate _ key config now date accepted)
    · exact hlook.tail (move_load _ key config now date)

theorem moves_wake (i : Nat) (now date : Int) : Moves s (s.wake i now date) := by
  unfold System.wake
  split
  · rename_i key config pending deadline htask
    split
    · exact .refl
    · have hlook := move_look s key config now
      have hturn : ∀ (s' : System α limit) (phase : Phase), s'.tasks = s.tasks →
          (⟨key, config, phase⟩ : Task).started = false → Move s' (s'.turn i ⟨key, config, phase⟩) :=
        fun s' phase htasks hphase => .quiet (.refl _) (sameStarted_set (htasks ▸ htask) rfl hphase)
      have hagain := Relation.ReflTransGen.tail (.single hlook)
        (move_look (s.look key config now).1 key config now)
      simp only
      split
      · exact .tail (.single hlook) (hturn _ _ rfl rfl)
      · split
        · split
          · exact .tail (.single hlook) (hturn _ _ rfl rfl)
          · exact hagain.tail (hturn _ _ rfl rfl)
        · exact hagain.tail (hturn _ _ rfl rfl)
  · exact .refl

theorem moves_resume (i : Nat) (now : Int) : Moves s (s.resume i now) := by
  unfold System.resume
  split
  · rename_i key config htask
    have hlook := Relation.ReflTransGen.single (move_look s key config now)
    simp only
    split
    · exact hlook.tail (.quiet (.refl _) (sameStarted_set htask rfl rfl))
    · refine hlook.tail (.begin (fun t ht => ?_) (List.getElem?_eq_some_iff.mp htask).1.le)
      cases htask.symm.trans ht
      rfl
  · exact .refl

theorem moves_exec (op : Op α) : Moves s (s.exec op) := by
  cases op with
  | get key config now date accepted => exact moves_get s key config now date accepted
  | load key config now date => exact .single (move_load s key config now date)
  | revalidate key config now date accepted => exact moves_revalidate s key config now date accepted
  | wake i now date => exact moves_wake s i now date
  | resume i now => exact moves_resume s i now
  | complete i outcome now =>
    show Moves s (s.complete i outcome now)
    unfold System.complete
    split
    · rename_i key config publication htask
      exact .single (.complete htask)
    · exact .refl
  | set key value config expiresAt storedAt => exact .single (.quiet (quiet_set _ _ _ _ _ _) (.refl _))
  | delete key | deleteKeys predicate
  | clear => exact .single (.quiet ((quiet_drop _ _).trans (quiet_revoke _ _)) (.refl _))
  | deleteWhere predicate => exact .single (.quiet ((quiet_revoke _ _).trans (quiet_drop _ _)) (.refl _))
  | peek key config now => exact .single (move_look s key config now)

theorem moves_run (ops : List (Op α)) : Moves s (s.run ops) := by
  induction ops generalizing s with
  | nil => exact .refl
  | cons op ops ih => exact (moves_exec s op).trans (ih (s.exec op))

end

/-! ## 3. What holds in every state -/

/-- Rights belong to running loads, each at its own key, and values to loads that have ended. -/
structure Inv (s : System α limit) : Prop where
  rights : ∀ k p, s.cache.publications k = some p → p.id < s.cache.made
  mine : ∀ (i : Nat) (task : Task) p, s.tasks[i]? = some task → task.phase = .loading (some p) →
    p.id < s.cache.made ∧ ∀ k, s.cache.publications k = some p → k = task.key
  values : ∀ k e (i : Nat), s.cache.Holds k e → e.value.origin = some i →
    ∃ task : Task, s.tasks[i]? = some task ∧ task.phase = .ended true ∧ task.key = k

theorem Inv.start (α : Type) (limit : Nat) : Inv (System.start α limit) where
  rights := nofun
  mine := by
    intro i task p h
    cases h
  values := by
    intro k e i h
    cases h

theorem started_loading (h : task.phase = .loading p) : task.started = true := by
  unfold Task.started
  rw [h]

theorem started_ended (h : task.phase = .ended true) : task.started = true := by
  unfold Task.started
  rw [h]

theorem Inv.quiet {s : System α limit} {c : HotCache (Stamped α) limit} (h : Inv s)
    (hc : Quiet s.cache c) (ht : SameStarted s.tasks tasks) : Inv ⟨c, tasks⟩ where
  rights := fun k p hp => by
    rw [hc.made]
    exact h.rights k p (hc.rights k p hp)
  mine := by
    intro i task p htask hphase
    obtain ⟨hid, hkey⟩ := h.mine i task p ((ht i task (started_loading hphase)).mp htask) hphase
    exact ⟨hc.made.symm ▸ hid, fun k hk => hkey k (hc.rights k p hk)⟩
  values := by
    intro k e i he horigin
    rcases hc.entries k e he with he | hnone
    · obtain ⟨task, htask, hphase, hkey⟩ := h.values k e i he horigin
      exact ⟨task, (ht i task (started_ended hphase)).mpr htask, hphase, hkey⟩
    · rw [hnone] at horigin
      cases horigin

theorem begin_tasks {s : System α limit} {key : String} {now : Int} (hi : i ≤ s.tasks.length) (j : Nat) :
    (s.begin i key config now).tasks[j]? =
      if j = i then some ⟨key, config, .loading (s.cache.beginPublication key now).2⟩ else s.tasks[j]? := by
  show (if i < s.tasks.length then _ else _ : List Task)[j]? = _
  by_cases hlt : i < s.tasks.length
  · rw [if_pos hlt]
    by_cases e : j = i
    · subst e
      rw [if_pos rfl, List.getElem?_set_self hlt]
    · rw [if_neg e, List.getElem?_set_ne (Ne.symm e)]
  · have heq : i = s.tasks.length := Nat.le_antisymm hi (Nat.le_of_not_lt hlt)
    rw [if_neg hlt]
    by_cases e : j = i
    · rw [if_pos e, e, heq, List.getElem?_concat_length]
    · rw [if_neg e]
      rcases Nat.lt_or_gt_of_ne (heq ▸ e) with hj | hj
      · rw [List.getElem?_append_left hj]
      · rw [List.getElem?_eq_none (by rw [List.length_append, List.length_singleton]; exact hj),
          List.getElem?_eq_none (Nat.le_of_lt hj)]

theorem begin_rights {V : Type} (c : HotCache V limit) (key : String) (now : Int) :
    (∀ p, (c.beginPublication key now).2 = some p → p.id = c.made ∧
      (c.beginPublication key now).1.made = c.made + 1) ∧ c.made ≤ (c.beginPublication key now).1.made ∧
    ∀ k p, (c.beginPublication key now).1.publications k = some p →
      (k = key ∧ (c.beginPublication key now).2 = some p) ∨ (k ≠ key ∧ c.publications k = some p) := by
  have hrevoked : ∀ k p, (c.revoke fun k => k = key).publications k = some p → k ≠ key ∧
    c.publications k = some p := by
    intro k p h
    unfold HotCache.revoke at h
    simp only [decide_eq_true_eq] at h
    split at h
    · cases h
    · exact ⟨‹_›, h⟩
  unfold HotCache.beginPublication
  simp only
  split
  · exact ⟨(fun p h => by cases h), le_refl _, fun k p h => .inr (hrevoked k p h)⟩
  · refine ⟨fun p hp => ?_, Nat.le_succ _, fun k p h => ?_⟩
    · cases hp
      exact ⟨rfl, rfl⟩
    · simp only at h
      split at h
      · rename_i hk
        cases h
        exact .inl ⟨hk, rfl⟩
      · exact .inr (hrevoked k p h)

theorem holds_begin {V : Type} {c : HotCache V limit} {key : String} {now : Int} {k : String} {e : Entry V} :
    (c.beginPublication key now).1.Holds k e ↔ c.Holds k e := by
  unfold HotCache.beginPublication
  simp only
  split
  · exact Iff.rfl
  · exact Iff.rfl

theorem Inv.begin {s : System α limit} {key : String} {now : Int}
    (h : Inv s) (hnew : ∀ t, s.tasks[i]? = some t → t.started = false) (hi : i ≤ s.tasks.length) :
    Inv (s.begin i key config now) := by
  obtain ⟨hfresh, hmade, hrights⟩ := begin_rights s.cache key now
  refine ⟨fun k p hp => ?_, fun j task p htask hphase => ?_, fun k e j he horigin => ?_⟩
  · rcases hrights k p hp with ⟨-, hp⟩ | ⟨-, hp⟩
    · show p.id < (s.cache.beginPublication key now).1.made
      rw [(hfresh p hp).1, (hfresh p hp).2]
      exact Nat.lt_succ_self _
    · exact lt_of_lt_of_le (h.rights k p hp) hmade
  · rw [begin_tasks hi] at htask
    by_cases e : j = i
    · rw [if_pos e] at htask
      cases htask
      have hp : (s.cache.beginPublication key now).2 = some p := by injection hphase
      refine ⟨?_, fun k hk => ?_⟩
      · show p.id < (s.cache.beginPublication key now).1.made
        rw [(hfresh p hp).1, (hfresh p hp).2]
        exact Nat.lt_succ_self _
      · rcases hrights k p hk with ⟨hkey, -⟩ | ⟨-, hold⟩
        · exact hkey
        · -- an old right is not a fresh one
          have hlt := h.rights k p hold
          rw [(hfresh p hp).1] at hlt
          exact absurd hlt (Nat.lt_irrefl _)
    · rw [if_neg e] at htask
      obtain ⟨hid, hkey⟩ := h.mine j task p htask hphase
      refine ⟨lt_of_lt_of_le hid hmade, fun k hk => ?_⟩
      rcases hrights k p hk with ⟨-, hp⟩ | ⟨-, hold⟩
      · rw [(hfresh p hp).1] at hid
        exact absurd hid (Nat.lt_irrefl _)
      · exact hkey k hold
  · obtain ⟨task, htask, hphase, hkey⟩ := h.values k e j (holds_begin.mp he) horigin
    refine ⟨task, ?_, hphase, hkey⟩
    rw [begin_tasks hi, if_neg fun eq => ?_]
    · exact htask
    · have hnot := hnew task (eq ▸ htask)
      rw [started_ended hphase] at hnot
      cases hnot

structure Ending (c c' : HotCache (Stamped α) limit) (i : Nat) (key : String)
    (publication : Option Publication) : Prop where
  made : c'.made = c.made
  rights : ∀ k p, c'.publications k = some p → c.publications k = some p
  entries : ∀ k e, c'.Holds k e → c.Holds k e ∨
    (k = key ∧ e.value.origin = some i ∧ c.ownsPublication key publication = true)

theorem ending_settle (c : HotCache (Stamped α) limit) (i : Nat) (key : String) (config : HotCacheConfig)
    (publication : Option Publication) (outcome : Outcome α) (now : Int) :
    Ending c (System.settle c i key config publication outcome now) i key publication := by
  cases outcome with
  | failed => exact ⟨rfl, fun _ _ h => h, fun _ _ h => .inl h⟩
  | loaded l =>
    unfold System.settle
    simp only
    split
    · unfold HotCache.publish
      split
      · rename_i howns
        refine ⟨made_store _ _ _ _ _ _, fun k p h => ?_, fun k e h => ?_⟩
        · exact HotCache.publications_store ▸ h
        · rcases HotCache.holds_store h with ⟨hk, rfl⟩ | h
          · exact .inr ⟨hk, rfl, howns⟩
          · exact .inl h
      · exact ⟨rfl, fun _ _ h => h, fun _ _ h => .inl h⟩
    · unfold HotCache.discardPublished
      split
      · exact ⟨rfl, fun _ _ h => h, fun _ _ h => .inl (HotCache.holds_drop.mp h).1⟩
      · exact ⟨rfl, fun _ _ h => h, fun _ _ h => .inl h⟩

theorem quiet_end (c : HotCache (Stamped α) limit) (key : String) (publication : Option Publication) :
    Quiet c (c.endPublication key publication) := by
  unfold HotCache.endPublication
  cases publication with
  | none => exact .refl c
  | some p =>
    simp only
    by_cases howns : c.ownsPublication key (some p) = true
    · simp only [howns, if_true]
      have h := quiet_revoke c fun k => k = key
      exact ⟨h.made, h.rights, h.entries⟩
    · simp only [howns]
      exact ⟨rfl, fun _ _ h => h, fun _ _ h => .inl h⟩

theorem ending_complete (c : HotCache (Stamped α) limit) (i : Nat) (key : String) (config : HotCacheConfig)
    (publication : Option Publication) (outcome : Outcome α) (now : Int) :
    Ending c ((System.settle c i key config publication outcome now).endPublication key publication) i key
      publication := by
  have hsettle := ending_settle c i key config publication outcome now
  have hend := quiet_end (System.settle c i key config publication outcome now) key publication
  refine ⟨hend.made.trans hsettle.made, fun k p h => hsettle.rights k p (hend.rights k p h), fun k e h => ?_⟩
  have hrevoked : (System.settle c i key config publication outcome now).Holds k e := by
    unfold HotCache.endPublication at h
    cases publication with
    | none => exact h
    | some p =>
      simp only at h
      by_cases howns : (System.settle c i key config (some p) outcome now).ownsPublication key (some p) = true
      · simp only [howns, if_true] at h
        exact h
      · simp only [howns] at h
        exact h
  exact hsettle.entries k e hrevoked

theorem ended_tasks {task' : Task} (h : tasks[i]? = some task) (j : Nat) :
    (tasks.set i task')[j]? = if j = i then some task' else tasks[j]? := by
  by_cases e : j = i
  · subst e
    rw [if_pos rfl, List.getElem?_set_self (List.getElem?_eq_some_iff.mp h).1]
  · rw [if_neg e, List.getElem?_set_ne (Ne.symm e)]

theorem Inv.move {s s' : System α limit} (h : Inv s) (hmove : Move s s') : Inv s' := by
  cases hmove with
  | quiet hc ht => exact h.quiet hc ht
  | begin hnew hi => exact h.begin hnew hi
  | @complete i key config publication outcome now htask =>
    have hend := ending_complete s.cache i key config publication outcome now
    refine ⟨fun k p hp => ?_, fun j task p hj hphase => ?_, fun k e j he horigin => ?_⟩
    · rw [hend.made]
      exact h.rights k p (hend.rights k p hp)
    · simp only at hj
      rw [ended_tasks htask] at hj
      split at hj
      · cases hj
        cases hphase
      · obtain ⟨hid, hkey⟩ := h.mine j task p hj hphase
        exact ⟨hend.made.symm ▸ hid, fun k hk => hkey k (hend.rights k p hk)⟩
    · simp only
      rw [ended_tasks htask]
      rcases hend.entries k e he with he | ⟨rfl, hi, -⟩
      · obtain ⟨task, hj, hphase, hkey⟩ := h.values k e j he horigin
        refine ⟨task, ?_, hphase, hkey⟩
        rw [if_neg fun eq => ?_]
        · exact hj
        · rw [eq, htask] at hj
          cases hj
          cases hphase
      · cases hi.symm.trans horigin
        exact ⟨_, if_pos rfl, rfl, rfl⟩

theorem Inv.moves {s s' : System α limit} (h : Inv s) (hmoves : Moves s s') : Inv s' := by
  induction hmoves with
  | refl => exact h
  | tail _ hmove ih => exact ih.move hmove

def Begun (s : System α limit) (i : Nat) : Prop :=
  ∃ task : Task, s.tasks[i]? = some task ∧ task.started = true

theorem Begun.ne {s : System α limit} (h : Begun s i)
    (hnew : ∀ t, s.tasks[j]? = some t → t.started = false) : i ≠ j := by
  rintro rfl
  obtain ⟨task, htask, hstarted⟩ := h
  rw [hnew task htask] at hstarted
  cases hstarted

theorem Begun.move {s s' : System α limit} (h : Begun s i) (hmove : Move s s') : Begun s' i := by
  have hbegun := h
  obtain ⟨task, htask, hstarted⟩ := h
  cases hmove with
  | quiet _ ht => exact ⟨task, (ht i task hstarted).mpr htask, hstarted⟩
  | begin hnew hi =>
    refine ⟨task, ?_, hstarted⟩
    rw [begin_tasks hi, if_neg (hbegun.ne hnew)]
    exact htask
  | @complete j key config publication outcome now hj =>
    unfold Begun
    simp only
    rw [ended_tasks hj]
    split
    · exact ⟨_, rfl, rfl⟩
    · exact ⟨task, htask, hstarted⟩

/-! ## 4. A load that lost its right -/

/-- The loader was called, the load may not publish, and nothing of it is there. -/
structure Fenced (i : Nat) (s : System α limit) : Prop where
  started : Begun s i
  revoked : ∀ (task : Task) p, s.tasks[i]? = some task → task.phase = .loading (some p) →
    ∀ k, s.cache.publications k ≠ some p
  absent : ∀ k e, s.cache.Holds k e → e.value.origin ≠ some i

theorem Fenced.move {s s' : System α limit} (h : Fenced i s) (hinv : Inv s) (hmove : Move s s') :
    Fenced i s' := by
  have hstarted := h.started.move hmove
  cases hmove with
  | quiet hc ht =>
    refine ⟨hstarted, fun task p htask hphase k hk => ?_, fun k e he horigin => ?_⟩
    · exact h.revoked task p ((ht i task (started_loading hphase)).mp htask) hphase k (hc.rights k p hk)
    · rcases hc.entries k e he with he | hnone
      · exact h.absent k e he horigin
      · rw [hnone] at horigin
        cases horigin
  | @begin j key config now hnew hi =>
    obtain ⟨hfresh, -, hrights⟩ := begin_rights s.cache key now
    refine ⟨hstarted, fun task p htask hphase k hk => ?_, fun k e he horigin => ?_⟩
    · rw [begin_tasks hi, if_neg (h.started.ne hnew)] at htask
      rcases hrights k p hk with ⟨-, hp⟩ | ⟨-, hold⟩
      · have hid := (hinv.mine i task p htask hphase).1
        rw [(hfresh p hp).1] at hid
        exact Nat.lt_irrefl _ hid
      · exact h.revoked task p htask hphase k hold
    · exact h.absent k e (holds_begin.mp he) horigin
  | @complete j key config publication outcome now hj =>
    have hend := ending_complete s.cache j key config publication outcome now
    refine ⟨hstarted, fun task p htask hphase k hk => ?_, fun k e he horigin => ?_⟩
    · simp only at htask
      rw [ended_tasks hj] at htask
      split at htask
      · cases htask
        cases hphase
      · exact h.revoked task p htask hphase k (hend.rights k p hk)
    · rcases hend.entries k e he with he | ⟨-, hi, howns⟩
      · exact h.absent k e he horigin
      · -- only a load that owns its publication stores
        cases hi.symm.trans horigin
        obtain ⟨hsome, hown⟩ := Bool.and_eq_true_iff.mp howns
        obtain ⟨p, rfl⟩ := Option.isSome_iff_exists.mp hsome
        exact h.revoked _ p hj rfl key (by simpa using hown)

theorem Fenced.moves {s s' : System α limit} (h : Fenced i s) (hinv : Inv s) (hmoves : Moves s s') :
    Fenced i s' := by
  have hboth : Inv s' ∧ Fenced i s' := by
    induction hmoves with
    | refl => exact ⟨hinv, h⟩
    | tail _ hmove ih => exact ⟨ih.1.move hmove, ih.2.move ih.1 hmove⟩
  exact hboth.2

/-! ## 5. Invalidations -/

/-- The operation invalidates what a load brought or is going to bring. `deleteWhere` asks the values
that are there, and takes the right of every load that is running. -/
def Invalidates (op : Op α) (s : System α limit) (i : Nat) (task : Task) : Prop :=
  match op with
  | .delete key => key = task.key
  | .deleteKeys predicate => predicate task.key = true
  | .clear => True
  | .deleteWhere predicate => task.phase ≠ .ended true ∨
      ∀ e, s.cache.Holds task.key e → e.value.origin = some i → predicate task.key e.value.value = true
  | _ => False

theorem Inv.at_key {s : System α limit} (h : Inv s) {k : String}
    {e : Entry (Stamped α)} (htask : s.tasks[i]? = some task) (he : s.cache.Holds k e)
    (horigin : e.value.origin = some i) : k = task.key ∧ task.phase = .ended true := by
  obtain ⟨task', htask', hphase, hkey⟩ := h.values k e i he horigin
  cases htask.symm.trans htask'
  exact ⟨hkey.symm, hphase⟩

theorem Inv.revoked {s : System α limit} (h : Inv s) {c : HotCache (Stamped α) limit}
    (htask : s.tasks[i]? = some task)
    (hc : ∀ k p, c.publications k = some p → s.cache.publications k = some p ∧ k ≠ task.key)
    (task' : Task) (p : Publication) (htask' : s.tasks[i]? = some task')
    (hphase : task'.phase = .loading (some p)) (k : String) : c.publications k ≠ some p := by
  intro hk
  cases htask.symm.trans htask'
  obtain ⟨hold, hne⟩ := hc k p hk
  exact hne ((h.mine i task p htask hphase).2 k hold)

theorem revoke_some {V : Type} {c : HotCache V limit} {q : String → Bool} {k : String} {p : Publication}
    (h : (c.revoke q).publications k = some p) : c.publications k = some p ∧ q k = false := by
  unfold HotCache.revoke at h
  simp only at h
  split at h
  · cases h
  · rename_i hq
    exact ⟨h, by simpa using hq⟩

theorem fenced_of_invalidates {s : System α limit} (h : Inv s) {op : Op α}
    (htask : s.tasks[i]? = some task) (hstarted : task.started = true) (hop : Invalidates op s i task) :
    Fenced i (s.exec op) := by
  cases op with
  | delete key =>
    cases hop
    refine ⟨⟨task, htask, hstarted⟩, h.revoked htask fun k p hk => ?_, fun k e he horigin => ?_⟩
    · obtain ⟨hold, hne⟩ := revoke_some (c := s.cache.drop _) hk
      exact ⟨hold, by simpa using hne⟩
    · obtain ⟨he, hne⟩ := HotCache.holds_drop.mp (HotCache.holds_revoke.mp he)
      rw [(h.at_key htask he horigin).1] at hne
      simp at hne
  | deleteKeys predicate =>
    have hop : predicate task.key = true := hop
    refine ⟨⟨task, htask, hstarted⟩, h.revoked htask fun k p hk => ?_, fun k e he horigin => ?_⟩
    · obtain ⟨hold, hne⟩ := revoke_some (c := s.cache.drop _) hk
      refine ⟨hold, ?_⟩
      rintro rfl
      rw [hop] at hne
      cases hne
    · obtain ⟨he, hne⟩ := HotCache.holds_drop.mp (HotCache.holds_revoke.mp he)
      rw [(h.at_key htask he horigin).1, hop] at hne
      cases hne
  | clear =>
    refine ⟨⟨task, htask, hstarted⟩, h.revoked htask fun k p hk => ?_, fun k e he horigin => ?_⟩
    · obtain ⟨-, hne⟩ := revoke_some (c := s.cache.drop _) hk
      cases hne
    · obtain ⟨-, hne⟩ := HotCache.holds_drop.mp (HotCache.holds_revoke.mp he)
      cases hne
  | deleteWhere predicate =>
    refine ⟨⟨task, htask, hstarted⟩, h.revoked htask fun k p hk => ?_, fun k e he horigin => ?_⟩
    · obtain ⟨-, hne⟩ := @revoke_some limit _ s.cache (fun _ => true) k p hk
      cases hne
    · obtain ⟨he, hne⟩ := HotCache.holds_drop.mp he
      have he : s.cache.Holds k e := he
      obtain ⟨rfl, hphase⟩ := h.at_key htask he horigin
      rcases hop with hop | hop
      · exact hop hphase
      · exact Bool.false_ne_true (hne.symm.trans (hop e he horigin))
  | get | load | revalidate | wake | resume | complete | set | peek => exact absurd hop id

theorem fenced_of_begin {s : System α limit} (h : Inv s)
    {now : Int} (htask : s.tasks[i]? = some task) (hphase : task.phase = .loading p)
    (hne : i ≠ j) (hj : j ≤ s.tasks.length) : Fenced i (s.begin j task.key config now) := by
  obtain ⟨hfresh, -, hrights⟩ := begin_rights s.cache task.key now
  have hsame : ∀ t, (s.begin j task.key config now).tasks[i]? = some t ↔ s.tasks[i]? = some t := by
    intro t
    rw [begin_tasks hj, if_neg hne]
  refine ⟨⟨task, (hsame task).mpr htask, started_loading hphase⟩, fun task' q htask' hphase' k hk => ?_,
    fun k e he horigin => ?_⟩
  · obtain ⟨hid, hkey⟩ := h.mine i task' q ((hsame task').mp htask') hphase'
    cases htask.symm.trans ((hsame task').mp htask')
    rcases hrights k q hk with ⟨-, hq⟩ | ⟨hk', hold⟩
    · rw [(hfresh q hq).1] at hid
      exact Nat.lt_irrefl _ hid
    · exact hk' (hkey k hold)
  · obtain ⟨-, hended⟩ := h.at_key htask (holds_begin.mp he) horigin
    rw [hphase] at hended
    cases hended

theorem fenced_of_newer {s s' : System α limit} (h : Inv s) {ti : Task}
    (hi : s.tasks[i]? = some ti) (hphase : ti.phase = .loading p)
    (hj : ∀ t, s.tasks[j]? = some t → t.started = false) (hmoves : Moves s s') :
    ∀ tj, s'.tasks[j]? = some tj → tj.started = true → tj.key = ti.key → s'.tasks[i]? = some ti →
      Fenced i s' := by
  have hbegun : Begun s i := ⟨ti, hi, started_loading hphase⟩
  have hne : i ≠ j := hbegun.ne hj
  have hall : Inv s' ∧ Begun s' i ∧ ∀ tj, s'.tasks[j]? = some tj → tj.started = true → tj.key = ti.key →
      s'.tasks[i]? = some ti → Fenced i s' := by
    induction hmoves with
    | refl =>
      refine ⟨h, hbegun, fun tj htj hstarted => ?_⟩
      rw [hj tj htj] at hstarted
      cases hstarted
    | @tail s₁ s₂ _ hmove ih =>
      obtain ⟨hinv, hbegun, ih⟩ := ih
      refine ⟨hinv.move hmove, hbegun.move hmove, fun tj htj hstarted hkey hti => ?_⟩
      -- unless the newer load begins with this move, it had begun before
      cases hmove with
      | quiet hc ht =>
        exact (ih tj ((ht j tj hstarted).mp htj) hstarted hkey
          ((ht i ti (started_loading hphase)).mp hti)).move hinv (.quiet hc ht)
      | @begin l key config now hnew hl =>
        rw [begin_tasks hl, if_neg (hbegun.ne hnew)] at hti
        rw [begin_tasks hl] at htj
        by_cases e : j = l
        · rw [if_pos e] at htj
          cases htj
          have hkey : key = ti.key := hkey
          rw [hkey]
          exact fenced_of_begin hinv hti hphase (e ▸ hne) hl
        · rw [if_neg e] at htj
          exact (ih tj htj hstarted hkey hti).move hinv (.begin hnew hl)
      | @complete l key config publication outcome now hl =>
        simp only at hti htj
        rw [ended_tasks hl] at hti htj
        split at hti
        · cases hti
          cases hphase
        · split at htj
          · rename_i e
            cases htj
            exact (ih ⟨key, config, .loading publication⟩ (e ▸ hl) rfl hkey hti).move hinv (.complete hl)
          · exact (ih tj htj hstarted hkey hti).move hinv (.complete hl)
  exact hall.2.2

/-! ## 6. Runs -/

/-- Nothing a load brought is in the cache, and no reader is given it. -/
def NotServed (i : Nat) (s : System α limit) : Prop :=
  (∀ k e, s.cache.Holds k e → e.value.origin ≠ some i) ∧
    ∀ key config now e fresh, (s.cache.peek key config now).2 = some (e, fresh) → e.value.origin ≠ some i

theorem Fenced.notServed {s : System α limit} (h : Fenced i s) : NotServed i s :=
  ⟨h.absent, fun key _ _ e _ hpeek => h.absent key e (HotCache.peek_some hpeek).1⟩

/-- **No stale publication.** After any operations: an invalidation of a key (`delete`, `clear`, a matching
`deleteKeys`) makes sure that nothing is stored or served from then on that was loaded before it or is
being loaded, and so does `deleteWhere` for loads that are running and values that match; a load that
begins does the same to an older one of its key that is running; what a reader is given has not expired,
is younger than the maximal age and was not stored in the future; and the entries and the live
publications stay within the limit. -/
theorem publications_fenced (α : Type) (limit : Nat) :
    (∀ (before : List (Op α)) (op : Op α) (after : List (Op α)) (i : Nat) (task : Task),
      let s := (System.start α limit).run before
      s.tasks[i]? = some task → task.started = true → Invalidates op s i task →
        NotServed i ((s.exec op).run after)) ∧
    (∀ (before between after : List (Op α)) (i j : Nat) (ti tj : Task) (p : Option Publication),
      let s := (System.start α limit).run before
      s.tasks[i]? = some ti → ti.phase = .loading p → (∀ t : Task, s.tasks[j]? = some t → t.started = false) →
      (s.run between).tasks[i]? = some ti → (s.run between).tasks[j]? = some tj → tj.started = true →
      tj.key = ti.key → NotServed i ((s.run between).run after)) ∧
    (∀ (ops : List (Op α)) (key : String) (config : HotCacheConfig) (now : Int) (e : Entry (Stamped α)) (fresh : Bool),
      (((System.start α limit).run ops).cache.peek key config now).2 = some (e, fresh) →
        (∀ at_ ∈ e.expiresAt, now < at_) ∧ now - e.storedAt < config.maxAgeMs ∧ e.storedAt ≤ now) ∧
    ∀ ops : List (Op α), ((System.start α limit).run ops).cache.entries.rows.length ≤ limit ∧
      ((System.start α limit).run ops).cache.livePublications.card ≤ limit := by
  have hinv : ∀ ops : List (Op α), Inv ((System.start α limit).run ops) := fun ops =>
    (Inv.start α limit).moves (moves_run _ ops)
  refine ⟨?_, ?_, ?_, ?_⟩
  · intro before op after i task s htask hstarted hop
    have hfenced := fenced_of_invalidates (hinv before) htask hstarted hop
    have hafter := (hinv before).moves (moves_exec _ op)
    exact (hfenced.moves hafter (moves_run _ after)).notServed
  · intro before between after i j ti tj p s hi hphase hj hi' hj' hstarted hkey
    have hfenced := fenced_of_newer (hinv before) hi hphase hj (moves_run _ between) tj hj' hstarted hkey hi'
    have hafter := (hinv before).moves (moves_run _ between)
    exact (hfenced.moves hafter (moves_run _ after)).notServed
  · intro ops key config now e fresh hpeek
    exact (HotCache.peek_some hpeek).2
  · intro ops
    exact ⟨HotCache.size_le _, HotCache.live_le _⟩

end Proofs

/-! ## 7. One load -/

def sampleConfig : HotCacheConfig := ⟨60000, 10000⟩

def sampleLoad : List (Op Nat) := [.load "k" sampleConfig 1 1, .complete 0 (.loaded ⟨7, true, none, none⟩) 2]

/-- The value and where it came from, as a reader is given it. -/
def sampleRead (s : System Nat 4) : Option (Stamped Nat) :=
  (s.cache.peek "k" sampleConfig 3).2.map fun r => r.1.value

/-- A load that is running when its key is deleted brings nothing, one that begins afterwards does. -/
theorem publications_fenced_delete :
    NotServed 0 (((System.start Nat 4).run [.load "k" sampleConfig 1 1]).exec (.delete "k") |>.run
      [.load "k" sampleConfig 1 1, .complete 0 (.loaded ⟨7, true, none, none⟩) 2,
        .complete 1 (.loaded ⟨8, true, none, none⟩) 2]) ∧
    sampleRead (((System.start Nat 4).run [.load "k" sampleConfig 1 1]).exec (.delete "k") |>.run
      [.load "k" sampleConfig 1 1, .complete 0 (.loaded ⟨7, true, none, none⟩) 2,
        .complete 1 (.loaded ⟨8, true, none, none⟩) 2]) = some ⟨8, some 1⟩ :=
  ⟨(publications_fenced Nat 4).1 [.load "k" sampleConfig 1 1] (.delete "k") _ 0 _ rfl rfl rfl, by
    decide +kernel⟩

/-- **`deleteWhere` keeps what it does not match**: a value that was loaded and stored before is served
after it. -/
theorem deleteWhere_keeps :
    ∃ task : Task, ((System.start Nat 4).run sampleLoad).tasks[0]? = some task ∧ task.started = true ∧
      sampleRead (((System.start Nat 4).run sampleLoad).exec (.deleteWhere fun _ _ => false)) = some
        ⟨7, some 0⟩ :=
  ⟨_, rfl, rfl, by decide +kernel⟩

end ClawRouter.Cache
