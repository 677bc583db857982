/-
  Subject:   The caches of an isolate (src/worker/hot-cache.ts).

  A cache holds values under keys, and who is loading which key. The load of a key that began last owns
  the right to publish under it; whatever invalidates the key takes that right away. A load keeps its
  place among the live publications until it has ended, owner or not.

  * **`peek_some`**: what a reader is given.
-/
import ClawRouter.Lib.Keyed
import Mathlib.Data.Finset.Card

namespace ClawRouter.Cache

open Keyed

/-! ## 1. Data -/

/-- An entry that never expires has no `expiresAt`. -/
structure Entry (V : Type) where
  value : V
  storedAt : Int
  expiresAt : Option Int
  deriving DecidableEq

/-- `CachePublication`; the number is the identity of the object. -/
structure Publication where
  id : Nat
  acquiredAt : Int
  deriving DecidableEq

/-- How long an entry may be used, and is fresh. -/
structure HotCacheConfig where
  maxAgeMs : Nat
  freshMs : Nat
  deriving DecidableEq

/-- `HotCache`. The rows of `entries` are the map from its last entry to its first. `made` counts the
    publications there have been, and `issuedWatermark` is the variable of the module. -/
structure HotCache (V : Type) (limit : Nat) where
  entries : Table fun e : String × Entry V => e.1
  publications : String → Option Publication
  livePublications : Finset Publication
  made : Nat
  issuedWatermark : Int
  size_le : entries.rows.length ≤ limit
  live_le : livePublications.card ≤ limit

namespace HotCache

variable {V : Type} {limit : Nat}

def new (V : Type) (limit : Nat) : HotCache V limit :=
  ⟨Table.empty, fun _ => none, ∅, 0, 0, Nat.zero_le _, Nat.zero_le _⟩

/-! ## 2. Entries -/

theorem length_delete_le {ρ κ : Type} {key : ρ → κ} (T : Table key) (p : ρ → Bool) :
    (T.delete p).rows.length ≤ T.rows.length := List.length_filter_le _ _

def drop (c : HotCache V limit) (p : String → Entry V → Bool) : HotCache V limit :=
  { c with entries := c.entries.delete fun e => p e.1 e.2, size_le := (length_delete_le _ _).trans c.size_le }

/-- The last so many rows, of which there is none too many. -/
def newest {ρ κ : Type} {key : ρ → κ} (T : Table key) (n : Nat) : Table key where
  rows :=
  T.rows.take n
  nodup := T.nodup.sublist ((List.take_sublist n T.rows).map key)

/-- `entries.set` and the loop that evicts the oldest ones. -/
def put (c : HotCache V limit) (key : String) (entry : Entry V) : HotCache V limit :=
  { c with entries := newest ((c.entries.delete fun e => e.1 = key).insert (key, entry)) limit,
           size_le := List.length_take_le _ _ }

/-- The rights to publish under keys that meet `p` are taken away. -/
def revoke (c : HotCache V limit) (p : String → Bool) : HotCache V limit :=
  { c with publications := fun k => if p k then none else c.publications k }

def entry? (c : HotCache V limit) (key : String) : Option (Entry V) := (c.entries.find? key).map (·.2)

/-- An entry may be served at a reading of the clock. -/
def usable (config : HotCacheConfig) (now : Int) (e : Entry V) : Bool :=
  !(e.expiresAt.any (· ≤ now) || config.maxAgeMs ≤ now - e.storedAt || now < e.storedAt)

/-- `peek`: a usable entry, which becomes the last one; the caller sees its value and whether it is
    fresh. -/
def peek (c : HotCache V limit) (key : String) (config : HotCacheConfig) (now : Int) :
    HotCache V limit × Option (Entry V × Bool) :=
  if config.maxAgeMs = 0 then (c, none)
  else match c.entry? key with
    | none => (c, none)
    | some e =>
      if usable config now e then (c.put key e, some (e, now - e.storedAt < config.freshMs))
      else (c.drop fun k _ => k = key, none)

def store (c : HotCache V limit) (key : String) (value : V) (config : HotCacheConfig)
    (expiresAt : Option Int) (storedAt : Int) : HotCache V limit :=
  if config.maxAgeMs = 0 then c
  else if expiresAt.any (· ≤ storedAt) then c.drop fun k _ => k = key
  else { c.put key ⟨value, storedAt, expiresAt⟩ with issuedWatermark := max c.issuedWatermark storedAt }

/-! ## 3. Callers -/

def set (c : HotCache V limit) (key : String) (value : V) (config : HotCacheConfig)
    (expiresAt : Option Int) (storedAt : Int) : HotCache V limit :=
  (c.revoke fun k => k = key).store key value config expiresAt storedAt

def delete (c : HotCache V limit) (key : String) : HotCache V limit :=
  (c.drop fun k _ => k = key).revoke fun k => k = key

def deleteKeys (c : HotCache V limit) (predicate : String → Bool) : HotCache V limit :=
  (c.drop fun k _ => predicate k).revoke predicate

def deleteWhere (c : HotCache V limit) (predicate : String → V → Bool) : HotCache V limit :=
  (c.revoke fun _ => true).drop fun k e => predicate k e.value

def clear (c : HotCache V limit) : HotCache V limit := (c.drop fun _ _ => true).revoke fun _ => true

/-! ## 4. Loads -/

def ownsPublication (c : HotCache V limit) (key : String) (publication : Option Publication) : Bool :=
  publication.isSome && c.publications key = publication

/-- `beginPublication`; there is none where the limit of live ones is reached. -/
def beginPublication (c : HotCache V limit) (key : String) (now : Int) :
    HotCache V limit × Option Publication :=
  let c := c.revoke fun k => k = key
  if h : limit ≤ c.livePublications.card then (c, none)
  else
    let publication : Publication := ⟨c.made, now⟩
    ({ c with publications := fun k => if k = key then some publication else c.publications k,
              livePublications := insert publication c.livePublications,
              made := c.made + 1,
              issuedWatermark := max c.issuedWatermark now,
              live_le := (Finset.card_insert_le _ _).trans (Nat.lt_of_not_le h) },
      some publication)

def endPublication (c : HotCache V limit) (key : String) (publication : Option Publication) :
    HotCache V limit :=
  match publication with
  | none => c
  | some p =>
    let c' := if c.ownsPublication key publication then c.revoke fun k => k = key else c
    { c' with livePublications := c'.livePublications.erase p,
              live_le := (Finset.card_le_card (Finset.erase_subset _ _)).trans c'.live_le }

def publish (c : HotCache V limit) (key : String) (publication : Option Publication) (value : V)
    (config : HotCacheConfig) (expiresAt : Option Int) (storedAt : Int) : HotCache V limit :=
  if c.ownsPublication key publication then c.store key value config expiresAt storedAt else c

def discardPublished (c : HotCache V limit) (key : String) (publication : Option Publication) :
    HotCache V limit :=
  if c.ownsPublication key publication then c.drop fun k _ => k = key else c

/-! ## 5. What the entries are after each -/

abbrev Holds (c : HotCache V limit) (key : String) (e : Entry V) : Prop := (key, e) ∈ c.entries.rows

theorem mem_newest {ρ κ : Type} {key : ρ → κ} {T : Table key} {n : Nat} {r : ρ}
    (h : r ∈ (newest T n).rows) : r ∈ T.rows := List.mem_of_mem_take h

variable {c : HotCache V limit} {key k : String} {e : Entry V} {config : HotCacheConfig}

@[simp] theorem holds_revoke {p : String → Bool} : (c.revoke p).Holds k e ↔ c.Holds k e := Iff.rfl

@[simp] theorem holds_drop {p : String → Entry V → Bool} :
    (c.drop p).Holds k e ↔ c.Holds k e ∧ p k e = false := Table.mem_delete

theorem holds_put {e' : Entry V} (h : (c.put key e').Holds k e) :
    (k = key ∧ e = e') ∨ (k ≠ key ∧ c.Holds k e) := by
  have hnone : (c.entries.delete fun x => x.1 = key).find? key = none := by
    rw [Table.find?_delete]
    cases hfind : c.entries.find? key with
    | none => rfl
    | some r =>
      have hkey : r.1 = key := (Table.find?_eq_some.mp hfind).2
      simp [hkey]
  rcases (Table.mem_insert hnone).mp (mem_newest h) with heq | hmem
  · cases heq
    exact .inl ⟨rfl, rfl⟩
  · obtain ⟨hmem, hne⟩ := Table.mem_delete.mp hmem
    exact .inr ⟨by simpa using hne, hmem⟩

theorem entry?_some (h : c.entry? key = some e) : c.Holds key e := by
  obtain ⟨r, hr, rfl⟩ := Option.map_eq_some_iff.mp h
  obtain ⟨hmem, rfl⟩ := Table.find?_eq_some.mp hr
  exact hmem

theorem usable_iff {now : Int} : usable config now e = true ↔
    (∀ at_ ∈ e.expiresAt, now < at_) ∧ now - e.storedAt < config.maxAgeMs ∧ e.storedAt ≤ now := by
  unfold usable
  cases e.expiresAt with
  | none => simp
  | some at_ => simp; omega

/-- **What a reader is given** is an entry of the key that has not expired, is younger than the maximal
age, and was not stored in the future. -/
theorem peek_some {now : Int} {fresh : Bool} (h : (c.peek key config now).2 = some (e, fresh)) :
    c.Holds key e ∧ (∀ at_ ∈ e.expiresAt, now < at_) ∧ now - e.storedAt < config.maxAgeMs ∧
      e.storedAt ≤ now := by
  unfold peek at h
  split at h
  · cases h
  · cases hentry : c.entry? key with
    | none =>
      rw [hentry] at h
      cases h
    | some e' =>
      rw [hentry] at h
      by_cases huse : usable config now e' = true
      · simp only [huse, if_true] at h
        cases h
        exact ⟨entry?_some hentry, usable_iff.mp huse⟩
      · simp only [huse] at h
        cases h

theorem holds_peek {now : Int} (h : (c.peek key config now).1.Holds k e) : c.Holds k e := by
  unfold peek at h
  split at h
  · exact h
  · cases hentry : c.entry? key with
    | none =>
      rw [hentry] at h
      exact h
    | some e' =>
      rw [hentry] at h
      by_cases huse : usable config now e' = true
      · simp only [huse, if_true] at h
        rcases holds_put h with ⟨rfl, rfl⟩ | ⟨-, h⟩
        · exact entry?_some hentry
        · exact h
      · simp only [huse] at h
        exact (holds_drop.mp h).1

theorem publications_peek {now : Int} : (c.peek key config now).1.publications = c.publications := by
  unfold peek
  split
  · rfl
  · cases c.entry? key with
    | none => rfl
    | some e =>
      by_cases huse : usable config now e = true
      · simp only [huse, if_true]
        rfl
      · simp only [huse]
        rfl

theorem holds_store {value : V} {expiresAt : Option Int} {storedAt : Int}
    (h : (c.store key value config expiresAt storedAt).Holds k e) :
    (k = key ∧ e = ⟨value, storedAt, expiresAt⟩) ∨ c.Holds k e := by
  unfold store at h
  split at h
  · exact .inr h
  · split at h
    · exact .inr (holds_drop.mp h).1
    · rcases holds_put (c := c) h with h | ⟨-, h⟩
      · exact .inl h
      · exact .inr h

theorem publications_store {value : V} {expiresAt : Option Int} {storedAt : Int} :
    (c.store key value config expiresAt storedAt).publications = c.publications := by
  unfold store
  split
  · rfl
  · split <;> rfl

end HotCache

end ClawRouter.Cache
