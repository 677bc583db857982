/-
  Subject:   A list in strict order that is kept in parts and read a page at a time.

  Each part answers with its first rows after a place, the answers are merged and cut, and the last
  row of a page is the place the next one starts after.

  * **`follow_exact`**: it ends, and has read every row once and in order.
-/
import Mathlib.Data.List.Sort

namespace Keyset

universe u v w

/-! ## 1. Strict orders of rows -/

section Order

variable {α : Type u} {before : α → α → Bool}

/-- Some rows come before others, and none before itself. -/
structure Strict (before : α → α → Bool) : Prop where
  irrefl : ∀ a, before a a = false
  trans : ∀ a b c, before a b = true → before b c = true → before a c = true

def Ordered (before : α → α → Bool) (rows : List α) : Prop := rows.Pairwise fun a b => before a b = true

variable {rows rows' : List α}

theorem Strict.asymm (h : Strict before) {a b : α} (hab : before a b = true) : before b a = false := by
  by_contra hba
  have haa := h.trans a b a hab ((Bool.not_eq_false _).mp hba)
  rw [h.irrefl a] at haa
  cases haa

theorem Ordered.nodup (h : Strict before) (hrows : Ordered before rows) : rows.Nodup := by
  refine hrows.imp fun {a b} hab => ?_
  rintro rfl
  rw [h.irrefl a] at hab
  cases hab

theorem Ordered.eq_of_perm (h : Strict before) (hrows : Ordered before rows)
    (hrows' : Ordered before rows') (hperm : rows.Perm rows') : rows = rows' := by
  refine List.Perm.eq_of_pairwise (fun a b _ _ hab hba => ?_) hrows hrows' hperm
  rw [h.asymm hab] at hba
  cases hba

theorem filter_after (h : Strict before) {pre post : List α} {p : α}
    (hrows : Ordered before (pre ++ p :: post)) :
    (pre ++ p :: post).filter (before p) = post := by
  obtain ⟨-, hpost, hcross⟩ := List.pairwise_append.mp hrows
  have hpre : pre.filter (before p) = [] := by
    rw [List.filter_eq_nil_iff]
    intro a ha
    rw [h.asymm (hcross a ha p List.mem_cons_self)]
    exact Bool.false_ne_true
  rw [List.filter_append, hpre, List.nil_append, List.filter_cons_of_neg
    (by rw [h.irrefl p]; exact Bool.false_ne_true)]
  exact List.filter_eq_self.mpr (List.pairwise_cons.mp hpost).1

end Order

/-! ## 2. Parts -/

section Parts

variable {α : Type u} [DecidableEq α] {before : α → α → Bool} {parts : List (List α)}
  {rows merged : List α} {n : Nat}

theorem mem_take_of_part (h : Strict before) (hrows : Ordered before rows) {part : List α}
    (hpart : Ordered before part) (hsub : ∀ a ∈ part, a ∈ rows) {a : α} (ha : a ∈ part)
    (hfirst : a ∈ rows.take n) : a ∈ part.take n := by
  by_contra hno
  have hdrop : a ∈ part.drop n := by
    rw [← List.take_append_drop n part] at ha
    exact (List.mem_append.mp ha).resolve_left hno
  have hfull : (part.take n).length = n := by
    have hpos := List.length_pos_of_mem hdrop
    rw [List.length_drop] at hpos
    rw [List.length_take]
    omega
  -- all of the part before `a` is before it in the whole, and so among the first rows
  have hbefore : ∀ b ∈ part.take n, b ∈ (rows.take n).erase a := by
    intro b hb
    have hpart' := hpart
    unfold Ordered at hpart'
    rw [← List.take_append_drop n part, List.pairwise_append] at hpart'
    have hba : before b a = true := hpart'.2.2 b hb a hdrop
    have hne : b ≠ a := by
      rintro rfl
      rw [h.irrefl b] at hba
      cases hba
    rw [List.Nodup.mem_erase_iff ((hrows.nodup h).sublist (List.take_sublist n rows))]
    refine ⟨hne, ?_⟩
    have hmem := hsub b (List.mem_of_mem_take hb)
    rw [← List.take_append_drop n rows] at hmem
    refine (List.mem_append.mp hmem).resolve_right fun hlate => ?_
    have hrows' := hrows
    unfold Ordered at hrows'
    rw [← List.take_append_drop n rows, List.pairwise_append] at hrows'
    have hab := hrows'.2.2 a hfirst b hlate
    rw [h.asymm hba] at hab
    cases hab
  have hnodup := (hpart.nodup h).sublist (List.take_sublist n part)
  have hle := (List.subperm_of_subset hnodup hbefore).length_le
  rw [hfull, List.length_erase_of_mem hfirst, List.length_take] at hle
  have hpos := List.length_pos_of_mem hfirst
  rw [List.length_take] at hpos
  omega

theorem merged_eq_filter (h : Strict before) (hrows : Ordered before rows)
    (hmem : ∀ a, a ∈ rows ↔ ∃ part ∈ parts, a ∈ part) (hmerged : Ordered before merged)
    (hmmem : ∀ a, a ∈ merged ↔ ∃ part ∈ parts, a ∈ part.take n) :
    merged = rows.filter fun a => a ∈ merged := by
  have hfilter : Ordered before (rows.filter fun a => a ∈ merged) :=
    List.Pairwise.sublist List.filter_sublist hrows
  refine hmerged.eq_of_perm h hfilter ?_
  refine (List.perm_ext_iff_of_nodup (hmerged.nodup h) (hfilter.nodup h)).mpr fun a => ?_
  rw [List.mem_filter, decide_eq_true_eq]
  refine ⟨fun ha => ⟨?_, ha⟩, fun ha => ha.2⟩
  obtain ⟨part, hpart, ha⟩ := (hmmem a).mp ha
  exact (hmem a).mpr ⟨part, hpart, List.mem_of_mem_take ha⟩

/-- **Cutting the parts before the merge**: the first rows are those of the whole, and there are as
    many. Parts may share rows. -/
theorem take_merge (h : Strict before) (hparts : ∀ part ∈ parts, Ordered before part)
    (hrows : Ordered before rows) (hmem : ∀ a, a ∈ rows ↔ ∃ part ∈ parts, a ∈ part)
      (hmerged : Ordered before merged)
    (hmmem : ∀ a, a ∈ merged ↔ ∃ part ∈ parts, a ∈ part.take n) :
    merged.take n = rows.take n ∧ (n ≤ merged.length ↔ n ≤ rows.length) := by
  have hfirst : ∀ a ∈ rows.take n, a ∈ merged := by
    intro a ha
    obtain ⟨part, hpart, hapart⟩ := (hmem a).mp (List.mem_of_mem_take ha)
    refine (hmmem a).mpr ⟨part, hpart, ?_⟩
    exact mem_take_of_part h hrows (hparts part hpart) (fun b hb => (hmem b).mpr ⟨part, hpart, hb⟩) hapart ha
  have hsplit : merged = rows.take n ++ (rows.drop n).filter fun a => a ∈ merged := by
    conv => lhs; rw [merged_eq_filter h hrows hmem hmerged hmmem]
    conv => lhs; rw [← List.take_append_drop n rows]
    rw [List.filter_append]
    refine congrArg (· ++ _) (List.filter_eq_self.mpr fun a ha => ?_)
    exact decide_eq_true (hfirst a ha)
  have hlength : (rows.take n).length = min n rows.length := List.length_take
  by_cases hn : n ≤ rows.length
  · have hn' : (rows.take n).length = n := by omega
    constructor
    · conv => lhs; rw [hsplit]
      exact List.take_left' hn'
    · rw [hsplit, List.length_append, hn']
      exact ⟨fun _ => hn, fun _ => Nat.le_add_right n _⟩
  · have hdrop : rows.drop n = [] := List.drop_eq_nil_of_le (by omega)
    have hall : rows.take n = rows := List.take_of_length_le (by omega)
    have hmerged' : merged = rows := by
      conv => lhs; rw [hsplit]
      rw [hdrop, List.filter_nil, List.append_nil, hall]
    rw [hmerged']
    exact ⟨rfl, Iff.rfl⟩

end Parts

/-! ## 3. Reading page after page -/

section Pages

variable {α : Type u} {β : Type v} {τ π ε : Type w}

/-- A reader asks for the first page, and then for the one after each place it is given. The pages
    are numbered by the requests for them. -/
inductive Follow (get : Nat → Option τ → Except ε π) (next : π → Option τ) :
    Nat → Option τ → List π → Prop
  | last {i : Nat} {place : Option τ} {page : π} : get i place = .ok page → next page = none →
      Follow get next i place [page]
  | next {i : Nat} {place : Option τ} {page : π} {place' : τ} {pages : List π} :
      get i place = .ok page → next page = some place' →
      Follow get next (i + 1) (some place') pages → Follow get next i place (page :: pages)

variable {get : Nat → Option τ → Except ε π} {next : π → Option τ}

theorem Follow.unique {i : Nat} {place : Option τ} {pages pages' : List π}
    (h : Follow get next i place pages) (h' : Follow get next i place pages') : pages = pages' := by
  induction h generalizing pages' with
  | last hget hnext =>
    cases h' with
    | last hget' hnext' =>
      cases hget.symm.trans hget'
      rfl
    | next hget' hnext' =>
      cases hget.symm.trans hget'
      cases hnext.symm.trans hnext'
  | next hget hnext hrest ih =>
    cases h' with
    | last hget' hnext' =>
      cases hget.symm.trans hget'
      cases hnext.symm.trans hnext'
    | next hget' hnext' hrest' =>
      cases hget.symm.trans hget'
      cases hnext.symm.trans hnext'
      rw [ih hrest']

/-- The rows of a page, of what is left of the list, and whether it names a next place. -/
structure Serves (read : π → List β) (next : π → Option τ) (view : α → β) (token : α → τ) (n : Nat)
    (rest : List α) (page : π) : Prop where
  rows : read page = (rest.take n).map view
  next : next page = if n < rest.length then (rest.take n).getLast?.map token else none

variable {read : π → List β} {view : α → β} {token : α → τ} {n : Nat} {rows : List α}

theorem Serves.next_eq_none {rest : List α} {page : π} (h : Serves read next view token n rest page)
    (hn : 0 < n) :
    next page = none ↔ rest.length ≤ n := by
  rw [h.next]
  by_cases hlength : n < rest.length
  · rw [if_pos hlength]
    constructor
    · intro hnone
      rw [Option.map_eq_none_iff, List.getLast?_eq_none_iff, List.take_eq_nil_iff] at hnone
      rcases hnone with h0 | hnil
      · omega
      · rw [hnil] at hlength
        exact absurd hlength (Nat.not_lt_zero n)
    · intro hle
      omega
  · rw [if_neg hlength]
    exact ⟨fun _ => by omega, fun _ => rfl⟩

theorem Serves.next_eq_some {rest : List α} {page : π}
    (h : Serves read next view token n rest page) (hn : 0 < n) (hlength : n < rest.length) :
    ∃ init p, rest.take n = init ++ [p] ∧ next page = some (token p) := by
  cases hlast : (rest.take n).getLast? with
  | none =>
    rw [List.getLast?_eq_none_iff, List.take_eq_nil_iff] at hlast
    rcases hlast with h0 | hnil
    · omega
    · rw [hnil] at hlength
      exact absurd hlength (Nat.not_lt_zero n)
  | some p =>
    obtain ⟨init, hinit⟩ := List.getLast?_eq_some_iff.mp hlast
    refine ⟨init, p, hinit, ?_⟩
    rw [h.next, if_pos hlength, hlast]
    rfl

/-- What a reader that is given these pages has read. -/
structure Exact (read : π → List β) (next : π → Option τ) (view : α → β) (rows : List α)
    (pages : List π) : Prop where
  all : pages.flatMap read = rows.map view
  ends : ∀ done page later, pages = done ++ page :: later →
    (next page = none ↔ (done ++ [page]).flatMap read = rows.map view)

theorem follow_rest (hn : 0 < n) (hnext : ∀ i pre p post, rows = pre ++ p :: post →
      ∃ page, get (i + 1) (some (token p)) = .ok page ∧ Serves read next view token n post page)
    (i : Nat) (place : Option τ) (pre rest : List α) (hsplit : rows = pre ++ rest) (page : π)
    (hget : get i place = .ok page) (hpage : Serves read next view token n rest page) :
    ∃ pages, Follow get next i place pages ∧ Exact read next view rest pages := by
  induction hlen : rest.length using Nat.strong_induction_on generalizing i place pre rest page with
  | h len ih =>
    subst hlen
    by_cases hlength : n < rest.length
    · obtain ⟨init, p, htake, hsome⟩ := hpage.next_eq_some hn hlength
      have hrest : rest = init ++ p :: rest.drop n := by
        conv => lhs; rw [← List.take_append_drop n rest, htake]
        rw [List.append_assoc]
        rfl
      have hsplit' : rows = (pre ++ init) ++ p :: rest.drop n := by
        rw [hsplit, List.append_assoc, ← hrest]
      obtain ⟨page', hget', hpage'⟩ := hnext i (pre ++ init) p (rest.drop n) hsplit'
      have hdrop : (rest.drop n).length < rest.length := by
        rw [List.length_drop]
        omega
      have hrows' : rows = (pre ++ init ++ [p]) ++ rest.drop n := by
        rw [hsplit', List.append_assoc _ [p], List.singleton_append]
      obtain ⟨pages, hfollow, hexact⟩ := ih _ hdrop (i + 1) (some (token p)) _ _ hrows' page' hget' hpage' rfl
      have hall : (page :: pages).flatMap read = rest.map view := by
        rw [List.flatMap_cons, hexact.all, hpage.rows, ← List.map_append, List.take_append_drop]
      refine ⟨page :: pages, .next hget hsome hfollow, hall, fun done q later hq => ?_⟩
      cases done with
      | nil =>
        -- the first page: there are rows after it
        obtain ⟨rfl, -⟩ := List.cons.inj hq
        rw [hpage.next_eq_none hn, List.nil_append, List.flatMap_singleton, hpage.rows]
        refine ⟨fun hle => by omega, fun e => ?_⟩
        have := congrArg List.length e
        rw [List.length_map, List.length_map, List.length_take] at this
        omega
      | cons q' done =>
        obtain ⟨rfl, hlater⟩ := List.cons.inj hq
        rw [hexact.ends done q later hlater, List.cons_append, List.flatMap_cons, hpage.rows]
        conv => rhs; rhs; rw [← List.take_append_drop n rest, List.map_append]
        exact (List.append_right_inj _).symm
    · have hle : rest.length ≤ n := by omega
      have hrows : read page = rest.map view := by
        rw [hpage.rows, List.take_of_length_le hle]
      refine ⟨[page], .last hget ((hpage.next_eq_none hn).mpr hle), ?_, fun done q later hq => ?_⟩
      · rw [List.flatMap_singleton, hrows]
      · cases done with
        | nil =>
          obtain ⟨rfl, -⟩ := List.cons.inj hq
          rw [hpage.next_eq_none hn, List.nil_append, List.flatMap_singleton]
          exact ⟨fun _ => hrows, fun _ => hle⟩
        | cons q' done =>
          obtain ⟨-, hq⟩ := List.cons.inj hq
          exact absurd hq (List.append_ne_nil_of_right_ne_nil done (List.cons_ne_nil q later)).symm

/-- **Following the places reads the list exactly**, if the first page is of the whole list and
    each later one of what is after its place. -/
theorem follow_exact (hn : 0 < n) (hfirst : ∃ page, get 0 none = .ok page ∧
    Serves read next view token n rows page)
    (hnext : ∀ i pre p post, rows = pre ++ p :: post → ∃ page, get (i + 1) (some (token p)) = .ok page ∧
        Serves read next view token n post page) :
    ∃ pages, Follow get next 0 none pages ∧ Exact read next view rows pages := by
  obtain ⟨page, hget, hpage⟩ := hfirst
  exact follow_rest hn hnext 0 none [] rows rfl page hget hpage

end Pages

end Keyset
