/-
  Subject:   What the metadata projection leaves of a document, told from the document.

  A value under a selected key leaves a value of its own, by the field the key is; any other value leaves
  nothing but the mark that an output has an element.

  * **`run_emits`**: what the tokens of a document do;
  * **`lookup_projectMembers`**: the last member of a selected name is kept.
-/
import ClawRouter.Inspect.Documents
import ClawRouter.Lib.Fallible

namespace ClawRouter.Inspect

open Utf16 Js

/-! ## 1. What is left of a document -/

section Left

variable (identity receipt : Bool)

/-- The field of a key. An overlong one and an empty one select nothing. -/
def selected (context : MetadataContext) (key : Text) : Option MetadataField :=
  if key = [] ∨ scalarLimit < key.length then none else Projection.fieldOf identity receipt context key

mutual

def projectField (field : MetadataField) : Document → Value
  | .null => .null
  | .bool b => .bool b
  | .num t => if field = .number ∨ field = .error then numberOf t else .num .zero
  | .str t =>
    match field with
    | .text => .str t
    | .identity => .str t
    | .error => if t = [] then .str [] else .bool true
    | _ => .str []
  | .arr items => if field = .output ∧ items.isEmpty = false then .arr [.bool true] else .arr []
  | .obj members =>
    match field with
    | .context context => .obj (projectMembers context [] members)
    | _ => .obj []

def projectMembers (context : MetadataContext) (made : Members) : List (Text × Document) → Members
  | [] => made
  | (key, item) :: rest =>
    match selected identity receipt context key with
    | some field => projectMembers context (set made key (projectField field item)) rest
    | none => projectMembers context made rest

end

mutual

/-- The texts and numbers that are kept are as short as they have to be. -/
def Within (field : Option MetadataField) : Document → Prop
  | .null => True
  | .bool _ => True
  | .num t => field = some .number ∨ field = some .error → t.length ≤ scalarLimit
  | .str t => (field = some .text → t.length ≤ scalarLimit) ∧ (field = some .identity → t.length ≤ 256)
  | .arr _ => True
  | .obj members =>
    match field with
    | some (.context context) => MembersWithin context members
    | _ => True

def MembersWithin (context : MetadataContext) : List (Text × Document) → Prop
  | [] => True
  | (key, item) :: rest => Within (selected identity receipt context key) item ∧ MembersWithin context rest

end

end Left

variable {identity receipt : Bool}

theorem within_none (d : Document) : Within identity receipt none d := by
  cases d with
  | num t => exact fun h => by rcases h with h | h <;> cases h
  | str t => exact ⟨nofun, nofun⟩
  | _ => exact trivial

variable {rest : List MetadataFrame} {token : Token}

variable {s t u : Projection} {v w : MetadataField → Value}

namespace Projection

/-! ## 2. The place of a value -/

variable (identity receipt) in
def run (s : Projection) (tokens : List Token) : Except InspectionFailure Projection :=
  tokens.foldlM (accept identity receipt) s

theorem run_append (s : Projection) (xs ys : List Token) :
    s.run identity receipt (xs ++ ys) = s.run identity receipt xs >>= fun s => s.run identity receipt ys :=
  List.foldlM_append

theorem run_cons (s : Projection) (token : Token) (rest : List Token) :
    s.run identity receipt (token :: rest) = s.accept identity receipt token >>= fun s =>
      s.run identity receipt rest :=
  List.foldlM_cons

/-- Projections apart from the scalar they read, which begins anew with each key and value. -/
structure SameTree (s t : Projection) : Prop where
  frames : s.frames = t.frames
  value : s.value = t.value

theorem SameTree.refl (s : Projection) : SameTree s s := ⟨rfl, rfl⟩

theorem SameTree.trans (h : SameTree s t) (h' : SameTree t u) : SameTree s u :=
  ⟨h.1.trans h'.1, h.2.trans h'.2⟩

variable (identity receipt) in
/-- The projection with a value in its place, told from the field there. -/
def landed (s : Projection) (value : MetadataField → Value) : Projection :=
  match s.frames with
  | [] => { s with value := some (value (.context .root)) }
  | f :: rest =>
    { s with
      frames := (match s.field identity receipt with
        | some field => f.witness.put (value field)
        | none => f.witness) :: rest }

theorem landed_root (h : s.frames = []) (value : MetadataField → Value) :
    s.landed identity receipt value = { s with value := some (value (.context .root)) } := by
  unfold landed
  rw [h]

theorem landed_frame {f : MetadataFrame} (h : s.frames = f :: rest)
    (value : MetadataField → Value) : s.landed identity receipt value = { s with
        frames := (match s.field identity receipt with
          | some field => f.witness.put (value field)
          | none => f.witness) :: rest } := by
  unfold landed
  rw [h]

theorem landed_congr (h : ∀ field, s.field identity receipt = some field → v field = w field) :
    s.landed identity receipt v = s.landed identity receipt w := by
  cases hframes : s.frames with
  | nil =>
    have hroot : s.field identity receipt = some (.context .root) := by
      unfold Projection.field
      rw [hframes]
    rw [landed_root hframes, landed_root hframes, h _ hroot]
  | cons f rest =>
    rw [landed_frame hframes, landed_frame hframes]
    cases hfield : s.field identity receipt with
    | none => rfl
    | some field =>
      dsimp only
      rw [h field hfield]

theorem witness_fields (f : MetadataFrame) : f.witness.context = f.context ∧ f.witness.key = f.key ∧
    f.witness.output = f.output := by
  unfold MetadataFrame.witness
  split <;> exact ⟨rfl, rfl, rfl⟩

theorem field_of_top {f g : MetadataFrame} {others : List MetadataFrame}
    (hs : s.frames = f :: rest) (ht : t.frames = g :: others) (hcontext : f.context = g.context)
      (hkey : f.key = g.key) :
    s.field identity receipt = t.field identity receipt := by
  unfold Projection.field
  rw [hs, ht]
  dsimp only
  rw [hcontext, hkey]

theorem field_witnessed (s : Projection) (token : Token) :
    (s.witnessed token).field identity receipt = s.field identity receipt := by
  unfold witnessed
  split
  · rename_i f rest hframes
    split
    · obtain ⟨hcontext, hkey, -⟩ := witness_fields f
      exact field_of_top rfl hframes hcontext hkey
    · rfl
  · rfl

variable (identity receipt) in
theorem assign_landed (h : token.startsValue = true) (value : Value) :
    SameTree ((s.witnessed token).assign identity receipt value)
      (s.landed identity receipt fun _ => value) := by
  have hfield : (s.witnessed token).field identity receipt = s.field identity receipt :=
    field_witnessed s token
  cases hframes : s.frames with
  | nil =>
    have hsame : s.witnessed token = s := by
      unfold witnessed
      rw [hframes]
    rw [hsame, landed_root hframes]
    unfold assign
    rw [hframes]
    exact ⟨rfl, rfl⟩
  | cons f rest =>
    have hwitnessed : s.witnessed token = { s with frames := f.witness :: rest } := by
      unfold witnessed
      rw [hframes]
      rw [h]
      rfl
    rw [hwitnessed] at hfield ⊢
    rw [landed_frame hframes]
    unfold assign
    rw [hfield]
    cases s.field identity receipt with
    | none | some field => exact ⟨rfl, rfl⟩

theorem landed_assign (h : SameTree t (s.landed identity receipt v))
    (hfield : (s.field identity receipt).isSome = true) (value : Value) :
    SameTree (t.assign identity receipt value) (s.landed identity receipt fun _ => value) := by
  obtain ⟨hframes, hvalue⟩ := h
  cases hs : s.frames with
  | nil =>
    rw [landed_root hs] at hframes hvalue ⊢
    have ht : t.frames = [] := hframes.trans hs
    unfold assign
    rw [ht]
    exact ⟨hs.symm, rfl⟩
  | cons f rest =>
    rw [landed_frame hs] at hframes hvalue ⊢
    obtain ⟨field, hfield⟩ := Option.isSome_iff_exists.mp hfield
    rw [hfield] at hframes ⊢
    have ht : t.frames = f.witness.put (v field) :: rest := hframes
    obtain ⟨hcontext, hkey, -⟩ := witness_fields f
    have htfield : t.field identity receipt = some field := (field_of_top ht hs hcontext hkey).trans hfield
    unfold assign
    rw [ht]
    rw [htfield]
    refine ⟨?_, hvalue⟩
    show (f.witness.put (v field)).put value :: rest = f.witness.put value :: rest
    rw [MetadataFrame.put_again]

/-! ## 3. Scalars -/

variable (identity receipt) in
/-- The run ends well, in a projection of this tree. -/
def RunsTo (s : Projection) (tokens : List Token) (t : Projection) : Prop :=
  ∃ u, s.run identity receipt tokens = .ok u ∧ SameTree u t

theorem RunsTo.cons {rest : List Token}
    (h : s.accept identity receipt token = .ok t) (hrest : RunsTo identity receipt t rest u) :
    RunsTo identity receipt s (token :: rest) u := by
  obtain ⟨v, hv, hvu⟩ := hrest
  refine ⟨v, ?_, hvu⟩
  rw [run_cons, h]
  exact hv

theorem RunsTo.append {w : Projection} {xs ys : List Token} (h : RunsTo identity receipt s xs t)
    (hys : ∀ u, SameTree u t → RunsTo identity receipt u ys w) : RunsTo identity receipt s (xs ++ ys) w := by
  obtain ⟨u, hu, hut⟩ := h
  obtain ⟨v, hv, hvw⟩ := hys u hut
  refine ⟨v, ?_, hvw⟩
  rw [run_append, hu]
  exact hv

theorem RunsTo.to {tokens : List Token} (h : RunsTo identity receipt s tokens t)
    (htu : SameTree t u) : RunsTo identity receipt s tokens u := by
  obtain ⟨v, hv, hvt⟩ := h
  exact ⟨v, hv, hvt.trans htu⟩

theorem RunsTo.one (h : s.accept identity receipt token = .ok t) :
    RunsTo identity receipt s [token] t := .cons h ⟨t, rfl, .refl t⟩

theorem run_leaf (h : token.startsValue = true) (value : Value)
    (haccept : s.accept identity receipt token = .ok ((s.witnessed token).assign identity receipt value)) :
    RunsTo identity receipt s [token] (s.landed identity receipt fun _ => value) :=
  (RunsTo.one haccept).to (assign_landed identity receipt h value)

theorem run_chunks {token : Text → Token} (hmerge : ∀ (s : Projection) (a b : Text), s.accept identity receipt
      (token (a ++ b)) = s.accept identity receipt (token a) >>= fun t => t.accept identity receipt (token b))
    (hempty : s.accept identity receipt (token []) = .ok s) (chunks : List Text) :
    s.run identity receipt (chunks.map token) = s.accept identity receipt (token chunks.flatten) := by
  have hmany : ∀ (rest : List Text) (s : Projection) (chunk : Text),
      s.run identity receipt ((chunk :: rest).map token) = s.accept identity receipt
        (token (chunk :: rest).flatten) := by
    intro rest
    induction rest with
    | nil =>
      intro s chunk
      rw [List.flatten_cons, List.flatten_nil, List.append_nil, List.map_cons, run_cons]
      cases s.accept identity receipt (token chunk) <;> rfl
    | cons next rest ih =>
      intro s chunk
      rw [List.flatten_cons, hmerge, List.map_cons, run_cons]
      exact congrArg (s.accept identity receipt (token chunk) >>= ·) (funext fun t => ih t next)
  cases chunks with
  | nil => exact hempty.symm
  | cons chunk rest => exact hmany rest s chunk

theorem accept_emptyChunk (hscalar : s.scalar = []) : s.accept identity receipt (.stringChunk []) = .ok s ∧
    s.accept identity receipt (.numberChunk []) = .ok s := by
  obtain ⟨frames, value, complete, capture, scalar⟩ := s
  obtain rfl : scalar = [] := hscalar
  unfold accept
  rw [witnessed_later rfl, witnessed_later rfl]
  rcases capture with _ | ⟨⟨⟩⟩ <;> exact ⟨rfl, rfl⟩

theorem run_stringChunks (hscalar : s.scalar = []) (chunks : List Text) :
    s.run identity receipt (chunks.map .stringChunk) = s.accept identity receipt
      (.stringChunk chunks.flatten) :=
  run_chunks accept_stringChunk (accept_emptyChunk hscalar).1 chunks

theorem run_numberChunks (hscalar : s.scalar = []) (chunks : List Text) :
    s.run identity receipt (chunks.map .numberChunk) = s.accept identity receipt
      (.numberChunk chunks.flatten) :=
  run_chunks accept_numberChunk (accept_emptyChunk hscalar).2 chunks

theorem assign_fields (s : Projection) (value : Value) :
    (s.assign identity receipt value).scalar = s.scalar ∧
      (s.assign identity receipt value).capture = s.capture := by
  unfold assign
  split
  · exact ⟨rfl, rfl⟩
  · split <;> exact ⟨rfl, rfl⟩

variable (identity receipt) in
theorem accept_kept {capture : MetadataCapture} {limit : Nat} (h : s.capture = some capture)
    (hlimit : (capture = .text ∧ limit = scalarLimit) ∨ (capture = .identity ∧ limit = 256)) (chunk : Text) :
    s.accept identity receipt (.stringChunk chunk) = s.keep limit chunk ∧
      s.accept identity receipt .endString = .ok (s.assign identity receipt (.str s.scalar)).settled := by
  obtain ⟨frames, value, complete, _, scalar⟩ := s
  cases h
  unfold accept
  rw [witnessed_later rfl, witnessed_later rfl]
  rcases hlimit with ⟨rfl, rfl⟩ | ⟨rfl, rfl⟩ <;> exact ⟨rfl, rfl⟩

variable (identity receipt) in
theorem accept_told (h : s.capture = some .error) (chunk : Text) :
    s.accept identity receipt (.stringChunk chunk) =
        .ok (if chunk = [] then s else s.assign identity receipt (.bool true)) ∧
      s.accept identity receipt .endString = .ok s.settled := by
  obtain ⟨frames, value, complete, _, scalar⟩ := s
  cases h
  unfold accept
  rw [witnessed_later rfl, witnessed_later rfl]
  exact ⟨rfl, rfl⟩

variable (identity receipt) in
theorem accept_ignored (h : s.capture = none) (chunk : Text) :
    s.accept identity receipt (.stringChunk chunk) = .ok s ∧
      s.accept identity receipt .endString = .ok s.settled := by
  obtain ⟨frames, value, complete, _, scalar⟩ := s
  cases h
  unfold accept
  rw [witnessed_later rfl, witnessed_later rfl]
  exact ⟨rfl, rfl⟩

/-- What is captured of a string under a field. -/
def captureOf : Option MetadataField → Option MetadataCapture
  | some .text => some .text
  | some .identity => some .identity
  | some .error => some .error
  | _ => none

variable (identity receipt) in
theorem accept_startString (s : Projection) : ∃ t, s.accept identity receipt .startString = .ok t ∧
    SameTree t (s.landed identity receipt fun _ => .str []) ∧ t.scalar = [] ∧
      t.capture = captureOf (s.field identity receipt) := by
  refine ⟨_, rfl, ?_, rfl, rfl⟩
  have hland : SameTree ((s.witnessed .startString).assign identity receipt (.str []))
      (s.landed identity receipt fun _ => .str []) := assign_landed identity receipt rfl _
  exact ⟨hland.1, hland.2⟩

theorem settled_tree (s : Projection) : SameTree s.settled s := ⟨rfl, rfl⟩

theorem run_stringEnd {chunk : Text} (ht : SameTree t (s.landed identity receipt fun _ => .str []))
    (hscalar : t.scalar = []) (hcapture : t.capture = captureOf (s.field identity receipt))
    (hwithin : Within identity receipt (s.field identity receipt) (.str chunk)) :
    RunsTo identity receipt t [.stringChunk chunk, .endString]
      (s.landed identity receipt fun field => projectField identity receipt field (.str chunk)) := by
  obtain ⟨htext, hidentity⟩ := hwithin
  have hkept : ∀ (field : MetadataField) (capture : MetadataCapture) (limit : Nat),
      s.field identity receipt = some field → t.capture = some capture →
        (capture = .text ∧ limit = scalarLimit) ∨ (capture = .identity ∧ limit = 256) → chunk.length ≤ limit →
          projectField identity receipt field (.str chunk) = .str chunk →
            RunsTo identity receipt t [.stringChunk chunk, .endString]
              (s.landed identity receipt fun field => projectField identity receipt field (.str chunk)) := by
    intro field capture limit hfield hcapture hlimit hle hvalue
    have hkeep : t.keep limit chunk = .ok { t with scalar := chunk } := by
      unfold keep
      rw [hscalar, List.length_nil, Nat.zero_add, if_neg (Nat.not_lt.mpr hle), List.nil_append]
    have hchunk := (accept_kept identity receipt hcapture hlimit chunk).1.trans hkeep
    have hend := (accept_kept identity receipt (s := { t with scalar := chunk }) hcapture hlimit []).2
    have hsame : SameTree { t with scalar := chunk } (s.landed identity receipt fun _ => .str []) :=
      ⟨ht.1, ht.2⟩
    have hlanded := landed_assign hsame (by rw [hfield]; rfl) (.str chunk)
    refine .cons hchunk ((RunsTo.one hend).to ((settled_tree _).trans (hlanded.trans ?_)))
    rw [landed_congr fun other hother => ?_]
    · exact .refl _
    · rw [hfield] at hother
      cases hother
      exact hvalue.symm
  have hplain : captureOf (s.field identity receipt) = none → RunsTo identity receipt t
    [.stringChunk chunk, .endString]
        (s.landed identity receipt fun field => projectField identity receipt field (.str chunk)) := by
    intro hnone
    obtain ⟨hchunk, hend⟩ := accept_ignored identity receipt (hcapture.trans hnone) chunk
    refine .cons hchunk ((RunsTo.one hend).to ((settled_tree t).trans (ht.trans ?_)))
    rw [landed_congr fun field hfield => ?_]
    · exact .refl _
    · rw [hfield] at hnone
      cases field with
      | text | identity | error => cases hnone
      | _ => rfl
  cases hfield : s.field identity receipt with
  | none => exact hplain (by rw [hfield]; rfl)
  | some field =>
    rw [hfield] at hcapture
    cases field with
    | context c | output | number => exact hplain (by rw [hfield]; rfl)
    | text => exact hkept .text .text _ hfield hcapture (.inl ⟨rfl, rfl⟩) (htext hfield) rfl
    | identity => exact hkept .identity .identity _ hfield hcapture (.inr ⟨rfl, rfl⟩) (hidentity hfield) rfl
    | error =>
      obtain ⟨hchunk, -⟩ := accept_told identity receipt hcapture chunk
      let told : Projection := if chunk = [] then t else t.assign identity receipt (.bool true)
      have htold : told.capture = some .error := by
        show (if chunk = [] then t else t.assign identity receipt (.bool true)).capture = _
        split
        · exact hcapture
        · exact (assign_fields t _).2.trans hcapture
      have hend := (accept_told identity receipt htold []).2
      refine .cons hchunk ((RunsTo.one hend).to ((settled_tree told).trans ?_))
      rw [landed_congr (w := fun _ => if chunk = [] then .str [] else .bool true) fun other hother => ?_]
      · show SameTree (if chunk = [] then t else t.assign identity receipt (.bool true)) _
        by_cases hchunk : chunk = []
        · simp only [if_pos hchunk]
          exact ht
        · simp only [if_neg hchunk]
          exact landed_assign ht (by rw [hfield]; rfl) _
      · rw [hfield] at hother
        cases hother
        rfl

theorem run_string (chunks : List Text)
    (hwithin : Within identity receipt (s.field identity receipt) (.str chunks.flatten)) :
    RunsTo identity receipt s (.startString :: chunks.map .stringChunk ++ [.endString])
      (s.landed identity receipt fun field => projectField identity receipt field (.str chunks.flatten)) := by
  obtain ⟨t, haccept, ht, hscalar, hcapture⟩ := accept_startString identity receipt s
  obtain ⟨u, hu, hsame⟩ := run_stringEnd ht hscalar hcapture hwithin
  refine .cons haccept ⟨u, ?_, hsame⟩
  show t.run identity receipt (chunks.map .stringChunk ++ [.endString]) = _
  rw [run_append, run_stringChunks hscalar]
  exact hu

/-- Whether a number is captured under a field. -/
def countsUnder (field : Option MetadataField) : Bool := field = some .number || field = some .error

variable (identity receipt) in
theorem accept_startNumber (s : Projection) : ∃ t, s.accept identity receipt .startNumber = .ok t ∧
    SameTree t (s.landed identity receipt fun _ => .num .zero) ∧ t.scalar = [] ∧
      t.capture = if countsUnder (s.field identity receipt) then some .number else none := by
  have hland : SameTree ((s.witnessed .startNumber).assign identity receipt (.num .zero))
      (s.landed identity receipt fun _ => .num .zero) := assign_landed identity receipt rfl _
  refine ⟨_, rfl, ⟨hland.1, hland.2⟩, rfl, ?_⟩
  generalize hfield : s.field identity receipt = field
  simp only
  rcases field with _ | ⟨⟨c⟩⟩ <;> rfl

variable (identity receipt) in
theorem accept_counted (h : s.capture = some .number) (chunk : Text) :
    s.accept identity receipt (.numberChunk chunk) = s.keep scalarLimit chunk ∧
      s.accept identity receipt .endNumber = .ok (s.assign identity receipt (numberOf s.scalar)).settled := by
  obtain ⟨frames, value, complete, _, scalar⟩ := s
  cases h
  unfold accept
  rw [witnessed_later rfl, witnessed_later rfl]
  exact ⟨rfl, rfl⟩

variable (identity receipt) in
theorem accept_uncounted (h : s.capture = none) (chunk : Text) :
    s.accept identity receipt (.numberChunk chunk) = .ok s ∧ s.accept identity receipt .endNumber =
      .ok s.settled := by
  obtain ⟨frames, value, complete, _, scalar⟩ := s
  cases h
  unfold accept
  rw [witnessed_later rfl, witnessed_later rfl]
  exact ⟨rfl, rfl⟩

theorem countsUnder_iff {field : Option MetadataField} :
    countsUnder field = true ↔ field = some .number ∨ field = some .error := by
  unfold countsUnder
  rw [Bool.or_eq_true, decide_eq_true_eq, decide_eq_true_eq]

theorem run_numberEnd {chunk : Text}
    (ht : SameTree t (s.landed identity receipt fun _ => .num .zero)) (hscalar : t.scalar = [])
    (hcapture : t.capture = if countsUnder (s.field identity receipt) then some .number else none)
    (hwithin : Within identity receipt (s.field identity receipt) (.num chunk)) :
    RunsTo identity receipt t [.numberChunk chunk, .endNumber]
      (s.landed identity receipt fun field => projectField identity receipt field (.num chunk)) := by
  cases hcounts : countsUnder (s.field identity receipt) with
  | false =>
    rw [hcounts] at hcapture
    obtain ⟨hchunk, hend⟩ := accept_uncounted identity receipt hcapture chunk
    refine .cons hchunk ((RunsTo.one hend).to ((settled_tree t).trans (ht.trans ?_)))
    rw [landed_congr fun field hfield => ?_]
    · exact .refl _
    · have hneither : ¬ (field = .number ∨ field = .error) := by
        rintro (rfl | rfl)
        · rw [hfield] at hcounts
          cases hcounts
        · rw [hfield] at hcounts
          cases hcounts
      exact (if_neg hneither).symm
  | true =>
    rw [hcounts] at hcapture
    have hkind := countsUnder_iff.mp hcounts
    have hkeep : t.keep scalarLimit chunk = .ok { t with scalar := chunk } := by
      unfold keep
      rw [hscalar, List.length_nil, Nat.zero_add, if_neg (Nat.not_lt.mpr (hwithin hkind)), List.nil_append]
    have hchunk := (accept_counted identity receipt hcapture chunk).1.trans hkeep
    have hend := (accept_counted identity receipt (s := { t with scalar := chunk }) hcapture []).2
    have hsame : SameTree { t with scalar := chunk }
      (s.landed identity receipt fun _ => .num .zero) := ⟨ht.1, ht.2⟩
    have hsome : (s.field identity receipt).isSome = true := by
      rcases hkind with h | h <;> rw [h] <;> rfl
    have hlanded := landed_assign hsame hsome (numberOf chunk)
    refine .cons hchunk ((RunsTo.one hend).to ((settled_tree _).trans (hlanded.trans ?_)))
    rw [landed_congr fun field hfield => ?_]
    · exact .refl _
    · have hfieldKind : field = .number ∨ field = .error := by
        rcases hkind with h | h
        · rw [hfield] at h
          exact .inl (Option.some.inj h)
        · rw [hfield] at h
          exact .inr (Option.some.inj h)
      exact (if_pos hfieldKind).symm

theorem run_number (chunks : List Text)
    (hwithin : Within identity receipt (s.field identity receipt) (.num chunks.flatten)) :
    RunsTo identity receipt s (.startNumber :: chunks.map .numberChunk ++ [.endNumber])
      (s.landed identity receipt fun field => projectField identity receipt field (.num chunks.flatten)) := by
  obtain ⟨t, haccept, ht, hscalar, hcapture⟩ := accept_startNumber identity receipt s
  obtain ⟨u, hu, hsame⟩ := run_numberEnd ht hscalar hcapture hwithin
  refine .cons haccept ⟨u, ?_, hsame⟩
  show t.run identity receipt (chunks.map .numberChunk ++ [.endNumber]) = _
  rw [run_append, run_numberChunks hscalar]
  exact hu

/-! ## 4. Containers -/

theorem length_landed (s : Projection) (value : MetadataField → Value) :
    (s.landed identity receipt value).frames.length = s.frames.length := by
  cases hframes : s.frames with
  | nil =>
    rw [landed_root hframes]
    exact congrArg List.length hframes
  | cons f rest =>
    rw [landed_frame hframes]
    rfl

def frameOf (field : Option MetadataField) (object : Bool) : MetadataFrame where
  context :=
  match field with
    | some (.context context) => if object then some context else none
    | _ => none
  node := field.map fun _ => if object then .obj [] else .arr []
  key := none
  output := field = some .output && !object

variable (identity receipt) in
theorem openContainer_landed (htoken : token.startsValue = true) (object : Bool)
    (hroom : s.frames.length < depthLimit) :
    ∃ t, (s.witnessed token).openContainer identity receipt (s.field identity receipt) object = .ok t ∧
      t.frames = frameOf (s.field identity receipt) object ::
        (s.landed identity receipt fun _ => if object then .obj [] else .arr []).frames ∧
      t.value = (s.landed identity receipt fun _ => if object then .obj [] else .arr []).value := by
  have hlength : (s.witnessed token).frames.length = s.frames.length := by
    unfold witnessed
    split
    · rename_i f rest hframes
      rw [if_pos htoken, hframes]
      rfl
    · rfl
  unfold openContainer
  rw [hlength, if_neg (Nat.not_le.mpr hroom)]
  cases hfield : s.field identity receipt with
  | none =>
    have hsame : SameTree (s.witnessed token)
      (s.landed identity receipt fun _ => if object then .obj [] else .arr []) := by
      have hassign := assign_landed identity receipt (s := s) htoken (if object then .obj [] else .arr [])
      have hnone : (s.witnessed token).assign identity receipt
        (if object then .obj [] else .arr []) = s.witnessed token := by
        have hwitnessed : (s.witnessed token).field identity receipt = s.field identity receipt :=
          field_witnessed s token
        unfold assign
        rw [hwitnessed, hfield]
        cases hframes : (s.witnessed token).frames with
        | nil =>
          have hnowhere := hwitnessed.trans hfield
          unfold Projection.field at hnowhere
          rw [hframes] at hnowhere
          cases hnowhere
        | cons f rest => rfl
      rw [hnone] at hassign
      exact hassign
    exact ⟨_, rfl, congrArg (frameOf none object :: ·) hsame.frames, hsame.value⟩
  | some field =>
    have hassign := assign_landed identity receipt (s := s) htoken (if object then .obj [] else .arr [])
    exact ⟨_, rfl, congrArg (frameOf (some field) object :: ·) hassign.frames, hassign.value⟩

theorem pop_landed {inner : MetadataFrame} (hframes : u.frames = inner ::
    (s.landed identity receipt v).frames)
    (hvalue : u.value = (s.landed identity receipt v).value)
    (hnode : inner.node = (s.field identity receipt).map w) :
    SameTree u.pop (s.landed identity receipt w) := by
  cases hs : s.frames with
  | nil =>
    have hroot : s.field identity receipt = some (.context .root) := by
      unfold Projection.field
      rw [hs]
    rw [landed_root hs] at hframes ⊢
    have hone : u.frames = [inner] := by rw [hframes, hs]
    unfold pop
    rw [hone]
    dsimp only
    rw [hnode, hroot]
    exact ⟨hs.symm, rfl⟩
  | cons f rest =>
    rw [landed_frame hs] at hframes hvalue ⊢
    unfold pop
    rw [hframes]
    refine ⟨?_, hvalue⟩
    dsimp only
    unfold MetadataFrame.close
    rw [hnode]
    cases s.field identity receipt with
    | none => rfl
    | some field =>
      dsimp only [Option.map_some]
      rw [MetadataFrame.put_again]

theorem witness_still {f : MetadataFrame} (h : f.output = false) : f.witness = f := by
  unfold MetadataFrame.witness
  rw [h]

theorem witness_witness (f : MetadataFrame) : f.witness.witness = f.witness := by
  obtain ⟨context, node, key, output⟩ := f
  cases output with
  | false => rfl
  | true =>
    rcases node with _ | ⟨⟨⟩ | b | n | s | items | members⟩
    case some.arr => cases items <;> rfl
    all_goals rfl

theorem run_key {g : MetadataFrame} {outer : List MetadataFrame} (hframes : t.frames = g :: outer)
    (chunks : List Text) :
    RunsTo identity receipt t (.startKey :: chunks.map .stringChunk ++ [.endKey]) { t with
        frames := { g with
          key := if g.context.isSome = true ∧ chunks.flatten.length ≤ scalarLimit then some chunks.flatten
            else none } :: outer } := by
  let started : Projection := { t with
      frames := { g with key := none } :: outer, scalar := []
      capture := if g.context.isSome then some .key else none }
  have hstart : t.accept identity receipt .startKey = .ok started := by
    unfold accept
    rw [witnessed_later rfl]
    dsimp only
    rw [hframes]
  have hrun : ∀ u, started.accept identity receipt (.stringChunk chunks.flatten) = .ok u →
      ∀ v, u.accept identity receipt .endKey = .ok v →
        t.run identity receipt (.startKey :: chunks.map .stringChunk ++ [.endKey]) = .ok v := by
    intro u hu v hv
    rw [List.cons_append, run_cons, hstart]
    show started.run identity receipt (chunks.map .stringChunk ++ [.endKey]) = _
    rw [run_append, run_stringChunks rfl, hu]
    show u.run identity receipt [.endKey] = _
    rw [run_cons, hv]
    rfl
  have hend : ∀ u : Projection, u.capture ≠ some .key → u.accept identity receipt .endKey =
    .ok u.settled := by
    intro u hu
    unfold accept
    rw [witnessed_later rfl]
    exact if_neg hu
  cases hcontext : g.context with
  | none =>
    have hcapture : started.capture = none := by
      show (if g.context.isSome then some _ else none) = _
      rw [hcontext]
      rfl
    have hchunk := (accept_ignored identity receipt hcapture chunks.flatten).1
    refine ⟨_, hrun _ hchunk _ (hend started (by rw [hcapture]; exact nofun)), ?_, rfl⟩
    show { g with key := none } :: outer = _
    rw [if_neg fun h => Bool.false_ne_true h.1, hcontext]
  | some context =>
    have hcapture : started.capture = some .key := by
      show (if g.context.isSome then some _ else none) = _
      rw [hcontext]
      rfl
    have hchunk : started.accept identity receipt (.stringChunk chunks.flatten) =
        if scalarLimit < chunks.flatten.length then .ok started.settled
        else .ok { started with scalar := chunks.flatten } := by
      unfold accept
      rw [witnessed_later rfl]
      dsimp only
      rw [hcapture]
      show (if scalarLimit < 0 + chunks.flatten.length then _ else _) = _
      rw [Nat.zero_add]
      split <;> rfl
    by_cases hlong : scalarLimit < chunks.flatten.length
    · rw [if_pos hlong] at hchunk
      refine ⟨_, hrun _ hchunk _ (hend started.settled nofun), ?_, rfl⟩
      show { g with key := none } :: outer = _
      rw [if_neg fun h => absurd h.2 (Nat.not_le.mpr hlong), hcontext]
    · rw [if_neg hlong] at hchunk
      have hlast : Projection.accept identity receipt { started with scalar := chunks.flatten } .endKey =
          .ok { started with
            frames := { g with key := some chunks.flatten } :: outer, scalar := [], capture := none } := by
        unfold accept
        rw [witnessed_later rfl]
        exact if_pos hcapture
      refine ⟨_, hrun _ hchunk _ hlast, ?_, rfl⟩
      rw [if_pos ⟨rfl, Nat.not_lt.mp hlong⟩, hcontext]

theorem run_container {start stop : Token} {tokens : List Token} (object : Bool)
    (hvalue : start.startsValue = true) (hroom : s.frames.length < depthLimit)
    (hstart : s.accept identity receipt start =
      (s.witnessed start).openContainer identity receipt (s.field identity receipt) object)
    (hstop : ∀ u : Projection, u.accept identity receipt stop = .ok u.pop)
    (hinner : ∀ (t : Projection) outer, t.frames = frameOf (s.field identity receipt) object :: outer →
      outer.length = s.frames.length → ∃ inner : MetadataFrame,
        inner.node = (s.field identity receipt).map w ∧
        RunsTo identity receipt t tokens { t with frames := inner :: outer }) :
    RunsTo identity receipt s (start :: tokens ++ [stop]) (s.landed identity receipt w) := by
  obtain ⟨t, hopen, hframes, htvalue⟩ := openContainer_landed identity receipt hvalue object hroom
  obtain ⟨inner, hnode, hrun⟩ := hinner t _ hframes (length_landed s _)
  refine .cons (hstart.trans hopen) (hrun.append fun u hu => (RunsTo.one (hstop u)).to ?_)
  exact pop_landed hu.frames (hu.value.trans htvalue) hnode

/-! ## 5. Documents -/

theorem field_eq {f : MetadataFrame} (h : s.frames = f :: rest) :
    s.field identity receipt = match f.context, f.key with
      | some context, some key => if key = [] then none else fieldOf identity receipt context key
      | _, _ => none := by
  cases s
  cases h
  rfl

theorem accept_stop (s : Projection) : s.accept identity receipt .endArray = .ok s.pop ∧
    s.accept identity receipt .endObject = .ok s.pop := by
  unfold accept
  rw [witnessed_later rfl, witnessed_later rfl]
  exact ⟨rfl, rfl⟩

theorem field_keyed {c : MetadataContext} {node : Option Value} {key : Text} {output : Bool}
    (h : s.frames = ⟨some c, node, if key.length ≤ scalarLimit then some key else none, output⟩ :: rest) :
    s.field identity receipt = selected identity receipt c key := by
  rw [field_eq h]
  unfold selected
  by_cases hlong : key.length ≤ scalarLimit
  · rw [if_pos hlong]
    dsimp only
    by_cases hempty : key = []
    · rw [if_pos hempty, if_pos (.inl hempty)]
    · have hneither : ¬ (key = [] ∨ scalarLimit < key.length) := by
        rintro (h | h)
        · exact hempty h
        · exact absurd hlong (Nat.not_le.mpr h)
      rw [if_neg hempty, if_neg hneither]
  · rw [if_neg hlong, if_pos (.inr (Nat.not_le.mp hlong))]

mutual

/-- **The tokens of a document** leave what is left of it in its place. -/
theorem run_emits {d : Document} {tokens : List Token} (h : Emits d tokens) {s : Projection}
    (hwithin : Within identity receipt (s.field identity receipt) d)
      (hdepth : s.frames.length + d.depth ≤ depthLimit) :
    RunsTo identity receipt s tokens (s.landed identity receipt fun field => projectField identity
      receipt field d) := by
  cases h with
  | null => exact run_leaf rfl .null rfl
  | true => exact run_leaf rfl (.bool true) rfl
  | false => exact run_leaf rfl (.bool false) rfl
  | num chunks => exact run_number chunks hwithin
  | str chunks => exact run_string chunks hwithin
  | arr hitems =>
    rename_i items tokens
    have hdepth : s.frames.length + (1 + Document.itemsDepth items) ≤ depthLimit := hdepth
    refine run_container false rfl (by omega) rfl
      (fun u => (accept_stop u).1) fun t outer hframes hlength => ?_
    refine ⟨_, ?_, run_items hitems hframes ?_ (by omega)⟩
    · cases hfield : s.field identity receipt with
      | none => cases items <;> rfl
      | some field =>
        have hnode : ∀ b : Bool, (if b then frameOf (some field) false else
          (frameOf (some field) false).witness).node =
            some (if field = .output ∧ b = false then .arr [.bool true] else .arr []) := by
          intro b
          cases b <;> cases field <;> rfl
        exact hnode items.isEmpty
    · unfold frameOf
      split <;> rfl
  | obj hmembers =>
    rename_i members tokens
    have hdepth : s.frames.length + (1 + Document.membersDepth members) ≤ depthLimit := hdepth
    refine run_container true rfl (by omega) rfl
      (fun u => (accept_stop u).2) fun t outer hframes hlength => ?_
    cases hfield : s.field identity receipt with
    | none =>
      rw [hfield] at hframes
      refine ⟨frameOf none true, rfl, (run_outside hmembers hframes rfl rfl rfl (by omega)).to ⟨hframes, rfl⟩⟩
    | some field =>
      rw [hfield] at hframes hwithin
      have houtside : frameOf (some field) true = ⟨none, some (.obj []), none, false⟩ →
          projectField identity receipt field (.obj members) = .obj [] → ∃ inner : MetadataFrame,
            inner.node = (some field).map (fun field => projectField identity receipt field (.obj members)) ∧
              RunsTo identity receipt t tokens { t with frames := inner :: outer } := by
        intro hframe hvalue
        rw [hframe] at hframes
        refine ⟨_, ?_, (run_outside hmembers hframes rfl rfl rfl (by omega)).to ⟨hframes, rfl⟩⟩
        exact congrArg some hvalue.symm
      cases field with
      | context c =>
        obtain ⟨key, hrun⟩ := run_inside hmembers hframes hwithin (by omega)
        exact ⟨_, rfl, hrun⟩
      | output | text | identity | number | error => exact houtside rfl rfl

theorem run_items {items : List Document} {tokens : List Token} (h : EmitsItems items tokens) {t : Projection}
    {g : MetadataFrame} {outer : List MetadataFrame} (hframes : t.frames = g :: outer)
      (hcontext : g.context = none)
    (hdepth : outer.length + 1 + Document.itemsDepth items ≤ depthLimit) :
    RunsTo identity receipt t tokens { t with frames :=
      (if items.isEmpty then g else g.witness) :: outer } := by
  cases h with
  | nil => exact ⟨t, rfl, hframes, rfl⟩
  | cons hitem hrest =>
    rename_i item items _ _
    have hdepth : outer.length + 1 + max item.depth (Document.itemsDepth items) ≤ depthLimit := hdepth
    have hfield : t.field identity receipt = none := by
      rw [field_eq hframes, hcontext]
    have hlength : t.frames.length = outer.length + 1 := congrArg List.length hframes
    have hfirst := run_emits hitem (s := t) (by rw [hfield]; exact within_none item) (by omega)
    rw [landed_frame hframes, hfield] at hfirst
    refine hfirst.append fun u hu => ?_
    have hlater := run_items hrest hu.frames ((witness_fields g).1.trans hcontext) (by omega)
    refine hlater.to ⟨?_, hu.value⟩
    show (if items.isEmpty then g.witness else g.witness.witness) :: outer = g.witness :: outer
    rw [witness_witness, ite_self]

theorem run_outside {members : List (Text × Document)} {tokens : List Token} (h : EmitsMembers members tokens)
    {t : Projection} {g : MetadataFrame} {outer : List MetadataFrame} (hframes : t.frames = g :: outer)
    (hcontext : g.context = none) (hkey : g.key = none) (houtput : g.output = false)
    (hdepth : outer.length + 1 + Document.membersDepth members ≤ depthLimit) :
    RunsTo identity receipt t tokens t := by
  cases h with
  | nil => exact ⟨t, rfl, .refl t⟩
  | cons chunks hitem hrest =>
    rename_i item members tokens later
    have hdepth : outer.length + 1 + max item.depth (Document.membersDepth members) ≤ depthLimit := hdepth
    have hnamed : RunsTo identity receipt t (.startKey :: chunks.map .stringChunk ++ [.endKey]) t := by
      have hunnamed : ¬ (g.context.isSome = true ∧ chunks.flatten.length ≤ scalarLimit) := by
        rw [hcontext]
        exact fun h => Bool.false_ne_true h.1
      have hsame : { g with key := none } = g := by rw [← hkey]
      refine (run_key hframes chunks).to ⟨?_, rfl⟩
      rw [if_neg hunnamed, hsame, hframes]
    refine (hnamed.append fun u hu => ?_ : RunsTo identity receipt t
      (.startKey :: chunks.map .stringChunk ++ [.endKey] ++ tokens) t).append fun v hv => ?_
    · have huframes : u.frames = g :: outer := hu.frames.trans hframes
      have hfield : u.field identity receipt = none := by
        rw [field_eq huframes, hcontext]
      have hlength : u.frames.length = outer.length + 1 := congrArg List.length huframes
      have hfirst := run_emits hitem (s := u) (by rw [hfield]; exact within_none item) (by omega)
      rw [landed_frame huframes, hfield] at hfirst
      refine hfirst.to ⟨?_, hu.value⟩
      rw [witness_still houtput, hframes]
    · exact (run_outside hrest (hv.frames.trans hframes) hcontext hkey houtput (by omega)).to hv

theorem run_inside {members : List (Text × Document)} {tokens : List Token} (h : EmitsMembers members tokens)
    {t : Projection} {c : MetadataContext} {made : Members} {key : Option Text} {outer : List MetadataFrame}
    (hframes : t.frames = ⟨some c, some (.obj made), key, false⟩ :: outer)
    (hwithin : MembersWithin identity receipt c members)
    (hdepth : outer.length + 1 + Document.membersDepth members ≤ depthLimit) :
    ∃ key, RunsTo identity receipt t tokens
      { t with
        frames := ⟨some c, some (.obj (projectMembers identity receipt c made members)), key,
          false⟩ :: outer } := by
  cases h with
  | nil => exact ⟨key, t, rfl, hframes, rfl⟩
  | cons chunks hitem hrest =>
    rename_i item members tokens later
    have hdepth : outer.length + 1 + max item.depth (Document.membersDepth members) ≤ depthLimit := hdepth
    obtain ⟨hfirstWithin, hrestWithin⟩ := hwithin
    let name := chunks.flatten
    let named : MetadataFrame := ⟨some c, some (.obj made), if name.length ≤ scalarLimit then some
      name else none, false⟩
    have hnamed : RunsTo identity receipt t (.startKey :: chunks.map .stringChunk ++ [.endKey])
        { t with frames := named :: outer } := by
      refine (run_key hframes chunks).to ⟨?_, rfl⟩
      simp only [Option.isSome_some, true_and]
      rfl
    -- what is left of the item is assigned under its name
    let left : Members := match selected identity receipt c name with
      | some field => set made name (projectField identity receipt field item)
      | none => made
    have hleft : left = match selected identity receipt c name with
      | some field => set made name (projectField identity receipt field item)
      | none => made := rfl
    have hitems : ∃ key, RunsTo identity receipt t
      (.startKey :: chunks.map .stringChunk ++ [.endKey] ++ tokens)
        { t with frames := ⟨some c, some (.obj left), key, false⟩ :: outer } := by
      refine ⟨named.key, hnamed.append fun u hu => ?_⟩
      have hfield : u.field identity receipt = selected identity receipt c name := field_keyed hu.frames
      have hlength : u.frames.length = outer.length + 1 := congrArg List.length hu.frames
      have hfirst := run_emits hitem (s := u) (by rw [hfield]; exact hfirstWithin) (by omega)
      rw [landed_frame hu.frames, hfield] at hfirst
      refine hfirst.to ⟨?_, hu.value⟩
      cases hselected : selected identity receipt c name with
      | none =>
        rw [hleft, hselected]
        rfl
      | some field =>
        have hshort : name.length ≤ scalarLimit := by
          by_contra hlong
          unfold selected at hselected
          rw [if_pos (.inr (Nat.not_le.mp hlong))] at hselected
          cases hselected
        have hkey : named.key = some name := if_pos hshort
        rw [hleft, hselected]
        show (named.put (projectField identity receipt field item)) :: outer = _
        unfold MetadataFrame.put
        rw [hkey]
        rfl
    obtain ⟨key', hitems⟩ := hitems
    obtain ⟨u, hu, husame⟩ := hitems
    obtain ⟨last, v, hv, hvsame⟩ := run_inside hrest husame.frames hrestWithin (by omega)
    refine ⟨last, v, ?_, ?_, hvsame.value.trans husame.value⟩
    · rw [run_append, hu]
      exact hv
    · rw [hvsame.frames]
      rw [projectMembers]
      cases hselected : selected identity receipt c name with
      | none | some field => rw [hleft, hselected]

end

end Projection

end ClawRouter.Inspect
