/-
  Subject:   A JSON body parsed token by token (src/worker/json-body.ts, `createJsonBodyParser`), and that
             it is `JSON.parse` with bounds.

  A container that is open is the value of its frame. The source holds references to it; here it is
  written to its parent when the frame is closed, in the place that was kept for it.

  * `Reached`, **`run_emits`**: what the tokens of a document do to a parser that enforces nothing;
  * **`accept_enforced`**, **`run_enforced`**: enforcement is a check of the maxima after each token, and
    the maxima never fall;
  * **`parser_of_document`**: the value of `JSON.parse`, or the limit, whenever enforcement begins.
-/
import ClawRouter.Inspect.Documents
import ClawRouter.Lib.Fallible

namespace ClawRouter.Body

open Utf16 Js Inspect

/-! ## 1. The parser -/

inductive ParserFailure
  /-- `JsonBodyStructureLimit`. -/
  | structureLimit
  /-- A `TypeError`. -/
  | type
  deriving DecidableEq

/-- A container that is open. -/
structure ParserFrame where
  value : Value
  key : Option Text

/-- The parser between two tokens. -/
structure JsonBodyParser where
  enforceStructure : Bool
  /-- The innermost first. -/
  stack : List ParserFrame
  root : Option Value
  scalar : Text
  key : Bool
  nodes : Nat
  maximumDepth : Nat
  maximumScalar : Nat

def createJsonBodyParser (enforceStructure : Bool) : JsonBodyParser :=
  ⟨enforceStructure, [], none, [], false, 0, 0, 0⟩

namespace ParserFrame

def name (f : ParserFrame) : Text := f.key.getD (text "undefined")

def put (f : ParserFrame) (value : Value) : ParserFrame :=
  { f with value := match f.value with
      | .arr items => .arr (items ++ [value])
      | .obj members => .obj (set members f.name value)
      | other => other }

/-- The frame, with a container inside it that is closed. -/
def close (f inner : ParserFrame) : ParserFrame :=
  { f with value := match f.value with
      | .arr items => .arr (items.dropLast ++ [inner.value])
      | .obj members => .obj (set members f.name inner.value)
      | other => other }

end ParserFrame

namespace JsonBodyParser

def exceeds (s : JsonBodyParser) : Bool := 65536 < s.nodes || 128 < s.maximumDepth || 4096 < s.maximumScalar

def checkStructure (s : JsonBodyParser) : Except ParserFailure JsonBodyParser :=
  if s.enforceStructure && s.exceeds then .error .structureLimit else .ok s

def place (s : JsonBodyParser) (value : Value) : JsonBodyParser :=
  match s.stack with
  | [] => { s with root := some value }
  | f :: rest => { s with stack := f.put value :: rest }

def attach (s : JsonBodyParser) (value : Value) : Except ParserFailure JsonBodyParser := do
  let s ← checkStructure { s with nodes := s.nodes + 1 }
  .ok (s.place value)

def openContainer (s : JsonBodyParser) (value : Value) : Except ParserFailure JsonBodyParser := do
  let s ← checkStructure { s with maximumDepth := max s.maximumDepth (s.stack.length + 1) }
  let s ← s.attach value
  .ok { s with stack := ⟨value, none⟩ :: s.stack }

def pop (s : JsonBodyParser) : JsonBodyParser :=
  match s.stack with
  | [] => s
  | [f] => { s with stack := [], root := some f.value }
  | f :: g :: rest => { s with stack := g.close f :: rest }

def accept (s : JsonBodyParser) : Token → Except ParserFailure JsonBodyParser
  | .startObject => s.openContainer (.obj [])
  | .startArray => s.openContainer (.arr [])
  | .endObject => .ok s.pop
  | .endArray => .ok s.pop
  | .startKey => .ok { s with key := true, scalar := [] }
  | .startString => .ok { s with key := false, scalar := [] }
  | .startNumber => .ok { s with key := false, scalar := [] }
  | .stringChunk chunk =>
    let s := { s with scalar := s.scalar ++ chunk }
    if s.key then checkStructure { s with maximumScalar := max s.maximumScalar s.scalar.length } else .ok s
  | .numberChunk chunk =>
    let s := { s with scalar := s.scalar ++ chunk }
    checkStructure { s with maximumScalar := max s.maximumScalar s.scalar.length }
  | .endKey =>
    match s.stack with
    | [] => .error .type
    | f :: rest => .ok { s with stack := { f with key := some s.scalar } :: rest, scalar := [] }
  | .endString => do
    let s ← s.attach (.str s.scalar)
    .ok { s with scalar := [] }
  | .endNumber => do
    let s ← s.attach (numberOf s.scalar)
    .ok { s with scalar := [] }
  | .nullValue => s.attach .null
  | .trueValue => s.attach (.bool true)
  | .falseValue => s.attach (.bool false)

def run (s : JsonBodyParser) (tokens : List Token) : Except ParserFailure JsonBodyParser :=
  tokens.foldlM accept s

def enforceStructureLimits (s : JsonBodyParser) : Except ParserFailure JsonBodyParser :=
  checkStructure { s with enforceStructure := true }

theorem run_append (s : JsonBodyParser) (xs ys : List Token) :
    s.run (xs ++ ys) = (s.run xs) >>= fun s => s.run ys := List.foldlM_append

theorem run_cons (s : JsonBodyParser) (token : Token) (rest : List Token) :
    s.run (token :: rest) = s.accept token >>= fun s => s.run rest := List.foldlM_cons

end JsonBodyParser

/-! ## 2. Without enforcement -/

variable {s t u : JsonBodyParser} {tokens : List Token}

namespace JsonBodyParser

theorem checkStructure_free (h : s.enforceStructure = false) : s.checkStructure = .ok s := by
  unfold checkStructure
  rw [h]
  rfl

/-- The maxima after a document, apart from where its value goes. -/
def counted (s : JsonBodyParser) (values depth longest : Nat) : JsonBodyParser :=
  { s with
    nodes := s.nodes + values
    maximumDepth := max s.maximumDepth (s.stack.length + depth)
    maximumScalar := max s.maximumScalar longest }

/-- Parsers apart from the scalar they read, which begins anew with each key and value. -/
structure Alike (s t : JsonBodyParser) : Prop where
  enforceStructure : s.enforceStructure = t.enforceStructure
  stack : s.stack = t.stack
  root : s.root = t.root
  nodes : s.nodes = t.nodes
  maximumDepth : s.maximumDepth = t.maximumDepth
  maximumScalar : s.maximumScalar = t.maximumScalar

theorem Alike.refl (s : JsonBodyParser) : Alike s s := ⟨rfl, rfl, rfl, rfl, rfl, rfl⟩

theorem Alike.trans (h : Alike s t) (h' : Alike t u) : Alike s u :=
  ⟨h.1.trans h'.1, h.2.trans h'.2, h.3.trans h'.3, h.4.trans h'.4, h.5.trans h'.5, h.6.trans h'.6⟩

theorem Alike.place (h : Alike s t) (value : Value) : Alike (s.place value) (t.place value) := by
  obtain ⟨h1, h2, h3, h4, h5, h6⟩ := h
  unfold JsonBodyParser.place
  rw [h2]
  cases t.stack with
  | nil => exact ⟨h1, rfl, rfl, h4, h5, h6⟩
  | cons f rest => exact ⟨h1, rfl, h3, h4, h5, h6⟩

theorem Alike.counted (h : Alike s t) (values depth longest : Nat) :
    Alike (s.counted values depth longest) (t.counted values depth longest) := by
  obtain ⟨h1, h2, h3, h4, h5, h6⟩ := h
  exact ⟨h1, h2, h3, congrArg (· + values) h4, by
    show max _ _ = max _ _; rw [h5, h2], congrArg (max · longest) h6⟩

/-- The run ends well, in a parser like this one. -/
def RunsTo (s : JsonBodyParser) (tokens : List Token) (t : JsonBodyParser) : Prop :=
  ∃ u, s.run tokens = .ok u ∧ Alike u t

theorem run_stringChunks (hkey : s.key = false) (chunks : List Text) :
    s.run (chunks.map .stringChunk) = .ok { s with scalar := s.scalar ++ chunks.flatten } := by
  induction chunks generalizing s with
  | nil =>
    rw [List.flatten_nil, List.append_nil]
    rfl
  | cons chunk chunks ih =>
    have hstep : s.accept (.stringChunk chunk) = .ok { s with scalar := s.scalar ++ chunk } := by
      unfold accept
      rw [hkey]
      rfl
    rw [List.map_cons, run_cons, hstep]
    show run { s with scalar := s.scalar ++ chunk } _ = _
    rw [ih (s := { s with scalar := s.scalar ++ chunk }) hkey, List.flatten_cons, List.append_assoc]

/-- The parser after a chunk whose length counts. -/
def measured (s : JsonBodyParser) (chunk : Text) : JsonBodyParser :=
  { s with
    scalar := s.scalar ++ chunk
    maximumScalar := max s.maximumScalar (s.scalar ++ chunk).length }

theorem measured_measured (s : JsonBodyParser) (a b : Text) :
    (s.measured a).measured b = s.measured (a ++ b) := by
  have hle : (s.scalar ++ a).length ≤ (s.scalar ++ a ++ b).length := by
    have hlength : (s.scalar ++ a ++ b).length = (s.scalar ++ a).length + b.length := List.length_append
    omega
  have hmax : max (max s.maximumScalar (s.scalar ++ a).length) (s.scalar ++ a ++ b).length =
      max s.maximumScalar (s.scalar ++ a ++ b).length := by omega
  unfold measured
  rw [hmax, List.append_assoc]

theorem run_measured {t : Text → Token} {key : Bool}
    (hstep : ∀ (s : JsonBodyParser) chunk, s.enforceStructure = false → s.key = key →
      s.accept (t chunk) = .ok (s.measured chunk))
    (hfree : s.enforceStructure = false) (hkey : s.key = key) (hscalar : s.scalar.length ≤ s.maximumScalar)
    (chunks : List Text) : s.run (chunks.map t) = .ok (s.measured chunks.flatten) := by
  induction chunks generalizing s with
  | nil =>
    show Except.ok s = _
    unfold measured
    rw [List.flatten_nil, List.append_nil, Nat.max_eq_left hscalar]
  | cons chunk chunks ih =>
    rw [List.map_cons, run_cons, hstep s chunk hfree hkey, List.flatten_cons, ← measured_measured]
    exact ih hfree hkey (Nat.le_max_right _ _)

section

variable (hfree : s.enforceStructure = false)
include hfree

theorem run_keyChunks (hkey : s.key = true) (hscalar : s.scalar.length ≤ s.maximumScalar)
    (chunks : List Text) :
    s.run (chunks.map .stringChunk) = .ok (s.measured chunks.flatten) := by
  refine run_measured (fun s chunk hfree hkey => ?_) hfree hkey hscalar chunks
  unfold accept
  dsimp only
  rw [if_pos hkey]
  exact checkStructure_free (s := s.measured chunk) hfree

theorem run_numberChunks (hscalar : s.scalar.length ≤ s.maximumScalar) (chunks : List Text) :
    s.run (chunks.map .numberChunk) = .ok (s.measured chunks.flatten) :=
  run_measured (t := .numberChunk) (fun s chunk hfree _ => checkStructure_free (s := s.measured chunk) hfree)
    hfree rfl hscalar chunks

theorem attach_free (value : Value) : s.attach value = .ok ({ s with nodes := s.nodes + 1 }.place value) := by
  unfold attach
  rw [checkStructure_free (s := { s with nodes := s.nodes + 1 }) hfree]
  rfl

theorem openContainer_free (value : Value) : s.openContainer value = .ok
      { ({ s with maximumDepth := max s.maximumDepth (s.stack.length + 1), nodes :=
        s.nodes + 1 }.place value) with
        stack := ⟨value, none⟩ ::
          ({ s with maximumDepth := max s.maximumDepth (s.stack.length + 1), nodes :=
            s.nodes + 1 }.place value).stack
      } := by
  unfold openContainer
  rw [checkStructure_free (s := { s with maximumDepth := max s.maximumDepth (s.stack.length + 1) }) hfree]
  show (attach _ value >>= fun s => _) = _
  rw [attach_free (s := { s with maximumDepth := max s.maximumDepth (s.stack.length + 1) }) hfree]
  rfl

end

/-- The value of a document in its place, with the maxima it leaves. -/
def parsed (s : JsonBodyParser) (d : Document) : JsonBodyParser :=
  (s.counted d.values d.depth d.longest).place d.value

/-- Fit to read a document: nothing is enforced, and the depth of the frames has been counted. -/
structure Ready (s : JsonBodyParser) : Prop where
  free : s.enforceStructure = false
  counted : s.stack.length ≤ s.maximumDepth

theorem Ready.of_alike (h : Ready t) (hst : Alike s t) : Ready s := by
  refine ⟨hst.enforceStructure.trans h.free, ?_⟩
  rw [hst.stack, hst.maximumDepth]
  exact h.counted

theorem length_place (s : JsonBodyParser) (value : Value) :
    (s.place value).stack.length = s.stack.length := by
  unfold place
  split
  · rename_i hs
    rw [hs]
  · rename_i hs
    rw [hs]
    rfl

theorem place_root (h : s.stack = []) (value : Value) : s.place value = { s with root := some value } := by
  unfold place
  split
  · rfl
  · rename_i hs
    rw [h] at hs
    cases hs

theorem place_frame {f : ParserFrame} {rest : List ParserFrame} (h : s.stack = f :: rest)
    (value : Value) : s.place value = { s with stack := f.put value :: rest } := by
  unfold place
  split
  · rename_i hs
    rw [h] at hs
    cases hs
  · rename_i hs
    rw [h] at hs
    cases hs
    rfl

theorem place_fields (s : JsonBodyParser) (value : Value) :
    (s.place value).enforceStructure = s.enforceStructure ∧ (s.place value).nodes = s.nodes ∧
      (s.place value).maximumDepth = s.maximumDepth ∧ (s.place value).maximumScalar = s.maximumScalar := by
  unfold place
  split <;> exact ⟨rfl, rfl, rfl, rfl⟩

theorem Ready.parsed (h : Ready s) (d : Document) : Ready (s.parsed d) := by
  obtain ⟨hfree, -, hdepth, -⟩ := place_fields (s.counted d.values d.depth d.longest) d.value
  refine ⟨hfree.trans h.free, ?_⟩
  show (place _ _).stack.length ≤ (place _ _).maximumDepth
  rw [length_place, hdepth]
  exact Nat.le_trans h.counted (Nat.le_max_left _ _)

theorem RunsTo.cons {token : Token} {rest : List Token} (h : s.accept token = .ok t)
    (hrest : RunsTo t rest u) : RunsTo s (token :: rest) u := by
  obtain ⟨v, hv, hvu⟩ := hrest
  refine ⟨v, ?_, hvu⟩
  rw [run_cons, h]
  exact hv

theorem RunsTo.append {w : JsonBodyParser} {xs ys : List Token} (h : RunsTo s xs t)
    (hys : ∀ u, Alike u t → RunsTo u ys w) : RunsTo s (xs ++ ys) w := by
  obtain ⟨u, hu, hut⟩ := h
  obtain ⟨v, hv, hvw⟩ := hys u hut
  refine ⟨v, ?_, hvw⟩
  rw [run_append, hu]
  exact hv

theorem RunsTo.alike (h : RunsTo s tokens t) (htu : Alike t u) : RunsTo s tokens u := by
  obtain ⟨v, hv, hvt⟩ := h
  exact ⟨v, hv, hvt.trans htu⟩

theorem RunsTo.one {token : Token} (h : s.accept token = .ok t) : RunsTo s [token] t :=
  .cons h ⟨t, rfl, .refl t⟩

theorem attached_alike {d : Document} (hready : Ready s) (hvalues : d.values = 1)
    (hdepth : d.depth = 0) (hst : Alike t { s with maximumScalar := max s.maximumScalar d.longest }) :
    Alike ({ t with nodes := t.nodes + 1 }.place d.value) (s.parsed d) := by
  obtain ⟨h1, h2, h3, h4, h5, h6⟩ := hst
  have hcounted : Alike { t with nodes := t.nodes + 1 } (s.counted d.values d.depth d.longest) := by
    refine ⟨h1, h2, h3, ?_, ?_, h6⟩
    · show t.nodes + 1 = s.nodes + d.values
      rw [hvalues, h4]
    · rw [hdepth, h5]
      exact (Nat.max_eq_left hready.counted).symm
  exact hcounted.place d.value

theorem run_leaf {token : Token} {d : Document} (hready : Ready s)
    (haccept : s.accept token = s.attach d.value) (hvalues : d.values = 1) (hdepth : d.depth = 0)
    (hlongest : d.longest = 0) : RunsTo s [token] (s.parsed d) := by
  refine RunsTo.alike (.one (haccept.trans (attach_free hready.free d.value)))
    (attached_alike hready hvalues hdepth ⟨rfl, rfl, rfl, rfl, rfl, ?_⟩)
  rw [hlongest, Nat.max_eq_left (Nat.zero_le _)]

section

variable (hfree : s.enforceStructure = false)
include hfree

theorem attach_ended (value : Value) : (s.attach value >>= fun s => Except.ok { s with scalar := [] }) =
      .ok { { s with nodes := s.nodes + 1 }.place value with scalar := [] } := by
  rw [attach_free hfree]
  rfl

theorem accept_endString :
    s.accept .endString = .ok { { s with nodes := s.nodes + 1 }.place (.str s.scalar) with scalar := [] } :=
  attach_ended hfree _

theorem accept_endNumber :
    s.accept .endNumber = .ok { { s with nodes := s.nodes + 1 }.place
      (numberOf s.scalar) with scalar := [] } :=
  attach_ended hfree _

end

theorem run_string (hready : Ready s) (chunks : List Text) :
    RunsTo s (.startString :: chunks.map .stringChunk ++ [.endString]) (s.parsed (.str chunks.flatten)) := by
  have hchunks := run_stringChunks (s := { s with key := false, scalar := [] }) rfl chunks
  have hend := accept_endString (s := { s with key := false, scalar := chunks.flatten }) hready.free
  have hrun : s.run (.startString :: chunks.map .stringChunk ++ [.endString]) =
      .ok { { s with key := false, scalar := chunks.flatten, nodes := s.nodes + 1 }.place
        (Document.str chunks.flatten).value with scalar := [] } := by
    rw [List.cons_append, run_cons]
    show run { s with key := false, scalar := [] } _ = _
    rw [run_append, hchunks]
    show run { s with key := false, scalar := chunks.flatten } [.endString] = _
    rw [run_cons, hend]
    rfl
  have hmax : s.maximumScalar = max s.maximumScalar (Document.str chunks.flatten).longest :=
    (Nat.max_eq_left (Nat.zero_le _)).symm
  have halike := attached_alike (d := .str chunks.flatten)
    (t := { s with key := false, scalar := chunks.flatten })
    hready rfl rfl ⟨rfl, rfl, rfl, rfl, rfl, hmax⟩
  exact ⟨_, hrun, ⟨halike.1, halike.2, halike.3, halike.4, halike.5, halike.6⟩⟩

theorem run_number (hready : Ready s) (chunks : List Text) :
    RunsTo s (.startNumber :: chunks.map .numberChunk ++ [.endNumber]) (s.parsed (.num chunks.flatten)) := by
  have hchunks := run_numberChunks (s := { s with key := false, scalar := [] }) hready.free
    (Nat.zero_le _) chunks
  have hend := accept_endNumber (s := { s with key := false, scalar := [] }.measured chunks.flatten)
    hready.free
  have hrun : s.run (.startNumber :: chunks.map .numberChunk ++ [.endNumber]) =
      .ok { { { s with key := false, scalar := [] }.measured chunks.flatten with nodes := s.nodes + 1 }.place
        (Document.num chunks.flatten).value with scalar := [] } := by
    rw [List.cons_append, run_cons]
    show run { s with key := false, scalar := [] } _ = _
    rw [run_append, hchunks]
    show run ({ s with key := false, scalar := [] }.measured chunks.flatten) [.endNumber] = _
    rw [run_cons, hend]
    rfl
  have halike := attached_alike (d := .num chunks.flatten)
    (t := { s with key := false, scalar := [] }.measured chunks.flatten) hready rfl rfl
      ⟨rfl, rfl, rfl, rfl, rfl, rfl⟩
  exact ⟨_, hrun, ⟨halike.1, halike.2, halike.3, halike.4, halike.5, halike.6⟩⟩

theorem run_key (hready : Ready s) {f : ParserFrame} {rest : List ParserFrame}
    (hstack : s.stack = f :: rest) (chunks : List Text) :
    RunsTo s (.startKey :: chunks.map .stringChunk ++ [.endKey])
      { s with
        stack := { f with key := some chunks.flatten } :: rest
        maximumScalar := max s.maximumScalar chunks.flatten.length } := by
  have hchunks := run_keyChunks (s := { s with key := true, scalar := [] }) hready.free rfl
    (Nat.zero_le _) chunks
  have hrun : s.run (.startKey :: chunks.map .stringChunk ++ [.endKey]) = .ok { s with
        key := true, scalar := []
        stack := { f with key := some chunks.flatten } :: rest
        maximumScalar := max s.maximumScalar chunks.flatten.length } := by
    rw [List.cons_append, run_cons]
    show run { s with key := true, scalar := [] } _ = _
    rw [run_append, hchunks]
    show run ({ s with key := true, scalar := [] }.measured chunks.flatten) [.endKey] = _
    rw [run_cons]
    unfold accept measured
    rw [hstack]
    rfl
  exact ⟨_, hrun, ⟨rfl, rfl, rfl, rfl, rfl, rfl⟩⟩

theorem close_put (g : ParserFrame) (c v : Value) (key : Option Text) :
    (g.put c).close ⟨v, key⟩ = g.put v := by
  obtain ⟨value, gkey⟩ := g
  cases value with
  | arr items =>
    show ParserFrame.mk (.arr ((items ++ [c]).dropLast ++ [v])) gkey = ⟨.arr (items ++ [v]), gkey⟩
    rw [List.dropLast_concat]
  | obj members =>
    exact congrArg (ParserFrame.mk · gkey) (congrArg Value.obj
      (set_again members (gkey.getD (text "undefined")) c v))
  | _ => rfl

theorem Alike.pop (h : Alike s t) : Alike s.pop t.pop := by
  obtain ⟨h1, h2, h3, h4, h5, h6⟩ := h
  unfold JsonBodyParser.pop
  rw [h2]
  split
  · exact ⟨h1, h2, h3, h4, h5, h6⟩
  · exact ⟨h1, rfl, rfl, h4, h5, h6⟩
  · exact ⟨h1, rfl, h3, h4, h5, h6⟩

theorem run_container (hready : Ready s) {c v : Value} {start stop : Token}
    {values depth longest : Nat} (hstart : ∀ s, accept s start = s.openContainer c)
    (hstop : ∀ s, accept s stop = .ok s.pop)
    (hinner : ∀ (t : JsonBodyParser) rest, Ready t → t.stack = ⟨c, none⟩ :: rest →
      ∃ key, RunsTo t tokens { t.counted values depth longest with stack := ⟨v, key⟩ :: rest }) :
    RunsTo s (start :: tokens ++ [stop]) ((s.counted (1 + values) (1 + depth) longest).place v) := by
  let opened : JsonBodyParser :=
    { s with maximumDepth := max s.maximumDepth (s.stack.length + 1), nodes := s.nodes + 1 }
  let t : JsonBodyParser := { opened.place c with stack := ⟨c, none⟩ :: (opened.place c).stack }
  have haccept : s.accept start = .ok t := (hstart s).trans (openContainer_free hready.free c)
  obtain ⟨hfree, hnodes, hdepth, hscalar⟩ := place_fields opened c
  have hlength : (opened.place c).stack.length = s.stack.length := length_place opened c
  have ht : Ready t := by
    refine ⟨hfree.trans hready.free, ?_⟩
    show (opened.place c).stack.length + 1 ≤ (opened.place c).maximumDepth
    rw [hlength, hdepth]
    exact Nat.le_max_right _ _
  obtain ⟨key, hrun⟩ := hinner t (opened.place c).stack ht rfl
  refine .cons haccept (hrun.append fun u hu => (RunsTo.one (hstop u)).alike (hu.pop.trans ?_))
  have hn : (t.counted values depth longest).nodes = s.nodes + (1 + values) := by
    show (opened.place c).nodes + values = _
    rw [hnodes]
    show s.nodes + 1 + values = _
    omega
  have hd : (t.counted values depth longest).maximumDepth = max s.maximumDepth
    (s.stack.length + (1 + depth)) := by
    show max (opened.place c).maximumDepth ((opened.place c).stack.length + 1 + depth) = _
    rw [hdepth, hlength]
    show max (max s.maximumDepth (s.stack.length + 1)) _ = _
    omega
  have hs : (t.counted values depth longest).maximumScalar = max s.maximumScalar longest :=
    congrArg (max · longest) hscalar
  have he : (t.counted values depth longest).enforceStructure = s.enforceStructure := hfree
  have hr : (t.counted values depth longest).root = (opened.place c).root := rfl
  generalize t.counted values depth longest = T at hn hd hs he hr ⊢
  cases hstack : s.stack with
  | nil =>
    have hempty : (opened.place c).stack = [] := by
      rw [← List.length_eq_zero_iff, hlength, hstack]
      rfl
    have hfinal : (s.counted (1 + values) (1 + depth) longest).place v =
        { s.counted (1 + values) (1 + depth) longest with root := some v } :=
      place_root (s := s.counted (1 + values) (1 + depth) longest) hstack v
    rw [hempty, hfinal]
    exact ⟨he, hstack.symm, rfl, hn, hd, hs⟩
  | cons g rest =>
    have hplaced : opened.place c = { opened with stack := g.put c :: rest } :=
      place_frame (s := opened) hstack c
    have hinnermost : (opened.place c).stack = g.put c :: rest := by rw [hplaced]
    have hroot : (opened.place c).root = s.root := by rw [hplaced]
    have hfinal : (s.counted (1 + values) (1 + depth) longest).place v =
        { s.counted (1 + values) (1 + depth) longest with stack := g.put v :: rest } :=
      place_frame (s := s.counted (1 + values) (1 + depth) longest) hstack v
    rw [hinnermost, hfinal]
    refine ⟨he, ?_, hr.trans hroot, hn, hd, hs⟩
    show (g.put c).close ⟨v, key⟩ :: rest = g.put v :: rest
    rw [close_put]

/-- A parser inside an array, after some items. -/
def withItems (t : JsonBodyParser) (made : List Value) (key : Option Text) (rest : List ParserFrame)
    (items : List Document) : JsonBodyParser :=
  { t.counted (Document.itemsValues items) (Document.itemsDepth items) (Document.itemsLongest items) with
    stack := ⟨.arr (made ++ Document.itemValues items), key⟩ :: rest }

/-- A parser inside an object, after some members. -/
def withMembers (t : JsonBodyParser) (made : Members) (key : Option Text) (rest : List ParserFrame)
    (members : List (Text × Document)) : JsonBodyParser :=
  { t.counted (Document.membersValues members) (Document.membersDepth members)
    (Document.membersLongest members) with
    stack := ⟨.obj (Document.memberValues made members), key⟩ :: rest }

theorem counted_counted {a b c x y z : Nat} (hlength : t.stack.length = s.stack.length)
    (hnodes : t.nodes = s.nodes + a) (hdepth : t.maximumDepth = max s.maximumDepth (s.stack.length + b))
    (hscalar : t.maximumScalar = max s.maximumScalar c) :
    (t.counted x y z).nodes = (s.counted (a + x) (max b y) (max c z)).nodes ∧
      (t.counted x y z).maximumDepth = (s.counted (a + x) (max b y) (max c z)).maximumDepth ∧
      (t.counted x y z).maximumScalar = (s.counted (a + x) (max b y) (max c z)).maximumScalar := by
  unfold counted
  dsimp only
  rw [hnodes, hdepth, hscalar, hlength]
  omega

mutual

/-- **The tokens of a document** put the value of `JSON.parse` in its place, and count the document. -/
theorem run_emits {d : Document} {tokens : List Token} (h : Emits d tokens) {s : JsonBodyParser}
    (hready : Ready s) :
    RunsTo s tokens (s.parsed d) := by
  cases h with
  | null => exact run_leaf (d := .null) hready rfl rfl rfl rfl
  | true => exact run_leaf (d := .bool true) hready rfl rfl rfl rfl
  | false => exact run_leaf (d := .bool false) hready rfl rfl rfl rfl
  | num chunks => exact run_number hready chunks
  | str chunks => exact run_string hready chunks
  | arr hitems =>
    rename_i items tokens
    exact run_container hready (c := .arr []) (fun _ => rfl) (fun _ => rfl) fun t rest ht hstack =>
      ⟨none, run_items hitems ht hstack⟩
  | obj hmembers =>
    rename_i members tokens
    exact run_container hready (c := .obj []) (fun _ => rfl) (fun _ => rfl) fun t rest ht hstack =>
      run_members hmembers ht hstack

theorem run_items {items : List Document} {tokens : List Token} (h : EmitsItems items tokens)
    {t : JsonBodyParser}
    (hready : Ready t) {made : List Value} {key : Option Text} {rest : List ParserFrame}
    (hstack : t.stack = ⟨.arr made, key⟩ :: rest) : RunsTo t tokens (t.withItems made key rest items) := by
  cases h with
  | nil =>
    refine ⟨t, rfl, rfl, ?_, rfl, rfl, ?_, ?_⟩
    · rw [hstack]
      show _ = ParserFrame.mk (.arr (made ++ [])) key :: rest
      rw [List.append_nil]
    · exact (Nat.max_eq_left hready.counted).symm
    · exact (Nat.max_eq_left (Nat.zero_le _)).symm
  | cons hitem hrest =>
    rename_i item items _ _
    refine (run_emits hitem hready).append fun u hu => ?_
    have hplaced := place_frame (s := t.counted item.values item.depth item.longest) hstack item.value
    have hustack : u.stack = ⟨.arr (made ++ [item.value]), key⟩ :: rest := by
      rw [hu.stack]
      unfold parsed
      rw [hplaced]
      rfl
    obtain ⟨hfree, hnodes, hdepth, hscalar⟩ :=
      place_fields (t.counted item.values item.depth item.longest) item.value
    refine (run_items hrest ((hready.parsed item).of_alike hu) hustack).alike ?_
    obtain ⟨hn, hd, hs⟩ := counted_counted (s := t) (t := u) (a := item.values) (b := item.depth)
      (c := item.longest) (x := Document.itemsValues items) (y := Document.itemsDepth items)
      (z := Document.itemsLongest items) (by rw [hustack, hstack]; rfl) (hu.nodes.trans hnodes)
      (hu.maximumDepth.trans hdepth) (hu.maximumScalar.trans hscalar)
    refine ⟨hu.enforceStructure.trans hfree, ?_, ?_, hn, hd, hs⟩
    · show ParserFrame.mk (.arr (made ++ [item.value] ++ Document.itemValues items)) key :: rest =
        ParserFrame.mk (.arr (made ++ item.value :: Document.itemValues items)) key :: rest
      rw [List.append_assoc]
      rfl
    · refine hu.root.trans ?_
      unfold parsed
      rw [hplaced]
      rfl

theorem run_members {members : List (Text × Document)} {tokens : List Token} (h : EmitsMembers members tokens)
    {t : JsonBodyParser} (hready : Ready t) {made : Members} {key : Option Text} {rest : List ParserFrame}
    (hstack : t.stack = ⟨.obj made, key⟩ :: rest) :
    ∃ key, RunsTo t tokens (t.withMembers made key rest members) := by
  cases h with
  | nil =>
    refine ⟨key, t, rfl, rfl, hstack, rfl, rfl, ?_, ?_⟩
    · exact (Nat.max_eq_left hready.counted).symm
    · exact (Nat.max_eq_left (Nat.zero_le _)).symm
  | cons chunks hitem hrest =>
    rename_i item members tokens later
    let named : JsonBodyParser := { t with
        stack := ⟨.obj made, some chunks.flatten⟩ :: rest
        maximumScalar := max t.maximumScalar chunks.flatten.length }
    have hkey : RunsTo t (.startKey :: chunks.map .stringChunk ++ [.endKey]) named :=
      run_key hready hstack chunks
    have hnamed : Ready named := ⟨hready.free, by
      have hcounted := hready.counted
      rw [hstack] at hcounted
      exact hcounted⟩
    have hplaced := place_frame (s := named.counted item.values item.depth item.longest) rfl item.value
    obtain ⟨hfree, hnodes, hdepth, hscalar⟩ :=
      place_fields (named.counted item.values item.depth item.longest) item.value
    have hitems : RunsTo t (.startKey :: chunks.map .stringChunk ++ [.endKey] ++ tokens)
      (named.parsed item) := by
      refine hkey.append fun u hu => (run_emits hitem (hnamed.of_alike hu)).alike ?_
      exact (hu.counted item.values item.depth item.longest).place item.value
    obtain ⟨u, hu, halike⟩ := hitems
    have hustack : u.stack = ⟨.obj (set made chunks.flatten item.value), some chunks.flatten⟩ :: rest := by
      rw [halike.stack]
      unfold parsed
      rw [hplaced]
      rfl
    obtain ⟨last, hlast⟩ := run_members hrest ((hnamed.parsed item).of_alike halike) hustack
    obtain ⟨v, hv, hvalike⟩ := hlast
    have hwhole : t.run (.startKey :: chunks.map .stringChunk ++ [.endKey] ++ tokens ++ later) = .ok v := by
      rw [run_append, hu]
      exact hv
    refine ⟨last, v, hwhole, hvalike.trans ?_⟩
    obtain ⟨hn, hd, hs⟩ := counted_counted (s := t) (t := u) (a := item.values) (b := item.depth)
      (c := max chunks.flatten.length item.longest) (x := Document.membersValues members)
      (y := Document.membersDepth members) (z := Document.membersLongest members)
      (by rw [hustack, hstack]; rfl) (halike.nodes.trans hnodes)
      (by
        rw [halike.maximumDepth]
        refine hdepth.trans ?_
        rw [hstack]
        rfl)
      (by
        rw [halike.maximumScalar]
        refine hscalar.trans ?_
        show max (max t.maximumScalar chunks.flatten.length) item.longest = _
        rw [Nat.max_assoc])
    refine ⟨halike.enforceStructure.trans hfree, rfl, ?_, hn, hd, hs⟩
    refine halike.root.trans ?_
    unfold parsed
    rw [hplaced]
    rfl

end

/-! ## 3. Enforcement -/

def enforced (s : JsonBodyParser) : JsonBodyParser := { s with enforceStructure := true }

/-- The maxima of one are not below those of the other. -/
structure Later (s t : JsonBodyParser) : Prop where
  enforceStructure : t.enforceStructure = s.enforceStructure
  nodes : s.nodes ≤ t.nodes
  maximumDepth : s.maximumDepth ≤ t.maximumDepth
  maximumScalar : s.maximumScalar ≤ t.maximumScalar

theorem Later.refl (s : JsonBodyParser) : Later s s := ⟨rfl, Nat.le_refl _, Nat.le_refl _, Nat.le_refl _⟩

theorem Later.trans (h : Later s t) (h' : Later t u) : Later s u :=
  ⟨h'.1.trans h.1, h.2.trans h'.2, h.3.trans h'.3, h.4.trans h'.4⟩

theorem exceeds_iff (s : JsonBodyParser) :
    s.exceeds = true ↔ 65536 < s.nodes ∨ 128 < s.maximumDepth ∨ 4096 < s.maximumScalar := by
  unfold exceeds
  simp only [Bool.or_eq_true, decide_eq_true_eq, or_assoc]

theorem Later.exceeds (h : Later s t) (hs : s.exceeds = true) : t.exceeds = true := by
  obtain ⟨-, hn, hd, hs'⟩ := h
  rw [exceeds_iff] at hs ⊢
  omega

theorem checkStructure_enforced (s : JsonBodyParser) :
    s.enforced.checkStructure = if s.exceeds then .error .structureLimit else .ok s.enforced := rfl

theorem checkStructure_ok (h : s.checkStructure = .ok t) : t = s := by
  unfold checkStructure at h
  split at h
  · cases h
  · cases h
    rfl

theorem place_later (s : JsonBodyParser) (value : Value) : Later s (s.place value) := by
  obtain ⟨he, hn, hd, hs⟩ := place_fields s value
  exact ⟨he, hn.ge, hd.ge, hs.ge⟩

theorem attach_later {value : Value} (h : s.attach value = .ok t) : Later s t := by
  obtain ⟨u, hu, h⟩ := Fallible.bind_ok.mp h
  cases h
  cases checkStructure_ok hu
  exact .trans (t := { s with nodes := s.nodes + 1 })
    ⟨rfl, Nat.le_succ _, Nat.le_refl _, Nat.le_refl _⟩ (place_later _ _)

theorem openContainer_later {value : Value} (h : s.openContainer value = .ok t) : Later s t := by
  obtain ⟨u, hu, h⟩ := Fallible.bind_ok.mp h
  obtain ⟨w, hw, h⟩ := Fallible.bind_ok.mp h
  cases h
  cases checkStructure_ok hu
  have hattached := attach_later hw
  exact .trans (t := { s with maximumDepth := max s.maximumDepth (s.stack.length + 1) })
    ⟨rfl, Nat.le_refl _, Nat.le_max_left _ _, Nat.le_refl _⟩
    ⟨hattached.enforceStructure, hattached.nodes, hattached.maximumDepth, hattached.maximumScalar⟩

theorem pop_later (s : JsonBodyParser) : Later s s.pop := by
  unfold pop
  split <;> exact ⟨rfl, Nat.le_refl _, Nat.le_refl _, Nat.le_refl _⟩

theorem accept_later {token : Token} (h : s.accept token = .ok t) : Later s t := by
  have hmeasured : ∀ chunk, Later s (s.measured chunk) := fun _ =>
    ⟨rfl, Nat.le_refl _, Nat.le_refl _, Nat.le_max_left _ _⟩
  have hended : ∀ {value : Value}, (s.attach value >>= fun s => .ok { s with scalar := [] }) =
    .ok t → Later s t := by
    intro value h
    obtain ⟨u, hu, h⟩ := Fallible.bind_ok.mp h
    cases h
    have hattached := attach_later hu
    exact ⟨hattached.enforceStructure, hattached.nodes, hattached.maximumDepth, hattached.maximumScalar⟩
  cases token with
  | startObject | startArray => exact openContainer_later h
  | endObject | endArray =>
    cases h
    exact pop_later s
  | startKey | startString | startNumber =>
    cases h
    exact ⟨rfl, Nat.le_refl _, Nat.le_refl _, Nat.le_refl _⟩
  | stringChunk chunk =>
    unfold accept at h
    dsimp only at h
    split at h
    · cases checkStructure_ok h
      exact hmeasured chunk
    · cases h
      exact ⟨rfl, Nat.le_refl _, Nat.le_refl _, Nat.le_refl _⟩
  | numberChunk chunk =>
    cases checkStructure_ok h
    exact hmeasured chunk
  | endKey =>
    unfold accept at h
    dsimp only at h
    split at h
    · cases h
    · cases h
      exact ⟨rfl, Nat.le_refl _, Nat.le_refl _, Nat.le_refl _⟩
  | endString | endNumber => exact hended h
  | nullValue | trueValue | falseValue => exact attach_later h

theorem exceeds_place (s : JsonBodyParser) (value : Value) : (s.place value).exceeds = s.exceeds := by
  obtain ⟨-, hn, hd, hs⟩ := place_fields s value
  unfold exceeds
  rw [hn, hd, hs]

theorem enforced_place (s : JsonBodyParser) (value : Value) :
    (s.place value).enforced = s.enforced.place value := by
  cases hstack : s.stack with
  | nil =>
    rw [place_root hstack, place_root (s := s.enforced) hstack]
    rfl
  | cons f rest =>
    rw [place_frame hstack, place_frame (s := s.enforced) hstack]
    rfl

/-- The maxima are checked once a token is accepted. -/
def checked (s : JsonBodyParser) : Except ParserFailure JsonBodyParser :=
  if s.exceeds then .error .structureLimit else .ok s.enforced

theorem checked_within (h : s.exceeds = false) : s.checked = .ok s.enforced := by
  unfold checked
  rw [h]
  rfl

section

variable (hfree : s.enforceStructure = false)
include hfree

theorem attach_enforced (value : Value) : s.enforced.attach value = s.attach value >>= checked := by
  rw [attach_free hfree]
  show checkStructure (enforced { s with nodes := s.nodes + 1 }) >>= _ = checked _
  rw [checkStructure_enforced]
  unfold checked
  rw [exceeds_place, enforced_place]
  split <;> rfl

theorem openContainer_enforced (value : Value) :
    s.enforced.openContainer value = s.openContainer value >>= checked := by
  let deeper : JsonBodyParser := { s with maximumDepth := max s.maximumDepth (s.stack.length + 1) }
  have hdeeper : deeper.enforceStructure = false := hfree
  have hfinal : s.openContainer value = .ok { { deeper with nodes := deeper.nodes + 1 }.place value with
        stack := ⟨value, none⟩ :: ({ deeper with nodes := deeper.nodes + 1 }.place value).stack } :=
    openContainer_free hfree value
  have hunfold : s.enforced.openContainer value = (deeper.enforced.checkStructure >>= fun s =>
      s.attach value >>= fun s => .ok { s with stack := ⟨value, none⟩ :: s.stack }) := rfl
  have hlater : Later deeper ({ deeper with nodes := deeper.nodes + 1 }.place value) :=
    .trans (t := { deeper with nodes := deeper.nodes + 1 }) ⟨rfl, Nat.le_succ _, Nat.le_refl _, Nat.le_refl _⟩
      (place_later _ _)
  rw [hunfold, hfinal, checkStructure_enforced]
  cases hexceeds : deeper.exceeds with
  | true =>
    have hall := hlater.exceeds hexceeds
    exact (if_pos hall).symm
  | false =>
    show (deeper.enforced.attach value >>= _) = _
    rw [attach_enforced hdeeper, attach_free hdeeper]
    show (checked _ >>= _) = _
    unfold checked
    cases hwhole : ({ deeper with nodes := deeper.nodes + 1 }.place value).exceeds with
    | true =>
      exact (if_pos hwhole).symm
    | false =>
      have hnot : ¬ ({ deeper with nodes := deeper.nodes + 1 }.place value).exceeds = true := by
        rw [hwhole]
        exact Bool.false_ne_true
      exact (if_neg hnot).symm

/-- **Enforcement is a check of the maxima after each token.** -/
theorem accept_enforced (hwithin : s.exceeds = false)
    (token : Token) : s.enforced.accept token = s.accept token >>= checked := by
  have hended : ∀ value : Value, (s.enforced.attach value >>= fun s => Except.ok { s with scalar := [] }) =
      (s.attach value >>= fun s => Except.ok { s with scalar := [] }) >>= checked := by
    intro value
    rw [attach_enforced hfree, attach_free hfree]
    show (checked _ >>= _) = checked _
    unfold checked
    cases hexceeds : ({ s with nodes := s.nodes + 1 }.place value).exceeds with
    | true =>
      exact (if_pos hexceeds).symm
    | false =>
      have hnot : ¬ ({ s with nodes := s.nodes + 1 }.place value).exceeds = true := by
        rw [hexceeds]
        exact Bool.false_ne_true
      exact (if_neg hnot).symm
  have hsame : ∀ t : JsonBodyParser, t.exceeds = s.exceeds → Except.ok t.enforced = checked t := fun t ht =>
    (checked_within (ht.trans hwithin)).symm
  have hpop : Except.ok s.enforced.pop = checked s.pop := by
    have hexceeds : s.pop.exceeds = s.exceeds := by
      unfold pop
      split <;> rfl
    have henforced : s.enforced.pop = s.pop.enforced := by
      obtain ⟨_, stack, _, _, _, _, _, _⟩ := s
      cases stack with
      | nil => rfl
      | cons f rest => cases rest <;> rfl
    rw [henforced]
    exact hsame s.pop hexceeds
  have hmeasured : ∀ chunk, (s.enforced.measured chunk).checkStructure =
      (s.measured chunk).checkStructure >>= checked := by
    intro chunk
    rw [checkStructure_free (s := s.measured chunk) hfree]
    rfl
  cases token with
  | startObject | startArray => exact openContainer_enforced hfree _
  | endObject | endArray => exact hpop
  | startKey => exact hsame { s with key := true, scalar := [] } rfl
  | startString | startNumber => exact hsame { s with key := false, scalar := [] } rfl
  | stringChunk chunk =>
    have hunfold : ∀ t : JsonBodyParser, t.accept (.stringChunk chunk) =
        if t.key then (t.measured chunk).checkStructure else
          .ok { t with scalar := t.scalar ++ chunk } := fun _ => rfl
    rw [hunfold, hunfold]
    by_cases hkey : s.key = true
    · rw [if_pos hkey, if_pos (show s.enforced.key = true from hkey)]
      exact hmeasured chunk
    · rw [if_neg hkey, if_neg (show ¬ s.enforced.key = true from hkey)]
      exact hsame { s with scalar := s.scalar ++ chunk } rfl
  | numberChunk chunk => exact hmeasured chunk
  | endKey =>
    cases hstack : s.stack with
    | nil =>
      unfold accept
      rw [show s.enforced.stack = [] from hstack, hstack]
      rfl
    | cons f rest =>
      unfold accept
      rw [show s.enforced.stack = f :: rest from hstack, hstack]
      exact hsame { s with stack := { f with key := some s.scalar } :: rest, scalar := [] } rfl
  | endString | endNumber => exact hended _
  | nullValue | trueValue | falseValue => exact attach_enforced hfree _

end

theorem run_later (h : s.run tokens = .ok t) : Later s t := by
  induction tokens generalizing s with
  | nil =>
    cases h
    exact .refl _
  | cons token tokens ih =>
    rw [run_cons] at h
    obtain ⟨m, hm, h⟩ := Fallible.bind_ok.mp h
    exact (accept_later hm).trans (ih h)

/-- **A run is checked as its last token is**: no maximum that was above its limit falls below it again. -/
theorem run_enforced (hfree : s.enforceStructure = false)
    (hwithin : s.exceeds = false) (h : s.run tokens = .ok t) : s.enforced.run tokens = t.checked := by
  induction tokens generalizing s with
  | nil =>
    cases h
    exact (checked_within hwithin).symm
  | cons token tokens ih =>
    rw [run_cons] at h
    obtain ⟨m, hm, h⟩ := Fallible.bind_ok.mp h
    rw [run_cons, accept_enforced hfree hwithin, hm]
    show (checked m >>= _) = _
    cases hexceeds : m.exceeds with
    | true =>
      have hlast := (run_later h).exceeds hexceeds
      unfold checked
      rw [hexceeds, hlast]
      rfl
    | false =>
      rw [checked_within hexceeds]
      exact ih ((accept_later hm).enforceStructure.trans hfree) hexceeds h

theorem run_late {early late : List Token} (hfree : s.enforceStructure = false)
    (h : s.run (early ++ late) = .ok t) :
    (s.run early >>= fun s => s.enforceStructureLimits >>= fun s => s.run late) = t.checked := by
  rw [run_append] at h
  obtain ⟨m, hm, h⟩ := Fallible.bind_ok.mp h
  have hunfold : m.enforceStructureLimits = m.checked := rfl
  rw [hm]
  show (m.enforceStructureLimits >>= _) = _
  rw [hunfold]
  cases hexceeds : m.exceeds with
  | true =>
    have hlast := (run_later h).exceeds hexceeds
    unfold checked
    rw [hexceeds, hlast]
    rfl
  | false =>
    rw [checked_within hexceeds]
    exact run_enforced ((run_later hm).enforceStructure.trans hfree) hexceeds h

end JsonBodyParser

/-! ## 4. Documents -/

/-- More values, deeper nesting, or a longer key or number than a body may have. -/
def tooLarge (d : Document) : Prop := 65536 < d.values ∨ 128 < d.depth ∨ 4096 < d.longest

/-- What is read of a run: the value, or the failure. -/
def verdict (r : Except ParserFailure JsonBodyParser) : Except ParserFailure (Option Value) :=
  r.map JsonBodyParser.root

/-- A run with the limits enforced after some tokens. -/
def runLate (early late : List Token) : Except ParserFailure JsonBodyParser :=
  (createJsonBodyParser false).run early >>= fun s => s.enforceStructureLimits >>= fun s => s.run late

theorem run_document {d : Document} (h : Emits d tokens) :
    ∃ s, (createJsonBodyParser false).run tokens = .ok s ∧ s.root = some d.value ∧
      (s.exceeds = true ↔ tooLarge d) := by
  obtain ⟨s, hs, halike⟩ := JsonBodyParser.run_emits h (s := createJsonBodyParser false) ⟨rfl, Nat.le_refl _⟩
  refine ⟨s, hs, halike.root, ?_⟩
  have hn : s.nodes = 0 + d.values := halike.nodes
  have hd : s.maximumDepth = max 0 (0 + d.depth) := halike.maximumDepth
  have hl : s.maximumScalar = max 0 d.longest := halike.maximumScalar
  rw [JsonBodyParser.exceeds_iff, hn, hd, hl]
  unfold tooLarge
  omega

/-- **The parser is `JSON.parse` with bounds.** Without enforcement every token stream of a document gives the
value of `JSON.parse`; with it the parser throws exactly where the document is too large, and
otherwise gives the
same value; and enforcement that begins at any point comes to the same as enforcement from the start. -/
theorem parser_of_document {d : Document} {tokens : List Token} (h : Emits d tokens) :
    verdict ((createJsonBodyParser false).run tokens) = .ok (some d.value) ∧
    (verdict ((createJsonBodyParser true).run tokens) = .error .structureLimit ↔ tooLarge d) ∧
    (¬ tooLarge d → verdict ((createJsonBodyParser true).run tokens) = .ok (some d.value)) ∧
    ∀ early late, early ++ late = tokens →
      verdict (runLate early late) = verdict ((createJsonBodyParser true).run tokens) := by
  obtain ⟨s, hrun, hroot, hlarge⟩ := run_document h
  have henforced : (createJsonBodyParser true).run tokens = s.checked :=
    JsonBodyParser.run_enforced (s := createJsonBodyParser false) rfl rfl hrun
  refine ⟨?_, ?_, fun hwithin => ?_, ?_⟩
  · rw [hrun]
    exact congrArg Except.ok hroot
  · rw [henforced, ← hlarge]
    unfold JsonBodyParser.checked
    constructor
    · intro hverdict
      by_contra hnot
      rw [if_neg hnot] at hverdict
      cases hverdict
    · intro hexceeds
      rw [if_pos hexceeds]
      rfl
  · rw [henforced]
    unfold JsonBodyParser.checked
    rw [if_neg fun hexceeds => hwithin (hlarge.mp hexceeds)]
    exact congrArg Except.ok hroot
  · rintro early late rfl
    rw [henforced]
    exact congrArg verdict (JsonBodyParser.run_late (s := createJsonBodyParser false) rfl hrun)

/-- `{"a":[],"a":12}` with the number in two chunks. -/
theorem parser_of_document_duplicate : Emits (.obj [(text "a", .arr []), (text "a", .num (text "12"))])
      ([Token.startObject] ++
        [Token.startKey, Token.stringChunk (text "a"), Token.endKey, Token.startArray, Token.endArray] ++
        [Token.startKey, Token.stringChunk (text "a"), Token.endKey, Token.startNumber,
          Token.numberChunk (text "1"), Token.numberChunk (text "2"), Token.endNumber] ++ [Token.endObject]) ∧
    verdict ((createJsonBodyParser true).run ([Token.startObject] ++
        [Token.startKey, Token.stringChunk (text "a"), Token.endKey, Token.startArray, Token.endArray] ++
        [Token.startKey, Token.stringChunk (text "a"), Token.endKey, Token.startNumber,
          Token.numberChunk (text "1"), Token.numberChunk (text "2"), Token.endNumber] ++
            [Token.endObject])) =
      .ok (some (.obj [(text "a", numberOf (text "12"))])) := by
  have hemits : Emits (.obj [(text "a", .arr []), (text "a", .num (text "12"))]) ([Token.startObject] ++
        [Token.startKey, Token.stringChunk (text "a"), Token.endKey, Token.startArray, Token.endArray] ++
        [Token.startKey, Token.stringChunk (text "a"), Token.endKey, Token.startNumber,
          Token.numberChunk (text "1"), Token.numberChunk (text "2"), Token.endNumber] ++
            [Token.endObject]) :=
    .obj (.cons [text "a"] (.arr .nil) (.cons [text "a"] (.num [text "1", text "2"]) .nil))
  refine ⟨hemits, (parser_of_document hemits).2.2.1 ?_⟩
  unfold tooLarge
  decide

end ClawRouter.Body
