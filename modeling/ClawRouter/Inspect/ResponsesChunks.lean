/-
  Subject:   The usage of a Responses call does not depend on how the network cut its answer, where no
             document is both malformed and past a limit and the text of a stream is well formed.

  * **`usage_of_responses`**: two ways to cut the same bytes give the same;
  * **`usage_by_feeds`**: a limit before an error, or a broken character after an event, is seen or not.
-/
import ClawRouter.Inspect.ResponsesDocument
import ClawRouter.Inspect.ResponsesLines

namespace ClawRouter.Inspect

open Utf16 Js

/-! ## 1. Findings -/

section Findings

variable {T : Tokenizer} {c : ResponsesInspection} {f g : Findings T} {t : Text}

/-- The evidence of a document that came to this. -/
def evidenceOf : Except MetadataFailure Kept → MetadataEvidence
  | .ok kept => .data kept.metadata.root
  | .error failure => failure.evidence

def toolsOf : Except MetadataFailure Kept → Option Value
  | .ok kept => kept.tools.root
  | .error _ => none

def failureOf : Except MetadataFailure Kept → Option MetadataFailure
  | .ok _ => none
  | .error failure => some failure

/-- The evidence of a document that has not ended. -/
def pendingOf : Except MetadataFailure Kept → MetadataEvidence
  | .ok kept => if kept.metadata.complete then .data kept.metadata.root else .unavailable
  | .error failure => failure.evidence

theorem Stands.finish {ids : Identities} {d : MetadataParser T} {feeds : List Text} (hT : T.Streams)
    (h : Stands ids d feeds) (hu : Undisputed T ids feeds.flatten) :
    (d.finish ids).evidence = evidenceOf (Inspect.closing T ids feeds.flatten) ∧
      (d.finish ids).tools = toolsOf (Inspect.closing T ids feeds.flatten) := by
  have hclosing := h.closing hT hu
  unfold MetadataParser.evidence MetadataParser.tools
  cases hend : Inspect.closing T ids feeds.flatten with
  | ok kept =>
    rw [hend] at hclosing
    rw [hclosing.2, hclosing.1]
    exact ⟨rfl, rfl⟩
  | error failure =>
    rw [hend] at hclosing
    rw [hclosing]
    exact ⟨rfl, rfl⟩

theorem Stands.pending {ids : Identities} {d : MetadataParser T} {feeds : List Text} (hT : T.Streams)
    (h : Stands ids d feeds) (hu : Undisputed T ids feeds.flatten) :
    d.pending = pendingOf (Inspect.standing T ids feeds.flatten) ∧
      d.failure = failureOf (Inspect.standing T ids feeds.flatten) := by
  have hstanding := h.standing hT hu
  unfold MetadataParser.pending
  cases hst : Inspect.standing T ids feeds.flatten with
  | ok kept =>
    rw [hst] at hstanding
    obtain ⟨state, rfl, _⟩ := hstanding
    exact ⟨rfl, rfl⟩
  | error failure =>
    rw [hst] at hstanding
    rw [hstanding.2]
    exact ⟨rfl, rfl⟩

/-- Two findings that say the same, of documents with the same text. -/
structure Alike (c : ResponsesInspection) (t : Text) (f g : Findings T) : Prop where
  left : ∃ feeds : List Text, feeds.flatten = t ∧ Stands c.ids f.document feeds
  right : ∃ feeds : List Text, feeds.flatten = t ∧ Stands c.ids g.document feeds
  accumulator : f.accumulator = g.accumulator
  hosted : f.hosted = g.hosted
  observed : f.observed = g.observed

theorem Alike.start : Alike c [] (Findings.start c : Findings T) (.start c) :=
  ⟨⟨[], rfl, fresh_stands⟩, ⟨[], rfl, fresh_stands⟩, rfl, rfl, rfl⟩

theorem Alike.trans {h : Findings T} (hfg : Alike c t f g) (hgh : Alike c t g h) : Alike c t f h :=
  ⟨hfg.left, hgh.right, hfg.accumulator.trans hgh.accumulator, hfg.hosted.trans hgh.hosted,
    hfg.observed.trans hgh.observed⟩

theorem Alike.symm (h : Alike c t f g) : Alike c t g f :=
  ⟨h.right, h.left, h.accumulator.symm, h.hosted.symm, h.observed.symm⟩

theorem Alike.push (h : Alike c t f g) (s : Text) :
    Alike c (t ++ s) (f.apply c (.data s)) ((s.map fun u => LineOp.data [u]).foldl (Findings.apply c) g) := by
  have hleft : ∀ {f : Findings T} {t s : Text},
    (∃ feeds : List Text, feeds.flatten = t ∧ Stands c.ids f.document feeds) →
      ∃ feeds : List Text, feeds.flatten = t ++ s ∧ Stands c.ids (f.apply c (.data s)).document feeds := by
    rintro f t s ⟨feeds, rfl, hstands⟩
    exact ⟨feeds ++ [s], by simp, push_stands hstands s⟩
  have hunits : ∀ (s : Text) {t : Text} {g : Findings T},
      (∃ feeds : List Text, feeds.flatten = t ∧ Stands c.ids g.document feeds) →
      (∃ feeds : List Text, feeds.flatten = t ++ s ∧
        Stands c.ids ((s.map fun u => LineOp.data [u]).foldl (Findings.apply c) g).document feeds) ∧
      ((s.map fun u => LineOp.data [u]).foldl (Findings.apply c) g).accumulator = g.accumulator ∧
      ((s.map fun u => LineOp.data [u]).foldl (Findings.apply c) g).hosted = g.hosted ∧
      ((s.map fun u => LineOp.data [u]).foldl (Findings.apply c) g).observed = g.observed := by
    intro s
    induction s with
    | nil =>
      intro t g hg
      rw [List.append_nil]
      exact ⟨hg, rfl, rfl, rfl⟩
    | cons u s ih =>
      intro t g hg
      obtain ⟨hstands, haccumulator, hhosted, hobserved⟩ := ih (@hleft g t [u] hg)
      rw [List.append_assoc] at hstands
      exact ⟨hstands, haccumulator, hhosted, hobserved⟩
  obtain ⟨hright, haccumulator, hhosted, hobserved⟩ := hunits s h.right
  exact ⟨hleft h.left, hright, h.accumulator.trans haccumulator.symm, h.hosted.trans hhosted.symm,
    h.observed.trans hobserved.symm⟩

theorem dispatch_of_evidence {evidence : MetadataEvidence} {tools : Option Value}
    (haccumulator : f.accumulator = g.accumulator) (hhosted : f.hosted = g.hosted)
      (hobserved : f.observed = g.observed)
    (hf : (f.document.finish c.ids).evidence = evidence ∧ (f.document.finish c.ids).tools = tools)
    (hg : (g.document.finish c.ids).evidence = evidence ∧ (g.document.finish c.ids).tools = tools)
      (b : Boundary) :
    f.dispatch c b = g.dispatch c b := by
  obtain ⟨_, accumulator, hosted, observed⟩ := f
  obtain ⟨_, _, _, _⟩ := g
  subst haccumulator hhosted hobserved
  unfold Findings.dispatch Findings.read Findings.tell
  dsimp only
  rw [hf.1, hg.1, hf.2, hg.2]
  cases b.eventError with
  | true => rfl
  | false =>
    cases (b.hasData && b.hasContent) with
    | false => rfl
    | true =>
      cases b.done with
      | true => rfl
      | false => cases evidence <;> rfl

theorem Alike.dispatch (hT : T.Streams) (h : Alike c t f g) (hu : Undisputed T c.ids t) (b : Boundary) :
    Alike c [] (f.dispatch c b) (g.dispatch c b) := by
  obtain ⟨xs, rfl, hf⟩ := h.left
  obtain ⟨ys, hys, hg⟩ := h.right
  have hfinish := hf.finish hT hu
  have hfinish' := hg.finish hT (hys ▸ hu)
  rw [hys] at hfinish'
  have hsame := dispatch_of_evidence h.accumulator h.hosted h.observed hfinish hfinish' b
  have hfresh : (g.dispatch c b).document = MetadataParser.fresh := rfl
  rw [hsame]
  exact ⟨⟨[], rfl, hfresh ▸ fresh_stands⟩, ⟨[], rfl, hfresh ▸ fresh_stands⟩, rfl, rfl, rfl⟩

/-- The texts of the documents, the last one as far as it goes. -/
def documents (t : Text) : List LineOp → List Text
  | [] => [t]
  | .data s :: rest => documents (t ++ s) rest
  | .boundary _ :: rest => t :: documents [] rest

def lastText (t : Text) : List LineOp → Text
  | [] => t
  | .data s :: rest => lastText (t ++ s) rest
  | .boundary _ :: rest => lastText [] rest

theorem lastText_mem (t : Text) (ops : List LineOp) : lastText t ops ∈ documents t ops := by
  induction ops generalizing t with
  | nil => exact List.mem_singleton_self t
  | cons op rest ih =>
    cases op with
    | data s => exact ih (t ++ s)
    | boundary b => exact List.mem_cons_of_mem _ (ih [])

theorem documents_units (t : Text) (ops : List LineOp) :
    documents t (unitOps ops) = documents t ops ∧ lastText t (unitOps ops) = lastText t ops := by
  have hunits : ∀ (s : Text) (t : Text) (rest : List LineOp),
      documents t ((s.map fun u => LineOp.data [u]) ++ rest) = documents (t ++ s) rest ∧
      lastText t ((s.map fun u => LineOp.data [u]) ++ rest) = lastText (t ++ s) rest := by
    intro s
    induction s with
    | nil =>
      intro t rest
      rw [List.append_nil]
      exact ⟨rfl, rfl⟩
    | cons u s ih =>
      intro t rest
      have hnext := ih (t ++ [u]) rest
      rw [List.append_assoc] at hnext
      exact hnext
  induction ops generalizing t with
  | nil => exact ⟨rfl, rfl⟩
  | cons op rest ih =>
    cases op with
    | data s =>
      obtain ⟨hdocuments, hlast⟩ := hunits s t (unitOps rest)
      exact ⟨hdocuments.trans (ih _).1, hlast.trans (ih _).2⟩
    | boundary b => exact ⟨congrArg (t :: ·) (ih []).1, (ih []).2⟩

theorem Alike.run (hT : T.Streams) (ops : List LineOp) (h : Alike c t f g)
    (hu : ∀ u ∈ documents t ops, Undisputed T c.ids u) :
    Alike c (lastText t ops) (ops.foldl (Findings.apply c) f) ((unitOps ops).foldl (Findings.apply c) g) := by
  induction ops generalizing t f g with
  | nil => exact h
  | cons op rest ih =>
    have hcons : unitOps (op :: rest) = unitOps [op] ++ unitOps rest := unitOps_append [op] rest
    rw [hcons, List.foldl_append, List.foldl_cons]
    cases op with
    | data s =>
      have hone : unitOps [.data s] = s.map fun u => LineOp.data [u] := List.append_nil _
      rw [hone]
      exact ih (h.push s) hu
    | boundary b =>
      have hfirst : Undisputed T c.ids t := hu t List.mem_cons_self
      have hlater : ∀ u ∈ documents [] rest, Undisputed T c.ids u := by
        intro u hmem
        exact hu u (List.mem_cons_of_mem t hmem)
      exact ih (h.dispatch hT hfirst b) hlater

theorem Alike.of_units (hT : T.Streams) {xs ys : List LineOp} (h : unitOps xs = unitOps ys)
    (hu : ∀ u ∈ documents [] xs, Undisputed T c.ids u) :
    Alike c (lastText [] xs) (xs.foldl (Findings.apply c) (Findings.start c : Findings T))
      (ys.foldl (Findings.apply c) (.start c)) := by
  have hsame : documents [] ys = documents [] xs ∧ lastText [] ys = lastText [] xs := by
    rw [← (documents_units [] ys).1, ← (documents_units [] xs).1, ← (documents_units [] ys).2,
      ← (documents_units [] xs).2, h]
    exact ⟨rfl, rfl⟩
  have hx := Alike.run hT xs (Alike.start (T := T) (c := c)) hu
  have hy := Alike.run hT ys (Alike.start (T := T) (c := c)) (hsame.1 ▸ hu)
  rw [hsame.2, ← h] at hy
  exact hx.trans hy.symm

end Findings

/-! ## 2. Bytes -/

section Bytes

variable {T : Tokenizer} {c : ResponsesInspection} {s r : ResponsesInspector T} {t : Text}

theorem flatten_blocks (bytes : List UInt8) : (blocks bytes).flatten = bytes := by
  have hblocks : ∀ (most : Nat) (bytes : List UInt8), bytes.length ≤ most →
    (blocksOf most bytes).flatten = bytes := by
    intro most
    induction most with
    | zero =>
      intro bytes hlen
      rw [List.length_eq_zero_iff.mp (Nat.le_zero.mp hlen)]
      rfl
    | succ most ih =>
      intro bytes hlen
      cases bytes with
      | nil => rfl
      | cons b bytes =>
        have hrest : ((b :: bytes).drop feedLimit).length ≤ most := by
          rw [List.length_drop]
          have hlimit : feedLimit = 4096 := rfl
          omega
        rw [blocksOf, List.flatten_cons, ih _ hrest, List.take_append_drop]
        nofun
  exact hblocks bytes.length bytes (Nat.le_refl _)

theorem flatten_flatMap_blocks (chunks : List (List UInt8)) :
    (chunks.flatMap blocks).flatten = chunks.flatten := by
  induction chunks with
  | nil => rfl
  | cons chunk rest ih => rw [List.flatMap_cons, List.flatten_append, flatten_blocks, ih, List.flatten_cons]

theorem pushes_eq (chunks : List (List UInt8)) (s : ResponsesInspector T) :
    chunks.foldl (ResponsesInspector.push c) s =
      (chunks.flatMap blocks).foldl (ResponsesInspector.pushBlock c) s := by
  rw [List.foldl_flatMap]
  rfl

/-- What a text does to the lines and to the document. -/
def opsOf (c : ResponsesInspection) (l : Lines) (t : Text) : Lines × List LineOp :=
  if c.sse then l.readFrom [] t else (l, [.data t])

theorem opsOf_append (l : Lines) (xs ys : Text) : (opsOf c l (xs ++ ys)).1 = (opsOf c (opsOf c l xs).1 ys).1 ∧
      unitOps (opsOf c l (xs ++ ys)).2 = unitOps (opsOf c l xs).2 ++ unitOps
        (opsOf c (opsOf c l xs).1 ys).2 := by
  unfold opsOf
  by_cases hsse : c.sse = true
  · simp only [hsse, if_true]
    exact l.readFrom_append xs ys
  · simp only [hsse, Bool.false_eq_true, if_false]
    refine ⟨trivial, ?_⟩
    unfold unitOps
    simp

theorem opsOf_nil (l : Lines) : (opsOf c l []).1 = l ∧ unitOps (opsOf c l []).2 = [] := by
  unfold opsOf
  split
  · exact ⟨rfl, rfl⟩
  · exact ⟨rfl, rfl⟩

theorem readText_eq (s : ResponsesInspector T) (t : Text) : s.readText c t = { s with
        lines := (opsOf c s.lines t).1
        findings := (opsOf c s.lines t).2.foldl (Findings.apply c) s.findings } := by
  unfold ResponsesInspector.readText opsOf
  split <;> rfl

theorem decodeStream_nil (d : TextDecoder.Stream) : TextDecoder.decodeStream true d [] = some ([], d) := by
  unfold TextDecoder.decodeStream
  simp [TextDecoder.feedBytes, TextDecoder.withoutMark]

theorem foldl_pushBlock (zs : List (List UInt8)) {s : ResponsesInspector T} (hs : s.stopped = false) {t : Text}
    {d : TextDecoder.Stream} (hd : TextDecoder.decodeStream true s.decoder zs.flatten = some (t, d)) :
    ∃ ops, unitOps ops = unitOps (opsOf c s.lines t).2 ∧ zs.foldl (ResponsesInspector.pushBlock c) s = { s with
          decoder := d, lines := (opsOf c s.lines t).1, findings :=
            ops.foldl (Findings.apply c) s.findings } := by
  induction zs generalizing s t d with
  | nil =>
    rw [List.flatten_nil, decodeStream_nil] at hd
    cases hd
    refine ⟨[], (opsOf_nil s.lines).2.symm, ?_⟩
    rw [(opsOf_nil s.lines).1]
    rfl
  | cons z zs ih =>
    rw [List.flatten_cons, TextDecoder.decodeStream_append] at hd
    cases hz : TextDecoder.decodeStream true s.decoder z with
    | none =>
      rw [hz] at hd
      cases hd
    | some r =>
      rw [hz, Option.bind_some] at hd
      cases hrest : TextDecoder.decodeStream true r.2 zs.flatten with
      | none =>
        rw [hrest] at hd
        cases hd
      | some u =>
        rw [hrest] at hd
        cases hd
        obtain ⟨hlines, hops⟩ := opsOf_append (c := c) s.lines r.1 u.1
        have hblock : s.pushBlock c z = { s with
              decoder := r.2
              lines := (opsOf c s.lines r.1).1
              findings := (opsOf c s.lines r.1).2.foldl (Findings.apply c) s.findings } := by
          unfold ResponsesInspector.pushBlock
          rw [hs, hz]
          exact readText_eq _ _
        obtain ⟨later, hlater, hall⟩ := @ih (s.pushBlock c z) (by rw [hblock]; exact hs) u.1 u.2
          (by rw [hblock]; exact hrest)
        rw [hblock] at hlater hall
        refine ⟨(opsOf c s.lines r.1).2 ++ later, ?_, ?_⟩
        · rw [unitOps_append, hlater, hops]
        · rw [List.foldl_cons, hblock, hall, List.foldl_append, hlines]

theorem stopped_pushBlocks (zs : List (List UInt8)) (hs : s.stopped = true) :
    zs.foldl (ResponsesInspector.pushBlock c) s = s := by
  induction zs with
  | nil => rfl
  | cons z zs ih =>
    have hblock : s.pushBlock c z = s := by
      unfold ResponsesInspector.pushBlock
      rw [hs, if_pos rfl]
    rw [List.foldl_cons, hblock, ih]

theorem undecodable_pushBlocks (hjson : c.sse = false) (zs : List (List UInt8)) {s : ResponsesInspector T}
    (hs : s.stopped = false) (hd : TextDecoder.decodeStream true s.decoder zs.flatten = none) :
    let s' := zs.foldl (ResponsesInspector.pushBlock c) s
    s'.stopped = true ∧ s'.json = ⟨none, some .providerError⟩ ∧
      s'.findings.hosted = s.findings.hosted.invalid ∧ s'.findings.observed = s.findings.observed := by
  induction zs generalizing s with
  | nil =>
    rw [List.flatten_nil, decodeStream_nil] at hd
    cases hd
  | cons z zs ih =>
    rw [List.flatten_cons, TextDecoder.decodeStream_append] at hd
    rw [List.foldl_cons]
    cases hz : TextDecoder.decodeStream true s.decoder z with
    | none =>
      have hblock : s.pushBlock c z = s.invalidUtf8 c := by
        unfold ResponsesInspector.pushBlock
        rw [hs, hz]
        rfl
      rw [hblock, stopped_pushBlocks zs rfl]
      unfold ResponsesInspector.invalidUtf8
      simp [hjson]
    | some r =>
      have hblock : s.pushBlock c z = { s with
            decoder := r.2
            findings := s.findings.apply c (.data r.1) } := by
        unfold ResponsesInspector.pushBlock ResponsesInspector.readText
        rw [hs, hz]
        simp [hjson]
      rw [hz, Option.bind_some, Option.map_eq_none_iff] at hd
      rw [hblock]
      exact @ih { s with decoder := r.2, findings := s.findings.apply c (.data r.1) } hs hd

/-! ## 3. The end -/

/-- Two inspectors between which no result tells. -/
structure Shown (c : ResponsesInspection) (s r : ResponsesInspector T) : Prop where
  decoder : s.decoder = r.decoder
  lines : s.lines = r.lines
  json : s.json = r.json
  stopped : s.stopped = r.stopped
  undecodedData : s.undecodedData = r.undecodedData
  accumulator : s.findings.accumulator = r.findings.accumulator
  hosted : s.findings.hosted = r.findings.hosted
  observed : s.findings.observed = r.findings.observed
  failure : c.sse = true → s.findings.document.failure = r.findings.document.failure
  pending : c.sse = true → s.findings.document.pending = r.findings.document.pending

theorem Shown.finishDecoder (h : Shown c s r) : Shown c (s.finishDecoder c) (r.finishDecoder c) := by
  have hinvalid : ∀ {s r : ResponsesInspector T}, Shown c s r → Shown c (s.invalidUtf8 c)
    (r.invalidUtf8 c) := by
    intro s r h
    have hstop : ∀ {d e : MetadataParser T}, d.failure = e.failure → d.stop.pending = e.stop.pending := by
      intro d e hfailure
      unfold MetadataParser.pending MetadataParser.stop
      rw [hfailure]
      rfl
    have haccumulator := h.accumulator
    have hhosted := h.hosted
    unfold ResponsesInspector.invalidUtf8 Findings.tell
    by_cases hsse : c.sse = true
    · simp only [hsse, if_true]
      refine ⟨h.decoder, h.lines, h.json, rfl, h.undecodedData, ?_, ?_, h.observed, h.failure, fun hc => ?_⟩
      · rw [haccumulator]
      · rw [hhosted]
      · exact hstop (h.failure hc)
    · simp only [hsse, Bool.false_eq_true, if_false]
      refine ⟨h.decoder, h.lines, rfl, rfl, h.undecodedData, haccumulator, ?_, h.observed,
        fun hc => absurd hc hsse, fun hc => absurd hc hsse⟩
      rw [hhosted]
  have hstream : Shown c { s with decoder := TextDecoder.stream } { r with decoder := TextDecoder.stream } :=
    ⟨rfl, h.lines, h.json, h.stopped, h.undecodedData, h.accumulator, h.hosted, h.observed,
      h.failure, h.pending⟩
  unfold ResponsesInspector.finishDecoder
  rw [h.decoder]
  by_cases hflushed : (TextDecoder.flushStream true r.decoder).isSome = true
  · rw [if_pos hflushed, if_pos hflushed]
    exact hstream
  · rw [if_neg hflushed, if_neg hflushed]
    by_cases hrevokes : (c.sse && c.revokes) = true
    · rw [if_pos hrevokes, if_pos hrevokes]
      refine ⟨rfl, h.lines, h.json, h.stopped, ?_, h.accumulator, h.hosted, h.observed, h.failure, h.pending⟩
      rw [h.undecodedData, h.lines]
    · rw [if_neg hrevokes, if_neg hrevokes]
      exact hinvalid hstream

theorem Shown.result (h : Shown c s r) (ended : Bool) : s.result c ended = r.result c ended := by
  have hclose : ∀ {s r : ResponsesInspector T}, c.sse = true → Shown c s r →
    (if !c.revokes then s.findings.accumulator
        else if s.undecodedData then s.findings.accumulator.unfinished none (some .invalid)
        else if s.lines.hasData && s.lines.hasContent then
          s.findings.accumulator.unfinished none (some s.unfinished)
        else s.findings.accumulator) =
      (if !c.revokes then r.findings.accumulator
        else if r.undecodedData then r.findings.accumulator.unfinished none (some .invalid)
        else if r.lines.hasData && r.lines.hasContent then
          r.findings.accumulator.unfinished none (some r.unfinished)
        else r.findings.accumulator) ∧ s.findings.document.unavailable = r.findings.document.unavailable := by
    intro s r hsse h
    unfold ResponsesInspector.unfinished MetadataParser.unavailable
    rw [h.accumulator, h.undecodedData, h.lines, h.pending hsse, h.failure hsse]
    exact ⟨rfl, rfl⟩
  unfold ResponsesInspector.result
  rw [h.stopped, h.json]
  by_cases hsse : c.sse = true
  · rw [if_pos hsse, if_pos hsse]
    dsimp only
    by_cases hcancelled : (c.revokes && !ended && !r.stopped) = true
    · obtain ⟨haccumulator, hunavailable⟩ := hclose hsse h.finishDecoder
      rw [if_pos hcancelled, if_pos hcancelled, haccumulator, hunavailable]
    · obtain ⟨haccumulator, hunavailable⟩ := hclose hsse h
      rw [if_neg hcancelled, if_neg hcancelled, haccumulator, hunavailable]
  · rw [if_neg hsse, if_neg hsse]

/-- An inspector to which chunks were pushed, and `end` as well where the answer `finished`. -/
def inspected (T : Tokenizer) (c : ResponsesInspection) (chunks : List (List UInt8)) (finished : Bool) :
    ResponsesInspector T :=
  let s := chunks.foldl (ResponsesInspector.push c) (.create c)
  if finished then s.finish c else s

/-- The texts of the documents in the bytes; none where they do not decode. -/
def documentTexts (c : ResponsesInspection) (bytes : List UInt8) : List Text :=
  match TextDecoder.decodeStream true TextDecoder.stream bytes with
  | none => []
  | some (t, _) => documents [] (opsOf c .fresh t).2

theorem blocks_shown (hT : T.Streams) {xs ys : List (List UInt8)} (h : xs.flatten = ys.flatten) {t : Text}
    {d : TextDecoder.Stream} (hd : TextDecoder.decodeStream true TextDecoder.stream xs.flatten = some (t, d))
    (hu : ∀ u ∈ documents [] (opsOf c .fresh t).2, Undisputed T c.ids u) :
    let s := xs.foldl (ResponsesInspector.pushBlock c) (.create c : ResponsesInspector T)
    let r := ys.foldl (ResponsesInspector.pushBlock c) (.create c)
    Alike c (lastText [] (opsOf c .fresh t).2) s.findings r.findings ∧ s.stopped = false ∧
      r = { s with findings := r.findings } := by
  obtain ⟨xops, hxunits, hx⟩ := foldl_pushBlock (c := c) xs (s := .create c) rfl hd
  obtain ⟨yops, hyunits, hy⟩ := foldl_pushBlock (c := c) ys
    (s := (.create c : ResponsesInspector T)) rfl (h ▸ hd)
  have hsame : documents [] xops = documents [] (opsOf c .fresh t).2 ∧
      lastText [] xops = lastText [] (opsOf c .fresh t).2 := by
    have hx' := documents_units [] xops
    rw [hxunits] at hx'
    have hall := documents_units [] (opsOf c .fresh t).2
    exact ⟨hx'.1.symm.trans hall.1, hx'.2.symm.trans hall.2⟩
  have halike := Alike.of_units (c := c) hT (hxunits.trans hyunits.symm) (hsame.1.symm ▸ hu)
  rw [hsame.2] at halike
  rw [hx, hy]
  exact ⟨halike, rfl, rfl⟩

theorem Alike.shown (hT : T.Streams) {f g : Findings T} (h : Alike c t f g) (hu : Undisputed T c.ids t) :
    Shown c { s with findings := f } { s with findings := g } := by
  have hdocument : f.document.failure = g.document.failure ∧ f.document.pending = g.document.pending := by
    obtain ⟨xs, rfl, hf⟩ := h.left
    obtain ⟨ys, hys, hg⟩ := h.right
    have hpending := hf.pending hT hu
    have hpending' := hg.pending hT (hys ▸ hu)
    rw [hys] at hpending'
    exact ⟨hpending.2.trans hpending'.2.symm, hpending.1.trans hpending'.1.symm⟩
  exact ⟨rfl, rfl, rfl, rfl, rfl, h.accumulator, h.hosted,
    h.observed, fun _ => hdocument.1, fun _ => hdocument.2⟩

theorem finishDocument_shown (hT : T.Streams) {f g : Findings T} (h : Alike c t f g)
    (hu : Undisputed T c.ids t)
    (hjson : c.sse = false) : Shown c (({ s with findings := f } : ResponsesInspector T).finishDocument c)
      (({ s with findings := g } : ResponsesInspector T).finishDocument c) := by
  obtain ⟨xs, rfl, hf⟩ := h.left
  obtain ⟨ys, hys, hg⟩ := h.right
  have hfinish := hf.finish hT hu
  have hfinish' := hg.finish hT (hys ▸ hu)
  rw [hys] at hfinish'
  have hno : ∀ {p : Prop}, c.sse = true → p := fun hsse => by
    rw [hjson] at hsse
    cases hsse
  unfold ResponsesInspector.finishDocument
  dsimp only
  rw [hfinish.1, hfinish'.1]
  cases evidenceOf (closing T c.ids xs.flatten) with
  | data value =>
    unfold Findings.read
    rw [hfinish.2, hfinish'.2, h.hosted, h.observed]
    exact ⟨rfl, rfl, rfl, rfl, rfl, h.accumulator, rfl, rfl, hno, hno⟩
  | invalid | unavailable =>
    refine ⟨rfl, rfl, rfl, rfl, rfl, h.accumulator, ?_, h.observed, hno, hno⟩
    exact congrArg HostedSearch.invalid h.hosted

theorem finish_shown (hT : T.Streams) {f g : Findings T} (h : Alike c t f g) (hu : Undisputed T c.ids t)
    (hs : s.stopped = false) : Shown c (({ s with findings := f } : ResponsesInspector T).finish c)
      (({ s with findings := g } : ResponsesInspector T).finish c) := by
  have hshown := @Alike.shown T c s t hT f g h hu
  have hdecoder := hshown.finishDecoder
  obtain ⟨decoder, lines, _, json, _, undecodedData⟩ := s
  subst hs
  unfold ResponsesInspector.finish
  dsimp only
  rw [if_neg Bool.false_ne_true, if_neg Bool.false_ne_true]
  cases hsse : c.sse with
  | true =>
    rw [Bool.or_true, Bool.or_true, if_pos rfl, if_pos rfl]
    exact hdecoder
  | false =>
    cases hflushed : (TextDecoder.flushStream true decoder).isSome with
    | true =>
      have hopen : ∀ f : Findings T, ResponsesInspector.finishDecoder c
        ⟨decoder, lines, f, json, false, undecodedData⟩ =
          ⟨TextDecoder.stream, lines, f, json, false, undecodedData⟩ := by
        intro f
        unfold ResponsesInspector.finishDecoder
        rw [if_pos hflushed]
      rw [hopen, hopen]
      exact @finishDocument_shown T c ⟨TextDecoder.stream, lines, f, json, false, undecodedData⟩ t
        hT f g h hu hsse
    | false =>
      have hstopped : ∀ f : Findings T,
          (ResponsesInspector.finishDecoder c
            ⟨decoder, lines, f, json, false, undecodedData⟩).stopped = true := by
        intro f
        unfold ResponsesInspector.finishDecoder
        simp [hflushed, hsse, ResponsesInspector.invalidUtf8]
      rw [hstopped, hstopped, Bool.true_or, if_pos rfl, if_pos rfl]
      exact hdecoder

theorem undecodable_inspected (hjson : c.sse = false) {xs : List (List UInt8)}
    (hd : TextDecoder.decodeStream true TextDecoder.stream xs.flatten = none) (finished : Bool) :
    let s := inspected T c xs finished
    s.json = ⟨none, some .providerError⟩ ∧ s.findings.observed = [] ∧
      s.findings.hosted = createHostedSearchUsage.invalid := by
  rw [← flatten_flatMap_blocks] at hd
  obtain ⟨hstopped, hresult, hhosted, hobserved⟩ :=
    undecodable_pushBlocks hjson (xs.flatMap blocks) (s := (.create c : ResponsesInspector T)) rfl hd
  have hfinish : inspected T c xs finished =
      (xs.flatMap blocks).foldl (ResponsesInspector.pushBlock c) (.create c) := by
    unfold inspected
    rw [pushes_eq]
    unfold ResponsesInspector.finish
    dsimp only
    rw [hstopped]
    cases finished <;> rfl
  rw [hfinish]
  exact ⟨hresult, hobserved, hhosted⟩

/-- **The usage does not depend on the cuts.** -/
theorem usage_of_responses (hT : T.Streams) {xs ys : List (List UInt8)} (h : xs.flatten = ys.flatten)
    (hdecodes : c.sse = true → TextDecoder.decodeStream true TextDecoder.stream xs.flatten ≠ none)
    (hdocuments : ∀ u ∈ documentTexts c xs.flatten, Undisputed T c.ids u) (finished ended : Bool) :
    (inspected T c xs finished).result c ended = (inspected T c ys finished).result c ended ∧
      (inspected T c xs finished).findings.observed = (inspected T c ys finished).findings.observed ∧
      (inspected T c xs finished).hostedUsage ended = (inspected T c ys finished).hostedUsage ended := by
  unfold documentTexts at hdocuments
  cases hd : TextDecoder.decodeStream true TextDecoder.stream xs.flatten with
  | some decoded =>
    rw [hd] at hdocuments
    have hflatten : (xs.flatMap blocks).flatten = (ys.flatMap blocks).flatten := by
      rw [flatten_flatMap_blocks, flatten_flatMap_blocks, h]
    rw [← flatten_flatMap_blocks] at hd
    obtain ⟨halike, hopen, hsame⟩ := blocks_shown hT hflatten hd hdocuments
    have hlast := hdocuments _ (lastText_mem [] (opsOf c .fresh decoded.1).2)
    have hshown : Shown c (inspected T c xs finished) (inspected T c ys finished) := by
      unfold inspected
      rw [pushes_eq, pushes_eq]
      dsimp only
      rw [hsame]
      cases finished with
      | true => exact finish_shown hT halike hlast hopen
      | false => exact halike.shown hT hlast
    refine ⟨hshown.result ended, hshown.observed, ?_⟩
    exact congrArg (HostedSearch.result · ended) hshown.hosted
  | none =>
    have hjson : c.sse = false := by
      rw [Bool.eq_false_iff]
      exact fun hsse => hdecodes hsse hd
    obtain ⟨hx, hxobserved, hxhosted⟩ := undecodable_inspected (T := T) hjson hd finished
    obtain ⟨hy, hyobserved, hyhosted⟩ := undecodable_inspected (T := T) hjson (h ▸ hd) finished
    refine ⟨?_, hxobserved.trans hyobserved.symm, ?_⟩
    · unfold ResponsesInspector.result
      rw [hjson, hx, hy]
      rfl
    · exact congrArg (HostedSearch.result · ended) (hxhosted.trans hyhosted.symm)

end Bytes

/-! ## 4. A tokenizer of brackets -/

section Brackets

variable {σ : Type}

def tokenizeUnits (step : σ → UInt16 → Option (σ × List Token)) (s : σ) : Text → Option (σ × List Token)
  | [] => some (s, [])
  | u :: rest => (step s u).bind fun r => (tokenizeUnits step r.1 rest).map fun v => (v.1, r.2 ++ v.2)

/-- A tokenizer that goes unit by unit and checks the end. -/
abbrev unitTokenizer (start : σ) (step : σ → UInt16 → Option (σ × List Token)) (isEnd : σ → Bool) :
    Tokenizer where
  State :=
  σ
  start := start
  step := fun s input =>
    match input with
    | some t => tokenizeUnits step s t
    | none => if isEnd s then some (s, []) else none

variable {start : σ} {step : σ → UInt16 → Option (σ × List Token)} {isEnd : σ → Bool}

theorem tokenizeUnits_append (s : σ) (xs ys : Text) : tokenizeUnits step s (xs ++ ys) =
      (tokenizeUnits step s xs).bind fun r => (tokenizeUnits step r.1 ys).map fun v => (v.1, r.2 ++ v.2) := by
  induction xs generalizing s with
  | nil => simp [tokenizeUnits]
  | cons u xs ih =>
    rw [List.cons_append, tokenizeUnits, tokenizeUnits]
    cases step s u with
    | none => rfl
    | some r =>
      rw [Option.bind_some, Option.bind_some, ih]
      cases tokenizeUnits step r.1 xs with
      | none => rfl
      | some v =>
        rw [Option.bind_some, Option.map_some, Option.bind_some]
        cases tokenizeUnits step v.1 ys with
        | none => rfl
        | some w => simp [List.append_assoc]

theorem unitTokenizer_run (s : (unitTokenizer start step isEnd).State) (xs : List Text) :
    (unitTokenizer start step isEnd).run s xs = tokenizeUnits step s xs.flatten := by
  induction xs generalizing s with
  | nil => rfl
  | cons t xs ih =>
    unfold Tokenizer.run
    rw [List.flatten_cons, tokenizeUnits_append]
    by_cases ht : t = []
    · rw [if_pos ht, ih, ht]
      simp [tokenizeUnits]
    · rw [if_neg ht]
      exact congrArg (Option.bind _) (funext fun r => congrArg (Option.map _) (ih r.1))

theorem unitTokenizer_streams : (unitTokenizer start step isEnd).Streams where
  text xs ys h := by rw [unitTokenizer_run, unitTokenizer_run, h]
  document xs ys h := by
    unfold Tokenizer.complete
    rw [unitTokenizer_run, unitTokenizer_run, h]

/-- How many arrays are open, and whether a value has just ended. -/
def bracketStep (s : Nat × Bool) (u : UInt16) : Option ((Nat × Bool) × List Token) :=
  if u = 0x5b ∧ s.2 = false then some ((s.1 + 1, false), [.startArray])
  else if u = 0x5d ∧ 0 < s.1 then some ((s.1 - 1, true), [.endArray])
  else none

def brackets : Tokenizer := unitTokenizer (0, false) bracketStep fun s => s.1 == 0 && s.2

def usageOnly (sse : Bool) : ResponsesInspection := ⟨sse, false, false, false, fun _ => none⟩

/-- `data: [[]]` and `data: []`, as bytes. -/
def bracketEvents : List UInt8 :=
  [0x64, 0x61, 0x74, 0x61, 0x3a, 0x20, 0x5b, 0x5b, 0x5d, 0x5d, 0x0a, 0x0a,
  0x64, 0x61, 0x74, 0x61, 0x3a, 0x20, 0x5b, 0x5d, 0x0a, 0x0a]

/-- Two events of arrays, cut in the name of the field, in an array, and between the line ends. -/
theorem usage_of_brackets :
    let xs : List (List UInt8) := [bracketEvents.take 2, (bracketEvents.drop 2).take 6,
      (bracketEvents.drop 8).take 3,
      bracketEvents.drop 11]
    (inspected brackets (usageOnly true) xs true).result (usageOnly true) true =
        (inspected brackets (usageOnly true) [xs.flatten] true).result (usageOnly true) true ∧
      (inspected brackets (usageOnly true) xs true).findings.observed =
        (inspected brackets (usageOnly true) [xs.flatten] true).findings.observed ∧
      (inspected brackets (usageOnly true) xs true).hostedUsage true =
        (inspected brackets (usageOnly true) [xs.flatten] true).hostedUsage true := by
  refine usage_of_responses unitTokenizer_streams rfl (fun _ => by decide +kernel) (fun u hu => ?_) true true
  have hdocuments : documentTexts (usageOnly true) bracketEvents =
    [[0x5b, 0x5b, 0x5d, 0x5d], [0x5b, 0x5d], []] := by
    decide +kernel
  have hmem : u ∈ [[0x5b, 0x5b, 0x5d, 0x5d], [0x5b, 0x5d], ([] : Text)] := hdocuments ▸ hu
  intro hnone
  simp only [List.mem_cons, List.not_mem_nil, or_false] at hmem
  rcases hmem with rfl | rfl | rfl
  · cases hnone
  · cases hnone
  · cases hnone

/-- **129 arrays that end in a brace, and a broken character after an event**: the cuts tell. -/
theorem usage_by_feeds : brackets.Streams ∧ (let deep : List UInt8 := List.replicate 129 0x5b
     (inspected brackets (usageOnly false) [deep ++ [0x7d]] true).result (usageOnly false) true ≠
       (inspected brackets (usageOnly false) [deep, [0x7d]] true).result (usageOnly false) true) ∧
    (let event : List UInt8 := [0x64, 0x61, 0x74, 0x61, 0x3a, 0x5b, 0x44, 0x4f, 0x4e, 0x45, 0x5d, 0x0a, 0x0a]
     (inspected brackets (usageOnly true) [event ++ [0xff]] true).result (usageOnly true) true ≠
       (inspected brackets (usageOnly true) [event, [0xff]] true).result (usageOnly true) true) := by
  refine ⟨unitTokenizer_streams, ?_, ?_⟩
  · decide +kernel
  · decide +kernel

end Brackets

end ClawRouter.Inspect
