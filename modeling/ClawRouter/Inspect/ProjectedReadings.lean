/-
  Subject:   The accounting reads the same of the projection of a Responses document as of the document.

  * **`projection_of_document`**: usage, outcome, observation and output are those of `JSON.parse`.
-/
import ClawRouter.Inspect.Projected
import ClawRouter.Inspect.Readings
import ClawRouter.Inspect.ResponsesUsage

namespace ClawRouter.Inspect

open Utf16 Js

/-! ## 1. Members -/

variable {c : MetadataContext}
variable {name : String}
variable {members : List (Text × Document)}

section Members

variable {identity receipt : Bool}

theorem lookup_projectMembers (c : MetadataContext) (made : Members)
    (members : List (Text × Document)) (q : Text) :
    (projectMembers identity receipt c made members).lookup q = match selected identity receipt c q with
      | some field => ((members.reverse.lookup q).map (projectField identity receipt field)).or (made.lookup q)
      | none => made.lookup q := by
  induction members generalizing made with
  | nil => cases selected identity receipt c q <;> rfl
  | cons m members ih =>
    obtain ⟨name, item⟩ := m
    rw [projectMembers, List.reverse_cons, Document.lookup_snoc]
    by_cases hq : q = name
    · subst hq
      cases hselected : selected identity receipt c q with
      | none =>
        rw [ih, hselected]
      | some field =>
        rw [ih, hselected, lookup_set, if_pos rfl, if_pos rfl]
        cases members.reverse.lookup q <;> rfl
    · rw [if_neg hq, Option.or_none]
      cases selected identity receipt c name with
      | none =>
        rw [ih]
      | some field =>
        rw [ih, lookup_set, if_neg hq]

def lastOf (members : List (Text × Document)) (name : String) : Option Document :=
  members.reverse.lookup (text name)

theorem document_get (members : List (Text × Document)) (name : String) :
    get (Document.memberValues [] members) name = (lastOf members name).map Document.value := by
  unfold Js.get lastOf
  rw [Document.lookup_memberValues]
  exact Option.or_none

theorem projection_get {field : MetadataField}
    (h : selected identity receipt c (text name) = some field) (members : List (Text × Document)) :
    get (projectMembers identity receipt c [] members) name =
      (lastOf members name).map (projectField identity receipt field) := by
  unfold Js.get lastOf
  rw [lookup_projectMembers, h]
  exact Option.or_none

theorem projection_missing (h : selected identity receipt c (text name) = none)
    (members : List (Text × Document)) :
    get (projectMembers identity receipt c [] members) name = none := by
  unfold Js.get
  rw [lookup_projectMembers, h]
  rfl

theorem projection_absent
    (h : lastOf members name = none) : get (projectMembers identity receipt c [] members) name = none := by
  cases hselected : selected identity receipt c (text name) with
  | none => exact projection_missing hselected members
  | some field =>
    rw [projection_get hselected, h]
    rfl

/-! ## 2. One member -/

def present (m : Option Document) : Option Document :=
  match m with
  | some .null => none
  | m => m

def membersOf : Option Document → Option (List (Text × Document))
  | some (.obj members) => some members
  | _ => none

variable (identity receipt)

theorem nullish_value (m : Option Document) :
    nullish (m.map Document.value) = (present m).map Document.value := by
  rcases m with _ | ⟨⟨⟩ | b | t | t | items | members⟩ <;> rfl

theorem nullish_projected (field : MetadataField) (m : Option Document) :
    nullish (m.map (projectField identity receipt field)) = (present m).map
      (projectField identity receipt field) := by
  rcases m with _ | ⟨⟨⟩ | b | t | t | items | members⟩
  · rfl
  · rfl
  · rfl
  · show nullish (some (if field = .number ∨ field = .error then numberOf t else .num .zero)) =
      some (if field = .number ∨ field = .error then numberOf t else .num .zero)
    split <;> rfl
  · cases field with
    | error =>
      show nullish (some (if t = [] then .str [] else .bool true)) = some
        (if t = [] then .str [] else .bool true)
      split <;> rfl
    | _ => rfl
  · show nullish (some (if field = .output ∧ items.isEmpty = false then .arr [.bool true] else .arr [])) =
      some (if field = .output ∧ items.isEmpty = false then .arr [.bool true] else .arr [])
    split <;> rfl
  · cases field <;> rfl

theorem record_value (m : Option Document) :
    record (m.map Document.value) = (membersOf m).map (Document.memberValues []) := by
  rcases m with _ | ⟨⟨⟩ | b | t | t | items | members⟩ <;> rfl

theorem record_projected (c : MetadataContext) (m : Option Document) :
    record (m.map (projectField identity receipt (.context c))) =
      (membersOf m).map (projectMembers identity receipt c []) := by
  rcases m with _ | ⟨⟨⟩ | b | t | t | items | members⟩ <;> rfl

theorem textOf_projected {field : MetadataField} (h : field = .text ∨ field = .identity)
    (m : Option Document) :
    textOf (m.map (projectField identity receipt field)) = textOf (m.map Document.value) := by
  rcases h with rfl | rfl <;> rcases m with _ | ⟨⟨⟩ | b | t | t | items | members⟩ <;> rfl

theorem numLike_projected (m : Option Document) :
    NumLike (m.map Document.value) (m.map (projectField identity receipt .number)) := by
  rcases m with _ | ⟨⟨⟩ | b | t | t | items | members⟩ <;> exact ⟨rfl, rfl⟩

theorem truthy_projected (m : Option Document) :
    truthy (m.map (projectField identity receipt .error)) = truthy (m.map Document.value) := by
  rcases m with _ | ⟨⟨⟩ | b | t | t | items | members⟩
  case some.str =>
    cases t <;> rfl
  all_goals rfl

theorem itemValues_isEmpty (items : List Document) : (Document.itemValues items).isEmpty = items.isEmpty := by
  cases items <;> rfl

theorem output_projected (m : Option Document) :
    nonemptyOutput (m.map (projectField identity receipt .output)) = nonemptyOutput
      (m.map Document.value) := by
  rcases m with _ | ⟨⟨⟩ | b | t | t | items | members⟩
  case some.arr =>
    show _ = !(Document.itemValues items).isEmpty
    rw [itemValues_isEmpty]
    cases items <;> rfl
  all_goals rfl

end Members

/-! ## 3. Documents that report usage as Responses do -/

/-- The keys of a usage that the projection keeps. -/
def vocabulary : List String :=
  counters ++ ["input_tokens_details", "prompt_tokens_details", "output_tokens_details",
    "completion_tokens_details",
    "cache_creation", "cost_in_usd_ticks"]

/-- A document whose usage is of this vocabulary. -/
structure MetadataVocabulary (r : Members) : Prop where
  google : (has r "usageMetadata" || has r "usage_metadata") = false
  usage : ∀ u, usageRecord (some r) = some u → ∀ key ∈ u.map Prod.fst, key ∈ vocabulary.map text

/-- No message of another protocol: none that has ended, none that was refused and is not billed, and, where
there is no usage in a place of its own, none in a place that only such a message has. -/
structure ResponsesDocument (r : Members) : Prop extends MetadataVocabulary r where
  unended : isText (get r "type") "message-end" = false
  unrefused : refused r = false
  elsewhere : (nullish (get r "usage") <|>
      nullish ((record (get r "response")).bind (get · "usage"))) = none →
    record (nullish ((record (get r "message")).bind (get · "usage")) <|> get r "meta") = none

variable {names : List String}

section Readings

variable {identity receipt : Bool}

/-- The usage a document reports, of its own or of its response. -/
def reportedUsage (members : List (Text × Document)) : Option Document :=
  present (lastOf members "usage") <|> present
    ((membersOf (lastOf members "response")).bind (lastOf · "usage"))

theorem map_orElse {α β : Type} (f : α → β) (x y : Option α) : (x.map f <|> y.map f) = (x <|> y).map f := by
  cases x <;> rfl

theorem orElse_assoc {α : Type} (x y z : Option α) : (x <|> y <|> z) = ((x <|> y) <|> z) := by
  cases x <;> rfl

theorem record_orElse {x rest : Option Value} (h : x = none → record rest = none) :
    record (x <|> rest) = record x := by
  cases x with
  | none => exact h rfl
  | some v => rfl

theorem usageRecord_eq {r : Members} {reported : Option Value}
    (hreported : (nullish (get r "usage") <|> nullish
      ((record (get r "response")).bind (get · "usage"))) = reported)
    (h : reported = none → record (nullish ((record (get r "message")).bind (get · "usage")) <|> get
      r "meta") = none) :
    usageRecord (some r) = record reported := by
  unfold usageRecord
  rw [Option.bind_some, orElse_assoc, hreported, record_orElse h]

theorem reported_value (members : List (Text × Document)) :
    (nullish (get (Document.memberValues [] members) "usage") <|>
      nullish ((record (get (Document.memberValues [] members) "response")).bind (get · "usage"))) =
        (reportedUsage members).map Document.value := by
  have hinner : (record (get (Document.memberValues [] members) "response")).bind (get · "usage") =
      ((membersOf (lastOf members "response")).bind (lastOf · "usage")).map Document.value := by
    rw [document_get, record_value]
    cases membersOf (lastOf members "response") with
    | none => rfl
    | some inner => exact document_get inner "usage"
  rw [hinner, document_get, nullish_value, nullish_value, map_orElse]
  rfl

theorem usageRecord_value (h : ResponsesDocument (Document.memberValues [] members)) :
    usageRecord (some (Document.memberValues [] members)) =
      (membersOf (reportedUsage members)).map (Document.memberValues []) := by
  rw [← record_value]
  refine usageRecord_eq (reported_value members) fun hnone => ?_
  exact h.elsewhere ((reported_value members).trans hnone)

/-- The names the accounting reads at the root, with what is selected of them. -/
def rootNames : List (String × Option MetadataField) :=
  [("type", some .text), ("object", some .text), ("status", some .text), ("service_tier", some .text),
    ("output", some .output), ("error", some .error), ("response", some (.context .response)),
    ("usage", some (.context .usage)), ("message", none), ("meta", none), ("usageMetadata", none),
    ("usage_metadata", none), ("stop_reason", none)]

def responseNames : List (String × Option MetadataField) :=
  [("type", some .text), ("object", some .text), ("status", some .text), ("service_tier", some .text),
    ("output", some .output), ("usage", some (.context .usage))]

def usageNames : List (String × MetadataField) :=
  [("prompt_tokens_details", .context .details), ("input_tokens_details", .context .details),
    ("output_tokens_details", .context .details), ("completion_tokens_details", .context .details),
    ("cache_creation", .context .creation)]

theorem selections : (∀ identity receipt, ∀ p ∈ rootNames, selected identity receipt .root (text p.1) = p.2) ∧
    (∀ identity receipt, ∀ p ∈ responseNames, selected identity receipt .response (text p.1) = p.2) ∧
    (∀ receipt, ∀ c ∈ [MetadataContext.root, .response], selected true receipt c (text "id") = some
      .identity) ∧
    (∀ p ∈ usageNames, selected false false .usage (text p.1) = some p.2) ∧
    (∀ name ∈ countNames, selected false false .usage (text name) = some .number ∨
      text name ∉ vocabulary.map text) ∧
    (∀ name ∈ detailNames, selected false false .details (text name) = some .number) ∧
    (∀ name ∈ creationCounters, selected false false .creation (text name) = some .number) ∧
    ∀ name ∈ plainNames, text name ∉ vocabulary.map text := by
  decide +kernel

theorem selected_root {field : Option MetadataField} (h : (name, field) ∈ rootNames) :
    selected identity receipt .root (text name) = field :=
  selections.1 identity receipt _ h

theorem selected_response {field : Option MetadataField} (h : (name, field) ∈ responseNames) :
    selected identity receipt .response (text name) = field :=
  selections.2.1 identity receipt _ h

theorem selected_id (h : c = .root ∨ c = .response) :
    selected true receipt c (text "id") = some .identity := by
  obtain ⟨_, _, hid, _⟩ := selections
  exact hid receipt c (by rcases h with rfl | rfl <;> decide)

variable (identity receipt) in
theorem usageRecord_projected (members : List (Text × Document)) :
    usageRecord (some (projectMembers identity receipt .root [] members)) =
      (membersOf (reportedUsage members)).map (projectMembers identity receipt .usage []) := by
  have husage : selected identity receipt .root (text "usage") = some (.context .usage) :=
    selected_root (by decide)
  have hresponse : selected identity receipt .root (text "response") = some (.context .response) :=
    selected_root (by decide)
  have hown : selected identity receipt .response (text "usage") = some (.context .usage) :=
    selected_response (by decide)
  have hmessage : selected identity receipt .root (text "message") = none := selected_root (by decide)
  have hmeta : selected identity receipt .root (text "meta") = none := selected_root (by decide)
  have hinner : (record (get (projectMembers identity receipt .root [] members) "response")).bind
    (get · "usage") =
      ((membersOf (lastOf members "response")).bind (lastOf · "usage")).map
        (projectField identity receipt (.context .usage)) := by
    rw [projection_get hresponse, record_projected]
    cases membersOf (lastOf members "response") with
    | none => rfl
    | some inner => exact projection_get hown inner
  rw [← record_projected]
  refine usageRecord_eq ?_ ?_
  · rw [hinner, projection_get husage, nullish_projected, nullish_projected, map_orElse]
    rfl
  · intro _
    rw [projection_missing hmessage, projection_missing hmeta]
    rfl

/-! ## 4. Usage -/

theorem selected_usage {key : Text} {field : MetadataField}
    (h : selected false false .usage key = some field) :
    selected identity receipt .usage key = some field := by
  unfold selected Projection.fieldOf at h ⊢
  split at h
  · cases h
  · rename_i hkey
    rw [if_neg hkey]
    cases hcounter : oneOf counters key with
    | false =>
      rw [hcounter] at h
      cases receipt with
      | false => exact h
      | true =>
        simp only [Bool.false_or, Bool.true_and, Bool.false_and, Bool.false_eq_true, if_false] at h ⊢
        split at h
        · rwa [if_pos ‹_›]
        · rw [if_neg ‹_›]
          split at h
          · rwa [if_pos ‹_›]
          · cases h
    | true =>
      rw [hcounter, Bool.true_or] at h
      exact h

theorem records_alike
    (hnames : ∀ name ∈ names, selected identity receipt c (text name) = some .number) (m : Option Document) :
    RecordLike names (record (m.map Document.value))
      (record (m.map (projectField identity receipt (.context c)))) := by
  rw [record_value, record_projected]
  cases membersOf m with
  | none => exact .missing
  | some inner =>
    refine .both fun name hname => ?_
    rw [document_get, projection_get (hnames name hname)]
    exact numLike_projected identity receipt _

theorem details_alike {a b : String} (ha : selected identity receipt .usage (text a) = some
    (.context .details))
    (hb : selected identity receipt .usage (text b) = some (.context .details))
      (members : List (Text × Document)) :
    RecordLike detailNames
      (record (nullish (get (Document.memberValues [] members) a) <|> get
        (Document.memberValues [] members) b))
      (record (nullish (get (projectMembers identity receipt .usage [] members) a) <|>
        get (projectMembers identity receipt .usage [] members) b)) := by
  have hnames : ∀ name ∈ detailNames, selected identity receipt .details (text name) = some .number := by
    obtain ⟨_, _, _, _, _, hdetails, _⟩ := selections
    exact hdetails
  rw [document_get, document_get, projection_get ha, projection_get hb, nullish_value,
    nullish_projected, map_orElse,
    map_orElse]
  exact records_alike hnames _

theorem lastOf_absent
    (h : text name ∉ (Document.memberValues [] members).map Prod.fst) : lastOf members name = none := by
  have hget : get (Document.memberValues [] members) name = none := lookup_eq_none h
  rw [document_get] at hget
  exact Option.map_eq_none_iff.mp hget

theorem usage_projected (h : ∀ key ∈ (Document.memberValues [] members).map Prod.fst,
    key ∈ vocabulary.map text) :
    UsageAlike (Document.memberValues [] members) (projectMembers identity receipt .usage [] members) := by
  obtain ⟨_, _, _, husage, hkinds, _, hnumbers, hmissing⟩ := selections
  have habsent : ∀ name : String, text name ∉ vocabulary.map text →
    lastOf members name = none := fun name hname =>
    lastOf_absent fun hmem => hname (h _ hmem)
  refine ⟨fun name hname => ?_, details_alike ?_ ?_ members, details_alike ?_ ?_ members,
    ?_, fun name hname => ?_⟩
  · rcases hkinds name hname with hselected | hmissing
    · rw [document_get, projection_get (selected_usage hselected)]
      exact numLike_projected identity receipt _
    · rw [document_get, projection_absent (habsent name hmissing), habsent name hmissing]
      exact .refl _
  · exact selected_usage (husage ("prompt_tokens_details", .context .details) (by decide))
  · exact selected_usage (husage ("input_tokens_details", .context .details) (by decide))
  · exact selected_usage (husage ("output_tokens_details", .context .details) (by decide))
  · exact selected_usage (husage ("completion_tokens_details", .context .details) (by decide))
  · have hcreation : selected identity receipt .usage (text "cache_creation") = some (.context .creation) :=
      selected_usage (husage ("cache_creation", .context .creation) (by decide))
    have hnames : ∀ name ∈ creationCounters, selected identity receipt .creation
      (text name) = some .number := hnumbers
    rw [document_get, projection_get hcreation]
    exact records_alike hnames _
  · have hnone := habsent name (hmissing name hname)
    rw [document_get, projection_absent hnone, hnone]
    rfl

/-! ## 5. Texts -/

/-- The same texts under some names, of two records or of none. -/
structure TextsLike (names : List String) (x y : Option Members) : Prop where
  present : x.isSome = y.isSome
  same : ∀ name ∈ names, textOf (x.bind (get · name)) = textOf (y.bind (get · name))

theorem texts_projected (hnames : ∀ name ∈ names, ∃ field, selected identity receipt c (text name) =
    some field ∧
      (field = .text ∨ field = .identity)) (m : Option (List (Text × Document))) :
    TextsLike names (m.map (Document.memberValues [])) (m.map (projectMembers identity receipt c [])) := by
  cases m with
  | none => exact ⟨rfl, fun _ _ => rfl⟩
  | some members =>
    refine ⟨rfl, fun name hname => ?_⟩
    obtain ⟨field, hselected, hkind⟩ := hnames name hname
    show textOf (get _ name) = textOf (get _ name)
    rw [document_get, projection_get hselected]
    exact (textOf_projected identity receipt hkind _).symm

/-- The texts that are kept of a document and of its response. -/
theorem textKeys_selected (hc : c = .root ∨ c = .response) :
    ∀ name ∈ textKeys, ∃ field, selected identity receipt c (text name) = some field ∧
      (field = .text ∨ field = .identity) := by
  have hall : ∀ name ∈ textKeys, selected identity receipt c (text name) = some .text := by
    intro name hname
    have hroot : ∀ name ∈ textKeys, (name, some MetadataField.text) ∈ rootNames := by decide
    have hresponse : ∀ name ∈ textKeys, (name, some MetadataField.text) ∈ responseNames := by decide
    rcases hc with rfl | rfl
    · exact selected_root (hroot name hname)
    · exact selected_response (hresponse name hname)
  exact fun name hname => ⟨_, hall name hname, .inl rfl⟩

theorem id_selected (hc : c = .root ∨ c = .response) :
    ∀ name ∈ ["id", "status"], ∃ field, selected true receipt c (text name) = some field ∧
      (field = .text ∨ field = .identity) := by
  intro name hname
  rcases List.mem_cons.mp hname with rfl | hname
  · exact ⟨.identity, selected_id hc, .inr rfl⟩
  · obtain rfl := List.mem_singleton.mp hname
    refine ⟨.text, ?_, .inl rfl⟩
    rcases hc with rfl | rfl
    · exact selected_root (by decide)
    · exact selected_response (by decide)

theorem isText_textOf (v : Option Value) (name : String) :
    isText v name = (textOf v == some (text name)) := by
  rcases v with _ | v
  · rfl
  · cases v <;> rfl

theorem extractServiceTier_eq (x : Option Members) :
    extractServiceTier x = (textOf (x.bind (get · "service_tier"))).filter tierName := by
  unfold extractServiceTier
  rcases x.bind (get · "service_tier") with _ | v
  · rfl
  · cases v with
    | str s =>
      show (if tierName s = true then some s else none) = (some s).filter tierName
      rw [Option.filter_some]
    | _ => rfl

theorem TextsLike.orElse {x y z w : Option Members} (h : TextsLike names x y)
    (h' : TextsLike names z w) : TextsLike names (x <|> z) (y <|> w) := by
  obtain ⟨hpresent, hsame⟩ := h
  cases x with
  | none =>
    cases y with
    | none => exact h'
    | some v => cases hpresent
  | some u =>
    cases y with
    | none => cases hpresent
    | some v => exact ⟨rfl, hsame⟩

variable (identity receipt) in
theorem response_projected
    (hnames : ∀ name ∈ names, ∃ field, selected identity receipt .response (text name) = some field ∧
      (field = .text ∨ field = .identity)) (members : List (Text × Document)) :
    TextsLike names (record (get (Document.memberValues [] members) "response"))
      (record (get (projectMembers identity receipt .root [] members) "response")) := by
  have hresponse : selected identity receipt .root (text "response") = some (.context .response) :=
    selected_root (by decide)
  rw [document_get, projection_get hresponse, record_value, record_projected]
  exact texts_projected hnames _

/-! ## 6. Documents -/

variable (identity receipt) in
theorem root_texts (members : List (Text × Document)) :
    TextsLike textKeys (some (Document.memberValues [] members))
    (some (projectMembers identity receipt .root [] members)) :=
  texts_projected (textKeys_selected (.inl rfl)) (some members)

section Root

variable (identity receipt) {members : List (Text × Document)}
    (h : ResponsesDocument (Document.memberValues [] members))
include h

theorem root_projected :
    RootAlike (Document.memberValues [] members) (projectMembers identity receipt .root [] members) := by
  have htexts := root_texts identity receipt members
  have htype : textOf (get (Document.memberValues [] members) "type") =
      textOf (get (projectMembers identity receipt .root [] members) "type") := htexts.same "type" (by decide)
  have hmissing : ∀ name ∈ ["usageMetadata", "usage_metadata", "stop_reason"],
      get (projectMembers identity receipt .root [] members) name = none := by
    have hnames : ∀ name ∈ ["usageMetadata", "usage_metadata", "stop_reason"],
        selected identity receipt .root (text name) = none := by
      have hall : ∀ name ∈ ["usageMetadata", "usage_metadata", "stop_reason"], (name, none) ∈
        rootNames := by decide
      exact fun name hname => selected_root (hall name hname)
    exact fun name hname => projection_missing (hnames name hname) members
  refine ⟨⟨h.google, h.unended⟩, ⟨?_, ?_⟩, ?_, ?_, ?_⟩
  · unfold has
    rw [hmissing "usageMetadata" (by decide), hmissing "usage_metadata" (by decide)]
    rfl
  · rw [isText_textOf, ← htype, ← isText_textOf]
    exact h.unended
  · rw [isText_textOf, isText_textOf, htype]
  · rw [h.unrefused]
    unfold refused
    rw [hmissing "stop_reason" (by decide)]
    exact (congrArg (· && _) (Bool.and_false _)).symm
  · have hresponse := response_projected identity receipt (textKeys_selected (.inr rfl)) members
    unfold tierOf
    rw [extractServiceTier_eq, extractServiceTier_eq, (hresponse.orElse htexts).same "service_tier"
      (by decide)]

theorem extract_projected (context : Option UsageTokenContext) :
    extractUsageTokens (some (.obj (projectMembers identity receipt .root [] members))) context =
      extractUsageTokens (some (.obj (Document.memberValues [] members))) context := by
  have hroot := root_projected identity receipt h
  have hvalue := usageRecord_value h
  have hprojected := usageRecord_projected identity receipt members
  cases hreported : membersOf (reportedUsage members) with
  | none =>
    rw [hreported] at hvalue hprojected
    rw [extract_none hroot.left hvalue, extract_none hroot.right hprojected]
  | some usage =>
    rw [hreported] at hvalue hprojected
    exact (extract_alike hroot hvalue hprojected (usage_projected (h.usage _ hvalue)) context).symm

theorem outcome_projected : responseOutcome (some (.obj (projectMembers identity receipt .root [] members))) =
      responseOutcome (some (.obj (Document.memberValues [] members))) := by
  have htexts := root_texts identity receipt members
  have htype : textOf (get (Document.memberValues [] members) "type") =
      textOf (get (projectMembers identity receipt .root [] members) "type") := htexts.same "type" (by decide)
  have hobject : textOf (get (Document.memberValues [] members) "object") =
      textOf (get (projectMembers identity receipt .root [] members) "object") :=
        htexts.same "object" (by decide)
  have herror : truthy (get (projectMembers identity receipt .root [] members) "error") =
      truthy (get (Document.memberValues [] members) "error") := by
    have hselected : selected identity receipt .root (text "error") = some .error := selected_root (by decide)
    rw [document_get, projection_get hselected]
    exact truthy_projected identity receipt _
  have hended := h.unended
  have hresponse := response_projected identity receipt (textKeys_selected (.inr rfl)) members
  have hown : TextsLike textKeys (if isText (get (Document.memberValues [] members) "object") "response" then
        some (Document.memberValues [] members) else none)
      (if isText (get (projectMembers identity receipt .root [] members) "object") "response" then
        some (projectMembers identity receipt .root [] members) else none) := by
    rw [isText_textOf, isText_textOf, hobject]
    split
    · exact htexts
    · exact ⟨rfl, fun _ _ => rfl⟩
  have hstatus := (hresponse.orElse hown).same "status" (by decide)
  rw [isText_textOf] at hended
  unfold responseOutcome
  simp only [record_obj, bind, Option.bind_some, herror, isText_textOf, ← htype, hended,
    Bool.false_eq_true, if_false]
  simp only [isText_textOf] at hstatus
  rw [← hstatus]

end Root

theorem observed_alike {β : Type} (f : Text → Text → Option β) {x y : Option Members}
    (h : TextsLike ["id", "status"] x y) :
    (x.bind fun u => (textOf (get u "id")).bind fun id =>
      (textOf (get u "status")).bind fun status => f id status) =
      y.bind fun u => (textOf (get u "id")).bind fun id =>
        (textOf (get u "status")).bind fun status => f id status := by
  obtain ⟨hpresent, hsame⟩ := h
  cases x with
  | none =>
    cases y with
    | none => rfl
    | some v => cases hpresent
  | some u =>
    cases y with
    | none => cases hpresent
    | some v =>
      have hid : textOf (get u "id") = textOf (get v "id") := hsame "id" (by decide)
      have hstatus : textOf (get u "status") = textOf (get v "status") := hsame "status" (by decide)
      rw [Option.bind_some, Option.bind_some, hid, hstatus]

theorem observation_projected (h : ResponsesDocument (Document.memberValues [] members)) :
    responsesObservation (some (.obj (projectMembers true receipt .root [] members))) =
      responsesObservation (some (.obj (Document.memberValues [] members))) := by
  have htexts := root_texts true receipt members
  have htype : textOf (get (Document.memberValues [] members) "type") =
      textOf (get (projectMembers true receipt .root [] members) "type") := htexts.same "type" (by decide)
  have hobject : textOf (get (Document.memberValues [] members) "object") =
      textOf (get (projectMembers true receipt .root [] members) "object") := htexts.same "object" (by decide)
  have hextract := extract_projected true receipt h none
  have hresponse := response_projected true receipt (id_selected (.inr rfl)) members
  have hroot : TextsLike ["id", "status"] (some (Document.memberValues [] members))
      (some (projectMembers true receipt .root [] members)) :=
        texts_projected (id_selected (.inl rfl)) (some members)
  unfold responsesObservation
  simp only [record_obj, bind, Option.bind_some, isText_textOf, ← htype, ← hobject, hextract]
  have hid : textOf (get (Document.memberValues [] members) "id") =
      textOf (get (projectMembers true receipt .root [] members) "id") := hroot.same "id" (by decide)
  have hstatus : textOf (get (Document.memberValues [] members) "status") =
      textOf (get (projectMembers true receipt .root [] members) "status") := hroot.same "status" (by decide)
  refine ite_congr rfl (fun _ => (observed_alike _ hresponse).symm) fun _ => ?_
  rw [hid, hstatus]

theorem run_root {d : Document} {tokens : List Token} (h : Emits d tokens)
    (hwithin : Within identity receipt (some (.context .root)) d) (hdepth : d.depth ≤ depthLimit) :
    ∃ s, Projection.fresh.run identity receipt tokens = .ok s ∧
      s.root = some (projectField identity receipt (.context .root) d) := by
  have hroom : Projection.fresh.frames.length + d.depth ≤ depthLimit := by
    show 0 + d.depth ≤ depthLimit
    omega
  obtain ⟨s, hs, hsame⟩ := Projection.run_emits h (s := Projection.fresh) hwithin hroom
  rw [Projection.landed_root rfl] at hsame
  refine ⟨s, hs, ?_⟩
  have hframes : s.frames = [] := hsame.frames
  unfold Projection.root
  rw [hframes, Projection.root.go, hsame.value]

/-- What the output of a document is read from, and of its response. -/
def outputsOf (value : Option Value) : List (Option Value) :=
  [(record value).bind (get · "output"), (record ((record value).bind (get · "response"))).bind
    (get · "output")]

theorem outputs_projected (members : List (Text × Document)) :
    (outputsOf (some (.obj (projectMembers identity receipt .root [] members)))).map nonemptyOutput =
      (outputsOf (some (.obj (Document.memberValues [] members)))).map nonemptyOutput := by
  have houtput : ∀ c, c = .root ∨ c = .response → selected identity receipt c (text "output") = some
    .output := by
    intro c hc
    rcases hc with rfl | rfl
    · exact selected_root (by decide)
    · exact selected_response (by decide)
  have hresponse : selected identity receipt .root (text "response") = some (.context .response) :=
    selected_root (by decide)
  have hone : ∀ c, c = .root ∨ c = .response → ∀ inner : List (Text × Document),
      nonemptyOutput (get (projectMembers identity receipt c [] inner) "output") =
        nonemptyOutput (get (Document.memberValues [] inner) "output") := by
    intro c hc inner
    rw [document_get, projection_get (houtput c hc)]
    exact output_projected identity receipt _
  have hinner : nonemptyOutput
      ((record (get (projectMembers identity receipt .root [] members) "response")).bind (get · "output")) =
        nonemptyOutput ((record (get (Document.memberValues [] members) "response")).bind
          (get · "output")) := by
    rw [document_get, projection_get hresponse, record_value, record_projected]
    cases membersOf (lastOf members "response") with
    | none => rfl
    | some inner => exact hone .response (.inr rfl) inner
  show [nonemptyOutput _, nonemptyOutput _] = [nonemptyOutput _, nonemptyOutput _]
  rw [record_obj, record_obj, Option.bind_some, Option.bind_some, Option.bind_some, Option.bind_some,
    hone .root (.inl rfl), hinner]

theorem readings_none {v : Option Value} (h : record v = none) :
    (∀ context, extractUsageTokens v context = none) ∧
    responseOutcome v = none ∧ responsesObservation v = none ∧ outputsOf v = [none, none] := by
  refine ⟨fun context => ?_, ?_, ?_, ?_⟩
  · unfold extractUsageTokens
    rw [h]
    rfl
  · unfold responseOutcome
    rw [h]
    rfl
  · unfold responsesObservation
    rw [h]
    rfl
  · unfold outputsOf
    rw [h]
    rfl

/-- **The projection of a Responses document loses nothing the accounting needs.** For every token stream of a
document within the limits, whose usage is of the vocabulary and which is no message of another
protocol: usage,
outcome, observation and the presence of output are those of `JSON.parse`. -/
theorem projection_of_document {d : Document} {tokens : List Token} (h : Emits d tokens)
    (hwithin : Within identity receipt (some (.context .root)) d) (hdepth : d.depth ≤ depthLimit)
    (hdocument : ∀ r, d.value = .obj r → ResponsesDocument r) :
    ∃ s, Projection.fresh.run identity receipt tokens = .ok s ∧
      (∀ context, extractUsageTokens s.root context = extractUsageTokens (some d.value) context) ∧
      responseOutcome s.root = responseOutcome (some d.value) ∧
      (identity = true → responsesObservation s.root = responsesObservation (some d.value)) ∧
      (outputsOf s.root).map nonemptyOutput = (outputsOf (some d.value)).map nonemptyOutput := by
  obtain ⟨s, hrun, hroot⟩ := run_root h hwithin hdepth
  refine ⟨s, hrun, ?_⟩
  rw [hroot]
  have hplain : record (some (projectField identity receipt (.context .root) d)) = none →
    record (some d.value) = none →
      (∀ context, extractUsageTokens (some (projectField identity receipt (.context .root) d)) context =
        extractUsageTokens (some d.value) context) ∧
      responseOutcome (some (projectField identity receipt (.context .root) d)) = responseOutcome
        (some d.value) ∧
      (identity = true → responsesObservation (some (projectField identity receipt (.context .root) d)) =
        responsesObservation (some d.value)) ∧
      (outputsOf (some (projectField identity receipt (.context .root) d))).map nonemptyOutput =
        (outputsOf (some d.value)).map nonemptyOutput := by
    intro hprojected hvalue
    obtain ⟨ht, ho, hr, hout⟩ := readings_none hprojected
    obtain ⟨ht', ho', hr', hout'⟩ := readings_none hvalue
    refine ⟨fun context => ?_, ?_, fun _ => ?_, ?_⟩
    · rw [ht, ht']
    · rw [ho, ho']
    · rw [hr, hr']
    · rw [hout, hout']
  cases d with
  | obj members =>
    have hmembers := hdocument (Document.memberValues [] members) rfl
    refine ⟨fun context => extract_projected identity receipt hmembers context,
      outcome_projected identity receipt hmembers, ?_, outputs_projected members⟩
    rintro rfl
    exact observation_projected hmembers
  | null => exact hplain rfl rfl
  | bool b => exact hplain rfl rfl
  | num t => exact hplain rfl rfl
  | str t => exact hplain rfl rfl
  | arr items => exact hplain rfl rfl

end Readings

/-! ## 7. A completed response, and a refusal -/

/-- `{"type":"response.completed","response":{"id":"r","status":"completed","usage":{"input_tokens":3}}}`. -/
def completedResponse : Document :=
  .obj [(text "type", .str (text "response.completed")),
    (text "response", .obj [(text "id", .str (text "r")), (text "status", .str (text "completed")),
      (text "usage", .obj [(text "input_tokens", .num (text "3"))])])]

/-- A member, its key in one chunk, and the members after it. -/
def memberTokens (name : String) (item rest : List Token) : List Token :=
  [Token.startKey, Token.stringChunk (text name), Token.endKey] ++ item ++ rest

def stringTokens (t : String) : List Token := [Token.startString, Token.stringChunk (text t), Token.endString]

def numberTokens (t : String) : List Token := [Token.startNumber, Token.numberChunk (text t), Token.endNumber]

def objectTokens (members : List Token) : List Token := Token.startObject :: members ++ [Token.endObject]

def completedTokens : List Token :=
  objectTokens (memberTokens "type" (stringTokens "response.completed")
    (memberTokens "response" (objectTokens (memberTokens "id" (stringTokens "r")
        (memberTokens "status" (stringTokens "completed")
          (memberTokens "usage" (objectTokens (memberTokens "input_tokens" (numberTokens "3") [])) []))))
      []))

theorem completed_emits : Emits completedResponse completedTokens :=
  .obj (.cons [text "type"] (.str [text "response.completed"]) (.cons [text "response"]
    (.obj (.cons [text "id"] (.str [text "r"]) (.cons [text "status"] (.str [text "completed"])
      (.cons [text "usage"] (.obj (.cons [text "input_tokens"] (.num [text "3"]) .nil)) .nil)))) .nil))

theorem completed_within : Within true false (some (.context .root)) completedResponse := by
  have hresponse : selected true false .root (text "response") = some (.context .response) :=
    selected_root (by decide)
  have husage : selected true false .response (text "usage") = some (.context .usage) :=
    selected_response (by decide)
  have hstring : ∀ field t, t.length ≤ 64 → Within true false field (.str t) := fun _ _ hle =>
    ⟨fun _ => hle, fun _ => Nat.le_trans hle (by decide)⟩
  have hnumber : ∀ field t, t.length ≤ 64 → Within true false field (.num t) := fun _ _ hle _ => hle
  refine ⟨hstring _ _ (by decide), ?_, trivial⟩
  rw [hresponse]
  refine ⟨hstring _ _ (by decide), hstring _ _ (by decide), ?_, trivial⟩
  rw [husage]
  exact ⟨hnumber _ _ (by decide), trivial⟩

theorem projection_of_completed : ∃ s, Projection.fresh.run true false completedTokens = .ok s ∧
    responsesObservation s.root = responsesObservation (some completedResponse.value) := by
  have hdocument : ∀ r, completedResponse.value = .obj r → ResponsesDocument r := by
    rintro r ⟨rfl⟩
    refine { google := ?_, usage := ?_, unended := ?_, unrefused := ?_, elsewhere := ?_ }
    · decide +kernel
    · rintro u ⟨rfl⟩
      decide +kernel
    · decide +kernel
    · decide +kernel
    · exact fun _ => rfl
  obtain ⟨s, hrun, _, _, hobserved, _⟩ :=
    @projection_of_document true false _ _ completed_emits completed_within (by decide) hdocument
  exact ⟨s, hrun, hobserved rfl⟩

/-- `{"type":"message","stop_reason":"refusal","content":[],"usage":{"output_tokens":0}}`. -/
def refusal : Document :=
  .obj [(text "type", .str (text "message")), (text "stop_reason", .str (text "refusal")),
    (text "content", .arr []),
    (text "usage", .obj [(text "output_tokens", .num (text "0"))])]

def refusalTokens : List Token :=
  objectTokens (memberTokens "type" (stringTokens "message")
    (memberTokens "stop_reason" (stringTokens "refusal")
      (memberTokens "content" [Token.startArray, Token.endArray]
        (memberTokens "usage" (objectTokens (memberTokens "output_tokens" (numberTokens "0") [])) []))))

theorem refusal_emits : Emits refusal refusalTokens :=
  .obj (.cons [text "type"] (.str [text "message"]) (.cons [text "stop_reason"] (.str [text "refusal"])
    (.cons [text "content"] (.arr .nil) (.cons [text "usage"]
      (.obj (.cons [text "output_tokens"] (.num [text "0"]) .nil)) .nil))))

theorem refusal_within : Within false false (some (.context .root)) refusal := by
  have husage : selected false false .root (text "usage") = some (.context .usage) :=
    selected_root (by decide)
  have hstring : ∀ field t, t.length ≤ 64 → Within false false field (.str t) := fun _ _ hle =>
    ⟨fun _ => hle, fun _ => Nat.le_trans hle (by decide)⟩
  refine ⟨hstring _ _ (by decide), hstring _ _ (by decide), trivial, ?_, trivial⟩
  rw [husage]
  exact ⟨fun _ => by decide, trivial⟩

/-- A refusal that is not billed: the projection keeps neither the reason nor the content. -/
theorem refusal_projected : ¬ ∀ (d : Document) (tokens : List Token) (s : Projection), Emits d tokens →
      Within false false (some (.context .root)) d → d.depth ≤ depthLimit →
        (∀ r, d.value = .obj r → MetadataVocabulary r) → Projection.fresh.run false false tokens = .ok s →
          extractUsageTokens s.root none = extractUsageTokens (some d.value) none := by
  intro hall
  have hvocabulary : ∀ r, refusal.value = .obj r → MetadataVocabulary r := by
    rintro r ⟨rfl⟩
    refine ⟨by decide +kernel, ?_⟩
    rintro u ⟨rfl⟩
    decide +kernel
  obtain ⟨s, hrun, hroot⟩ := run_root refusal_emits refusal_within (by decide)
  have hsame := hall refusal refusalTokens s refusal_emits refusal_within (by decide) hvocabulary hrun
  rw [hroot] at hsame
  obtain ⟨hprojected, hvalue⟩ :
      (extractUsageTokens (some (projectField false false (.context .root) refusal)) none).map
        (·.unbilled) = some false ∧
        (extractUsageTokens (some refusal.value) none).map (·.unbilled) = some true := by decide +kernel
  rw [hsame, hvalue] at hprojected
  cases hprojected

end ClawRouter.Inspect
