/-
  Subject:   Groups by rule (src/worker/assignment-evaluator.ts): which groups a user has after the rules were
             evaluated, and that evaluating again changes nothing.

  `toLowerCase` is that of strings, a parameter; what is used of it is that a cleaned name is clean
  (`Cleans`). Rule ids are ordinary property names, none that an object inherits.

  * `contributed`: what one rule gives; **`mem_assignments`**: a pass gives what its rules give;
  * **`evaluated_groups`**: the groups after an evaluation; `dropped_groups`: what only dropped rules gave is gone;
  * **`evaluated_again`**: a second evaluation reports no change;
  * **`assignment_evaluation`**: all of it.
-/
import ClawRouter.Lib.Entries
import ClawRouter.Lib.OrderBy
import ClawRouter.Lib.QuotedText
import ClawRouter.Lib.Value

namespace ClawRouter.Assignments

open Utf16 PlainJson

/-! ## 1. Group names -/

def textLe (a b : Text) : Bool := decide (a.map (·.toNat) ≤ b.map (·.toNat))

section Names

variable (toLowerCase : Text → Text)

def clean (group : Text) : Text := toLowerCase (Js.trim group)

def normalizeGroups (groups : List Text) : List Text :=
  ((groups.map (clean toLowerCase)).filter (· ≠ [])).eraseDups.mergeSort textLe

/-! ## 2. Rules -/

/-- What of an identity a rule asks for. -/
inductive RuleKind
  | exactEmail
  | emailDomain
  | githubOrg
  | githubTeam
  deriving DecidableEq

/-- A rule that gives groups and policies to those it is met by. -/
structure AssignmentRule where
  ruleId : Text
  version : Number
  enabled : Bool
  kind : RuleKind
  subject : Text
  groups : List Text
  policyIds : List Text
  priority : Number
  revokeOnLoss : Bool
  provenance : Text
  generatedGroup : Text

/-- The GitHub organizations and teams of a sign-in. -/
structure AssignmentEvidence where
  githubOrgs : List Text
  githubTeams : List Text

/-- What one rule has given a user. -/
structure AssignmentStateEntry where
  groups : List Text
  revokeOnLoss : Bool
  deriving DecidableEq

/-- `assignments` of a state, in property order. -/
abbrev Assigned := List (Text × AssignmentStateEntry)

/-- What all rules have given a user. -/
structure AssignmentState where
  revision : Text
  assignments : Assigned
  updatedAt : Option Text

/-- The fields of a user that the evaluation reads or writes. -/
structure AccessControlUser where
  email : Text
  role : Option Text
  groups : Option (List Text)
  assignmentState : Option AssignmentState

inductive Outcome
  | hit
  | noMatch
  | unknown
  deriving DecidableEq

def matched (condition : Bool) : Outcome := if condition then .hit else .noMatch

def assignmentMatch (rule : AssignmentRule) (email : Text) (evidence : Option AssignmentEvidence) : Outcome :=
  if !rule.enabled then .noMatch
  else
    match rule.kind with
    | .exactEmail => matched (email == rule.subject)
    | .emailDomain => matched ((Js.split 0x40 email)[1]? == some rule.subject)
    | .githubOrg => match evidence with
      | none => .unknown
      | some evidence => matched (evidence.githubOrgs.contains rule.subject)
    | .githubTeam => match evidence with
      | none => .unknown
      | some evidence => matched (evidence.githubTeams.contains rule.subject)

def ruleGroups (rule : AssignmentRule) : List Text :=
  rule.groups ++ (if rule.policyIds = [] then [] else [rule.generatedGroup])

def assignmentEntry (rule : AssignmentRule) : AssignmentStateEntry where
  groups :=
  normalizeGroups toLowerCase (ruleGroups rule)
  revokeOnLoss := rule.revokeOnLoss

def kindText : RuleKind → Text
  | .exactEmail => Js.text "exact_email"
  | .emailDomain => Js.text "email_domain"
  | .githubOrg => Js.text "github_org"
  | .githubTeam => Js.text "github_team"

def textsValue (texts : List Text) : Value := .arr (texts.map fun t => some (.str t))

def revisionRule (rule : AssignmentRule) : Value :=
  .obj
  [(Js.text "ruleId", some (.str rule.ruleId)), (Js.text "version", some (.num rule.version)),
    (Js.text "enabled", some (.bool rule.enabled)), (Js.text "kind", some (.str (kindText rule.kind))),
    (Js.text "subject", some (.str rule.subject)), (Js.text "groups", some (textsValue rule.groups)),
    (Js.text "policyIds", some (textsValue rule.policyIds)), (Js.text "priority", some (.num rule.priority)),
    (Js.text "revokeOnLoss", some (.bool rule.revokeOnLoss)),
      (Js.text "provenance", some (.str rule.provenance))]

def assignmentRulesRevision (rules : List AssignmentRule) : Text :=
  stringify (.arr (rules.map fun rule => some (revisionRule rule)))

/-! ## 3. The evaluation -/

/-- The number of a key that is an array index; such keys come first, in their order. -/
def arrayIndex (key : Text) : Option Nat :=
  let value := key.foldl (fun value u => 10 * value + (u.toNat - 48)) 0
  if (key ≠ [] ∧ key.all (fun u => 48 ≤ u.toNat && u.toNat ≤ 57) = true) ∧
    (key.head? ≠ some 0x30 ∨ key.length = 1) ∧
      value < 4294967295 then some value
  else none

/-- `assignments[key] = entry` for a key that is not there. -/
def place (key : Text) (entry : AssignmentStateEntry) (assigned : Assigned) : Assigned :=
  match arrayIndex key with
  | none => assigned ++ [(key, entry)]
  | some n =>
    let before := fun m : Text × AssignmentStateEntry => (arrayIndex m.1).any (· < n)
    assigned.takeWhile before ++ (key, entry) :: assigned.dropWhile before

def setEntry (key : Text) (entry : AssignmentStateEntry) (assigned : Assigned) : Assigned :=
  if assigned.any (·.1 == key) then assigned.map fun m => if m.1 = key then (key, entry) else m
  else place key entry assigned

/-- One pass over the rules. -/
structure Pass where
  assignments : Assigned
  matchedRuleIds : List Text
  retainedRuleIds : List Text

def evaluateRule (email : Text) (evidence : Option AssignmentEvidence) (previous : Assigned) (pass : Pass)
    (rule : AssignmentRule) : Pass :=
  let outcome := assignmentMatch rule email evidence
  if outcome = .hit then
    { pass with
      assignments := setEntry rule.ruleId (assignmentEntry toLowerCase rule) pass.assignments
      matchedRuleIds := pass.matchedRuleIds ++ [rule.ruleId] }
  else if outcome = .unknown ∨ (outcome = .noMatch ∧ rule.enabled = true ∧ rule.revokeOnLoss = false) then
    match previous.lookup rule.ruleId with
    | some entry =>
      { pass with
        assignments := setEntry rule.ruleId entry pass.assignments
        retainedRuleIds := pass.retainedRuleIds ++ [rule.ruleId] }
    | none => pass
  else pass

def evaluateRules (email : Text) (evidence : Option AssignmentEvidence) (previous : Assigned)
    (rules : List AssignmentRule) : Pass :=
  rules.foldl (evaluateRule toLowerCase email evidence previous) ⟨[], [], []⟩

def assignedGroups (assigned : Assigned) : List Text := assigned.flatMap fun m => m.2.groups

/-- `manual`: the groups that no assignment gave. -/
def manualGroups (user : AccessControlUser) (previous : Assigned) : List Text :=
  (user.groups.getD []).filter fun group =>
    !(assignedGroups previous).contains group && !Js.startsWith (Js.text "assignment.") group

def entryValue (entry : AssignmentStateEntry) : Value :=
  .obj
  [(Js.text "groups", some (textsValue entry.groups)),
    (Js.text "revokeOnLoss", some (.bool entry.revokeOnLoss))]

def assignedText (assigned : Assigned) : Text :=
  stringify (.obj (assigned.map fun m => (m.1, some (entryValue m.2))))

def groupsText (groups : List Text) : Text := stringify (textsValue groups)

/-- The answer of an evaluation. -/
structure Evaluation where
  changed : Bool
  user : AccessControlUser
  matchedRuleIds : List Text
  retainedRuleIds : List Text

def previousState (user : AccessControlUser) : AssignmentState := user.assignmentState.getD ⟨[], [], none⟩

/-- `evaluateUserAssignments`; `now` is the text of the time. -/
def evaluateUserAssignments (now : Text) (user : AccessControlUser) (rules : List AssignmentRule)
    (evidence : Option AssignmentEvidence) (force : Bool) : Evaluation :=
  let revision := assignmentRulesRevision rules
  let previous := previousState user
  let sameRevision := previous.revision == revision
  if !force && sameRevision then ⟨false, user, (previous.assignments.map (·.1)).mergeSort textLe, []⟩
  else
    let pass := evaluateRules toLowerCase user.email evidence previous.assignments rules
    let groups := normalizeGroups toLowerCase
      (manualGroups user previous.assignments ++ assignedGroups pass.assignments)
    if sameRevision && assignedText previous.assignments == assignedText pass.assignments &&
        groupsText (normalizeGroups toLowerCase (user.groups.getD [])) == groupsText groups then
      ⟨false, user, pass.matchedRuleIds, pass.retainedRuleIds⟩
    else
      ⟨true, { user with
        role := some (user.role.getD (Js.text "user"))
        groups := some groups
        assignmentState := some ⟨revision, pass.assignments, some now⟩ },
        pass.matchedRuleIds, pass.retainedRuleIds⟩

end Names

/-! ## 4. Normal groups -/

theorem textLe_trans (a b c : Text) (h : textLe a b = true) (h' : textLe b c = true) : textLe a c = true := by
  unfold textLe at *
  rw [decide_eq_true_eq] at *
  exact le_trans h h'

theorem textLe_total (a b : Text) : (textLe a b || textLe b a) = true := by
  unfold textLe
  rw [Bool.or_eq_true, decide_eq_true_eq, decide_eq_true_eq]
  exact le_total _ _

theorem textLe_antisymm {a b : Text} (h : textLe a b = true) (h' : textLe b a = true) : a = b := by
  unfold textLe at *
  rw [decide_eq_true_eq] at *
  have hunits := le_antisymm h h'
  refine List.map_injective_iff.mpr ?_ hunits
  intro u v huv
  exact UInt16.toNat_inj.mp huv

variable {email g key : Text}

section Clean

variable {toLowerCase : Text → Text}

theorem mem_normalizeGroups {groups : List Text} :
    g ∈ normalizeGroups toLowerCase groups ↔ g ≠ [] ∧ ∃ raw ∈ groups, clean toLowerCase raw = g := by
  unfold normalizeGroups
  rw [List.mem_mergeSort, List.mem_eraseDups, List.mem_filter, List.mem_map, decide_eq_true_eq]
  exact And.comm

theorem normalizeGroups_congr {xs ys : List Text}
    (h : ∀ g, g ∈ normalizeGroups toLowerCase xs ↔ g ∈ normalizeGroups toLowerCase ys) :
    normalizeGroups toLowerCase xs = normalizeGroups toLowerCase ys := by
  unfold normalizeGroups at h ⊢
  refine OrderBy.mergeSort_eq_of_perm textLe_trans textLe_total (fun a _ b _ => textLe_antisymm) ?_
  rw [List.perm_ext_iff_of_nodup (Entries.eraseDups_nodup _) (Entries.eraseDups_nodup _)]
  intro g
  have hg := h g
  rwa [List.mem_mergeSort, List.mem_mergeSort] at hg

/-- A cleaned name is clean: lower case stays so, and has no other blanks at its ends. -/
def Cleans (toLowerCase : Text → Text) : Prop :=
  ∀ t, clean toLowerCase (clean toLowerCase t) = clean toLowerCase t

variable (hclean : Cleans toLowerCase)

include hclean

theorem clean_mem {groups : List Text} (h : g ∈ normalizeGroups toLowerCase groups) :
    clean toLowerCase g = g := by
  obtain ⟨-, raw, -, rfl⟩ := mem_normalizeGroups.mp h
  exact hclean raw

theorem mem_normalize_again {groups : List Text} :
    g ∈ normalizeGroups toLowerCase (normalizeGroups toLowerCase groups) ↔
      g ∈ normalizeGroups toLowerCase groups := by
  constructor
  · intro h
    obtain ⟨-, raw, hraw, rfl⟩ := mem_normalizeGroups.mp h
    rwa [clean_mem hclean hraw]
  · intro h
    exact mem_normalizeGroups.mpr ⟨(mem_normalizeGroups.mp h).1, g, h, clean_mem hclean h⟩

end Clean

/-! ## 5. A pass over the rules -/

variable {assigned previous : Assigned} {m : Text × AssignmentStateEntry}

theorem mem_place {entry : AssignmentStateEntry} :
    m ∈ place key entry assigned ↔ m ∈ assigned ∨ m = (key, entry) := by
  unfold place
  split
  · rw [List.mem_append, List.mem_singleton]
  · rename_i n _
    generalize (fun m : Text × AssignmentStateEntry => (arrayIndex m.1).any (· < n)) = before
    conv_rhs => rw [← List.takeWhile_append_dropWhile (p := before) (l := assigned)]
    rw [List.mem_append, List.mem_cons, List.mem_append]
    tauto

theorem mem_setEntry {entry : AssignmentStateEntry} (h : ∀ m ∈ assigned, m.1 ≠ key) :
    m ∈ setEntry key entry assigned ↔ m ∈ assigned ∨ m = (key, entry) := by
  have hnone : ¬ assigned.any (·.1 == key) = true := by
    rw [List.any_eq_true]
    rintro ⟨m, hm, hkey⟩
    exact h m hm (eq_of_beq hkey)
  unfold setEntry
  rw [if_neg hnone]
  exact mem_place

variable {rules : List AssignmentRule}

section Pass

variable (toLowerCase : Text → Text) (email : Text) (evidence : Option AssignmentEvidence)

/-- What one rule gives: its entry where it matches, the previous one where that is kept. -/
def contributed (previous : Assigned) (rule : AssignmentRule) : Option AssignmentStateEntry :=
  let outcome := assignmentMatch rule email evidence
  if outcome = .hit then some (assignmentEntry toLowerCase rule)
  else if outcome = .unknown ∨ (outcome = .noMatch ∧ rule.enabled = true ∧ rule.revokeOnLoss = false) then
    previous.lookup rule.ruleId
  else none

variable {toLowerCase email evidence}

theorem evaluateRule_assignments (previous : Assigned) (pass : Pass) (rule : AssignmentRule) :
    (evaluateRule toLowerCase email evidence previous pass rule).assignments =
      match contributed toLowerCase email evidence previous rule with
      | some entry => setEntry rule.ruleId entry pass.assignments
      | none => pass.assignments := by
  unfold evaluateRule contributed
  dsimp only
  split
  · rfl
  · split
    · cases previous.lookup rule.ruleId <;> rfl
    · rfl

theorem mem_foldl (hids : (rules.map (·.ruleId)).Nodup) {pass : Pass}
    (hfresh : ∀ m ∈ pass.assignments, m.1 ∉ rules.map (·.ruleId)) :
    m ∈ (rules.foldl (evaluateRule toLowerCase email evidence previous) pass).assignments ↔
      m ∈ pass.assignments ∨
        ∃ rule ∈ rules, rule.ruleId = m.1 ∧ contributed toLowerCase email evidence previous rule =
          some m.2 := by
  induction rules generalizing pass with
  | nil => simp
  | cons rule rules ih =>
    rw [List.map_cons, List.nodup_cons] at hids
    have hstep : (evaluateRule toLowerCase email evidence previous pass rule).assignments = _ :=
      evaluateRule_assignments previous pass rule
    have hkey : ∀ m ∈ pass.assignments, m.1 ≠ rule.ruleId := fun m hm e =>
      hfresh m hm (by rw [List.map_cons, e]; exact List.mem_cons_self)
    have hmem : ∀ m, m ∈ (evaluateRule toLowerCase email evidence previous pass rule).assignments ↔
        m ∈ pass.assignments ∨
          (rule.ruleId = m.1 ∧ contributed toLowerCase email evidence previous rule = some m.2) := by
      intro m
      rw [hstep]
      cases contributed toLowerCase email evidence previous rule with
      | none => simp
      | some entry =>
        rw [mem_setEntry hkey]
        obtain ⟨id, given⟩ := m
        rw [Prod.mk.injEq, Option.some.injEq]
        constructor
        · rintro (h | ⟨rfl, rfl⟩)
          · exact .inl h
          · exact .inr ⟨rfl, rfl⟩
        · rintro (h | ⟨rfl, rfl⟩)
          · exact .inl h
          · exact .inr ⟨rfl, rfl⟩
    have hrest : ∀ m ∈ (evaluateRule toLowerCase email evidence previous pass rule).assignments,
        m.1 ∉ rules.map (·.ruleId) := by
      intro m hm hin
      rcases (hmem m).mp hm with h | ⟨e, -⟩
      · exact hfresh m h (List.mem_cons_of_mem _ hin)
      · exact hids.1 (e ▸ hin)
    rw [List.foldl_cons, ih hids.2 hrest, hmem]
    constructor
    · rintro ((h | h) | ⟨r, hr, h⟩)
      · exact .inl h
      · exact .inr ⟨rule, List.mem_cons_self, h⟩
      · exact .inr ⟨r, List.mem_cons_of_mem _ hr, h⟩
    · rintro (h | ⟨r, hr, h⟩)
      · exact .inl (.inl h)
      · rcases List.mem_cons.mp hr with rfl | hr
        · exact .inl (.inr h)
        · exact .inr ⟨r, hr, h⟩

/-- **A pass gives what its rules give.** -/
theorem mem_assignments (hids : (rules.map (·.ruleId)).Nodup) :
    m ∈ (evaluateRules toLowerCase email evidence previous rules).assignments ↔
      ∃ rule ∈ rules, rule.ruleId = m.1 ∧ contributed toLowerCase email evidence previous rule =
        some m.2 := by
  have hnone : ∀ m ∈ ([] : Assigned), m.1 ∉ rules.map (·.ruleId) := nofun
  rw [evaluateRules, mem_foldl hids hnone]
  simp

theorem foldl_congr {previous' : Assigned} (h : ∀ rule ∈ rules, contributed toLowerCase email
    evidence previous rule =
      contributed toLowerCase email evidence previous' rule) {pass pass' : Pass}
    (hpass : pass.assignments = pass'.assignments) :
    (rules.foldl (evaluateRule toLowerCase email evidence previous) pass).assignments =
      (rules.foldl (evaluateRule toLowerCase email evidence previous') pass').assignments := by
  induction rules generalizing pass pass' with
  | nil => exact hpass
  | cons rule rules ih =>
    refine ih (fun r hr => h r (List.mem_cons_of_mem _ hr)) ?_
    rw [evaluateRule_assignments, evaluateRule_assignments, h rule List.mem_cons_self, hpass]

theorem contributed_again (hids : (rules.map (·.ruleId)).Nodup) {rule : AssignmentRule}
    (hrule : rule ∈ rules) :
    contributed toLowerCase email evidence (evaluateRules toLowerCase email evidence previous
      rules).assignments rule =
      contributed toLowerCase email evidence previous rule := by
  have hsame : ∀ r ∈ rules, r.ruleId = rule.ruleId → r = rule := fun r hr e =>
    List.inj_on_of_nodup_map hids hr hrule e
  have hunique : ∀ m ∈ (evaluateRules toLowerCase email evidence previous rules).assignments,
      ∀ m' ∈ (evaluateRules toLowerCase email evidence previous rules).assignments, m.1 = m'.1 →
        m.2 = m'.2 := by
    intro m hm m' hm' e
    obtain ⟨r, hr, hid, hgiven⟩ := (mem_assignments hids).mp hm
    obtain ⟨r', hr', hid', hgiven'⟩ := (mem_assignments hids).mp hm'
    have er : r = r' := List.inj_on_of_nodup_map hids hr hr' (hid.trans (e.trans hid'.symm))
    rw [er, hgiven'] at hgiven
    exact (Option.some.inj hgiven).symm
  have hlookup : (evaluateRules toLowerCase email evidence previous rules).assignments.lookup rule.ruleId =
      contributed toLowerCase email evidence previous rule := by
    cases hgiven : contributed toLowerCase email evidence previous rule with
    | some entry =>
      have hmem := (mem_assignments (m := (rule.ruleId, entry)) hids).mpr ⟨rule, hrule, rfl, hgiven⟩
      exact Entries.lookup_of_mem hunique hmem
    | none =>
      refine List.lookup_eq_none_iff.mpr fun m hm => bne_iff_ne.mpr fun e => ?_
      obtain ⟨r, hr, hid, hsome⟩ := (mem_assignments hids).mp hm
      rw [hsame r hr (hid.trans e.symm), hgiven] at hsome
      cases hsome
  conv_lhs => unfold contributed
  rw [hlookup]
  unfold contributed
  dsimp only
  split
  · rfl
  · split <;> rfl

end Pass

/-! ## 6. An evaluation -/

theorem groupsText_inj {a b : List Text} (h : groupsText a = groupsText b) : a = b := by
  have hempty : ∀ {t : Text} {ts : List Text}, groupsText [] ≠ groupsText (t :: ts) := by
    intro t ts h
    exact absurd (List.cons.inj (List.cons.inj h).2).1 (by decide)
  cases a with
  | nil =>
    cases b with
    | nil => rfl
    | cons t ts => exact absurd h hempty
  | cons t ts =>
    cases b with
    | nil => exact absurd h.symm hempty
    | cons t' ts' => exact stringify_strings_inj h

/-- The groups a rule stands for: its own where it matches, the previous ones where they are kept. -/
def grantedBy (email : Text) (evidence : Option AssignmentEvidence) (previous : Assigned)
    (rule : AssignmentRule) :
    List Text :=
  let kept := ((previous.lookup rule.ruleId).map (·.groups)).getD []
  match assignmentMatch rule email evidence with
  | .hit => ruleGroups rule
  | .unknown => kept
  | .noMatch => if rule.enabled = true ∧ rule.revokeOnLoss = false then kept else []

section Evaluation

variable {toLowerCase : Text → Text} (hclean : Cleans toLowerCase)

include hclean

theorem contributed_groups {evidence : Option AssignmentEvidence} {rule : AssignmentRule} (hg : g ≠ []) :
    (∃ entry, contributed toLowerCase email evidence previous rule = some entry ∧
        ∃ raw ∈ entry.groups, clean toLowerCase raw = g) ↔
      ∃ raw ∈ grantedBy email evidence previous rule, clean toLowerCase raw = g := by
  unfold contributed grantedBy
  cases assignmentMatch rule email evidence with
  | hit =>
    rw [if_pos rfl]
    constructor
    · rintro ⟨entry, he, raw, hraw, hclean'⟩
      cases he
      obtain ⟨-, own, hown, hcleaned⟩ := mem_normalizeGroups.mp hraw
      exact ⟨own, hown, by rw [hcleaned, ← hclean', clean_mem hclean hraw]⟩
    · rintro ⟨raw, hraw, hcleaned⟩
      have hmem : g ∈ normalizeGroups toLowerCase (ruleGroups rule) :=
        mem_normalizeGroups.mpr ⟨hg, raw, hraw, hcleaned⟩
      exact ⟨_, rfl, g, hmem, clean_mem hclean hmem⟩
  | unknown =>
    rw [if_neg nofun, if_pos (.inl rfl)]
    cases previous.lookup rule.ruleId <;> simp
  | noMatch =>
    rw [if_neg nofun]
    dsimp only
    by_cases hkept : rule.enabled = true ∧ rule.revokeOnLoss = false
    · rw [if_pos (.inr ⟨rfl, hkept⟩), if_pos hkept]
      cases previous.lookup rule.ruleId <;> simp
    · rw [if_neg (fun h => h.elim nofun fun h => hkept h.2), if_neg hkept]
      simp

theorem pass_groups {evidence : Option AssignmentEvidence}
    (hids : (rules.map (·.ruleId)).Nodup) {manual : List Text} : normalizeGroups toLowerCase
        (manual ++ assignedGroups (evaluateRules toLowerCase email evidence previous rules).assignments) =
      normalizeGroups toLowerCase (manual ++ rules.flatMap (grantedBy email evidence previous)) := by
  refine normalizeGroups_congr fun g => ?_
  rw [mem_normalizeGroups, mem_normalizeGroups]
  refine and_congr_right fun hg => ?_
  simp only [List.mem_append, or_and_right, exists_or]
  refine or_congr_right ?_
  constructor
  · rintro ⟨raw, hraw, hcleaned⟩
    obtain ⟨m, hm, hin⟩ := List.mem_flatMap.mp hraw
    obtain ⟨rule, hrule, -, hgiven⟩ := (mem_assignments hids).mp hm
    obtain ⟨own, hown, hownclean⟩ := (contributed_groups hclean hg).mp ⟨m.2, hgiven, raw, hin, hcleaned⟩
    exact ⟨own, List.mem_flatMap.mpr ⟨rule, hrule, hown⟩, hownclean⟩
  · rintro ⟨raw, hraw, hcleaned⟩
    obtain ⟨rule, hrule, hin⟩ := List.mem_flatMap.mp hraw
    obtain ⟨entry, hgiven, own, hown, hownclean⟩ := (contributed_groups hclean hg).mpr ⟨raw, hin, hcleaned⟩
    have hmem : (rule.ruleId, entry) ∈ (evaluateRules toLowerCase email evidence previous
      rules).assignments :=
      (mem_assignments hids).mpr ⟨rule, hrule, rfl, hgiven⟩
    exact ⟨own, List.mem_flatMap.mpr ⟨_, hmem, hown⟩, hownclean⟩

end Evaluation

section Forced

variable {toLowerCase : Text → Text} {now : Text} {user : AccessControlUser} {rules : List AssignmentRule}
  {evidence : Option AssignmentEvidence}

def evaluatedGroups (toLowerCase : Text → Text) (user : AccessControlUser) (rules : List AssignmentRule)
    (evidence : Option AssignmentEvidence) : List Text :=
  normalizeGroups toLowerCase (manualGroups user (previousState user).assignments ++
    assignedGroups (evaluateRules toLowerCase user.email evidence (previousState user).assignments
      rules).assignments)

/-- What a forced evaluation does: nothing where nothing would change, or it writes groups and state. -/
theorem forced_cases (toLowerCase : Text → Text) (now : Text) (user : AccessControlUser)
    (rules : List AssignmentRule)
    (evidence : Option AssignmentEvidence) :
    ((evaluateUserAssignments toLowerCase now user rules evidence true).user = user ∧
        (previousState user).revision = assignmentRulesRevision rules ∧
        assignedText (previousState user).assignments =
          assignedText (evaluateRules toLowerCase user.email evidence
            (previousState user).assignments rules).assignments ∧
        normalizeGroups toLowerCase (user.groups.getD []) = evaluatedGroups toLowerCase user rules evidence) ∨
      (evaluateUserAssignments toLowerCase now user rules evidence true).user = { user with
        role := some (user.role.getD (Js.text "user"))
        groups := some (evaluatedGroups toLowerCase user rules evidence)
        assignmentState := some ⟨assignmentRulesRevision rules,
          (evaluateRules toLowerCase user.email evidence (previousState user).assignments rules).assignments,
          some now⟩ } := by
  unfold evaluateUserAssignments
  dsimp only
  rw [Bool.not_true, Bool.false_and, if_neg Bool.false_ne_true]
  split
  · rename_i hsame
    rw [Bool.and_eq_true, Bool.and_eq_true, beq_iff_eq, beq_iff_eq, beq_iff_eq] at hsame
    exact .inl ⟨rfl, hsame.1.1, hsame.1.2, groupsText_inj hsame.2⟩
  · exact .inr rfl

def NormalGroups (toLowerCase : Text → Text) (user : AccessControlUser) : Prop :=
  normalizeGroups toLowerCase (user.groups.getD []) = user.groups.getD []

/-- **The groups after a forced evaluation**: the manual ones and those of the rules, normal. -/
theorem evaluated_groups (hclean : Cleans toLowerCase) (hids : (rules.map (·.ruleId)).Nodup)
    (hnormal : NormalGroups toLowerCase user) :
    (evaluateUserAssignments toLowerCase now user rules evidence true).user.groups.getD [] =
      normalizeGroups toLowerCase (manualGroups user (previousState user).assignments ++
        rules.flatMap (grantedBy user.email evidence (previousState user).assignments)) := by
  have hgroups : evaluatedGroups toLowerCase user rules evidence = _ := pass_groups hclean hids
  obtain ⟨huser, -, -, hsame⟩ | huser := forced_cases toLowerCase now user rules evidence
  · rw [huser, ← hgroups, ← hsame]
    exact hnormal.symm
  · rw [huser, ← hgroups]
    rfl

/-- What only dropped rules gave is gone. -/
theorem dropped_groups (hclean : Cleans toLowerCase) (hids : (rules.map (·.ruleId)).Nodup)
    (hnormal : NormalGroups toLowerCase user) (hgiven : g ∈ assignedGroups (previousState user).assignments)
    (hdropped : ∀ rule ∈ rules, ∀ raw ∈ grantedBy user.email evidence (previousState user).assignments rule,
      clean toLowerCase raw ≠ g) :
    g ∉ (evaluateUserAssignments toLowerCase now user rules evidence true).user.groups.getD [] := by
  rw [evaluated_groups hclean hids hnormal]
  intro hmem
  obtain ⟨-, raw, hraw, hcleaned⟩ := mem_normalizeGroups.mp hmem
  rcases List.mem_append.mp hraw with h | h
  · obtain ⟨hin, hmanual⟩ := List.mem_filter.mp h
    rw [Bool.and_eq_true, Bool.not_eq_true', Bool.not_eq_true'] at hmanual
    have hself : clean toLowerCase raw = raw := by
      rw [← hnormal] at hin
      exact clean_mem hclean hin
    rw [hself] at hcleaned
    rw [hcleaned, List.contains_iff_mem.mpr hgiven] at hmanual
    cases hmanual.1
  · obtain ⟨rule, hrule, hin⟩ := List.mem_flatMap.mp h
    exact hdropped rule hrule raw hin hcleaned

theorem groups_again (hclean : Cleans toLowerCase) (hnormal : NormalGroups toLowerCase user)
    {given : Assigned}
    {after : AccessControlUser}
    (hafter : after.groups = some (normalizeGroups toLowerCase
      (manualGroups user previous ++ assignedGroups given))) :
    normalizeGroups toLowerCase (after.groups.getD []) =
      normalizeGroups toLowerCase (manualGroups after given ++ assignedGroups given) := by
  refine normalizeGroups_congr fun g => ?_
  have hgetD : after.groups.getD [] = normalizeGroups toLowerCase
    (manualGroups user previous ++ assignedGroups given) := by
    rw [hafter]
    rfl
  rw [hgetD, mem_normalize_again hclean]
  constructor
  · intro hmem
    obtain ⟨hg, raw, hraw, hcleaned⟩ := mem_normalizeGroups.mp hmem
    refine mem_normalizeGroups.mpr ⟨hg, ?_⟩
    rcases List.mem_append.mp hraw with h | h
    · obtain ⟨hin, hmanual⟩ := List.mem_filter.mp h
      rw [Bool.and_eq_true, Bool.not_eq_true', Bool.not_eq_true'] at hmanual
      have hself : raw = g := by
        rw [← hnormal] at hin
        exact (clean_mem hclean hin).symm.trans hcleaned
      subst hself
      by_cases hgiven : raw ∈ assignedGroups given
      · exact ⟨raw, List.mem_append_right _ hgiven, hcleaned⟩
      · refine ⟨raw, List.mem_append_left _ (List.mem_filter.mpr ⟨by rw [hgetD]; exact hmem, ?_⟩), hcleaned⟩
        rw [hmanual.2, Bool.not_false, Bool.and_true, Bool.not_eq_true', Bool.eq_false_iff]
        exact fun h => hgiven (List.contains_iff_mem.mp h)
    · exact ⟨raw, List.mem_append_right _ h, hcleaned⟩
  · intro hmem
    obtain ⟨hg, raw, hraw, hcleaned⟩ := mem_normalizeGroups.mp hmem
    rcases List.mem_append.mp hraw with h | h
    · have hin := (List.mem_filter.mp h).1
      rw [hgetD] at hin
      rw [← hcleaned, clean_mem hclean hin]
      exact hin
    · exact mem_normalizeGroups.mpr ⟨hg, raw, List.mem_append_right _ h, hcleaned⟩

theorem unchanged (toLowerCase : Text → Text) {user : AccessControlUser} {rules : List AssignmentRule}
    {evidence : Option AssignmentEvidence} (hrevision : (previousState user).revision =
      assignmentRulesRevision rules)
    (hassigned : assignedText (previousState user).assignments =
      assignedText (evaluateRules toLowerCase user.email evidence (previousState user).assignments
        rules).assignments)
    (hgroups : normalizeGroups toLowerCase (user.groups.getD []) = evaluatedGroups toLowerCase user
      rules evidence)
    (now : Text) (force : Bool) :
    (evaluateUserAssignments toLowerCase now user rules evidence force).changed = false := by
  unfold evaluateUserAssignments
  dsimp only
  rw [hrevision, beq_self_eq_true, hassigned, beq_self_eq_true, hgroups]
  unfold evaluatedGroups
  rw [beq_self_eq_true, Bool.true_and, Bool.true_and, if_pos rfl]
  split <;> rfl

/-- **Evaluating the result again reports no change**, forced or not. -/
theorem evaluated_again (hclean : Cleans toLowerCase) (hids : (rules.map (·.ruleId)).Nodup)
    (hnormal : NormalGroups toLowerCase user) (later : Text) (force : Bool) :
    (evaluateUserAssignments toLowerCase later
      (evaluateUserAssignments toLowerCase now user rules evidence true).user
      rules evidence force).changed = false := by
  obtain ⟨huser, hrevision, hassigned, hgroups⟩ | huser := forced_cases toLowerCase now user rules evidence
  · rw [huser]
    exact unchanged toLowerCase hrevision hassigned hgroups later force
  · generalize (evaluateUserAssignments toLowerCase now user rules evidence true).user = after at huser ⊢
    generalize hgiven : (evaluateRules toLowerCase user.email evidence
      (previousState user).assignments rules).assignments =
      given at huser
    -- the second pass gives what the first gave, so its groups are the ones just written
    have hpass : (evaluateRules toLowerCase user.email evidence given rules).assignments = given := by
      subst hgiven
      exact foldl_congr (fun rule hrule => contributed_again hids hrule) rfl
    have hemail : after.email = user.email := by rw [huser]
    have hstate : previousState after = ⟨assignmentRulesRevision rules, given, some now⟩ := by rw [huser]; rfl
    have hgroups : after.groups = some (normalizeGroups toLowerCase
        (manualGroups user (previousState user).assignments ++ assignedGroups given)) := by
      rw [huser, ← hgiven]
      rfl
    refine unchanged toLowerCase (by rw [hstate]) ?_ ?_ later force
    · rw [hstate, hemail, hpass]
    · rw [groups_again hclean hnormal hgroups, evaluatedGroups, hstate, hemail, hpass]

/-- A rule that gives nothing: disabled, or one whose groups go with the match. -/
def Dropped (email : Text) (evidence : Option AssignmentEvidence) (rule : AssignmentRule) : Prop :=
  rule.enabled = false ∨ (assignmentMatch rule email evidence = .noMatch ∧ rule.revokeOnLoss = true)

theorem granted_of_dropped {rule : AssignmentRule} (h : Dropped email evidence rule) :
    grantedBy email evidence previous rule = [] := by
  unfold grantedBy
  rcases h with hdisabled | ⟨hmatch, hrevoke⟩
  · have hmatch : assignmentMatch rule email evidence = .noMatch := by
      unfold assignmentMatch
      rw [hdisabled, Bool.not_false, if_pos rfl]
    rw [hmatch, hdisabled]
    exact if_neg nofun
  · rw [hmatch, hrevoke]
    exact if_neg nofun

/-- **A forced evaluation gives the groups of the rules in force.** Its groups are the manual ones
    and those its
    rules stand for, normal; a group that only dropped or deleted rules gave is gone; and evaluating
    the result
    again, at any time, reports no change. -/
theorem assignment_evaluation (toLowerCase : Text → Text) (now : Text) (user : AccessControlUser)
    (rules : List AssignmentRule) (evidence : Option AssignmentEvidence) (hclean : Cleans toLowerCase)
    (hids : (rules.map (·.ruleId)).Nodup) (hnormal : NormalGroups toLowerCase user) :
    (evaluateUserAssignments toLowerCase now user rules evidence true).user.groups.getD [] =
        normalizeGroups toLowerCase (manualGroups user (previousState user).assignments ++
          rules.flatMap (grantedBy user.email evidence (previousState user).assignments)) ∧
      (∀ g ∈ assignedGroups (previousState user).assignments,
        (∀ rule ∈ rules, ∀ raw ∈ grantedBy user.email evidence (previousState user).assignments rule,
          clean toLowerCase raw = g → Dropped user.email evidence rule) →
        g ∉ (evaluateUserAssignments toLowerCase now user rules evidence true).user.groups.getD []) ∧
      ∀ later force, (evaluateUserAssignments toLowerCase later
        (evaluateUserAssignments toLowerCase now user rules evidence true).user rules evidence
          force).changed = false := by
  refine ⟨evaluated_groups hclean hids hnormal, fun g hg hdropped => ?_, evaluated_again hclean hids hnormal⟩
  refine dropped_groups hclean hids hnormal hg fun rule hrule raw hraw hcleaned => ?_
  rw [granted_of_dropped (hdropped rule hrule raw hraw hcleaned)] at hraw
  cases hraw

end Forced

/-! ## 7. A user who left an organisation -/

section Example

/-- ASCII letters only: enough for the names below. -/
def lowerUnit (u : UInt16) : UInt16 := if 0x41 ≤ u ∧ u ≤ 0x5a then u + 0x20 else u

theorem lowerUnit_toNat (u : UInt16) :
    (lowerUnit u).toNat = if 0x41 ≤ u.toNat ∧ u.toNat ≤ 0x5a then u.toNat + 0x20 else u.toNat := by
  have hle : (0x41 ≤ u ∧ u ≤ 0x5a) ↔ (0x41 ≤ u.toNat ∧ u.toNat ≤ 0x5a) := by
    rw [UInt16.le_iff_toNat_le, UInt16.le_iff_toNat_le]
    rfl
  unfold lowerUnit
  by_cases h : 0x41 ≤ u.toNat ∧ u.toNat ≤ 0x5a
  · rw [if_pos (hle.mpr h), if_pos h, UInt16.toNat_add]
    have e : (0x20 : UInt16).toNat = 0x20 := rfl
    rw [e]
    omega
  · rw [if_neg fun h' => h (hle.mp h'), if_neg h]

theorem lowerUnit_again (u : UInt16) : lowerUnit (lowerUnit u) = lowerUnit u := by
  rw [← UInt16.toNat_inj, lowerUnit_toNat (lowerUnit u), lowerUnit_toNat u]
  by_cases h : 0x41 ≤ u.toNat ∧ u.toNat ≤ 0x5a
  · rw [if_pos h, if_neg (by omega)]
  · rw [if_neg h, if_neg h]

theorem isSpace_lowerUnit (u : UInt16) : Js.isSpace (lowerUnit u) = Js.isSpace u := by
  unfold Js.isSpace
  rw [lowerUnit_toNat]
  split
  · rename_i h
    rw [Bool.eq_iff_iff]
    simp only [Bool.or_eq_true, Bool.and_eq_true, beq_iff_eq, decide_eq_true_eq]
    omega
  · rfl

theorem trim_lower (t : Text) : Js.trim (t.map lowerUnit) = (Js.trim t).map lowerUnit := by
  have hspace : Js.isSpace ∘ lowerUnit = Js.isSpace := funext isSpace_lowerUnit
  unfold Js.trim
  rw [List.dropWhile_map, hspace, ← List.map_reverse, List.dropWhile_map, hspace, List.map_reverse]

theorem cleans_lower : Cleans (List.map lowerUnit) := by
  intro t
  unfold clean
  rw [trim_lower, Js.trim_trim, List.map_map]
  exact List.map_congr_left fun u _ => lowerUnit_again u

def one : Number where
  text :=
  [0x31]
  ascii := by
    intro u hu
    rw [List.mem_singleton.mp hu]
    decide
  short := by decide

def orgRule : AssignmentRule where
  ruleId :=
  Js.text "acme-eng"
  version := one
  enabled := true
  kind := .githubOrg
  subject := Js.text "acme"
  groups := [Js.text "Eng"]
  policyIds := []
  priority := one
  revokeOnLoss := true
  provenance := Js.text "github"
  generatedGroup := Js.text "assignment.acme-eng"

def domainRule : AssignmentRule :=
  { orgRule with
    ruleId := Js.text "staff"
    kind := .emailDomain
    subject := Js.text "acme.dev"
    groups := [Js.text " Staff"]
    revokeOnLoss := false }

/-- A user in the groups `core` and `eng`, the second from a rule. -/
def leaver : AccessControlUser where
  email :=
  Js.text "ann@acme.dev"
  role := none
  groups := some [Js.text "core", Js.text "eng"]
  assignmentState := some ⟨[], [(Js.text "acme-eng", ⟨[Js.text "eng"], true⟩)], none⟩

/-- Without the organisation `eng` goes, the manual group stays and the domain's group comes. -/
theorem leaver_groups :
    (evaluateUserAssignments (List.map lowerUnit) [] leaver [orgRule, domainRule] (some ⟨[], []⟩)
      true).user.groups.getD [] =
        normalizeGroups (List.map lowerUnit) [Js.text "core", Js.text " Staff"] ∧ Js.text "eng" ∉
        (evaluateUserAssignments (List.map lowerUnit) [] leaver [orgRule, domainRule]
          (some ⟨[], []⟩) true).user.groups.getD [] ∧
      ∀ later force, (evaluateUserAssignments (List.map lowerUnit) later
        (evaluateUserAssignments (List.map lowerUnit) [] leaver [orgRule, domainRule]
          (some ⟨[], []⟩) true).user
        [orgRule, domainRule] (some ⟨[], []⟩) force).changed = false := by
  have hnormal : NormalGroups (List.map lowerUnit) leaver := by
    unfold NormalGroups normalizeGroups
    have hclean : ((leaver.groups.getD []).map (clean (List.map lowerUnit))).filter
      (· ≠ []) = leaver.groups.getD [] := by
      decide
    rw [hclean]
    have hdups : (leaver.groups.getD []).eraseDups = leaver.groups.getD [] := by decide
    rw [hdups]
    exact List.mergeSort_of_pairwise (by decide)
  obtain ⟨hgroups, hdropped, hagain⟩ := assignment_evaluation (List.map lowerUnit) [] leaver
    [orgRule, domainRule]
    (some ⟨[], []⟩) cleans_lower (by decide) hnormal
  refine ⟨hgroups, hdropped _ (by decide) ?_, hagain⟩
  intro rule hrule raw hraw hcleaned
  rcases List.mem_cons.mp hrule with rfl | hrule
  · exact .inr ⟨by decide, rfl⟩
  · rw [List.mem_singleton.mp hrule] at hraw
    have hstaff : raw = Js.text " Staff" := List.mem_singleton.mp hraw
    rw [hstaff] at hcleaned
    exact absurd hcleaned (by decide)

end Example

end ClawRouter.Assignments
