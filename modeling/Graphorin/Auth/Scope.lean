import Mathlib.Data.List.Basic

namespace Graphorin.Auth

/-! Scopes: `<resource>:<action>[:<id-or-glob>]`. -/

inductive ParsedScope
  | twoSegment (resource action raw : String)
  | threeSegment (resource action target raw : String)
  deriving DecidableEq

namespace ParsedScope

def resource : ParsedScope → String
  | .twoSegment resource _ _ => resource
  | .threeSegment resource _ _ _ => resource

def action : ParsedScope → String
  | .twoSegment _ action _ => action
  | .threeSegment _ action _ _ => action

def target : ParsedScope → Option String
  | .twoSegment .. => none
  | .threeSegment _ _ target _ => some target

end ParsedScope

structure ScopeParseError where
  input : String
  reason : String
  deriving DecidableEq

def ScopeParseError.message (error : ScopeParseError) : String :=
  "Invalid scope '" ++ error.input ++ "': " ++ error.reason

/-- `text.split(separator)` for a separator of one character. -/
def splitChars (separator : Char) : List Char → List (List Char)
  | [] => [[]]
  | char :: rest =>
    if char = separator then [] :: splitChars separator rest
    else
      match splitChars separator rest with
      | [] => [[char]]
      | first :: others => (char :: first) :: others

def lower (char : Char) : Bool := 'a' ≤ char ∧ char ≤ 'z'

def upper (char : Char) : Bool := 'A' ≤ char ∧ char ≤ 'Z'

def digit (char : Char) : Bool := '0' ≤ char ∧ char ≤ '9'

def slugChar (char : Char) : Bool := lower char || digit char || char = '-'

/-- `/^[a-z][a-z0-9-]*$/` -/
def slug : List Char → Bool
  | [] => false
  | first :: rest => lower first && rest.all slugChar

/-- `/^[a-z][a-z0-9-]{0,31}$/` -/
def resourceRe (text : List Char) : Bool := slug text && text.length ≤ 32

/-- `/^[a-z][a-z0-9-]*$|^\*$/` -/
def actionRe (text : List Char) : Bool := slug text || text = ['*']

def targetChar (char : Char) : Bool :=
  lower char || upper char || digit char || char ∈ ['_', '.', '-']

/-- `/^([A-Za-z0-9_.-]{1,128}|\*)$/` -/
def targetRe (text : List Char) : Bool :=
  (!text.isEmpty && text.length ≤ 128 && text.all targetChar) || text = ['*']

def parseScope (input : String) : Except ScopeParseError ParsedScope :=
  if input.toList = [] then .error ⟨input, "input is empty"⟩
  else
    let checked (resource action : List Char) (target : Option (List Char)) :=
      if !resourceRe resource then
        .error ⟨input, "invalid resource '" ++ String.ofList resource ++ "'"⟩
      else if !actionRe action then
        .error ⟨input, "invalid action '" ++ String.ofList action ++ "'"⟩
      else
        match target with
        | none =>
          .ok (.twoSegment (String.ofList resource) (String.ofList action) input)
        | some target =>
          if !targetRe target then
            .error ⟨input, "invalid target '" ++ String.ofList target ++ "'"⟩
          else
            .ok (.threeSegment (String.ofList resource) (String.ofList action)
              (String.ofList target) input)
    match splitChars ':' input.toList with
    | [resource, action] => checked resource action none
    | [resource, action, target] => checked resource action (some target)
    | segments =>
      .error ⟨input, "expected 2 or 3 colon-separated segments, got " ++
        toString segments.length⟩

def tryParseScope (input : String) : Option ParsedScope :=
  (parseScope input).toOption

def validateScopeSet (scopes : List String) : List ScopeParseError :=
  scopes.filterMap fun scope =>
    match parseScope scope with
    | .ok _ => none
    | .error error => some error

def targetMatches : (granted required : ParsedScope) → Bool
  | .twoSegment .., .twoSegment .. => true
  | .threeSegment _ _ target _, .twoSegment .. => target = "*"
  | .twoSegment .., .threeSegment .. => true
  | .threeSegment _ _ target _, .threeSegment _ _ required _ =>
    target = "*" || target = required

def scopeMatches (granted required : ParsedScope) : Bool :=
  if granted.resource = "admin" ∧ granted.action = "*" then true
  else if granted.resource ≠ required.resource then false
  else if granted.action ≠ "*" ∧ granted.action ≠ required.action then false
  else targetMatches granted required

def asScope : String ⊕ ParsedScope → Except ScopeParseError ParsedScope
  | .inl text => parseScope text
  | .inr scope => .ok scope

/-- Grants that do not parse are skipped; a requirement that does not throws. -/
def scopeSetMatches (granted : List (String ⊕ ParsedScope))
    (required : String ⊕ ParsedScope) : Except ScopeParseError Bool := do
  let requiredScope ← asScope required
  return granted.any fun entry =>
    (asScope entry).toOption.any fun scope => scopeMatches scope requiredScope

namespace ParsedScope

/-- A two-segment grant covers every target, `*` too, and a name itself. -/
def CoversTarget (granted required : ParsedScope) : Prop :=
  ∀ target, granted.target = some target →
    target = "*" ∨ required.target = some target

/-- The rules as they are documented. -/
inductive Allows : ParsedScope → ParsedScope → Prop
  | admin {raw : String} {required : ParsedScope} :
      Allows (.twoSegment "admin" "*" raw) required
  | aligned {granted required : ParsedScope}
      (resource : granted.resource = required.resource)
      (action : granted.action = "*" ∨ granted.action = required.action)
      (target : granted.CoversTarget required) : Allows granted required

/-- `admin:*:target`. -/
def targetedAdmin : ParsedScope → Bool
  | .twoSegment .. => false
  | .threeSegment resource action _ _ => resource = "admin" && action = "*"

variable {granted required : ParsedScope}

theorem coversTarget_some (named : granted.target = some name) :
    granted.CoversTarget required ↔ name = "*" ∨ required.target = some name := by
  constructor
  · exact fun covers => covers name named
  · intro either target found
    rw [named] at found
    cases found
    exact either

theorem targetMatches_iff (granted required : ParsedScope) :
    targetMatches granted required = true ↔ granted.CoversTarget required := by
  cases granted with
  | twoSegment =>
    have covers : ∀ raw resource action,
        (twoSegment raw resource action).CoversTarget required := by
      intro raw resource action target named
      cases named
    exact ⟨fun _ => covers _ _ _, fun _ => by cases required <;> rfl⟩
  | threeSegment =>
    rw [coversTarget_some rfl]
    cases required with
    | twoSegment => simp [targetMatches, target]
    | threeSegment =>
      simp only [targetMatches, target, Bool.or_eq_true, decide_eq_true_eq,
        Option.some.injEq]
      exact or_congr_right eq_comm

theorem CoversTarget.refl (scope : ParsedScope) : scope.CoversTarget scope :=
  fun _ named => .inr named

theorem CoversTarget.trans {between : ParsedScope} (first : granted.CoversTarget between)
    (second : between.CoversTarget required) : granted.CoversTarget required := by
  intro target named
  rcases first target named with any | same
  · exact .inl any
  · exact second target same

end ParsedScope

open ParsedScope

variable {granted : ParsedScope}

theorem scopeMatches_admin (required : ParsedScope) (resource : granted.resource = "admin")
    (action : granted.action = "*") : scopeMatches granted required = true := by
  rw [scopeMatches, if_pos ⟨resource, action⟩]

theorem scopeMatches_iff (granted required : ParsedScope) :
    scopeMatches granted required = true ↔
      (granted.resource = "admin" ∧ granted.action = "*") ∨
        (granted.resource = required.resource ∧
          (granted.action = "*" ∨ granted.action = required.action) ∧
          granted.CoversTarget required) := by
  rw [scopeMatches, ← targetMatches_iff]
  by_cases admin : granted.resource = "admin" ∧ granted.action = "*"
  · simp [admin]
  · rw [if_neg admin]
    by_cases resource : granted.resource = required.resource
    · by_cases action : granted.action = "*" ∨ granted.action = required.action
      · rw [if_neg (by simp [resource]), if_neg (by tauto)]
        rw [or_iff_right admin]
        simp only [resource, action, true_and]
      · rw [if_neg (by simp [resource]), if_pos (by tauto)]
        simp [admin, action]
    · rw [if_pos resource]
      simp [admin, resource]

theorem scopeMatches_refl (scope : ParsedScope) : scopeMatches scope scope = true :=
  (scopeMatches_iff scope scope).mpr (.inr ⟨rfl, .inr rfl, .refl scope⟩)

theorem scopeMatches_trans {between required : ParsedScope}
    (first : scopeMatches granted between = true)
    (second : scopeMatches between required = true) :
    scopeMatches granted required = true := by
  rw [scopeMatches_iff] at first second ⊢
  rcases first with admin | ⟨resource, action, target⟩
  · exact .inl admin
  · rcases second with ⟨resource', action'⟩ | ⟨resource', action', target'⟩
    · refine .inl ⟨resource.trans resource', ?_⟩
      rcases action with any | same
      · exact any
      · exact same.trans action'
    · refine .inr ⟨resource.trans resource', ?_, target.trans target'⟩
      rcases action with any | same
      · exact .inl any
      · rwa [same]

theorem scopeMatches_allows (plain : granted.targetedAdmin = false) (required : ParsedScope) :
    scopeMatches granted required = true ↔ Allows granted required := by
  rw [scopeMatches_iff]
  constructor
  · rintro (⟨resource, action⟩ | ⟨resource, action, target⟩)
    · cases granted with
      | twoSegment =>
        cases resource
        cases action
        exact .admin
      | threeSegment =>
        cases resource
        cases action
        cases plain
    · exact .aligned resource action target
  · rintro (_ | ⟨resource, action, target⟩)
    · exact .inl ⟨rfl, rfl⟩
    · exact .inr ⟨resource, action, target⟩

theorem parsed_agents_read :
    parseScope "agents:read" = .ok (.twoSegment "agents" "read" "agents:read") := by
  rfl

/-- Matching is a preorder, and a grant authorises what the documented rules allow, and a
targeted one nothing outside its resource and target, unless it is a targeted `admin:*`. -/
theorem scope_matching_follows_rules {text : String} {granted : ParsedScope}
    (_parsed : parseScope text = .ok granted) :
    scopeMatches granted granted = true ∧
    (∀ text' text'' between required, parseScope text' = .ok between →
      parseScope text'' = .ok required → scopeMatches granted between = true →
      scopeMatches between required = true → scopeMatches granted required = true) ∧
    ((∀ text' required, parseScope text' = .ok required →
        (scopeMatches granted required = true ↔ Allows granted required) ∧
        (granted.target.isSome = true → scopeMatches granted required = true →
          required.resource = granted.resource ∧ granted.CoversTarget required)) ↔
      granted.targetedAdmin = false) := by
  refine ⟨scopeMatches_refl granted,
    fun _ _ _ _ _ _ first second => scopeMatches_trans first second, ?_⟩
  constructor
  · intro follows
    cases granted with
    | twoSegment => rfl
    | threeSegment =>
      by_contra targeted
      simp only [targetedAdmin, Bool.not_eq_false, Bool.and_eq_true,
        decide_eq_true_eq] at targeted
      obtain ⟨rfl, rfl⟩ := targeted
      have allowed := (follows _ _ parsed_agents_read).2 rfl (scopeMatches_admin _ rfl rfl)
      have same : "agents" = "admin" := allowed.1
      exact absurd same (by decide)
  · intro plain text' required _
    refine ⟨scopeMatches_allows plain required, fun targeted holds => ?_⟩
    cases (scopeMatches_allows plain required).mp holds with
    | admin => cases targeted
    | aligned resource _ target => exact ⟨resource.symm, target⟩

theorem targeted_admin_matches_everything : ¬ ∀ text text' granted required,
    parseScope text = .ok granted → parseScope text' = .ok required →
      (scopeMatches granted required = true ↔ Allows granted required) := by
  intro follows
  have allowed := (follows "admin:*:backup" "agents:read"
    (.threeSegment "admin" "*" "backup" "admin:*:backup") _ rfl parsed_agents_read).mp rfl
  cases allowed with
  | aligned resource =>
    have same : "admin" = "agents" := resource
    exact absurd same (by decide)

theorem wildcard_grant_follows_rules :
    scopeMatches (.twoSegment "agents" "*" "agents:*")
        (.threeSegment "agents" "read" "a-1" "agents:read:a-1") = true ↔
      Allows (.twoSegment "agents" "*" "agents:*")
        (.threeSegment "agents" "read" "a-1" "agents:read:a-1") :=
  ((@scope_matching_follows_rules "agents:*" _ rfl).2.2.mpr rfl "agents:read:a-1" _ rfl).1

end Graphorin.Auth
