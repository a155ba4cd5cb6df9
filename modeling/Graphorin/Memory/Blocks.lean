import Graphorin.Audit.Canonical
import Graphorin.Memory.Facts

namespace Graphorin.Memory

open Lib Audit

/-! Working-memory blocks: what an edit makes of a value, and the rows it is kept in. -/

inductive OverflowPolicy
  | truncate
  | reject
  deriving DecidableEq

structure BlockDefinition where
  label : String
  description : Option String := none
  charLimit : Nat
  sensitivity : String := "internal"
  readOnly : Bool := false
  defaultValue : Option JsText := none
  overflowPolicy : OverflowPolicy := .truncate
  tags : Option (List String) := none

inductive BlockFailure
  | undefinedBlock (label : String)
  | readOnly (label : String)
  | replaceMismatch (label : String) (occurrences : Nat)
  | overflow (label : String) (attempted limit : Nat)
  | mutator (reason : String)
  deriving DecidableEq

def enforceCharLimit (value : JsText) (definition : BlockDefinition) :
    Except BlockFailure JsText :=
  if value.length ≤ definition.charLimit then .ok value
  else
    match definition.overflowPolicy with
    | .reject => .error (.overflow definition.label value.length definition.charLimit)
    | .truncate => .ok (value.take definition.charLimit)

def splitFirst (needle : JsText) : JsText → Option (JsText × JsText)
  | [] => if needle.isEmpty then some ([], []) else none
  | unit :: rest =>
    if needle.isPrefixOf (unit :: rest) then
      some ([], (unit :: rest).drop needle.length)
    else (splitFirst needle rest).map fun (before, after) => (unit :: before, after)

/-- The occurrences that do not overlap; each unit of `fuel` finds one. -/
def countFrom (needle : JsText) : Nat → JsText → Nat
  | 0, _ => 0
  | fuel + 1, haystack =>
    match splitFirst needle haystack with
    | none => 0
    | some (_, after) => countFrom needle fuel after + 1

def countOccurrences (haystack needle : JsText) : Nat :=
  if needle.isEmpty then 0 else countFrom needle haystack.length haystack

/-- The `$` patterns of a replacement text, when the pattern is a string. -/
def substitute (matched before after : JsText) : JsText → JsText
  | [] => []
  | [unit] => [unit]
  | unit :: next :: rest =>
    if unit = 0x24 then
      if next = 0x24 then 0x24 :: substitute matched before after rest
      else if next = 0x26 then matched ++ substitute matched before after rest
      else if next = 0x60 then before ++ substitute matched before after rest
      else if next = 0x27 then after ++ substitute matched before after rest
      else unit :: substitute matched before after (next :: rest)
    else unit :: substitute matched before after (next :: rest)
  termination_by structural template => template

/-- `haystack.replace(pattern, replacement)` for two strings. -/
def replaceFirst (haystack pattern replacement : JsText) : JsText :=
  match splitFirst pattern haystack with
  | none => haystack
  | some (before, after) =>
    before ++ substitute pattern before after replacement ++ after

inductive Edit
  | write (value : JsText)
  | append (content : JsText)
  | replace (oldUnique newText : JsText)
  | rethink (mutator : JsText → Except BlockFailure JsText)

/-- `nextValueFn(current)`. -/
def Edit.nextValue (label : String) (edit : Edit) (current : Option JsText) :
    Except BlockFailure JsText :=
  match edit with
  | .write value => .ok value
  | .append content =>
    match current with
    | none | some [] => .ok content
    | some text => .ok (text ++ 0x0a :: content)
  | .replace oldUnique newText =>
    let haystack := current.getD []
    let occurrences := countOccurrences haystack oldUnique
    if occurrences ≠ 1 then .error (.replaceMismatch label occurrences)
    else .ok (replaceFirst haystack oldUnique newText)
  | .rethink mutator => mutator (current.getD [])

/-- The value an edit stores over the one it read; an unwritten block starts from
the declared default. -/
def Edit.apply (definition : BlockDefinition) (edit : Edit) (value : Option JsText) :
    Except BlockFailure JsText :=
  match edit.nextValue definition.label (value.or definition.defaultValue) with
  | .error failure => .error failure
  | .ok candidate => enforceCharLimit candidate definition

/-- What the queries compare, with `COALESCE(…, '')`. -/
structure BlockKey where
  userId : String
  sessionId : String
  agentId : String
  label : String
  deriving DecidableEq

def Scope.blockKey (scope : Scope) (label : String) : BlockKey :=
  ⟨scope.userId, scope.sessionId.getD "", scope.agentId.getD "", label⟩

structure Block where
  id : String
  scope : Scope
  label : String
  description : Option String
  value : JsText
  charLimit : Nat
  readOnly : Bool
  sensitivity : String
  tags : Option (List String)
  createdAt : Int
  updatedAt : Int

structure BlockRow where
  id : String
  description : Option String
  value : JsText
  charLimit : Nat
  readOnly : Bool
  sensitivity : String
  tags : Option (List String)
  createdAt : Int
  updatedAt : Int
  deletedAt : Option Int

abbrev BlockStore := OrderedMap BlockKey BlockRow

def BlockStore.read (store : BlockStore) (scope : Scope) (label : String) :
    Option Block :=
  match OrderedMap.get store (scope.blockKey label) with
  | none => none
  | some row =>
    if row.deletedAt.isSome then none
    else
      some ⟨row.id, scope, label, row.description, row.value, row.charLimit, row.readOnly,
        row.sensitivity, row.tags, row.createdAt, row.updatedAt⟩

/-- The row that is there keeps its id and `created_at`, a tombstone is revived. -/
def BlockStore.upsert (store : BlockStore) (scope : Scope) (block : Block) :
    BlockStore :=
  let now := block.updatedAt
  match OrderedMap.get store (scope.blockKey block.label) with
  | some existing =>
    OrderedMap.set store (scope.blockKey block.label)
      { existing with
        value := block.value
        description := block.description
        charLimit := block.charLimit
        readOnly := block.readOnly
        sensitivity := block.sensitivity
        tags := block.tags
        updatedAt := now
        deletedAt := none }
  | none =>
    OrderedMap.set store (scope.blockKey block.label)
      ⟨block.id, block.description, block.value, block.charLimit, block.readOnly,
        block.sensitivity, block.tags, block.createdAt, now, none⟩

/-- The stored value under a key. -/
def BlockStore.value (store : BlockStore) (key : BlockKey) : Option JsText :=
  match OrderedMap.get store key with
  | some row => if row.deletedAt.isSome then none else some row.value
  | none => none

variable (store : BlockStore)

theorem read_value (scope : Scope) (label : String) :
    (store.read scope label).map (·.value) = store.value (scope.blockKey label) := by
  rw [BlockStore.read, BlockStore.value]
  cases OrderedMap.get store (scope.blockKey label) with
  | none => rfl
  | some =>
    dsimp only
    split
    · rfl
    · rfl

theorem value_set (written : BlockKey) (row : BlockRow) (alive : row.deletedAt = none)
    (key : BlockKey) :
    BlockStore.value (OrderedMap.set store written row) key =
      if key = written then some row.value else store.value key := by
  rw [BlockStore.value, OrderedMap.get_set]
  by_cases here : key = written
  · rw [if_pos here, if_pos here]
    simp [alive]
  · rw [if_neg here, if_neg here]
    rfl

theorem upsert_value (scope : Scope) (block : Block) (key : BlockKey) :
    (store.upsert scope block).value key =
      if key = scope.blockKey block.label then some block.value else store.value key := by
  rw [BlockStore.upsert]
  split
  · exact value_set _ _ _ rfl key
  · exact value_set _ _ _ rfl key

end Graphorin.Memory
