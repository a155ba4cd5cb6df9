import Graphorin.Memory.Blocks

namespace Graphorin.Memory

open Lib Audit

/-! Edits that overlap: each reads the block, computes, and writes the whole value. -/

structure EditCall where
  scope : Scope
  label : String
  edit : Edit
  /-- The id a block gets that is not there yet. -/
  newId : String

def EditCall.key (call : EditCall) : BlockKey := call.scope.blockKey call.label

structure BlockWorld where
  store : BlockStore
  /-- The calls between their read and their write, with what they read. -/
  reading : OrderedMap Nat (Option Block)
  /-- The calls that came to an end, the first one first. -/
  settled : List (Nat × Except BlockFailure Block)

/-- The two steps of a call: up to its read, and from there to its write. -/
inductive BlockEvent
  | start (id : Nat)
  | finish (id : Nat) (now : Int)

def nextBlock (call : EditCall) (definition : BlockDefinition) (existing : Option Block)
    (value : JsText) (now : Int) : Block where
  id := (existing.map (·.id)).getD call.newId
  scope := call.scope
  label := call.label
  description := definition.description
  value := value
  charLimit := definition.charLimit
  readOnly := definition.readOnly
  sensitivity := definition.sensitivity
  tags := definition.tags
  createdAt := (existing.map (·.createdAt)).getD now
  updatedAt := now

variable (definitions : String → Option BlockDefinition) (calls : Nat → EditCall)

def BlockWorld.known (world : BlockWorld) (id : Nat) : Bool :=
  (world.reading.get id).isSome || world.settled.any (·.1 = id)

def BlockWorld.settle (world : BlockWorld) (id : Nat)
    (outcome : Except BlockFailure Block) (store : BlockStore) : BlockWorld :=
  ⟨store, world.reading.delete id, world.settled ++ [(id, outcome)]⟩

def BlockWorld.step (world : BlockWorld) : BlockEvent → BlockWorld
  | .start id =>
    if world.known id then world
    else
      let call := calls id
      match definitions call.label with
      | none => world.settle id (.error (.undefinedBlock call.label)) world.store
      | some definition =>
        if definition.readOnly then
          world.settle id (.error (.readOnly call.label)) world.store
        else
          { world with
            reading := world.reading.set id (world.store.read call.scope call.label) }
  | .finish id now =>
    let call := calls id
    match world.reading.get id, definitions call.label with
    | some existing, some definition =>
      match call.edit.apply definition (existing.map (·.value)) with
      | .error failure => world.settle id (.error failure) world.store
      | .ok value =>
        let block := nextBlock call definition existing value now
        world.settle id (.ok block) (world.store.upsert call.scope block)
    | _, _ => world

def BlockWorld.run (world : BlockWorld) (events : List BlockEvent) : BlockWorld :=
  events.foldl (BlockWorld.step definitions calls) world

def BlockWorld.initial (store : BlockStore) : BlockWorld := ⟨store, .empty, []⟩

/-- The calls on a key that succeeded, in the order of their writes. -/
def BlockWorld.succeeded (world : BlockWorld) (key : BlockKey) : List Nat :=
  world.settled.filterMap fun (id, outcome) =>
    match outcome with
    | .ok _ => if (calls id).key = key then some id else none
    | .error _ => none

/-- The edits applied one after another. -/
def serially (definition : BlockDefinition) :
    Option JsText → List Edit → Except BlockFailure (Option JsText)
  | value, [] => .ok value
  | value, edit :: rest =>
    match edit.apply definition value with
    | .error failure => .error failure
    | .ok next => serially definition (some next) rest

theorem serially_concat (definition : BlockDefinition) (value : Option JsText)
    (edits : List Edit) (last : Edit)
    (before : serially definition value edits = .ok reached)
    (stored : last.apply definition reached = .ok next) :
    serially definition value (edits ++ [last]) = .ok (some next) := by
  induction edits generalizing value with
  | nil =>
    cases before
    rw [List.nil_append, serially, stored]
    rfl
  | cons edit rest ih =>
    rw [serially] at before
    rw [List.cons_append, serially]
    split at before
    · cases before
    · rename_i middle _
      exact ih _ before

/-- An edit that makes the same of every current value. -/
def Edit.IgnoresValue (edit : Edit) : Prop :=
  ∀ label first second, edit.nextValue label first = edit.nextValue label second

/-- A call writes while every other call on its scope and label that is between its read and
its write ignores what it read. -/
def Undisturbed (world : BlockWorld) : BlockEvent → Prop
  | .start _ => True
  | .finish id _ =>
    (world.reading.get id).isSome → ∀ other, other ≠ id → (world.reading.get other).isSome →
      (calls other).key = (calls id).key → (calls other).edit.IgnoresValue

/-- Every event of the run meets a world in which it disturbs nobody. -/
def UndisturbedRun (world : BlockWorld) : List BlockEvent → Prop
  | [] => True
  | event :: rest =>
    Undisturbed calls world event ∧
      UndisturbedRun (world.step definitions calls event) rest

/-- What a call has read is still stored, unless its edit does not look at it. -/
def Current (world : BlockWorld) : Prop :=
  ∀ id existing, world.reading.get id = some existing →
    (calls id).edit.IgnoresValue ∨
      existing.map (·.value) = world.store.value (calls id).key

def Serialised (start : BlockStore) (world : BlockWorld) : Prop :=
  ∀ key definition, definitions key.label = some definition →
    serially definition (start.value key)
      ((world.succeeded calls key).map fun id => (calls id).edit) =
        .ok (world.store.value key)

variable {definitions calls}

variable {start : BlockStore} {world : BlockWorld}

variable {id : Nat}

theorem settle_error {failure : BlockFailure}
    (serialised : Serialised definitions calls start world) :
    Serialised definitions calls start (world.settle id (.error failure) world.store) := by
  intro key definition defined
  have same : (world.settle id (.error failure) world.store).succeeded calls key =
      world.succeeded calls key := by
    simp [BlockWorld.succeeded, BlockWorld.settle, List.filterMap_append]
  rw [same]
  exact serialised key definition defined

theorem settle_ok {now : Int} {existing : Option Block} {definition : BlockDefinition}
    {value : JsText} (serialised : Serialised definitions calls start world)
    (defined : definitions (calls id).label = some definition)
    (fresh : (calls id).edit.apply definition (world.store.value (calls id).key) = .ok value)
    : Serialised definitions calls start
      (world.settle id (.ok (nextBlock (calls id) definition existing value now))
        (world.store.upsert (calls id).scope
          (nextBlock (calls id) definition existing value now))) := by
  intro key definition' defined'
  have stored : (world.store.upsert (calls id).scope
      (nextBlock (calls id) definition existing value now)).value key =
        if key = (calls id).key then some value else world.store.value key :=
    upsert_value ..
  have before := serialised key definition' defined'
  rw [BlockWorld.settle, stored, BlockWorld.succeeded, List.filterMap_append,
    List.map_append]
  by_cases here : (calls id).key = key
  · have own : definition' = definition := by
      subst here
      rw [show (calls id).key.label = (calls id).label from rfl, defined] at defined'
      exact (Option.some.inj defined').symm
    subst own
    rw [if_pos here.symm]
    simp only [List.filterMap_cons, here, if_true, List.filterMap_nil, List.map_cons,
      List.map_nil]
    exact serially_concat _ _ _ _ before (here ▸ fresh)
  · rw [if_neg (Ne.symm here)]
    simp only [List.filterMap_cons, here, if_false, List.filterMap_nil, List.map_nil,
      List.append_nil]
    exact before

theorem Current.fresh {existing : Option Block} (current : Current calls world)
    (read : world.reading.get id = some existing) (definition : BlockDefinition) :
    (calls id).edit.apply definition (existing.map (·.value)) =
      (calls id).edit.apply definition (world.store.value (calls id).key) := by
  rcases current id existing read with ignores | same
  · rw [Edit.apply, Edit.apply, ignores definition.label _
      ((world.store.value (calls id).key).or definition.defaultValue)]
  · rw [same]

theorem serialised_step (serialised : Serialised definitions calls start world)
    (current : Current calls world) (event : BlockEvent) :
    Serialised definitions calls start (world.step definitions calls event) := by
  cases event with
  | start =>
    rw [BlockWorld.step]
    split
    · exact serialised
    · dsimp only
      split
      · exact settle_error serialised
      · split
        · exact settle_error serialised
        · exact serialised
  | finish id now =>
    rw [BlockWorld.step]
    split
    · rename_i existing definition read defined
      split
      · exact settle_error serialised
      · rename_i value stored
        rw [current.fresh read] at stored
        exact settle_ok serialised defined stored
    · exact serialised

/-- An end without a write leaves the others what they read. -/
theorem Current.settle (current : Current calls world) (outcome : Except BlockFailure Block) :
    Current calls (world.settle id outcome world.store) := by
  intro other existing read
  rw [BlockWorld.settle, OrderedMap.get_delete] at read
  split at read
  · cases read
  · exact current other existing read

theorem current_step (current : Current calls world) {event : BlockEvent}
    (undisturbed : Undisturbed calls world event) :
    Current calls (world.step definitions calls event) := by
  cases event with
  | start id =>
    rw [BlockWorld.step]
    split
    · exact current
    · dsimp only
      split
      · exact current.settle _
      · split
        · exact current.settle _
        · intro other existing read
          rw [OrderedMap.get_set] at read
          split at read
          · rename_i here
            cases read
            rw [here]
            exact .inr (read_value world.store _ _)
          · exact current other existing read
  | finish id now =>
    rw [BlockWorld.step]
    split
    · rename_i existing definition read defined
      split
      · exact current.settle _
      · intro other existing' read'
        rw [BlockWorld.settle, OrderedMap.get_delete] at read'
        split at read'
        · cases read'
        · rename_i apart
          by_cases same : (calls other).key = (calls id).key
          · exact .inl (undisturbed (by rw [read]; rfl) other apart (by rw [read']; rfl) same)
          · refine (current other existing' read').imp_right fun stored => ?_
            exact stored.trans ((upsert_value ..).trans (if_neg same)).symm
    · exact current

theorem serialised_run (events : List BlockEvent) :
    ∀ world : BlockWorld, Serialised definitions calls start world → Current calls world →
      UndisturbedRun definitions calls world events →
        Serialised definitions calls start (world.run definitions calls events) := by
  induction events with
  | nil =>
    intro world serialised _ _
    exact serialised
  | cons event rest ih =>
    intro world serialised current undisturbed
    exact ih _ (serialised_step serialised current event)
      (current_step current undisturbed.1) undisturbed.2

theorem serialised_initial (start : BlockStore) :
    Serialised definitions calls start (.initial start) := by
  intro key definition _
  rfl

/-- Edits lose nothing where nobody writes between the read and the write of another that
makes something of what it read. -/
theorem undisturbed_edits_serialise (definitions : String → Option BlockDefinition)
    (calls : Nat → EditCall) (start : BlockStore) (events : List BlockEvent)
    (undisturbed : UndisturbedRun definitions calls (.initial start) events)
    (key : BlockKey) (definition : BlockDefinition)
    (defined : definitions key.label = some definition) :
    let world := BlockWorld.run definitions calls (.initial start) events
    ∃ order : List Nat, order.Perm (world.succeeded calls key) ∧
      serially definition (start.value key) (order.map fun id => (calls id).edit) =
        .ok (world.store.value key) :=
  ⟨_, .refl _, serialised_run events _ (serialised_initial start)
    (fun _ _ read => nomatch read) undisturbed key definition defined⟩

def notes : String → Option BlockDefinition := fun label =>
  if label = "notes" then some { label := "notes", charLimit := 2000 } else none

def noting : Nat → EditCall
  | 0 => ⟨{ userId := "ana" }, "notes", .append (ascii "likes tea"), "b0"⟩
  | _ => ⟨{ userId := "ana" }, "notes", .append (ascii "has a dog"), "b1"⟩

def noteKey : BlockKey := ⟨"ana", "", "", "notes"⟩

/-- Two appends, and a write that overlaps the second. -/
def notingOver : Nat → EditCall
  | 2 => ⟨{ userId := "ana" }, "notes", .write (ascii "moved house"), "b2"⟩
  | id => noting id

def notedTurns : List BlockEvent :=
  [.start 0, .finish 0 1, .start 2, .start 1, .finish 1 2, .finish 2 3]

theorem notedTurns_serialise : ∃ order : List Nat,
    order.Perm ((BlockWorld.run notes notingOver (.initial .empty) notedTurns).succeeded
      notingOver noteKey) ∧
    serially { label := "notes", charLimit := 2000 } none
        (order.map fun id => (notingOver id).edit) =
      .ok ((BlockWorld.run notes notingOver (.initial .empty) notedTurns).store.value
        noteKey) := by
  have listed {reading : OrderedMap Nat (Option Block)} {other : Nat}
      (there : (reading.get other).isSome) : other ∈ reading.keys :=
    OrderedMap.mem_keys.mpr (Option.isSome_iff_exists.mp there)
  refine undisturbed_edits_serialise notes notingOver .empty notedTurns ?_ noteKey _ rfl
  refine ⟨trivial, fun _ other apart reading => ?_, trivial, trivial,
    fun _ other apart reading => ?_, fun _ other apart reading => ?_, trivial⟩
  · exact absurd (List.mem_singleton.mp (listed reading)) apart
  · obtain rfl : other = 2 := (List.mem_pair.mp (listed reading)).resolve_right apart
    exact fun _ _ _ _ => rfl
  · exact absurd (List.mem_singleton.mp (listed reading)) apart

/-- Both calls of the turn read before either writes: both succeed, one note is gone. -/
theorem overlapping_appends_lose_a_note :
    let world := BlockWorld.run notes noting (.initial .empty)
      [.start 0, .start 1, .finish 0 1, .finish 1 2]
    world.succeeded noting noteKey = [0, 1] ∧
    world.store.value noteKey = some (ascii "has a dog") ∧
    ¬ ∃ order : List Nat, order.Perm (world.succeeded noting noteKey) ∧
      serially { label := "notes", charLimit := 2000 } none
          (order.map fun id => (noting id).edit) =
        .ok (world.store.value noteKey) := by
  have both : (BlockWorld.run notes noting (.initial .empty)
      [.start 0, .start 1, .finish 0 1, .finish 1 2]).succeeded noting noteKey = [0, 1] := by
    decide
  refine ⟨both, by decide, ?_⟩
  rintro ⟨order, perm, reached⟩
  rw [both] at perm
  have orders : order = [0, 1] ∨ order = [1, 0] := by
    match order, perm.length_eq with
    | [first, second], _ =>
      have inFirst := perm.subset (List.mem_cons_self (a := first))
      have inSecond : second ∈ [0, 1] := perm.subset (by simp)
      have apart : [first, second].Nodup := perm.nodup_iff.mpr (by decide)
      simp only [List.mem_cons, List.not_mem_nil, or_false] at inFirst inSecond
      grind
  rcases orders with rfl | rfl
  · exact absurd reached (by decide)
  · exact absurd reached (by decide)

end Graphorin.Memory
