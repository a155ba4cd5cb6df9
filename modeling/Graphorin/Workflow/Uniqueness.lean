import Graphorin.Lib.Keeping
import Graphorin.Workflow.Channels

namespace Graphorin.Workflow.Uniqueness

open Graphorin.Lib
open Graphorin.Js JsValue

/-! What a `stream` channel with `unique: true` keeps. Structural equality has the same at
every place of two values, and `deepEqual` looks at the places of its first argument. -/

inductive Step
  | index (position : Nat)
  | key (name : String)

inductive Node
  | leaf (value : JsValue)
  | array (length : Nat)
  | object (size : Nat)

def node : JsValue → Node
  | .arr items => .array items.length
  | .obj fields => .object fields.length
  | value => .leaf value

def part? : JsValue → Step → Option JsValue
  | .arr items, .index position => items[position]?
  | .obj fields, .key name => Record.get? fields name
  | _, _ => none

def sub? : JsValue → List Step → Option JsValue
  | value, [] => some value
  | value, step :: path => (part? value step).bind fun inner => sub? inner path

def at? (value : JsValue) (path : List Step) : Option Node := (sub? value path).map node

def Structural (first second : JsValue) : Prop := ∀ path, at? first path = at? second path

def Inherits (path : List Step) (found : Node) : Prop :=
  ∃ front name, path = front ++ [.key name] ∧ found = node (inherited name)

/-- Each place of the first is a place of the second, or one that an object of the second
lacks and has `undefined` in the first. -/
def Passes (first second : JsValue) : Prop :=
  ∀ path found, at? first path = some found →
    at? second path = some found ∨ (at? second path = none ∧ Inherits path found)

def Sound : JsValue → Prop
  | .obj fields => (Record.keys fields).Nodup
  | .foreign _ => False
  | _ => True

/-- JSON data, with `undefined` anywhere. -/
def Plain (value : JsValue) : Prop := ∀ path inner, sub? value path = some inner → Sound inner

theorem Structural.tolerant : PassesFor Structural Passes where
  equivalence := ⟨fun _ _ => rfl, fun equal path => (equal path).symm,
    fun first second path => (first path).trans (second path)⟩
  of_same equal path found here := .inl ((equal path).symm.trans here)
  left equal like path found here := like path found ((equal path).symm.trans here)
  right like equal path found here := by
    rw [← equal path]
    exact like path found here

variable {value : JsValue} {step : Step}

theorem Plain.part {inner : JsValue}
    (plain : Plain value) (here : part? value step = some inner) : Plain inner := by
  intro path deeper found
  refine plain (step :: path) deeper ?_
  rw [sub?, here, Option.bind_some, found]

theorem Plain.distinct (plain : Plain (.obj fields)) : (Record.keys fields).Nodup :=
  plain [] (.obj fields) rfl

theorem member_eq (fields : List (String × JsValue)) (name : String) :
    member fields name = (Record.get? fields name).getD (inherited name) := by
  induction fields with
  | nil => rfl
  | cons entry _ ih =>
    obtain ⟨key, value⟩ := entry
    by_cases same : key = name
    · rw [member, if_pos same, Record.get?, if_pos same, Option.getD_some]
    · rw [member, if_neg same, Record.get?, if_neg same, ih]

theorem deepEqualItems_iff (length : as.length = bs.length) :
    deepEqualItems as bs = true ↔
      ∀ (position : Nat) (a b : JsValue), as[position]? = some a → bs[position]? = some b →
        a.deepEqual b = true := by
  induction as generalizing bs with
  | nil => exact ⟨fun _ _ _ _ here => (Option.some_ne_none _ here.symm).elim, fun _ => rfl⟩
  | cons a _ ih =>
    obtain _ | ⟨b, bs⟩ := bs
    · exact absurd length nofun
    · rw [deepEqualItems, Bool.and_eq_true, ih (Nat.succ.inj length)]
      constructor
      · rintro ⟨head, tail⟩ position x y first second
        cases position with
        | zero => cases first; cases second; exact head
        | succ position => exact tail position x y first second
      · exact fun all => ⟨all 0 a b rfl rfl, fun position => all (position + 1)⟩

theorem deepEqualFields_iff (as bs : List (String × JsValue)) :
    deepEqualFields as bs = true ↔
      ∀ entry ∈ as, entry.2.deepEqual (member bs entry.1) = true := by
  induction as with
  | nil => exact ⟨fun _ _ here => absurd here nofun, fun _ => rfl⟩
  | cons entry rest ih => rw [deepEqualFields, Bool.and_eq_true, ih, List.forall_mem_cons]

variable {found : Node}

theorem inherits_cons {next : Step} {path : List Step} :
    Inherits (step :: next :: path) found ↔ Inherits (next :: path) found := by
  constructor
  · rintro ⟨front, name, split, same⟩
    cases front with
    | nil => exact absurd (List.cons.inj split).2 nofun
    | cons _ front => exact ⟨front, name, (List.cons.inj split).2, same⟩
  · rintro ⟨front, name, split, same⟩
    exact ⟨step :: front, name, by rw [split]; rfl, same⟩

variable {name : String}

theorem inherits_key :
    Inherits [.key name] found ↔ found = node (inherited name) := by
  constructor
  · rintro ⟨front, other, split, same⟩
    cases front with
    | nil =>
      cases split
      exact same
    | cons _ front => cases front <;> cases split
  · exact fun same => ⟨[], name, rfl, same⟩

def Bare (value : JsValue) : Prop := ∀ step, part? value step = none

theorem at?_part {inner : JsValue} (here : part? value step = some inner) (path : List Step) :
    at? value (step :: path) = at? inner path := by
  rw [at?, sub?, here, Option.bind_some]
  rfl

theorem at?_lacking (lacking : part? value step = none) (path : List Step) :
    at? value (step :: path) = none := by
  rw [at?, sub?, lacking]
  rfl

variable {first second : JsValue}

theorem passes_node (like : Passes first second) : node second = node first := by
  rcases like [] (node first) rfl with same | ⟨missing, -⟩
  · exact Option.some.inj same
  · exact absurd missing nofun

theorem passes_bare (bare : Bare first) :
    Passes first second ↔ node second = node first := by
  refine ⟨passes_node, fun same path found here => ?_⟩
  cases path with
  | nil => exact .inl ((congrArg some same).trans here)
  | cons step path =>
    exact absurd ((at?_lacking (bare step) path).symm.trans here) nofun

/-- The places below two parts at one step are passed like those of the parts. -/
theorem passes_below (left : part? first step = some a) (right : part? second step = some b) :
    (∀ path found, at? first (step :: path) = some found →
      at? second (step :: path) = some found ∨
        (at? second (step :: path) = none ∧ Inherits (step :: path) found)) ↔ Passes a b := by
  refine forall_congr' fun path => forall_congr' fun found => ?_
  rw [at?_part left, at?_part right]
  refine imp_congr_right fun _ => or_congr_right (and_congr_right fun missing => ?_)
  cases path with
  | nil => exact absurd missing nofun
  | cons => exact inherits_cons

theorem passes_arr {as bs : List JsValue} :
    Passes (.arr as) (.arr bs) ↔ as.length = bs.length ∧
      ∀ position a b, part? (.arr as) (.index position) = some a →
        part? (.arr bs) (.index position) = some b → Passes a b := by
  constructor
  · intro like
    refine ⟨(Node.array.inj (passes_node like)).symm, fun position a b first second => ?_⟩
    exact (passes_below first second).mp
      fun path => like (.index position :: path)
  · rintro ⟨length, all⟩ path found here
    match path with
    | [] =>
      rw [← here]
      exact .inl (congrArg (fun n => some (Node.array n)) length.symm)
    | .key _ :: path => exact absurd ((at?_lacking rfl path).symm.trans here) nofun
    | .index position :: path =>
      cases first : part? (.arr as) (.index position) with
      | none => exact absurd ((at?_lacking first path).symm.trans here) nofun
      | some a =>
        obtain ⟨bound, -⟩ := List.getElem?_eq_some_iff.mp first
        have second : part? (.arr bs) (.index position) = some _ :=
          List.getElem?_eq_getElem (length ▸ bound)
        exact (passes_below first second).mpr
          (all position a _ first second) path found here

theorem inherited_cases (name : String) :
    inherited name = .obj [] ∨ inherited name = .foreign .function ∨
      inherited name = .undefined := by
  unfold inherited
  split
  · exact .inl rfl
  · split
    · exact .inr (.inl rfl)
    · exact .inr (.inr rfl)

theorem bare_of_inherited (same : node value = node (inherited name)) : Bare value := by
  intro step
  cases value with
  | arr =>
    rcases inherited_cases name with blank | blank | blank <;> rw [blank] at same <;>
      exact absurd same nofun
  | obj =>
    rcases inherited_cases name with blank | blank | blank <;> rw [blank] at same
    · rw [List.length_eq_zero_iff.mp (Node.object.inj same)]
      cases step <;> rfl
    · exact absurd same nofun
    · exact absurd same nofun
  | _ => cases step <;> rfl

theorem deepEqual_inherited (value : JsValue) (name : String) :
    value.deepEqual (inherited name) = true ↔ node value = node (inherited name) := by
  rcases inherited_cases name with blank | blank | blank <;> rw [blank] <;>
    cases value <;> simp [deepEqual, node]
  rintro rfl
  rfl

theorem passes_obj {as bs : List (String × JsValue)} :
    Passes (.obj as) (.obj bs) ↔ as.length = bs.length ∧
      ∀ name a, part? (.obj as) (.key name) = some a →
        match part? (.obj bs) (.key name) with
        | some b => Passes a b
        | none => node a = node (inherited name) := by
  constructor
  · intro like
    refine ⟨(Node.object.inj (passes_node like)).symm, fun name a first => ?_⟩
    cases second : part? (.obj bs) (.key name) with
    | some =>
      exact (passes_below first second).mp
        fun path => like (.key name :: path)
    | none =>
      rcases like [.key name] (node a) (at?_part first []) with same | ⟨-, blank⟩
      · exact absurd ((at?_lacking second []).symm.trans same) nofun
      · exact inherits_key.mp blank
  · rintro ⟨length, all⟩ path found here
    match path with
    | [] =>
      rw [← here]
      exact .inl (congrArg (fun n => some (Node.object n)) length.symm)
    | .index _ :: path => exact absurd ((at?_lacking rfl path).symm.trans here) nofun
    | .key name :: path =>
      cases first : part? (.obj as) (.key name) with
      | none => exact absurd ((at?_lacking first path).symm.trans here) nofun
      | some a =>
        have there := all name a first
        cases second : part? (.obj bs) (.key name) with
        | some =>
          rw [second] at there
          exact (passes_below first second).mpr there path found here
        | none =>
          rw [second] at there
          rw [at?_part first] at here
          refine .inr ⟨at?_lacking second path, ?_⟩
          cases path with
          | nil => exact inherits_key.mpr ((Option.some.inj here).symm.trans there)
          | cons step path =>
            have bare := bare_of_inherited there
            exact absurd ((at?_lacking (bare step) path).symm.trans here) nofun

theorem deepEqual_passes (plain : Plain first) (second : JsValue) :
    first.deepEqual second = true ↔ Passes first second := by
  induction size : sizeOf first using Nat.strongRecOn generalizing first second with
  | ind _ ih =>
    have leaf : Bare first → (first.deepEqual second = true ↔ node second = node first) →
        (first.deepEqual second = true ↔ Passes first second) :=
      fun bare same => same.trans (passes_bare bare).symm
    cases first with
    | arr items =>
      cases second with
      | arr =>
        rw [deepEqual, Bool.and_eq_true, beq_iff_eq, passes_arr]
        refine and_congr_right fun length => ?_
        rw [deepEqualItems_iff length]
        refine forall_congr' fun position => forall_congr' fun a =>
          forall_congr' fun b => imp_congr_right fun here => imp_congr_right fun _ => ?_
        have smaller := List.sizeOf_lt_of_mem (List.mem_of_getElem? here)
        have inner : part? (.arr items) (.index position) = some a := here
        exact ih (sizeOf a) (by rw [← size]; simp; omega) (plain.part inner) b rfl
      | _ => exact ⟨nofun, fun like => absurd (passes_node like) nofun⟩
    | obj fields =>
      cases second with
      | obj others =>
        rw [deepEqual, Bool.and_eq_true, beq_iff_eq, passes_obj]
        refine and_congr_right fun _ => ?_
        rw [deepEqualFields_iff]
        have entries : ∀ name a, part? (.obj fields) (.key name) = some a ↔
            (name, a) ∈ fields := fun name a => Record.get?_eq_some plain.distinct
        rw [Prod.forall]
        refine forall_congr' fun name => forall_congr' fun a => ?_
        rw [entries]
        refine imp_congr_right fun here => ?_
        have read : member others name =
            (part? (.obj others) (.key name)).getD (inherited name) := member_eq others name
        rw [read]
        cases part? (.obj others) (.key name) with
        | none => exact deepEqual_inherited a name
        | some b =>
          have smaller := List.sizeOf_lt_of_mem here
          exact ih (sizeOf a) (by rw [← size]; simp at smaller ⊢; omega)
            (plain.part ((entries name a).mpr here)) b rfl
      | _ => exact ⟨nofun, fun like => absurd (passes_node like) nofun⟩
    | foreign kind => exact (plain [] (.foreign kind) rfl).elim
    | _ =>
      refine leaf (fun step => by cases step <;> rfl) ?_
      cases second <;> simp [deepEqual, node] <;> exact eq_comm

/-- All the items that the writes contribute. -/
def written (writes : List ChannelWrite) : List JsValue :=
  writes.flatMap fun write => writtenItems write.value

theorem pushUnique_keep (plain : ∀ existing ∈ acc, Plain existing) (item : JsValue) :
    pushUnique acc item = keep Passes acc item := by
  have found : (acc.any fun existing => existing.deepEqual item) = true ↔
      ∃ existing ∈ acc, Passes existing item := by
    rw [List.any_eq_true]
    exact exists_congr fun existing =>
      and_congr_right fun here => deepEqual_passes (plain existing here) item
  unfold pushUnique keep
  by_cases known : ∃ existing ∈ acc, Passes existing item
  · rw [if_pos (found.mpr known), if_pos known]
  · rw [if_neg (mt found.mp known), if_neg known]

theorem pushes_keep {items acc : List JsValue} (plain : ∀ value ∈ acc ++ items, Plain value) :
    items.foldl pushUnique acc = items.foldl (keep Passes) acc := by
  induction items generalizing acc with
  | nil => rfl
  | cons item _ ih =>
    rw [List.foldl_cons, List.foldl_cons,
      pushUnique_keep fun value here => plain value (List.mem_append_left _ here)]
    refine ih fun value here => plain value ?_
    rcases List.mem_append.mp here with old | later
    · unfold keep at old
      split at old
      · exact List.mem_append_left _ old
      · rcases List.mem_append.mp old with old | added
        · exact List.mem_append_left _ old
        · rw [List.mem_singleton.mp added]
          exact List.mem_append_right _ List.mem_cons_self
    · exact List.mem_append_right _ (List.mem_cons_of_mem item later)

theorem mergeChannel_unique (channelName : String) (default before : JsValue)
    (writes : List ChannelWrite) :
    mergeChannel channelName (.stream true default) before writes =
      .ok (.arr ((written writes).foldl pushUnique (priorItems before))) := by
  rw [written, List.foldl_flatMap]
  rfl

/-- Nothing written is lost or repeated. -/
structure Conserves (prior items result : List JsValue) : Prop where
  starts : prior <+: result
  keeps : ∀ item ∈ items, ∃ element ∈ result, Structural element item
  distinct : result.Pairwise fun first second => ¬ Structural first second

theorem unique_stream_conserves {before : JsValue} {writes : List ChannelWrite}
    (plain : ∀ value ∈ priorItems before ++ written writes, Plain value)
    (distinct : (priorItems before).Pairwise fun first second => ¬ Structural first second)
    (channelName : String) (default : JsValue) :
    ((∃ result, mergeChannel channelName (.stream true default) before writes =
        .ok (.arr result) ∧ Conserves (priorItems before) (written writes) result) ↔
      Unmistaken Structural Passes (priorItems before) (written writes)) ∧
    ∀ first second, Plain first → ((first.deepEqual second = true ↔ Structural first second) ↔
      ¬ Mistaken Structural Passes first second) := by
  refine ⟨?_, fun first second plain => ?_⟩
  · have told : ∀ s ∈ priorItems before, ∃ e ∈ priorItems before, Structural e s :=
      fun s here => ⟨s, here, fun _ => rfl⟩
    have lossless : _ ↔ Unmistaken Structural Passes (priorItems before) (written writes) :=
      keeps_lossless Structural.tolerant (List.Subset.refl (priorItems before)) told
    rw [mergeChannel_unique, pushes_keep plain, ← lossless]
    constructor
    · rintro ⟨result, same, conserves⟩
      cases same
      exact conserves.keeps
    · exact fun kept => ⟨_, rfl, prefix_keeps _ _, kept,
        keeps_distinct Structural.tolerant distinct⟩
  · rw [deepEqual_passes plain]
    rw [Mistaken, not_and, not_not]
    exact ⟨Iff.mp, fun all => ⟨all, Structural.tolerant.of_same⟩⟩

theorem Plain.of_parts (sound : Sound value)
    (parts : ∀ step inner, part? value step = some inner → Plain inner) : Plain value := by
  intro path inner found
  cases path with
  | nil =>
    cases found
    exact sound
  | cons step path =>
    rw [sub?] at found
    cases part : part? value step with
    | none =>
      rw [part] at found
      exact absurd found nofun
    | some there =>
      rw [part] at found
      exact parts step there part path inner found

theorem plain_entry (plain : Plain value) : Plain (.obj [(name, value)]) := by
  refine Plain.of_parts (List.pairwise_singleton _ name) fun step inner here => ?_
  cases step with
  | index => cases here
  | key =>
    rw [part?, Record.get?_cons] at here
    split at here
    · cases here
      exact plain
    · cases here

/-- An entry that names nothing, and one that names a person. -/
def unnamed : JsValue := .obj [("name", .undefined)]

def titled : JsValue := .obj [("title", .str "Dr")]

def writeOf (value : JsValue) : ChannelWrite := ⟨"node", .directive, 0, "events", value⟩

theorem plain_leaf (sound : Sound value) (bare : Bare value) : Plain value :=
  Plain.of_parts sound fun step _ here => absurd ((bare step).symm.trans here) nofun

theorem plain_examples : Plain unnamed ∧ Plain titled :=
  ⟨plain_entry (plain_leaf trivial fun step => by cases step <;> rfl),
    plain_entry (plain_leaf trivial fun step => by cases step <;> rfl)⟩

theorem titled_kept :
    ∃ result, mergeChannel "events" (.stream true .undefined) (.arr [titled])
        [writeOf unnamed] = .ok (.arr result) ∧ Conserves [titled] [unnamed] result := by
  have plain : ∀ value ∈ [titled, unnamed], Plain value := by
    intro value here
    rcases List.mem_pair.mp here with rfl | rfl
    · exact plain_examples.2
    · exact plain_examples.1
  refine (@unique_stream_conserves (.arr [titled]) [writeOf unnamed] plain
    (List.pairwise_singleton _ titled) "events" .undefined).1.mpr ?_
  intro front item rest split e here mistaken
  obtain ⟨rfl, rfl⟩ : front = [] ∧ item = unnamed := by
    cases front with
    | nil => exact ⟨rfl, (List.cons.inj split).1.symm⟩
    | cons _ front => cases front <;> cases split
  rw [List.mem_singleton.mp here] at mistaken
  rcases mistaken.1 [.key "title"] (.leaf (.str "Dr")) rfl with same | ⟨-, blank⟩
  · exact absurd same nofun
  · exact absurd (inherits_key.mp blank) (by simp [inherited, objectPrototype, node])

/-- An entry passes for another one when all it has is a property that is `undefined`. -/
theorem titled_lost :
    mergeChannel "events" (.stream true .undefined) (.arr [unnamed]) [writeOf titled] =
        .ok (.arr [unnamed]) ∧ ¬ Structural unnamed titled ∧
      unnamed.deepEqual titled = true ∧ titled.deepEqual unnamed = false := by
  refine ⟨rfl, fun same => ?_, rfl, rfl⟩
  have there := same [.key "name"]
  exact absurd there nofun

end Graphorin.Workflow.Uniqueness
