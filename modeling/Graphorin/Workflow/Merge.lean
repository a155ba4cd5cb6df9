import Graphorin.Workflow.Channels

namespace Graphorin.Workflow

open Graphorin.Lib
open Graphorin.Js

/-! A step is merged channel by channel: what `applyWrites` makes of a channel
depends on the writes into that channel alone, in their order. -/

def writesInto (channel : String) (writes : List ChannelWrite) :
    List ChannelWrite :=
  writes.filter fun write => write.channel = channel

def groupResult (channels : Record String Channel) (state : State)
    (group : String × List ChannelWrite) : Except WorkflowError JsValue :=
  match descriptorFor channels group.1 with
  | none =>
    .error (.invalidChannelWrite
      ((group.2.head?.map ChannelWrite.nodeName).getD "<unknown>") group.1)
  | some descriptor =>
    mergeChannel group.1 descriptor (State.read state group.1) group.2

def isEphemeralChannel (channels : Record String Channel) (channel : String) :
    Bool :=
  (descriptorFor channels channel).any Channel.isEphemeral

def MergeProgress.merge (channels : Record String Channel)
    (progress : MergeProgress) (channel : String) (merged : JsValue) :
    MergeProgress where
  next := Record.set progress.next channel merged
  versions := Record.set progress.versions channel
    ((Record.get? progress.versions channel).getD 0 + 1)
  ephemeralKeys :=
    if isEphemeralChannel channels channel then
      progress.ephemeralKeys ++ [channel]
    else progress.ephemeralKeys
  changed := progress.changed ++ [channel]

theorem applyGroup_eq (channels : Record String Channel)
    (progress : MergeProgress) (group : String × List ChannelWrite) :
    applyGroup channels progress group =
      (groupResult channels progress.next group).map
        (progress.merge channels group.1) := by
  unfold applyGroup groupResult MergeProgress.merge isEphemeralChannel
  cases descriptorFor channels group.1 with
  | none => rfl
  | some descriptor =>
    simp only [bind, Except.bind]
    cases mergeChannel group.1 descriptor
      (State.read progress.next group.1) group.2 <;> rfl

theorem groupResult_congr {channels : Record String Channel}
    (same : Record.get? first group.1 = Record.get? second group.1) :
    groupResult channels first group = groupResult channels second group := by
  unfold groupResult State.read
  rw [same]

structure MergesTo (channels : Record String Channel) (state : State)
    (groups : Record String (List ChannelWrite))
    (before after : MergeProgress) : Prop where
  next : ∀ channel, Record.get? after.next channel =
    match Record.get? groups channel with
    | none => Record.get? before.next channel
    | some writes => (groupResult channels state (channel, writes)).toOption
  versions : ∀ channel, Record.get? after.versions channel =
    match Record.get? groups channel with
    | none => Record.get? before.versions channel
    | some _ => some ((Record.get? before.versions channel).getD 0 + 1)
  ephemeral : ∀ channel, channel ∈ after.ephemeralKeys ↔
    channel ∈ before.ephemeralKeys ∨
      (channel ∈ groups.keys ∧ isEphemeralChannel channels channel = true)

variable {channels : Record String Channel} {state : State}

/-- Groups under different keys do not see each other. -/
theorem foldlM_applyGroup {groups : Record String (List ChannelWrite)}
    (distinct : groups.keys.Nodup) {progress : MergeProgress}
    (untouched : ∀ channel ∈ groups.keys,
      Record.get? progress.next channel = Record.get? state channel)
    (accepted : ∀ group ∈ groups, ∃ merged,
      groupResult channels state group = .ok merged) :
    ∃ after, groups.foldlM (applyGroup channels) progress = .ok after ∧
      MergesTo channels state groups progress after := by
  induction groups generalizing progress with
  | nil => exact ⟨progress, rfl, ⟨by simp, by simp, by simp [Record.keys]⟩⟩
  | cons group rest ih =>
    obtain ⟨channel, writes⟩ := group
    obtain ⟨absent, distinct⟩ := List.nodup_cons.mp distinct
    obtain ⟨merged, result⟩ := accepted (channel, writes) List.mem_cons_self
    have own : groupResult channels progress.next (channel, writes) =
        .ok merged := by
      rw [← result]
      exact groupResult_congr (untouched channel List.mem_cons_self)
    have stepped : applyGroup channels progress (channel, writes) =
        .ok (progress.merge channels channel merged) := by
      rw [applyGroup_eq, own]
      rfl
    have elsewhere : ∀ other ∈ Record.keys rest, other ≠ channel := by
      rintro other member rfl
      exact absent member
    obtain ⟨after, folded, merges⟩ := @ih distinct
      (progress.merge channels channel merged)
      (fun other member => by
        rw [← untouched other (List.mem_cons_of_mem _ member)]
        exact Record.get?_set_other _ _ (elsewhere other member))
      (fun group member => accepted group (List.mem_cons_of_mem _ member))
    refine ⟨after, ?_, ?_⟩
    · rw [List.foldlM_cons, stepped]
      exact folded
    · have unlisted : Record.get? rest channel = none :=
        Record.get?_eq_none.mpr absent
      refine ⟨fun other => ?_, fun other => ?_, fun other => ?_⟩
      · rw [merges.next, Record.get?_cons]
        by_cases same : channel = other
        · subst same
          rw [if_pos rfl, unlisted]
          show _ = (groupResult channels state (channel, writes)).toOption
          rw [result]
          exact Record.get?_set_self _ _ _
        · rw [if_neg same]
          cases Record.get? rest other with
          | none => exact Record.get?_set_other _ _ (Ne.symm same)
          | some => rfl
      · rw [merges.versions, Record.get?_cons]
        by_cases same : channel = other
        · subst same
          rw [if_pos rfl, unlisted]
          exact Record.get?_set_self _ _ _
        · have kept : Record.get? (progress.merge channels channel
              merged).versions other =
              Record.get? progress.versions other :=
            Record.get?_set_other _ _ (Ne.symm same)
          rw [if_neg same, kept]
      · rw [merges.ephemeral]
        have listed : other ∈ Record.keys ((channel, writes) :: rest) ↔
            other = channel ∨ other ∈ Record.keys rest := by
          simp [Record.keys]
        rw [listed]
        unfold MergeProgress.merge
        by_cases same : other = channel
        · subst same
          by_cases held : isEphemeralChannel channels other = true
          · simp [held]
          · simp [held]
        · by_cases held : isEphemeralChannel channels channel = true
          · simp [held, same]
          · simp [held, same]

theorem foldlM_applyGroup_error {groups : Record String (List ChannelWrite)}
    (distinct : groups.keys.Nodup) {progress : MergeProgress}
    (untouched : ∀ channel ∈ groups.keys,
      Record.get? progress.next channel = Record.get? state channel)
    (refused : ∃ group ∈ groups, ∃ error,
      groupResult channels state group = .error error) :
    ∃ error, groups.foldlM (applyGroup channels) progress = .error error := by
  induction groups generalizing progress with
  | nil =>
    obtain ⟨group, member, -⟩ := refused
    cases member
  | cons group rest ih =>
    obtain ⟨channel, writes⟩ := group
    obtain ⟨absent, distinct⟩ := List.nodup_cons.mp distinct
    have own : groupResult channels progress.next (channel, writes) =
        groupResult channels state (channel, writes) :=
      groupResult_congr (untouched channel List.mem_cons_self)
    rw [List.foldlM_cons, applyGroup_eq, own]
    cases result : groupResult channels state (channel, writes) with
    | error error => exact ⟨error, rfl⟩
    | ok =>
      apply ih distinct
      · intro other member
        rw [← untouched other (List.mem_cons_of_mem _ member)]
        refine Record.get?_set_other _ _ ?_
        rintro rfl
        exact absent member
      · obtain ⟨group, member, error, failed⟩ := refused
        rcases List.mem_cons.mp member with rfl | later
        · cases result.symm.trans failed
        · exact ⟨group, later, error, failed⟩

variable {versions : Versions} {writes : List ChannelWrite}

theorem groupByChannel_eq (writes : List ChannelWrite) :
    groupByChannel writes = groupOn ChannelWrite.channel writes := rfl

/-- What one channel makes of a step: `none` when nothing is written into
it. -/
def channelResult (channels : Record String Channel) (state : State)
    (writes : List ChannelWrite) (channel : String) :
    Option (Except WorkflowError JsValue) :=
  if writesInto channel writes = [] then none
  else some (groupResult channels state (channel, writesInto channel writes))

structure AppliedTo (channels : Record String Channel) (state : State)
    (versions : Versions) (writes : List ChannelWrite) (applied : ApplyResult) :
    Prop where
  values : ∀ channel, Record.get? applied.state channel =
    match channelResult channels state writes channel with
    | none => Record.get? state channel
    | some result =>
      if isEphemeralChannel channels channel then none else result.toOption
  counts : ∀ channel, Record.get? applied.versions channel =
    match channelResult channels state writes channel with
    | none => Record.get? versions channel
    | some _ => some ((Record.get? versions channel).getD 0 + 1)

theorem get?_foldl_erase (keys : List String) (state : State)
    (channel : String) :
    Record.get? (keys.foldl Record.erase state) channel =
      if channel ∈ keys then none else Record.get? state channel := by
  induction keys generalizing state with
  | nil => simp
  | cons key rest ih =>
    rw [List.foldl_cons, ih, Record.get?_erase]
    by_cases later : channel ∈ rest
    · simp [later]
    · by_cases here : channel = key
      · simp [here]
      · simp [later, here]

theorem applyWrites_ok (accepted : ∀ channel result,
      channelResult channels state writes channel = some result →
        ∃ merged, result = .ok merged) :
    ∃ applied, applyWrites state versions channels writes = .ok applied ∧
      AppliedTo channels state versions writes applied := by
  have listed : ∀ group ∈ groupByChannel writes, ∃ merged,
      groupResult channels state group = .ok merged := by
    intro group member
    obtain ⟨own, nonempty⟩ := mem_groupOn.mp member
    have written : channelResult channels state writes group.1 =
        some (groupResult channels state group) := by
      unfold channelResult writesInto
      rw [← own, if_neg nonempty]
    exact accepted group.1 _ written
  obtain ⟨after, folded, merges⟩ := @foldlM_applyGroup channels state _
    (groupOn_nodup writes) ⟨state, versions, [], []⟩ (fun _ _ => rfl) listed
  have grouped : ∀ channel,
      Record.get? (groupOn ChannelWrite.channel writes) channel =
      if writesInto channel writes = [] then none
      else some (writesInto channel writes) := get?_groupOn writes
  have held : ∀ channel, channel ∈ after.ephemeralKeys ↔
      writesInto channel writes ≠ [] ∧
        isEphemeralChannel channels channel = true := by
    intro channel
    have written : channel ∈ (groupOn ChannelWrite.channel writes).keys ↔
        writesInto channel writes ≠ [] := by
      rw [mem_groupOn_keys]
      simp [writesInto]
    rw [merges.ephemeral, written]
    simp
  refine ⟨_, by rw [applyWrites, groupByChannel_eq, folded]; rfl, ?_, ?_⟩
  · intro channel
    show Record.get? (after.ephemeralKeys.foldl Record.erase after.next)
      channel = _
    rw [get?_foldl_erase, merges.next, grouped]
    unfold channelResult
    by_cases quiet : writesInto channel writes = []
    · simp [held, quiet]
    · simp [held, quiet]
  · intro channel
    show Record.get? after.versions channel = _
    rw [merges.versions, grouped]
    unfold channelResult
    by_cases quiet : writesInto channel writes = []
    · simp [quiet]
    · simp [quiet]

theorem applyWrites_error {channel : String} {error : WorkflowError}
    (refused : channelResult channels state writes channel = some (.error error)) :
    ∃ error, applyWrites state versions channels writes = .error error := by
  unfold channelResult at refused
  split at refused
  · cases refused
  · rename_i written
    obtain ⟨raised, folded⟩ := @foldlM_applyGroup_error channels state _
      (groupOn_nodup writes) ⟨state, versions, [], []⟩ (fun _ _ => rfl)
      ⟨(channel, writesInto channel writes), mem_groupOn.mpr ⟨rfl, written⟩,
        error, Option.some.inj refused⟩
    exact ⟨raised, by rw [applyWrites, groupByChannel_eq, folded]; rfl⟩

/-- Two merges that a reader of the state and the versions cannot tell apart;
which of several refusals is raised first is not compared. -/
def SameMerge : Except WorkflowError ApplyResult →
    Except WorkflowError ApplyResult → Prop
  | .ok first, .ok second =>
    (∀ channel, Record.get? first.state channel =
      Record.get? second.state channel) ∧
    ∀ channel, Record.get? first.versions channel =
      Record.get? second.versions channel
  | .error _, .error _ => True
  | _, _ => False

theorem applyWrites_congr
    (same : ∀ channel, writesInto channel first = writesInto channel second) :
    SameMerge (applyWrites state versions channels first)
      (applyWrites state versions channels second) := by
  have results : channelResult channels state first =
      channelResult channels state second := by
    funext channel
    unfold channelResult
    rw [same]
  by_cases accepted : ∀ channel result,
      channelResult channels state first channel = some result →
        ∃ merged, result = .ok merged
  · obtain ⟨left, merged, leftTo⟩ := @applyWrites_ok _ _ versions _ accepted
    rw [results] at accepted
    obtain ⟨right, merged', rightTo⟩ := @applyWrites_ok _ _ versions _ accepted
    rw [merged, merged']
    refine ⟨fun channel => ?_, fun channel => ?_⟩
    · rw [leftTo.values, rightTo.values, results]
    · rw [leftTo.counts, rightTo.counts, results]
  · simp only [not_forall] at accepted
    obtain ⟨channel, result, written, refused⟩ := accepted
    obtain ⟨error, rfl⟩ : ∃ error, result = .error error := by
      cases result with
      | error error => exact ⟨error, rfl⟩
      | ok merged => exact absurd ⟨merged, rfl⟩ refused
    obtain ⟨_, left⟩ := @applyWrites_error _ _ versions _ _ _ written
    rw [results] at written
    obtain ⟨_, right⟩ := @applyWrites_error _ _ versions _ _ _ written
    rw [left, right]
    trivial

end Graphorin.Workflow
