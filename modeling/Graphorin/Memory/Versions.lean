import Graphorin.Lib.Lineage
import Graphorin.Memory.Reading
import Graphorin.Memory.Displacement

namespace Graphorin.Memory

open Lib

/-! A superseded fact stops being current where its successor starts. -/

variable {detectMemoryInjection : String → Bool}

structure Kept (row row' : Row) : Prop where
  owner : row'.userId = row.userId
  text : row'.text = row.text
  start : row'.validFrom = row.validFrom
  ended : ∀ instant, row.validTo = some instant → row'.validTo = some instant

theorem Kept.refl (row : Row) : Kept row row := ⟨rfl, rfl, rfl, fun _ ended => ended⟩

variable {row : Row}

theorem Kept.trans (first : Kept row row') (second : Kept row' row'') :
    Kept row row''  where
  owner := second.owner.trans first.owner
  text := second.text.trans first.text
  start := second.start.trans first.start
  ended instant ended := second.ended instant (first.ended instant ended)

theorem Kept.closed (row : Row) (newId : String) (closeAt now : Int) :
    Kept row (row.close newId closeAt now) where
  owner := rfl
  text := rfl
  start := rfl
  ended instant ended := by simp [Row.close, ended]

def KeepsRows (before after : String → Option Row) : Prop :=
  ∀ id row, before id = some row → ∃ row', after id = some row' ∧ Kept row row'

theorem KeepsRows.refl (view : String → Option Row) : KeepsRows view view :=
  fun _ row there => ⟨row, there, .refl row⟩

theorem KeepsRows.trans (left : KeepsRows first second) (right : KeepsRows second third) :
    KeepsRows first third := by
  intro id row there
  obtain ⟨row', there', kept⟩ := left id row there
  obtain ⟨row'', there'', kept'⟩ := right id row' there'
  exact ⟨row'', there'', kept.trans kept'⟩

theorem keepsRows_shut (view : String → Option Row) (oldId newId : String)
    (closeAt now : Int) : KeepsRows view (shut view oldId newId closeAt now) := by
  intro id row there
  by_cases here : id = oldId
  · subst here
    exact ⟨row.close newId closeAt now, by rw [shut_self, there]; rfl, .closed ..⟩
  · exact ⟨row, by rw [shut_other here, there], .refl row⟩

variable {view : String → Option Row} {newId : String}

theorem keepsRows_fresh (row : Row) (fresh : view newId = none) :
    KeepsRows view (Function.update view newId (some row)) := by
  intro id before there
  have apart : id ≠ newId := by
    rintro rfl
    rw [fresh] at there
    cases there
  exact ⟨before, by rw [Function.update_of_ne apart, there], .refl before⟩

theorem Wrote.keepsRows {env : Env} {fact : Fact} {before after : String → Option Row}
    (wrote : Wrote env fact before after) (fresh : before env.newId = none) :
    KeepsRows before after := by
  cases wrote with
  | nothing => exact .refl before
  | fact => exact keepsRows_fresh _ fresh
  | closing => exact (keepsRows_fresh _ fresh).trans (keepsRows_shut _ _ _ _ _)

theorem keepsRows_setStatus (store : Store) (scope : Scope) (factId : String)
    (reason : Option String) (now : Int) :
    KeepsRows store.view (store.setStatus scope factId .active reason now).view := by
  intro id row there
  rw [view_setStatus, there]
  split
  · exact ⟨_, rfl, rfl, rfl, rfl, fun _ ended => ended⟩
  · exact ⟨row, rfl, .refl row⟩

variable {factId : String}

theorem keepsRows_promoted (there : view factId = some row) :
    KeepsRows view (Function.update view factId (some row.promoted)) := by
  intro id before found
  by_cases here : id = factId
  · subst here
    rw [there] at found
    cases found
    exact ⟨row.promoted, Function.update_self .., rfl, rfl, rfl, fun _ ended => ended⟩
  · exact ⟨before, by rw [Function.update_of_ne here, found], .refl before⟩

variable {scope : Scope} {store : Store}

theorem Validated.keepsRows
    (ended : Validated detectMemoryInjection scope factId reason force now store outcome) :
    KeepsRows store.view outcome.2.view := by
  cases ended with
  | unread => exact keepsRows_setStatus _ _ _ _ _
  | refused => exact .refl store.view
  | promoted => exact keepsRows_setStatus _ _ _ _ _
  | completed there =>
    rw [view_completed there]
    exact (keepsRows_promoted there).trans (keepsRows_shut _ _ _ _ _)

variable {op : Op}

theorem Op.keepsRows (writes : op.writes = true)
    (fresh : ∀ id, op.newId = some id → store.view id = none) :
    KeepsRows store.view (op.apply detectMemoryInjection store).view := by
  cases op with
  | remember env scope input options =>
    exact ((rememberWithDecision_cases detectMemoryInjection env scope input options
      store).wrote detectMemoryInjection (fresh _ rfl)).keepsRows (fresh _ rfl)
  | supersede env scope oldId input auto =>
    exact ((supersede_cases detectMemoryInjection env scope oldId input auto
      store).wrote detectMemoryInjection (fresh _ rfl)).keepsRows (fresh _ rfl)
  | validate scope factId reason force now =>
    exact (validate_cases detectMemoryInjection scope factId reason force now
      store).keepsRows
  | promote | forget | purge | search => cases writes

theorem run_keepsRows (drawn : Drawn store ops) (writes : ∀ op ∈ ops, op.writes = true) :
    KeepsRows store.view (run detectMemoryInjection store ops).view := by
  induction ops generalizing store with
  | nil => exact .refl store.view
  | cons op rest ih =>
    have first : KeepsRows store.view (op.apply detectMemoryInjection store).view :=
      Op.keepsRows (writes op List.mem_cons_self) drawn.fresh
    exact first.trans (ih drawn.next fun op' there =>
      writes op' (List.mem_cons_of_mem _ there))

def SameLinks (before after : String → Option Row) : Prop :=
  ∀ id row, before id = some row → ∃ row', after id = some row' ∧
    row'.supersededBy = row.supersededBy ∧ row'.validTo = row.validTo

theorem SameLinks.refl (view : String → Option Row) : SameLinks view view :=
  fun _ row there => ⟨row, there, rfl, rfl⟩

theorem sameLinks_fresh (row : Row) (fresh : view newId = none) :
    SameLinks view (Function.update view newId (some row)) := by
  intro id before there
  have apart : id ≠ newId := by
    rintro rfl
    rw [fresh] at there
    cases there
  exact ⟨before, by rw [Function.update_of_ne apart, there], rfl, rfl⟩

theorem sameLinks_promoted (there : view factId = some row) :
    SameLinks view (Function.update view factId (some row.promoted)) := by
  intro id before found
  by_cases here : id = factId
  · subst here
    rw [there] at found
    cases found
    exact ⟨row.promoted, Function.update_self .., rfl, rfl⟩
  · exact ⟨before, by rw [Function.update_of_ne here, found], rfl, rfl⟩

theorem sameLinks_setStatus (store : Store) (scope : Scope) (factId : String)
    (reason : Option String) (now : Int) :
    SameLinks store.view (store.setStatus scope factId .active reason now).view := by
  intro id row there
  rw [view_setStatus, there]
  split
  · exact ⟨_, rfl, rfl, rfl⟩
  · exact ⟨row, rfl, rfl, rfl⟩

inductive Changed (before after : String → Option Row) : Prop
  | quiet (same : SameLinks before after)
  | closing {base : String → Option Row} {row : Row} {closedId forId : String} {now : Int}
      (same : SameLinks before base) (there : base forId = some row)
      (shown : after = shut base closedId forId (row.validFrom.getD now) now)

theorem Wrote.changed {env : Env} {fact : Fact} {before after : String → Option Row}
    (wrote : Wrote env fact before after) (fresh : before env.newId = none) :
    Changed before after := by
  cases wrote with
  | nothing => exact .quiet (.refl before)
  | fact => exact .quiet (sameLinks_fresh _ fresh)
  | closing =>
    exact .closing (sameLinks_fresh _ fresh) (Function.update_self ..) rfl

theorem Validated.changed
    (ended : Validated detectMemoryInjection scope factId reason force now store outcome) :
    Changed store.view outcome.2.view := by
  cases ended with
  | unread => exact .quiet (sameLinks_setStatus _ _ _ _ _)
  | refused => exact .quiet (.refl store.view)
  | promoted => exact .quiet (sameLinks_setStatus _ _ _ _ _)
  | completed there =>
    exact .closing (sameLinks_promoted there) (Function.update_self ..)
      (view_completed there)

theorem Op.changed (writes : op.writes = true)
    (fresh : ∀ id, op.newId = some id → store.view id = none) :
    Changed store.view (op.apply detectMemoryInjection store).view := by
  cases op with
  | remember env scope input options =>
    exact ((rememberWithDecision_cases detectMemoryInjection env scope input options
      store).wrote detectMemoryInjection (fresh _ rfl)).changed (fresh _ rfl)
  | supersede env scope oldId input auto =>
    exact ((supersede_cases detectMemoryInjection env scope oldId input auto
      store).wrote detectMemoryInjection (fresh _ rfl)).changed (fresh _ rfl)
  | validate scope factId reason force now =>
    exact (validate_cases detectMemoryInjection scope factId reason force now
      store).changed
  | promote | forget | purge | search => cases writes

structure Completed (before after : Store) (oldId newId : String) : Prop where
  waiting : ∃ row, before.view oldId = some row ∧ row.validTo = none ∧
    row.supersededBy ≠ some newId
  linked : ∃ row, after.view oldId = some row ∧ row.supersededBy = some newId
  active : ∃ row, after.view newId = some row ∧ row.status = .active

theorem Completed.handed (completed : Completed before after oldId newId)
    (changed : Changed before.view after.view) (there : after.view newId = some new)
    (starts : new.validFrom = some instant) :
    ∃ old, after.view oldId = some old ∧ old.validTo = some instant := by
  obtain ⟨old, found, ended, unlinked⟩ := completed.waiting
  obtain ⟨old', found', linked⟩ := completed.linked
  cases changed with
  | quiet same =>
    obtain ⟨row', shown, same, -⟩ := same oldId old found
    rw [shown] at found'
    cases found'
    exact absurd (same ▸ linked) unlinked
  | @closing base row closedId forId now same there' shown =>
    obtain ⟨base', shown', same, same'⟩ := same oldId old found
    rw [shown] at found'
    by_cases here : oldId = closedId
    · subst here
      rw [shut_self, shown'] at found'
      cases found'
      cases linked
      obtain ⟨row', kept?, kept⟩ := keepsRows_shut base oldId newId
        (row.validFrom.getD now) now newId row there'
      rw [shown, kept?] at there
      cases there
      rw [kept.start] at starts
      refine ⟨_, by rw [shown, shut_self, shown']; rfl, ?_⟩
      simp [Row.close, same', ended, starts]
    · rw [shut_other here, shown'] at found'
      cases found'
      exact absurd (same ▸ linked) unlinked

/-- No read at `t` gives the fact: neither the list of active facts, nor a search
whose instant is `t`, be it the time of the read or its `asOf`. -/
structure Unread (store : Store) (t : Int) (id : String) : Prop where
  listed : ∀ scope limit pending, ∀ fact ∈ store.listActive scope limit pending t,
    fact.id ≠ id
  found : ∀ env scope query options hits,
    resolveFactValidityEpoch options.read env.now = .ok (some t) →
    searchHits env store scope query options = .ok hits → ∀ hit ∈ hits, hit.id ≠ id

theorem mem_listActive {t : Int} {id : String} (there : store.view id = some row)
    (admitted : row.admitted scope.userId false (some t) = true) :
    rowToFact id row ∈ store.listActive scope store.facts.entries.length false t := by
  have entry : (id, row) ∈ store.facts.entries := OrderedMap.get_eq_some.mp there
  refine List.mem_map.mpr ⟨(id, row), ?_, rfl⟩
  rw [List.take_of_length_le]
  · refine (List.mergeSort_perm _ _).mem_iff.mpr (List.mem_filter.mpr ⟨entry, ?_⟩)
    simp [admitted]
  · rw [Store.oldestFirst, List.length_mergeSort]
    exact List.length_filter_le ..

theorem unread_of_ended {t instant : Int} {id : String} (there : store.view id = some row)
    (ended : row.validTo = some instant) (past : instant ≤ t) : Unread store t id := by
  have refused : ∀ userId quarantined,
      row.admitted userId quarantined (some t) = false := by
    intro userId quarantined
    simp [Row.admitted, Row.validAt, ended, past]
  constructor
  · rintro scope limit pending fact listed rfl
    obtain ⟨row', there', admitted, -⟩ := listActive_shows listed
    rw [there] at there'
    cases there'
    rw [refused] at admitted
    cases admitted
  · rintro env scope query options hits resolved ok hit listed rfl
    obtain ⟨row', there', admitted, -⟩ := searchHits_passes ok _ resolved hit listed
    rw [there] at there'
    cases there'
    rw [refused] at admitted
    cases admitted

/-- A supersede that a call of the run completed. -/
def SupersededIn (detectMemoryInjection : String → Bool) (store : Store) (ops : List Op)
    (oldId newId : String) : Prop :=
  ∃ op reached, Called detectMemoryInjection store ops op reached ∧
    Completed reached (op.apply detectMemoryInjection reached) oldId newId

theorem run_called {before rest : List Op} :
    run detectMemoryInjection store (before ++ op :: rest) =
      run detectMemoryInjection (op.apply detectMemoryInjection
        (run detectMemoryInjection store before)) rest :=
  run_append ..

theorem SupersededIn.ends
    (superseded : SupersededIn detectMemoryInjection store ops oldId newId)
    (drawn : Drawn store ops) (writes : ∀ op ∈ ops, op.writes = true) :
    ∃ old new, (run detectMemoryInjection store ops).view oldId = some old ∧
      (run detectMemoryInjection store ops).view newId = some new ∧
      ∀ instant, new.validFrom = some instant → old.validTo = some instant := by
  obtain ⟨op, reached, called, completed⟩ := superseded
  have changed : Changed reached.view (op.apply detectMemoryInjection reached).view :=
    Op.changed (writes op called.mem) (called.fresh drawn)
  obtain ⟨before, rest, rfl, rfl⟩ := called
  have drawn' : Drawn (op.apply detectMemoryInjection
      (run detectMemoryInjection store before)) rest := (Drawn.after drawn).next
  have later : KeepsRows _ (run detectMemoryInjection _ rest).view :=
    run_keepsRows drawn' fun op' there => writes op' (by simp [there])
  obtain ⟨old', found', -⟩ := completed.linked
  obtain ⟨new', there', -⟩ := completed.active
  obtain ⟨old, found, kept⟩ := later _ old' found'
  obtain ⟨new, there, kept'⟩ := later _ new' there'
  rw [run_called]
  refine ⟨old, new, found, there, fun instant starts => ?_⟩
  rw [kept'.start] at starts
  obtain ⟨shown, shown', ended⟩ := completed.handed changed there' starts
  rw [found'] at shown'
  cases shown'
  exact kept.ended instant ended

/-- Where a fact starts and ends, in a store. -/
def Store.starts (store : Store) (id : String) : Option Int :=
  (store.view id).bind (·.validFrom)

def Store.ends (store : Store) (id : String) : Option Int :=
  (store.view id).bind (·.validTo)

/-- Superseded facts stop being current where their successor starts, and along a
chain of supersedes whose starts do not fall no two versions hold at one instant. -/
theorem superseded_facts_stop {store : Store} {ops : List Op} (drawn : Drawn store ops)
    (writes : ∀ op ∈ ops, op.writes = true) :
    (∀ oldId newId, SupersededIn detectMemoryInjection store ops oldId newId →
      ∀ instant, (run detectMemoryInjection store ops).starts newId = some instant →
        ∀ t, instant ≤ t → Unread (run detectMemoryInjection store ops) t oldId) ∧
      ∀ versions : List String,
        versions.IsChain (SupersededIn detectMemoryInjection store ops) →
        versions.IsChain (Rises (run detectMemoryInjection store ops).starts) →
        versions.Pairwise fun first second => ∀ t,
          ¬ (HoldsAt (run detectMemoryInjection store ops).starts
              (run detectMemoryInjection store ops).ends first t ∧
            HoldsAt (run detectMemoryInjection store ops).starts
              (run detectMemoryInjection store ops).ends second t) := by
  constructor
  · intro oldId newId superseded instant starts t past
    obtain ⟨old, new, found, there, ends⟩ := superseded.ends drawn writes
    rw [Store.starts, there] at starts
    exact unread_of_ended found (ends instant starts) past
  · intro versions chain rises
    refine apart_of_handovers versions (chain.imp ?_) rises
    intro first second superseded instant starts
    obtain ⟨old, new, found, there, ends⟩ := superseded.ends drawn writes
    rw [Store.starts, there] at starts
    rw [Store.ends, found]
    exact ends instant starts

def replaceCall (oldId newId : String) (now : Int) (text : String) : Op :=
  .supersede (plainEnv newId now) ⟨"ada", none, none⟩ oldId
    { text := text, provenance := some .user } false

def replacing : List Op :=
  [parisCall, replaceCall "fact-1" "fact-2" 2000 "The user lives in Berlin.",
    replaceCall "fact-2" "fact-3" 3000 "The user lives in Rome."]

theorem replacing_drawn : Drawn .empty replacing where
  once := by decide
  absent _ _ := rfl

theorem replacing_superseded : ["fact-1", "fact-2", "fact-3"].IsChain
    (SupersededIn silent .empty replacing) := by
  refine .cons_cons ⟨_, _, ⟨[parisCall], _, rfl, rfl⟩, ?_⟩
    (.cons_cons ⟨_, _, ⟨[_, _], [], rfl, rfl⟩, ?_⟩ (.singleton _))
  · exact ⟨⟨_, rfl, rfl, by decide⟩, ⟨_, rfl, rfl⟩, ⟨_, rfl, rfl⟩⟩
  · exact ⟨⟨_, rfl, rfl, by decide⟩, ⟨_, rfl, rfl⟩, ⟨_, rfl, rfl⟩⟩

theorem replaced_fact_stops : Unread (run silent .empty replacing) 2500 "fact-1" ∧
    ["fact-1", "fact-2", "fact-3"].Pairwise fun first second => ∀ t,
      ¬ (HoldsAt (run silent .empty replacing).starts (run silent .empty replacing).ends
          first t ∧
        HoldsAt (run silent .empty replacing).starts (run silent .empty replacing).ends
          second t) := by
  obtain ⟨stops, apart⟩ := superseded_facts_stop replacing_drawn (by decide)
  refine ⟨?_, apart _ replacing_superseded ?_⟩
  · exact stops "fact-1" "fact-2" (List.isChain_cons_cons.mp replacing_superseded).1 2000
      (by decide) 2500 (by decide)
  · exact .cons_cons ⟨1000, 2000, by decide, by decide, by decide⟩
      (.cons_cons ⟨2000, 3000, by decide, by decide, by decide⟩ (.singleton _))

def boundedCall : Op :=
  .remember (plainEnv "fact-1" 1000) ⟨"ada", none, none⟩
    { text := "The user lives in Paris.", provenance := some .user
      validTo := some (.instant 5000) } {}

def outliving : List Op :=
  [boundedCall, replaceCall "fact-1" "fact-2" 2000 "The user lives in Berlin."]

/-- Its successor is active since 2000, and at 3000 the fact is still read. -/
theorem authored_end_outlives_successor :
    Drawn .empty outliving ∧ (∀ op ∈ outliving, op.writes = true) ∧
      ((run silent .empty outliving).view "fact-1").bind (·.supersededBy) =
        some "fact-2" ∧
      ((run silent .empty outliving).view "fact-2").map (·.status) = some .active ∧
      (run silent .empty outliving).starts "fact-2" = some 2000 ∧
      ¬ Unread (run silent .empty outliving) 3000 "fact-1" := by
  refine ⟨⟨by decide, fun _ _ => rfl⟩, by decide, by decide, by decide,
    by decide, fun unread => ?_⟩
  have read : (run silent .empty outliving).current "ada" 3000 "fact-1" = true := by
    decide
  obtain ⟨row, there, admitted⟩ := current_iff.mp read
  exact unread.listed ⟨"ada", none, none⟩ _ false _ (mem_listActive there admitted) rfl

end Graphorin.Memory
