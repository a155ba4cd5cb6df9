import Graphorin.Migrations.Runner

namespace Graphorin.Migrations

open Lib Audit

/-! Racing runs keep the applied migrations a front part of the common list. -/

section Lists

variable {α β : Type}

variable {items : List α}

/-- What is kept by a test that only the front passes is a front part. -/
theorem filter_takes {before : α → α → Prop} (kept : α → Bool)
    (ordered : items.Pairwise before)
    (down : ∀ first second, before first second → kept second = true → kept first = true) :
    ∃ count, items.filter kept = items.take count := by
  induction items with
  | nil => exact ⟨0, rfl⟩
  | cons item _ ih =>
    obtain ⟨ahead, ordered⟩ := List.pairwise_cons.mp ordered
    by_cases passes : kept item = true
    · obtain ⟨count, same⟩ := ih ordered
      refine ⟨count + 1, ?_⟩
      rw [List.filter_cons_of_pos passes, same, List.take_succ_cons]
    · refine ⟨0, ?_⟩
      rw [List.filter_cons_of_neg passes, List.take_zero, List.filter_eq_nil_iff]
      intro other there passes'
      exact passes (down item other (ahead other there) passes')

variable [DecidableEq β]

/-- Leaving out the keys of a front part leaves the rest. -/
theorem filter_drops {key : α → β} (distinct : (items.map key).Nodup) (count total : Nat) :
    (items.take total).filter (fun item => decide (key item ∉ (items.take count).map key)) =
      (items.take total).drop count := by
  have parts := List.take_append_drop count (items.take total)
  have front : ((items.take total).take count).filter
      (fun item => decide (key item ∉ (items.take count).map key)) = [] := by
    rw [List.filter_eq_nil_iff]
    intro item there
    rw [decide_eq_true_eq, not_not, List.take_take, Nat.min_comm, ← List.take_take] at *
    exact List.mem_map_of_mem (List.mem_of_mem_take there)
  have back : ((items.take total).drop count).filter
      (fun item => decide (key item ∉ (items.take count).map key)) =
        (items.take total).drop count := by
    rw [List.filter_eq_self]
    intro item there
    rw [decide_eq_true_eq]
    intro within
    rw [← List.take_append_drop count items, List.map_append] at distinct
    rw [List.drop_take] at there
    exact (List.nodup_append.mp distinct).2.2 _ within _
      (List.mem_map_of_mem (List.mem_of_mem_take there)) rfl
  have whole := congrArg
    (List.filter fun item => decide (key item ∉ (items.take count).map key)) parts
  rw [List.filter_append, front, back, List.nil_append] at whole
  exact whole.symm

end Lists

variable {σ ε : Type} {platform : Platform σ ε}

def eligible (platform : Platform σ ε) (run : Run σ ε) : List (Migration σ ε) :=
  run.migrations.filter (within platform run.upTo)

/-- In the order of their versions. -/
def Ordered (platform : Platform σ ε) (migrations : List (Migration σ ε)) : Prop :=
  migrations.Pairwise fun first second =>
    platform.localeCompare first.version second.version = .lt

variable {migrations : List (Migration σ ε)}

theorem Ordered.distinct [Std.TransCmp platform.localeCompare]
    (ordered : Ordered platform migrations) :
    (migrations.map (·.version)).Nodup := by
  refine List.pairwise_map.mpr (ordered.imp fun {first second} before same => ?_)
  have self : platform.localeCompare second.version second.version = .eq :=
    Std.ReflCmp.compare_self
  rw [same, self] at before
  cases before

theorem within_down [Std.TransCmp platform.localeCompare] (upTo : Option String)
    (before : platform.localeCompare first.version second.version = .lt)
    (inside : within platform upTo second = true) : within platform upTo first = true := by
  cases upTo with
  | none => rfl
  | some upTo =>
    simp only [within, bne_iff_ne, ne_eq] at inside ⊢
    intro past
    have later : platform.localeCompare second.version upTo = .gt :=
      Std.TransCmp.gt_trans (Std.OrientedCmp.gt_of_lt before) past
    exact inside later

variable {common : List (Migration σ ε)} {run : Run σ ε}

theorem eligible_takes [Std.TransCmp platform.localeCompare]
    (ordered : Ordered platform common) (shares : run.migrations <+: common) :
    ∃ count, eligible platform run = common.take count := by
  obtain ⟨size, same⟩ : ∃ size, run.migrations = common.take size :=
    ⟨run.migrations.length, (List.prefix_iff_eq_take.mp shares)⟩
  obtain ⟨count, same'⟩ := filter_takes (within platform run.upTo)
    (same ▸ List.Pairwise.sublist (List.take_sublist _ _) ordered)
    (fun first second => within_down run.upTo)
  refine ⟨min count size, ?_⟩
  rw [eligible, same', same, List.take_take]

def versions (rows : List AppliedMigration) : List String := rows.map (·.version)

theorem planPending_ok
    (planned : planPending platform upTo applied migrations = .ok pending) :
    pending = (migrations.filter (within platform upTo)).filter
      fun migration => decide (migration.version ∉ versions applied) := by
  induction migrations generalizing pending with
  | nil =>
    cases planned
    rfl
  | cons migration rest ih =>
    rw [planPending] at planned
    split at planned
    · rename_i inside
      rw [List.filter_cons_of_pos inside]
      split at planned
      · rename_i none
        obtain ⟨others, planned', rfl⟩ := ok_of_map planned
        rw [List.filter_cons_of_pos, ih planned']
        rw [decide_eq_true_eq]
        intro there
        obtain ⟨row, here, same⟩ := List.mem_map.mp there
        exact List.find?_eq_none.mp none row here (beq_iff_eq.mpr same)
      · rename_i prior found
        split at planned
        · rw [List.filter_cons_of_neg, ih planned]
          rw [decide_eq_true_eq, not_not]
          have same := List.find?_some found
          rw [← beq_iff_eq.mp same]
          exact List.mem_map_of_mem (List.mem_of_find?_eq_some found)
        · cases planned
    · rename_i outside
      rw [List.filter_cons_of_neg outside]
      exact ih planned

theorem planPending_error
    (planned : planPending platform upTo applied migrations = .error error) :
    ∃ migration ∈ migrations, ∃ row ∈ applied, row.version = migration.version ∧
      row.checksum ≠ computeChecksum migration.sql ∧
      error = .modified migration.version migration.name := by
  induction migrations with
  | nil => cases planned
  | cons migration rest ih =>
    have later : planPending platform upTo applied rest = .error error →
        ∃ migration' ∈ migration :: rest, ∃ row ∈ applied,
          row.version = migration'.version ∧
            row.checksum ≠ computeChecksum migration'.sql ∧
            error = .modified migration'.version migration'.name := by
      intro planned'
      obtain ⟨other, there, found⟩ := ih planned'
      exact ⟨other, List.mem_cons_of_mem _ there, found⟩
    rw [planPending] at planned
    split at planned
    · split at planned
      · cases rest' : planPending platform upTo applied rest with
        | ok =>
          rw [rest'] at planned
          cases planned
        | error =>
          rw [rest'] at planned
          cases planned
          exact later rest'
      · rename_i prior found
        split at planned
        · exact later planned
        · rename_i other
          have same := List.find?_some found
          cases planned
          exact ⟨migration, List.mem_cons_self, prior, List.mem_of_find?_eq_some found,
            beq_iff_eq.mp same, other, rfl⟩
    · exact later planned

/-- One after the other. -/
def effects (platform : Platform σ ε) : List (Migration σ ε) → σ → Except ε σ
  | [], contents => .ok contents
  | migration :: rest, contents =>
    (takeEffect platform migration contents).bind (effects platform rest)

theorem effects_append {first second : List (Migration σ ε)}
    (done : effects platform first contents = .ok middle) :
    effects platform (first ++ second) contents = effects platform second middle := by
  induction first generalizing contents with
  | nil =>
    cases done
    rfl
  | cons migration rest ih =>
    obtain ⟨next, taken, done⟩ := ok_of_bind done
    rw [List.cons_append, effects, taken]
    exact ih done

structure Applied (platform : Platform σ ε) (common : List (Migration σ ε))
    (initial db : Database σ) : Prop where
  front : versions db.rows = (common.take db.rows.length).map (·.version)
  grown : initial.rows <+: db.rows
  effect : effects platform ((common.take db.rows.length).drop initial.rows.length)
    initial.contents = .ok db.contents
  checksums : ∀ row ∈ db.rows, row ∈ initial.rows ∨
    ∃ migration ∈ common, migration.version = row.version ∧
      row.checksum = computeChecksum migration.sql
  table : initial.table.isSome = true → db.table.isSome = true

variable {db : Database σ}

theorem ensured_of_table (there : db.table.isSome = true) :
    ensureSchemaMigrationsTable db = db := by
  obtain ⟨rows, same⟩ := Option.isSome_iff_exists.mp there
  cases db with
  | mk =>
    cases same
    rfl

variable {initial : Database σ}

theorem Applied.ensured (applied : Applied platform common initial db) :
    Applied platform common initial (ensureSchemaMigrationsTable db) :=
  ⟨applied.front, applied.grown, applied.effect, applied.checksums, fun _ => rfl⟩

variable {migration : Migration σ ε} {now : Int} {db' : Database σ}

theorem applyMigration_cases
    (ran : applyMigration platform migration now db = .ok (db', skipped)) :
    (migration.version ∈ versions db.rows ∧ db' = db ∧ skipped = true) ∨
      migration.version ∉ versions db.rows ∧ skipped = false ∧
        db'.rows = db.rows ++ [record migration now] ∧ db'.table.isSome = true ∧
        takeEffect platform migration db.contents = .ok db'.contents := by
  rw [applyMigration] at ran
  split at ran
  · rename_i there
    cases ran
    obtain ⟨row, among, same⟩ := List.any_eq_true.mp there
    exact .inl ⟨beq_iff_eq.mp same ▸ List.mem_map_of_mem among, rfl, rfl⟩
  · rename_i absent
    obtain ⟨contents, taken, same⟩ := ok_of_map ran
    cases same
    refine .inr ⟨fun there => absent ?_, rfl, rfl, rfl, taken⟩
    obtain ⟨row, among, same⟩ := List.mem_map.mp there
    exact List.any_eq_true.mpr ⟨row, among, beq_iff_eq.mpr same⟩

theorem Applied.next (applied : Applied platform common initial db)
    (place : common[db.rows.length]? = some migration)
    (rows : db'.rows = db.rows ++ [record migration now]) (table : db'.table.isSome = true)
    (taken : takeEffect platform migration db.contents = .ok db'.contents) :
    Applied platform common initial db' := by
  have longer : db'.rows.length = db.rows.length + 1 := by
    rw [rows, List.length_append, List.length_singleton]
  have taken' : common.take db'.rows.length = common.take db.rows.length ++ [migration] := by
    rw [longer, List.take_add_one, place]
    rfl
  have began := applied.grown.length_le
  have inside : db.rows.length < common.length := (List.getElem?_eq_some_iff.mp place).1
  refine ⟨?_, applied.grown.trans (rows ▸ List.prefix_append _ _), ?_, ?_, fun _ => table⟩
  · rw [taken', List.map_append, ← applied.front, rows, versions, List.map_append]
    rfl
  · rw [taken', List.drop_append_of_le_length (by rw [List.length_take]; omega),
      effects_append applied.effect, effects, taken]
    rfl
  · intro row there
    rw [rows] at there
    rcases List.mem_append.mp there with there | there
    · exact applied.checksums row there
    · obtain rfl := List.mem_singleton.mp there
      exact .inr ⟨migration, List.mem_of_getElem? place, rfl, rfl⟩

def Run.newlyApplied (run : Run σ ε) : List AppliedMigration :=
  match run.stage with
  | .applying _ newlyApplied => newlyApplied
  | .returned newlyApplied => newlyApplied
  | _ => []

/-- Whatever else runs, the migrations before those a run has pending are applied. -/
def StageSound (platform : Platform σ ε) (initial db : Database σ) (run : Run σ ε) :
    Stage σ ε → Prop
  | .begun => run.steps = []
  | .reading => ∀ step ∈ run.steps, step.2 = ensureSchemaMigrationsTable step.1 ∧
      (initial.table.isSome = true → step.1.table.isSome = true)
  | .applying pending _ =>
    ∃ done, done ≤ db.rows.length ∧ pending = (eligible platform run).drop done
  | .returned _ => ∃ done, done ≤ db.rows.length ∧ (eligible platform run).length ≤ done
  | .threw (.modified _ _) => ∀ step ∈ run.steps, step.2 = step.1
  | .threw (.statement _) => True
  | .crashed => True

structure RunSound (platform : Platform σ ε) (common : List (Migration σ ε))
    (initial db : Database σ) (run : Run σ ε) : Prop where
  shares : run.migrations <+: common
  known : ∀ row ∈ run.newlyApplied, row ∈ db.rows
  stage : StageSound platform initial db run run.stage

theorem RunSound.grown (sound : RunSound platform common initial db run)
    (grown : db.rows <+: db'.rows) : RunSound platform common initial db' run := by
  refine ⟨sound.shares, fun row there => grown.subset (sound.known row there), ?_⟩
  have stage := sound.stage
  have more := grown.length_le
  cases here : run.stage with
  | begun =>
    rw [here] at stage
    exact stage
  | reading =>
    rw [here] at stage
    exact stage
  | applying =>
    rw [here] at stage
    obtain ⟨done, within, same⟩ := stage
    exact ⟨done, within.trans more, same⟩
  | returned =>
    rw [here] at stage
    obtain ⟨done, within, all⟩ := stage
    exact ⟨done, within.trans more, all⟩
  | threw error =>
    rw [here] at stage
    cases error <;> exact stage
  | crashed => trivial

theorem initial_of_modified (applied : Applied platform common initial db)
    (distinct : (common.map (·.version)).Nodup) (listed : migration ∈ common)
    (there : row ∈ db.rows) (same : row.version = migration.version)
    (other : row.checksum ≠ computeChecksum migration.sql) :
    initial.table.isSome = true := by
  rcases applied.checksums row there with began | ⟨migration', listed', same', checksum⟩
  · cases table : initial.table with
    | none =>
      rw [Database.rows, table] at began
      cases began
    | some => rfl
  · have one : migration' = migration :=
      List.inj_on_of_nodup_map distinct listed' listed (same'.trans same)
    rw [one] at checksum
    exact absurd checksum other

theorem not_taken (distinct : (common.map (·.version)).Nodup)
    (stands : common[place]? = some migration) :
    migration.version ∉ (common.take place).map (·.version) := by
  intro before
  rw [← List.take_append_drop place common, List.map_append] at distinct
  have after : migration ∈ common.drop place := by
    refine List.mem_of_getElem? (i := 0) ?_
    rw [List.getElem?_drop]
    exact stands
  exact (List.nodup_append.mp distinct).2.2 _ before _ (List.mem_map_of_mem after) rfl

/-- The first migration that is pending has its place among those of everybody. -/
theorem pending_place [Std.TransCmp platform.localeCompare]
    (ordered : Ordered platform common) (shares : run.migrations <+: common)
    (same : migration :: pending = (eligible platform run).drop done) :
    common[done]? = some migration ∧ pending = (eligible platform run).drop (done + 1) := by
  obtain ⟨count, takes⟩ := eligible_takes ordered shares
  constructor
  · have head := congrArg List.head? same
    rw [List.head?_cons, List.head?_drop, takes, List.getElem?_take] at head
    split at head
    · exact head.symm
    · cases head
  · rw [← List.tail_drop, ← same]
    rfl

theorem proceed_sound [Std.TransCmp platform.localeCompare] {run' : Run σ ε}
    (ordered : Ordered platform common) (applied : Applied platform common initial db)
    (sound : RunSound platform common initial db run)
    (moved : proceed platform now run db = some (run', db')) :
    Applied platform common initial db' ∧ RunSound platform common initial db' run' ∧
      db.rows <+: db'.rows ∧
      ∀ row ∈ run'.newlyApplied, row ∈ run.newlyApplied ∨ row.version ∉ versions db.rows := by
  have stage := sound.stage
  unfold proceed at moved
  cases here : run.stage with
  | begun =>
    rw [here] at moved stage
    cases moved
    refine ⟨applied.ensured, ⟨sound.shares, fun _ there => (nomatch there), ?_⟩,
      List.prefix_refl _, fun _ there => (nomatch there)⟩
    intro step there
    have steps : run.steps = [] := stage
    rw [Run.moved, steps] at there
    obtain rfl := List.mem_singleton.mp there
    exact ⟨rfl, applied.table⟩
  | reading =>
    rw [here] at moved stage
    simp only at moved
    split at moved
    · rename_i error planned
      cases moved
      obtain ⟨migration, listed, row, there, same, other, rfl⟩ := planPending_error planned
      have began := initial_of_modified applied ordered.distinct
        (sound.shares.subset listed) there same other
      refine ⟨applied, ⟨sound.shares, fun _ there => (nomatch there), ?_⟩,
        List.prefix_refl _, fun _ there => (nomatch there)⟩
      intro step there
      rcases List.mem_append.mp there with there | there
      · obtain ⟨same, table⟩ := stage step there
        rw [same, ensured_of_table (table began)]
      · obtain rfl := List.mem_singleton.mp there
        rfl
    · rename_i pending planned
      cases moved
      refine ⟨applied, ⟨sound.shares, fun _ there => (nomatch there), ?_⟩,
        List.prefix_refl _, fun _ there => (nomatch there)⟩
      refine ⟨db.rows.length, Nat.le_refl _, ?_⟩
      obtain ⟨count, takes⟩ := eligible_takes ordered sound.shares
      have takes' : run.migrations.filter (within platform run.upTo) = common.take count :=
        takes
      have same : eligible platform (run.moved (.applying pending []) db db) =
          common.take count := takes
      rw [same, planPending_ok planned, takes', applied.front]
      exact filter_drops ordered.distinct _ _
  | applying pending newlyApplied =>
    rw [here] at moved stage
    obtain ⟨done, before, same⟩ := stage
    have news : run.newlyApplied = newlyApplied := by
      rw [Run.newlyApplied, here]
    have known := sound.known
    rw [news] at known
    cases pending with
    | nil =>
      cases moved
      refine ⟨applied, ⟨sound.shares, known, done, before, ?_⟩, List.prefix_refl _,
        fun row there => .inl (news ▸ there)⟩
      exact List.drop_eq_nil_iff.mp same.symm
    | cons migration pending =>
      simp only at moved
      split at moved
      · cases moved
        exact ⟨applied, ⟨sound.shares, fun _ there => (nomatch there), trivial⟩,
          List.prefix_refl _, fun _ there => (nomatch there)⟩
      · rename_i db'' skipped ran
        cases moved
        obtain ⟨place, rest⟩ := pending_place ordered sound.shares same
        rcases applyMigration_cases ran with
          ⟨there, rfl, rfl⟩ | ⟨absent, rfl, rows, table, taken⟩
        · refine ⟨applied, ⟨sound.shares, known, done + 1, ?_, rest⟩,
            List.prefix_refl _, fun row there => .inl (news ▸ there)⟩
          by_contra past
          have last : done = db'.rows.length := by omega
          rw [applied.front] at there
          exact not_taken ordered.distinct (last ▸ place) there
        · have last : done = db.rows.length := by
            by_contra short
            refine absent ?_
            rw [applied.front]
            refine List.mem_map_of_mem (List.mem_of_getElem? (i := done) ?_)
            rw [List.getElem?_take, if_pos (by omega)]
            exact place
          have grown : db.rows <+: db'.rows := rows ▸ List.prefix_append _ _
          refine ⟨applied.next (last ▸ place) rows table taken,
            ⟨sound.shares, fun row there => ?_, done + 1, ?_, rest⟩, grown,
            fun row there => ?_⟩
          · rw [rows]
            rcases List.mem_append.mp there with there | there
            · exact List.mem_append_left _ (known row there)
            · exact List.mem_append_right _ there
          · rw [rows, List.length_append, List.length_singleton]
            omega
          · rcases List.mem_append.mp there with there | there
            · exact .inl (news ▸ there)
            · obtain rfl := List.mem_singleton.mp there
              exact .inr absent
  | returned =>
    rw [here] at moved
    cases moved
  | threw =>
    rw [here] at moved
    cases moved
  | crashed =>
    rw [here] at moved
    cases moved

structure WorldSound (platform : Platform σ ε) (common : List (Migration σ ε))
    (initial : Database σ) (world : World σ ε) : Prop where
  applied : Applied platform common initial world.db
  runs : ∀ run ∈ world.runs, RunSound platform common initial world.db run
  apart : ∀ (index index' : Nat) run run', index ≠ index' →
    world.runs[index]? = some run → world.runs[index']? = some run' →
      ∀ row ∈ run.newlyApplied, ∀ row' ∈ run'.newlyApplied, row.version ≠ row'.version

variable {world : World σ ε}

theorem WorldSound.replaced (sound : WorldSound platform common initial world)
    (here : world.runs[index]? = some run) (applied : Applied platform common initial db)
    (grown : world.db.rows <+: db.rows) (sound' : RunSound platform common initial db run')
    (news : ∀ row ∈ run'.newlyApplied, row ∈ run.newlyApplied ∨
      row.version ∉ versions world.db.rows) :
    WorldSound platform common initial { db, runs := world.runs.set index run' } := by
  have distinct : ∀ (other : Nat) run'', other ≠ index → world.runs[other]? = some run'' →
      ∀ row ∈ run'.newlyApplied, ∀ row' ∈ run''.newlyApplied,
        row.version ≠ row'.version := by
    intro other run'' elsewhere there row new row' old same
    rcases news row new with before | absent
    · exact sound.apart index other run run'' (Ne.symm elsewhere) here there row before row' old
        same
    · have known := (sound.runs run'' (List.mem_of_getElem? there)).known row' old
      exact absent (same ▸ List.mem_map_of_mem known)
  refine ⟨applied, fun run'' there => ?_, ?_⟩
  · rcases List.mem_or_eq_of_mem_set there with there | rfl
    · exact (sound.runs run'' there).grown grown
    · exact sound'
  · intro first second run₁ run₂ different there₁ there₂ row new row' new'
    rw [List.getElem?_set] at there₁ there₂
    by_cases one : index = first
    · rw [if_pos one] at there₁
      by_cases two : index = second
      · exact absurd (one.symm.trans two) different
      · rw [if_neg two] at there₂
        split at there₁
        · obtain rfl := Option.some.inj there₁
          exact distinct second run₂ (Ne.symm two) there₂ row new row' new'
        · cases there₁
    · rw [if_neg one] at there₁
      by_cases two : index = second
      · rw [if_pos two] at there₂
        split at there₂
        · obtain rfl := Option.some.inj there₂
          exact (distinct first run₁ (Ne.symm one) there₁ row' new' row new).symm
        · cases there₂
      · rw [if_neg two] at there₂
        exact sound.apart first second run₁ run₂ different there₁ there₂ row new row' new'

theorem step_sound [Std.TransCmp platform.localeCompare] (ordered : Ordered platform common)
    (sound : WorldSound platform common initial world) (shares : action.shares common)
    (moved : world.step platform action = some world') :
    WorldSound platform common initial world' := by
  cases action with
  | start migrations upTo =>
    cases moved
    refine ⟨sound.applied, fun run there => ?_, ?_⟩
    · rcases List.mem_append.mp there with there | there
      · exact sound.runs run there
      · obtain rfl := List.mem_singleton.mp there
        exact ⟨shares, fun _ there => (nomatch there), rfl⟩
    · intro first second run run' different there there' row new row' new'
      have fresh : ∀ (index : Nat) run,
          (world.runs ++ [({ migrations, upTo } : Run σ ε)])[index]? = some run →
            world.runs[index]? = some run ∨ run.newlyApplied = [] := by
        intro index run there
        rw [List.getElem?_append] at there
        split at there
        · exact .inl there
        · obtain rfl := List.mem_singleton.mp (List.mem_of_getElem? there)
          exact .inr rfl
      rcases fresh first run there with there | none
      · rcases fresh second run' there' with there' | none
        · exact sound.apart first second run run' different there there' row new row' new'
        · rw [none] at new'
          cases new'
      · rw [none] at new
        cases new
  | proceed =>
    obtain ⟨run, here, moved⟩ := Option.bind_eq_some_iff.mp moved
    obtain ⟨⟨run', db'⟩, moved', rfl⟩ := Option.map_eq_some_iff.mp moved
    obtain ⟨applied, sound', grown, news⟩ := proceed_sound ordered sound.applied
      (sound.runs run (List.mem_of_getElem? here)) moved'
    exact sound.replaced here applied grown sound' news
  | crash =>
    unfold World.step at moved
    obtain ⟨run, here, moved⟩ := Option.bind_eq_some_iff.mp moved
    split at moved
    · cases moved
    · cases moved
      have sound' := sound.runs run (List.mem_of_getElem? here)
      exact sound.replaced here sound.applied (List.prefix_refl _)
        ⟨sound'.shares, fun _ there => (nomatch there), trivial⟩
        fun _ there => (nomatch there)

theorem reachable_sound [Std.TransCmp platform.localeCompare]
    (ordered : Ordered platform common)
    (begins : versions initial.rows = (common.take initial.rows.length).map (·.version))
    (reached : Reachable platform common initial world) :
    WorldSound platform common initial world := by
  induction reached with
  | start =>
    refine ⟨⟨begins, List.prefix_refl _, ?_, fun row there => .inl there, id⟩,
      fun _ there => (nomatch there), fun index _ _ _ _ there => ?_⟩
    · rw [List.drop_eq_nil_of_le (List.length_take_le _ _)]
      rfl
    · cases there
  | step _ shares moved ih => exact step_sound ordered ih shares moved

/-- However the runs overlap and wherever they crash: the applied versions are a front part
of the common list, and exactly their migrations took effect, once each and in order; a run
that returned has its own list up to `upTo` applied, and applied what no other returned; one
that found a modified migration changed nothing. -/
theorem racing_migrations_stay_a_front [Std.TransCmp platform.localeCompare]
    {common : List (Migration σ ε)} {initial : Database σ} {world : World σ ε}
    (ordered : Ordered platform common) (begins : versions initial.rows =
      (common.take initial.rows.length).map (·.version))
    (reached : Reachable platform common initial world) :
    versions world.db.rows = (common.take world.db.rows.length).map (·.version) ∧
    effects platform ((common.take world.db.rows.length).drop initial.rows.length)
      initial.contents = .ok world.db.contents ∧
    (∀ run ∈ world.runs, ∀ newlyApplied, run.stage = .returned newlyApplied →
      ∀ migration ∈ run.migrations, within platform run.upTo migration = true →
        migration.version ∈ versions world.db.rows) ∧
    (∀ (index index' : Nat) run run' newlyApplied newlyApplied', index ≠ index' →
      world.runs[index]? = some run → world.runs[index']? = some run' →
      run.stage = .returned newlyApplied → run'.stage = .returned newlyApplied' →
        ∀ row ∈ newlyApplied, ∀ row' ∈ newlyApplied', row.version ≠ row'.version) ∧
    ∀ run ∈ world.runs, ∀ version name, run.stage = .threw (.modified version name) →
      ∀ step ∈ run.steps, step.2 = step.1 := by
  have sound := reachable_sound ordered begins reached
  refine ⟨sound.applied.front, sound.applied.effect, ?_, ?_, ?_⟩
  · intro run there newlyApplied returned migration listed inside
    have stage := (sound.runs run there).stage
    rw [returned] at stage
    obtain ⟨done, before, all⟩ := stage
    obtain ⟨count, takes⟩ := eligible_takes ordered (sound.runs run there).shares
    have among : migration ∈ eligible platform run := List.mem_filter.mpr ⟨listed, inside⟩
    rw [takes] at among all
    rw [sound.applied.front]
    refine List.mem_map_of_mem ?_
    have part : common.take count <+: common.take world.db.rows.length := by
      rw [List.length_take] at all
      have both : common.take count = (common.take world.db.rows.length).take
          (common.take count).length := by
        rw [List.take_take, List.length_take, Nat.min_eq_left (by omega)]
        rcases Nat.le_total count common.length with fits | past
        · rw [Nat.min_eq_left fits]
        · rw [Nat.min_eq_right past, List.take_length, List.take_of_length_le past]
      rw [both]
      exact List.take_prefix _ _
    exact part.subset among
  · intro first second run run' newlyApplied newlyApplied' different there there' returned
      returned' row new row' new'
    have news : run.newlyApplied = newlyApplied := by rw [Run.newlyApplied, returned]
    have news' : run'.newlyApplied = newlyApplied' := by rw [Run.newlyApplied, returned']
    exact sound.apart first second run run' different there there' row (news ▸ new) row'
      (news' ▸ new')
  · intro run there version name threw
    have stage := (sound.runs run there).stage
    rw [threw] at stage
    exact stage

/-- The contents are the statements that took effect. -/
def logPlatform : Platform (List JsText) Unit where
  localeCompare := compare
  execMany sql contents := .ok (contents ++ [sql])

instance : Std.TransCmp logPlatform.localeCompare :=
  inferInstanceAs (Std.TransCmp (compare : String → String → Ordering))

def threeMigrations : List (Migration (List JsText) Unit) :=
  [{ version := "001", name := "memory", sql := ascii "CREATE TABLE facts" },
    { version := "002", name := "sessions", sql := ascii "CREATE TABLE sessions" },
    { version := "003", name := "audit", sql := ascii "CREATE TABLE entries" }]

theorem threeMigrations_ordered : Ordered logPlatform threeMigrations := by
  unfold Ordered
  decide

def emptyDatabase : Database (List JsText) := { table := none, contents := [] }

/-- The first migration was applied in another text. -/
def editedDatabase : Database (List JsText) :=
  { table := some [{ version := "001", name := "memory", appliedAt := 0, checksum := "" }]
    contents := [ascii "CREATE TABLE fact"] }

def runAll (platform : Platform σ ε) (world : World σ ε) :
    List (Action σ ε) → Option (World σ ε)
  | [] => some world
  | action :: rest => (world.step platform action).bind fun world' =>
    runAll platform world' rest

theorem reachable_of_runAll (reached : Reachable platform common initial world)
    (shares : ∀ action ∈ actions, action.shares common)
    (ran : runAll platform world actions = some world') :
    Reachable platform common initial world' := by
  induction actions generalizing world with
  | nil =>
    cases ran
    exact reached
  | cons action rest ih =>
    obtain ⟨next, moved, ran⟩ := Option.bind_eq_some_iff.mp ran
    exact ih (reached.step (shares action List.mem_cons_self) moved)
      (fun other there => shares other (List.mem_cons_of_mem _ there)) ran

/-- The first run crashes once it applied `001`; the second planned it too and comes too late
for both of its migrations; the third stops at `002`, the fourth takes up from there. -/
def racing : List (Action (List JsText) Unit) :=
  [.start threeMigrations none, .start (threeMigrations.take 2) none,
    .start threeMigrations (some "002"), .proceed 0 1, .proceed 1 1, .proceed 0 2, .proceed 1 2,
    .proceed 0 3, .crash 0, .proceed 1 4, .proceed 2 4, .proceed 2 5, .proceed 2 6,
    .proceed 1 7, .proceed 1 8, .proceed 2 8, .start threeMigrations none, .proceed 3 9,
    .proceed 3 9, .proceed 3 10, .proceed 3 11]

/-- The versions a run returned with. -/
def Run.told (run : Run σ ε) : Option (List String) :=
  match run.stage with
  | .returned newlyApplied => some (versions newlyApplied)
  | _ => none

def Run.refused (run : Run σ ε) : Option (String × String) :=
  match run.stage with
  | .threw (.modified version name) => some (version, name)
  | _ => none

theorem Run.stage_of_refused (refused : run.refused = some (version, name)) :
    run.stage = .threw (.modified version name) := by
  unfold Run.refused at refused
  split at refused
  · rename_i same
    cases refused
    exact same
  · cases refused

theorem racing_migrations_apply_once :
    (∃ world, Reachable logPlatform threeMigrations emptyDatabase world ∧
      world.runs.map Run.told = [none, some [], some ["002"], some ["003"]] ∧
      versions world.db.rows =
        (threeMigrations.take world.db.rows.length).map (·.version) ∧
      effects logPlatform (threeMigrations.take world.db.rows.length) [] =
        .ok world.db.contents ∧
      ∀ run ∈ world.runs, ∀ newlyApplied, run.stage = .returned newlyApplied →
        ∀ migration ∈ run.migrations, within logPlatform run.upTo migration = true →
          migration.version ∈ versions world.db.rows) ∧
    ∃ world, Reachable logPlatform threeMigrations editedDatabase world ∧
      world.runs.map Run.refused = [some ("001", "memory")] ∧
      ∀ run ∈ world.runs, ∀ step ∈ run.steps, step.2 = step.1 := by
  constructor
  · obtain ⟨world, ran, told⟩ := Option.map_eq_some_iff.mp
      (show (runAll logPlatform { db := emptyDatabase, runs := [] } racing).map
        (·.runs.map Run.told) = some [none, some [], some ["002"], some ["003"]] by decide)
    have reached : Reachable logPlatform threeMigrations emptyDatabase world :=
      reachable_of_runAll .start (by simp [racing, Action.shares, List.take_prefix]) ran
    obtain ⟨front, effect, listed, -, -⟩ :=
      racing_migrations_stay_a_front threeMigrations_ordered rfl reached
    exact ⟨world, reached, told, front, effect, listed⟩
  · obtain ⟨world, ran, refused⟩ := Option.map_eq_some_iff.mp
      (show (runAll logPlatform { db := editedDatabase, runs := [] }
        [.start threeMigrations none, .proceed 0 1, .proceed 0 2]).map
          (·.runs.map Run.refused) = some [some ("001", "memory")] by decide)
    have reached : Reachable logPlatform threeMigrations editedDatabase world :=
      reachable_of_runAll .start (by simp [Action.shares]) ran
    obtain ⟨-, -, -, -, unchanged⟩ :=
      racing_migrations_stay_a_front threeMigrations_ordered rfl reached
    refine ⟨world, reached, refused, fun run there => ?_⟩
    have threw : run.refused = some ("001", "memory") := by
      have among := List.mem_map_of_mem (f := Run.refused) there
      rw [refused] at among
      exact List.mem_singleton.mp among
    exact unchanged run there "001" "memory" (Run.stage_of_refused threw)

end Graphorin.Migrations
