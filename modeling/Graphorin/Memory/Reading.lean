import Graphorin.Memory.Steps

namespace Graphorin.Memory

open Lib

/-! Whatever the legs and the ranking, a search returns rows its predicate admits. -/

def Shows (store : Store) (userId : String) (quarantined : Bool) (epoch : Option Int)
    (hit : Hit) : Prop :=
  ∃ row, store.view hit.id = some row ∧ row.admitted userId quarantined epoch = true ∧
    hit.fact = rowToFact hit.id row

variable {hit : Hit}

theorem Shows.rescored (shows' : Shows store userId quarantined epoch hit)
    (id : hit.id = other.id) (fact : hit.fact = other.fact) :
    Shows store userId quarantined epoch other := by
  obtain ⟨row, there, admitted, same⟩ := shows'
  exact ⟨row, id ▸ there, admitted, by rw [← fact, same, id]⟩

theorem ranked_shows {store : Store} {ranking : List (String × Rat)} {keep : Row → Bool}
    (listed : hit ∈ store.ranked ranking keep) :
    ∃ row, store.view hit.id = some row ∧ keep row = true ∧
      hit.fact = rowToFact hit.id row := by
  obtain ⟨⟨id, score⟩, _, made⟩ := List.mem_filterMap.mp listed
  dsimp only at made
  split at made
  · rename_i row found
    split at made
    · rename_i kept
      cases made
      exact ⟨row, found, kept, rfl⟩
    · cases made
  · cases made

theorem widen_runs (rows : Nat → List Hit) (topK total fuel k : Nat) :
    ∃ last, Store.widen rows topK total fuel k = rows last := by
  induction fuel generalizing k with
  | zero => exact ⟨k, rfl⟩
  | succ _ ih =>
    rw [Store.widen]
    split
    · exact ih _
    · exact ⟨k, rfl⟩

variable {topK : Nat}

theorem widenKnn_mem (listed : hit ∈ Store.widenKnn rows topK total) :
    ∃ k, hit ∈ rows k := by
  rw [Store.widenKnn] at listed
  split at listed
  · cases listed
  · obtain ⟨last, same⟩ := widen_runs rows topK total total
      (min (max (topK * 4) (topK + 16)) total)
    rw [same] at listed
    exact ⟨last, List.mem_of_mem_take listed⟩

variable {engine : Engine} {registry : Store.Registry} {store : Store} {scope : Scope}
  {options : ReadOptions} {now : Int} {epoch : Option Int}

/-- The predicate of a read, at the instant it resolves to. -/
def Passes (store : Store) (scope : Scope) (options : ReadOptions) (now : Int)
    (hits : List Hit) : Prop :=
  ∀ epoch, resolveFactValidityEpoch options now = .ok epoch →
    ∀ hit ∈ hits, Shows store scope.userId options.includeQuarantined epoch hit

theorem Passes.nil : Passes store scope options now [] := by
  intro _ _ hit listed
  cases listed

variable {hits : List Hit}

theorem passes_of_map (ok : (resolveFactValidityEpoch options now).map select = .ok hits)
    (selected : ∀ epoch, ∀ hit ∈ select epoch,
      Shows store scope.userId options.includeQuarantined epoch hit) :
    Passes store scope options now hits := by
  intro epoch resolved hit listed
  rw [resolved] at ok
  cases ok
  exact selected epoch hit listed

variable {query : String}

theorem search_passes (ok : store.search engine scope query topK options now = .ok hits) :
    Passes store scope options now hits := by
  refine passes_of_map ok fun epoch hit listed => ?_
  obtain ⟨row, there, kept, fact⟩ := ranked_shows (List.mem_of_mem_take listed)
  rw [Bool.and_eq_true, Bool.and_eq_true] at kept
  exact ⟨row, there, kept.1.1, fact⟩

theorem searchVector_passes {embedding : Embedding} {embedderId : String}
    (ok : store.searchVector engine registry scope embedding embedderId topK options now = .ok hits)
    : Passes store scope options now hits := by
  rw [Store.searchVector] at ok
  split at ok
  · cases ok
    exact .nil
  · split at ok
    · cases ok
    · refine passes_of_map ok fun epoch hit listed => ?_
      obtain ⟨given, there, rfl⟩ := List.mem_map.mp listed
      have found : ∃ ranking, given ∈ store.ranked ranking fun row =>
          row.admitted scope.userId options.includeQuarantined epoch &&
            row.embedderId = some embedderId && row.ownedBy options.owner := by
        split at there
        · exact ⟨_, List.mem_of_mem_take there⟩
        · obtain ⟨k, there⟩ := widenKnn_mem there
          exact ⟨_, there⟩
      obtain ⟨ranking, found⟩ := found
      obtain ⟨row, shown, kept, fact⟩ := ranked_shows found
      rw [Bool.and_eq_true, Bool.and_eq_true] at kept
      exact ⟨row, shown, kept.1.1, fact⟩

theorem shows_of_entry {id : String} {row : Row} {quarantined : Bool} {score : Rat}
    (entry : (id, row) ∈ store.facts.entries)
    (admitted : row.admitted scope.userId quarantined epoch = true) :
    Shows store scope.userId quarantined epoch ⟨id, rowToFact id row, score⟩ :=
  ⟨row, OrderedMap.get_eq_some.mpr entry, admitted, rfl⟩

variable {limit : Nat}

theorem expandOneHop_passes
    (ok : store.expandOneHop scope seeds maxHops limit options now = .ok hits) :
    Passes store scope options now hits := by
  rw [Store.expandOneHop] at ok
  split at ok
  · cases ok
    exact .nil
  · refine passes_of_map ok fun epoch hit listed => ?_
    obtain ⟨⟨given, created⟩, there, rfl⟩ := List.mem_map.mp listed
    have there := (List.mergeSort_perm _ _).mem_iff.mp (List.mem_of_mem_take there)
    obtain ⟨⟨id, row⟩, entry, made⟩ := List.mem_filterMap.mp there
    dsimp only at made
    split at made
    · rename_i kept
      rw [Bool.and_eq_true, Bool.and_eq_true] at kept
      cases made
      exact shows_of_entry entry kept.2
    · cases made

theorem expandActivation_passes {weigh : Hit × Nat → Rat}
    (ok : store.expandActivation scope seeds maxHops limit options now = .ok graded) :
    Passes store scope options now
      (graded.map fun entry => { entry.1 with score := weigh entry }) := by
  rw [Store.expandActivation] at ok
  split at ok
  · cases ok
    exact .nil
  · intro epoch resolved hit listed
    rw [resolved] at ok
    cases ok
    obtain ⟨⟨given, depth⟩, there, rfl⟩ := List.mem_map.mp listed
    obtain ⟨⟨⟨given', depth'⟩, created⟩, there, same⟩ := List.mem_map.mp there
    cases same
    have there := (List.mergeSort_perm _ _).mem_iff.mp
      ((List.mergeSort_perm _ _).mem_iff.mp (List.mem_of_mem_take there))
    obtain ⟨⟨id, row⟩, entry, made⟩ := List.mem_filterMap.mp there
    dsimp only at made
    split at made
    · split at made
      · rename_i kept
        rw [Bool.and_eq_true] at kept
        cases made
        exact shows_of_entry entry kept.2
      · cases made
    · cases made

theorem factsForEntityName_passes
    (ok : store.factsForEntityName scope name limit options now = .ok hits) :
    Passes store scope options now hits := by
  refine passes_of_map ok fun epoch hit listed => ?_
  obtain ⟨⟨given, created⟩, there, rfl⟩ := List.mem_map.mp listed
  have there := (List.mergeSort_perm _ _).mem_iff.mp (List.mem_of_mem_take there)
  obtain ⟨⟨id, row⟩, entry, made⟩ := List.mem_filterMap.mp there
  dsimp only at made
  split at made
  · rename_i kept
    rw [Bool.and_eq_true] at kept
    cases made
    exact shows_of_entry entry kept.2
  · cases made

variable {env : SearchEnv} {search' : FactSearchOptions}

def LegsPass (env : SearchEnv) (store : Store) (scope : Scope) (options : FactSearchOptions)
    (legs : List (List Hit × Rat)) : Prop :=
  ∀ leg ∈ legs, Passes store scope options.read env.now leg.1

theorem tryVectorSearch_passes
    (ok : tryVectorSearch env store scope query topK options = .ok hits) :
    Passes store scope options env.now hits := by
  rw [tryVectorSearch] at ok
  split at ok
  · cases ok
    exact .nil
  · split at ok
    · cases ok
    · cases ok
      exact .nil
    · exact searchVector_passes ok

variable {legs : List (List Hit × Rat)}

theorem wordingLegs_pass (ok : wordingLegs env store scope search' fusion query = .ok legs) :
    LegsPass env store scope search' legs := by
  rw [wordingLegs] at ok
  split at ok
  · cases ok
  · rename_i ftsHits fts?
    split at ok
    · cases ok
    · rename_i vectorHits vector?
      cases ok
      intro leg listed
      rcases List.mem_cons.mp listed with rfl | listed
      · exact search_passes fts?
      · split at listed
        · cases listed
        · cases List.mem_singleton.mp listed
          exact tryVectorSearch_passes vector?

theorem fanOut_pass (queries : List String)
    (ok : fanOut env store scope search' fusion queries = .ok legs) :
    LegsPass env store scope search' legs := by
  induction queries generalizing legs with
  | nil =>
    cases ok
    intro leg listed
    cases listed
  | cons query rest ih =>
    rw [fanOut] at ok
    split at ok
    · cases ok
    · rename_i first first?
      cases rest? : fanOut env store scope search' fusion rest with
      | error =>
        rw [rest?] at ok
        cases ok
      | ok =>
        rw [rest?] at ok
        cases ok
        intro leg listed
        rcases List.mem_append.mp listed with listed | listed
        · exact wordingLegs_pass first? leg listed
        · exact ih rest? leg listed

theorem softLeg_pass {weight : Rat}
    (passes : ∀ hits, result = .ok hits → Passes store scope search'.read env.now hits) :
    LegsPass env store scope search' (softLeg weight result) := by
  intro leg listed
  rw [softLeg.eq_def] at listed
  split at listed
  · cases listed
  · cases listed
  · cases List.mem_singleton.mp listed
    exact passes _ rfl

theorem tryHyde_passes (ok : tryHyde env store scope search' = .ok hits) :
    Passes store scope search'.read env.now hits := by
  rw [tryHyde.eq_def] at ok
  split at ok
  · exact tryVectorSearch_passes ok
  · cases ok
    exact .nil

theorem tryExpandHops_passes (ok : tryExpandHops env store scope lists search' = .ok hits) :
    Passes store scope search'.read env.now hits := by
  rw [tryExpandHops] at ok
  split at ok
  · cases ok
    exact .nil
  · dsimp only at ok
    split at ok
    · cases graded? : store.expandActivation scope (lists.flatten.map (·.id)).dedup
          search'.expandHops search'.candidateTopK search'.read env.now with
      | error =>
        rw [graded?] at ok
        cases ok
      | ok graded =>
        rw [graded?] at ok
        cases ok
        exact expandActivation_passes graded?
    · exact expandOneHop_passes ok

theorem foldl_once_mem (facts out : List Hit)
    (listed : hit ∈
      facts.foldl (fun out hit => if out.any (·.id = hit.id) then out else out ++ [hit]) out) :
    hit ∈ out ∨ hit ∈ facts := by
  induction facts generalizing out with
  | nil => exact .inl listed
  | cons first rest ih =>
    rcases ih _ listed with there | there
    · dsimp only at there
      split at there
      · exact .inl there
      · rcases List.mem_append.mp there with there | there
        · exact .inl there
        · exact .inr (List.mem_cons.mpr (.inl (List.mem_singleton.mp there)))
    · exact .inr (List.mem_cons_of_mem _ there)

theorem entityHits_passes (names : List String)
    (before : Passes store scope search'.read env.now out)
    (ok : entityHits env store scope search' names out = .ok hits) :
    Passes store scope search'.read env.now hits := by
  induction names generalizing out with
  | nil =>
    cases ok
    exact before
  | cons name rest ih =>
    rw [entityHits] at ok
    split at ok
    · cases ok
    · rename_i facts facts?
      refine ih ?_ ok
      intro epoch resolved hit listed
      rcases foldl_once_mem facts out listed with there | there
      · exact before epoch resolved hit there
      · exact factsForEntityName_passes facts? epoch resolved hit there

theorem tryEntityMatch_passes (ok : tryEntityMatch env store scope query search' = .ok hits) :
    Passes store scope search'.read env.now hits := by
  rw [tryEntityMatch] at ok
  split at ok
  · exact entityHits_passes _ .nil ok
  · cases ok
    exact .nil

theorem gather_pass (ok : gather env store scope query search' = .ok legs) :
    LegsPass env store scope search' legs := by
  rw [gather] at ok
  dsimp only at ok
  split at ok
  · cases ok
  · rename_i direct direct?
    cases ok
    intro leg listed
    simp only [List.mem_append] at listed
    rcases listed with ((listed | listed) | listed) | listed
    · exact fanOut_pass _ direct? leg listed
    · exact softLeg_pass (fun _ => tryHyde_passes) leg listed
    · exact softLeg_pass (fun _ => tryExpandHops_passes) leg listed
    · exact softLeg_pass (fun _ => tryEntityMatch_passes) leg listed

def Gathered (given : Hit → Prop) (aggregates : OrderedMap String Hit) : Prop :=
  ∀ id hit, aggregates.get id = some hit → hit.id = id ∧
    ∃ source, given source ∧ source.id = hit.id ∧ source.fact = hit.fact

variable {given : Hit → Prop} {aggregates : OrderedMap String Hit}

theorem Gathered.contribute (gathered : Gathered given aggregates) (listed : given hit)
    (contribution : Rat) : Gathered given (contribute aggregates hit contribution) := by
  intro id shown there
  rw [Memory.contribute] at there
  split at there
  · rw [OrderedMap.get_set] at there
    split at there
    · rename_i here
      cases there
      exact ⟨here.symm, hit, listed, rfl, rfl⟩
    · exact gathered id shown there
  · rename_i existing found
    rw [OrderedMap.get_set] at there
    split at there
    · rename_i here
      cases there
      obtain ⟨own, source, from', same⟩ := gathered _ _ found
      exact ⟨own.trans here.symm, source, from', same⟩
    · exact gathered id shown there

theorem Gathered.list (k weight : Rat) (places : List (Hit × Nat))
    (gathered : Gathered given aggregates) (listed : ∀ entry ∈ places, given entry.1) :
    Gathered given (places.foldl
      (fun aggregates (hit, place) => Memory.contribute aggregates hit
        (weight / (k + (place + 1)))) aggregates) := by
  induction places generalizing aggregates with
  | nil => exact gathered
  | cons entry _ ih =>
    exact ih (gathered.contribute (listed entry List.mem_cons_self) _)
      fun entry' there => listed entry' (List.mem_cons_of_mem _ there)

theorem Gathered.lists (k : Rat) (weights : List Rat) (places : List (List Hit × Nat))
    (gathered : Gathered given aggregates)
    (listed : ∀ entry ∈ places, ∀ hit ∈ entry.1, given hit) :
    Gathered given (places.foldl (fun aggregates (list, place) =>
        contributeList k (weights[place]?.getD 1) aggregates list) aggregates) := by
  induction places generalizing aggregates with
  | nil => exact gathered
  | cons entry _ ih =>
    refine ih (gathered.list _ _ _ fun placed there => ?_)
      fun entry' there => listed entry' (List.mem_cons_of_mem _ there)
    exact listed entry List.mem_cons_self _ (List.fst_mem_of_mem_zipIdx there)

theorem fuseWeighted_gathered (lists : List (List Hit)) (weights : List Rat) (k : Rat) :
    ∀ hit ∈ fuseWeighted lists weights k,
      ∃ list ∈ lists, ∃ given ∈ list, given.id = hit.id ∧ given.fact = hit.fact := by
  intro hit listed
  rw [fuseWeighted, byScore] at listed
  have listed := (List.mergeSort_perm _ _).mem_iff.mp listed
  obtain ⟨⟨id, hit'⟩, entry, rfl⟩ := List.mem_map.mp listed
  have empty : Gathered (fun hit => ∃ list ∈ lists, hit ∈ list) .empty := by
    intro id hit there
    cases there
  have gathered := Gathered.lists k weights lists.zipIdx empty
    fun entry there hit member => ⟨entry.1, List.fst_mem_of_mem_zipIdx there, member⟩
  obtain ⟨_, source, ⟨list, there, member⟩, same⟩ := gathered id hit'
    (OrderedMap.get_eq_some.mpr entry)
  exact ⟨list, there, source, member, same⟩

theorem byScore_mem : hit ∈ byScore hits ↔ hit ∈ hits :=
  (List.mergeSort_perm _ _).mem_iff

def SameHit (hit other : Hit) : Prop := hit.id = other.id ∧ hit.fact = other.fact

theorem applyDecay_mem (listed : hit ∈ applyDecay store hits decay now) :
    ∃ given ∈ hits, SameHit given hit := by
  rw [applyDecay.eq_def] at listed
  split at listed
  · exact ⟨hit, listed, rfl, rfl⟩
  · obtain ⟨given, there, rfl⟩ := List.mem_map.mp (byScore_mem.mp listed)
    refine ⟨given, there, ?_⟩
    split <;> exact ⟨rfl, rfl⟩

theorem applyTrustDiscount_mem (listed : hit ∈ applyTrustDiscount env hits) :
    ∃ given ∈ hits, SameHit given hit := by
  rw [applyTrustDiscount] at listed
  split at listed
  · exact ⟨hit, listed, rfl, rfl⟩
  · obtain ⟨given, there, rfl⟩ := List.mem_map.mp (byScore_mem.mp listed)
    refine ⟨given, there, ?_⟩
    dsimp only
    split <;> exact ⟨rfl, rfl⟩

theorem searchHits_passes (ok : searchHits env store scope query search' = .ok hits) :
    Passes store scope search'.read env.now hits := by
  intro epoch resolved hit listed
  rw [searchHits] at ok
  cases legs? : gather env store scope query search' with
  | error =>
    rw [legs?] at ok
    cases ok
  | ok legs =>
    rw [legs?] at ok
    cases ok
    have listed := List.mem_of_mem_take listed
    obtain ⟨ranked, gathered, trusted, there, id₁, fact₁⟩ : ∃ ranked,
        (∀ fused ∈ ranked, ∃ list ∈ legs.map Prod.fst, ∃ given ∈ list,
          SameHit given fused) ∧
        ∃ given ∈ (applyDecay store ranked search'.decay env.now).filter
          (Hit.wanted search'), SameHit given hit := by
      split at listed
      · refine ⟨_, fun fused there => ?_, applyTrustDiscount_mem listed⟩
        split at there
        · exact fuseWeighted_gathered _ _ _ _ (List.mem_of_mem_take there)
        · exact env.reranker.gathered _ _ _ _ there
      · refine ⟨_, fun fused there => ?_, hit, listed, rfl, rfl⟩
        split at there
        · exact fuseWeighted_gathered _ _ _ _ (List.mem_of_mem_take there)
        · exact env.reranker.gathered _ _ _ _ there
    obtain ⟨fused, there, id₂, fact₂⟩ := applyDecay_mem (List.mem_of_mem_filter there)
    obtain ⟨list, from', given, member, id₃, fact₃⟩ := gathered fused there
    obtain ⟨leg, member', rfl⟩ := List.mem_map.mp from'
    exact (gather_pass legs? leg member' epoch resolved given member).rescored
      (id₃.trans (id₂.trans id₁)) (fact₃.trans (fact₂.trans fact₁))

theorem listActive_shows (listed : fact ∈ store.listActive scope limit pending now) :
    ∃ row, store.view fact.id = some row ∧
      row.admitted scope.userId false (some now) = true ∧ fact = rowToFact fact.id row := by
  obtain ⟨⟨id, row⟩, there, rfl⟩ := List.mem_map.mp listed
  have there := (List.mergeSort_perm _ _).mem_iff.mp (List.mem_of_mem_take there)
  obtain ⟨entry, kept⟩ := List.mem_filter.mp there
  rw [Bool.and_eq_true] at kept
  exact ⟨row, OrderedMap.get_eq_some.mpr entry, kept.1, rfl⟩

end Graphorin.Memory
