import Graphorin.Auth.Revocation
import Mathlib.Data.List.Chain
import Mathlib.Data.List.Infix

namespace Graphorin.Auth

open Graphorin.Lib (Program Handler OrderedMap Pool)

/-! How many wrong tokens one address may try. -/

/-- A failed verification from the address: when it began, and the end of the
lockout it brought about. -/
def failure (ip : String) : Event → Option (Nat × Option Nat)
  | .answered address now (.refused reason _) lockedUntil =>
    if address = some ip ∧ reason ≠ .ipLockedOut then some (now, lockedUntil)
    else none
  | _ => none

def failures (ip : String) (events : List Event) : List (Nat × Option Nat) :=
  events.filterMap (failure ip)

def lockouts (ip : String) (events : List Event) : List Nat :=
  (failures ip events).filterMap Prod.snd

@[simp] theorem failures_append (ip : String) (first second : List Event) :
    failures ip (first ++ second) = failures ip first ++ failures ip second :=
  List.filterMap_append

@[simp] theorem lockouts_append (ip : String) (first second : List Event) :
    lockouts ip (first ++ second) = lockouts ip first ++ lockouts ip second := by
  simp [lockouts, List.filterMap_append]

def countFailure (windowMs : Nat) (window : RateWindow) (failed : Nat × Option Nat) :
    RateWindow :=
  match failed.2 with
  | some _ => {}
  | none => window.record failed.1 windowMs

def tally (windowMs : Nat) (ip : String) (events : List Event) : RateWindow :=
  (failures ip events).foldl (countFailure windowMs) {}

theorem tally_append (windowMs : Nat) (ip : String) (first second : List Event) :
    tally windowMs ip (first ++ second) =
      (failures ip second).foldl (countFailure windowMs) (tally windowMs ip first) := by
  simp [tally, List.foldl_append]

/-- No time but the last one is followed by a silence longer than the window. -/
def Unbroken (windowMs : Nat) (times : List Nat) : Prop :=
  ∀ earlier ∈ times, (∃ later ∈ times, earlier < later) →
    ∃ later ∈ times, earlier < later ∧ later ≤ earlier + windowMs

/-- In the order they are listed in, each time is within the window of the one before. -/
def Close (windowMs : Nat) (times : List Nat) : Prop :=
  List.IsChain (fun earlier later => later ≤ earlier + windowMs) times

theorem close_of_unbroken {times : List Nat} (sorted : times.Pairwise (· ≤ ·))
    (unbroken : Unbroken windowMs times) : Close windowMs times := by
  induction times with
  | nil => exact .nil
  | cons first rest ih =>
    obtain ⟨least, sorted⟩ := List.pairwise_cons.mp sorted
    have rest_unbroken : Unbroken windowMs rest := by
      rintro earlier listed ⟨later, listed', after⟩
      obtain ⟨next, there, beyond, near⟩ := unbroken earlier (List.mem_cons_of_mem _ listed)
        ⟨later, List.mem_cons_of_mem _ listed', after⟩
      rcases List.mem_cons.mp there with rfl | there
      · exact absurd (least earlier listed) (Nat.not_le.mpr beyond)
      · exact ⟨next, there, beyond, near⟩
    have tail := ih sorted rest_unbroken
    cases rest with
    | nil => exact .singleton first
    | cons second rest =>
      refine List.isChain_cons_cons.mpr ⟨?_, tail⟩
      rcases Nat.lt_or_ge first second with before | same
      · obtain ⟨next, there, beyond, near⟩ := unbroken first List.mem_cons_self
          ⟨second, List.mem_cons_of_mem _ List.mem_cons_self, before⟩
        rcases List.mem_cons.mp there with rfl | there
        · omega
        · rcases List.mem_cons.mp there with rfl | there
          · exact near
          · exact ((List.pairwise_cons.mp sorted).1 next there).trans near
      · omega

/-- Failures that follow each other without a lockout are all counted. -/
theorem length_le_count (window : RateWindow)
    (free : ∀ failure ∈ first :: failed, failure.2 = none)
    (close : Close windowMs ((first :: failed).map Prod.fst)) :
    failed.length + 1 ≤
      (failed.foldl (countFailure windowMs) (countFailure windowMs window first)).count := by
  suffices ∀ (window : RateWindow), window.lastTouch = first.1 →
      window.count + failed.length ≤
        (failed.foldl (countFailure windowMs) window).count by
    have counted : countFailure windowMs window first =
        window.record first.1 windowMs := by
      rw [countFailure, free first List.mem_cons_self]
    rw [counted]
    have bound := this (window.record first.1 windowMs) rfl
    have positive : 1 ≤ (window.record first.1 windowMs).count := by
      unfold RateWindow.record
      dsimp only
      split <;> omega
    omega
  clear window
  induction failed generalizing first with
  | nil => intro window _; simp
  | cons second _ ih =>
    intro window touched
    rw [List.foldl_cons, List.length_cons]
    have still : countFailure windowMs window second =
        ⟨window.count + 1, second.1⟩ := by
      rw [countFailure, free second (by simp)]
      have near : second.1 ≤ first.1 + windowMs := by
        simpa [Close] using (List.isChain_cons_cons.mp close).1
      simp [RateWindow.record, touched, Nat.not_lt.mpr near]
    rw [still]
    have bound := ih (fun failure listed => free failure (by simp [List.mem_cons.mp listed]))
      (List.isChain_cons_cons.mp close).2 ⟨window.count + 1, second.1⟩ rfl
    dsimp only at bound
    omega

section Maps

variable {options : VerifierOptions} {verifier : TokenVerifier} {ip : String}

theorem sweepLockouts_get (now : Nat) :
    (verifier.sweepLockouts options now).get ip = verifier.ipLockouts.get ip ∨
      ∃ lockedUntil, verifier.ipLockouts.get ip = some lockedUntil ∧
        lockedUntil ≤ now := by
  unfold TokenVerifier.sweepLockouts
  split
  · rw [OrderedMap.get_deleteAll]
    split
    · rename_i swept
      obtain ⟨⟨address, lockedUntil⟩, entry, rfl⟩ := List.mem_map.mp swept
      rw [List.mem_filter, decide_eq_true_eq] at entry
      exact .inr ⟨lockedUntil, OrderedMap.get_eq_some.mpr entry.1, entry.2⟩
    · exact .inl rfl
  · exact .inl rfl

theorem boundIpMaps_get (kept : ip ∉ verifier.evictedIps options now) :
    (verifier.boundIpMaps options now).ipFailures.get ip = verifier.ipFailures.get ip ∧
      ((verifier.boundIpMaps options now).ipLockouts.get ip =
          verifier.ipLockouts.get ip ∨
        ∃ lockedUntil, verifier.ipLockouts.get ip = some lockedUntil ∧
          lockedUntil ≤ now) := by
  unfold TokenVerifier.evictedIps at kept
  rw [List.mem_append, not_or] at kept
  unfold TokenVerifier.boundIpMaps
  simp only [OrderedMap.get_deleteAll, if_neg kept.1, if_neg kept.2, true_and]
  exact sweepLockouts_get now

theorem countIpFailure_other {address : String} (apart : ip ≠ address) (now : Nat) :
    (verifier.countIpFailure options address now).ipFailures.get ip =
        verifier.ipFailures.get ip ∧
      (verifier.countIpFailure options address now).ipLockouts.get ip =
        verifier.ipLockouts.get ip := by
  unfold TokenVerifier.countIpFailure
  dsimp only
  split
  · simp [OrderedMap.get_delete, OrderedMap.get_set, apart]
  · simp [OrderedMap.get_set, apart]

end Maps

/-! What holds of one address all along a run.  `stands` gives the verification
each process has under way. -/

section Meter

variable {ι : Type}

structure Metered (options : VerifierOptions) (ip : String) (world : World)
    (stands : ι → Option VerifyCall) : Prop where
  window : (world.verifier.ipFailures.get ip).getD {} =
    tally options.perIpWindowMs ip world.log
  below : ∀ before rest, world.log = before ++ rest →
    (tally options.perIpWindowMs ip before).count < options.perIpFailureThreshold
  clocked : ∀ process call, stands process = some call → call.now ≤ world.clock
  past : ∀ process call, stands process = some call → call.ip = some ip →
    ∀ ends ∈ lockouts ip world.log, ends ≤ call.now
  lockout : (∃ current, world.verifier.ipLockouts.get ip = some current ∧
      ∀ ends ∈ lockouts ip world.log, ends ≤ current) ∨
    ∀ ends ∈ lockouts ip world.log, ends ≤ world.clock
  reached : ∀ before now after, world.log = before ++ .reached (some ip) now :: after →
    ∀ ends ∈ lockouts ip before, ends ≤ now
  terms : ∀ failed ∈ failures ip world.log, ∀ ends, failed.2 = some ends →
    ends = failed.1 + options.perIpLockoutMs
  sorted : ((failures ip world.log).map Prod.fst).Pairwise (· ≤ ·)

/-- An event that counts nothing against the address; if the address reaches the
token store by it, no lockout of it is in force. -/
def Harmless (ip : String) (log : List Event) (event : Event) : Prop :=
  failure ip event = none ∧ ∀ now, event = .reached (some ip) now →
    ∀ lockedUntil ∈ lockouts ip log, lockedUntil ≤ now

theorem failures_harmless {ip : String} {log events : List Event}
    (harmless : ∀ event ∈ events, Harmless ip log event) :
    failures ip events = [] := by
  rw [failures, List.filterMap_eq_nil_iff]
  exact fun event listed => (harmless event listed).1

variable {options : VerifierOptions} {ip : String} {world after : World}
variable {stands : ι → Option VerifyCall}

theorem Metered.quiet (metered : Metered options ip world stands)
    (events : List Event) (harmless : ∀ event ∈ events, Harmless ip world.log event)
    (failing : after.verifier.ipFailures = world.verifier.ipFailures)
    (locking : after.verifier.ipLockouts = world.verifier.ipLockouts)
    (log : after.log = world.log ++ events) (clock : world.clock ≤ after.clock) :
    Metered options ip after stands := by
  have none : failures ip events = [] := failures_harmless harmless
  have same : failures ip after.log = failures ip world.log := by
    rw [log, failures_append, none, List.append_nil]
  have ends : lockouts ip after.log = lockouts ip world.log := by
    rw [lockouts, same, lockouts]
  have counted : tally options.perIpWindowMs ip after.log =
      tally options.perIpWindowMs ip world.log := by rw [tally, same, tally]
  refine ⟨?_, ?_, ?_, ?_, ?_, ?_, ?_, ?_⟩
  · rw [failing, counted, metered.window]
  · intro before rest split
    rw [log, List.append_eq_append_iff] at split
    rcases split with ⟨more, rfl, rfl⟩ | ⟨more, earlier, -⟩
    · have still : failures ip more = [] :=
        failures_harmless fun event listed => harmless event (by simp [listed])
      rw [tally_append, still]
      exact metered.below world.log [] (List.append_nil _).symm
    · exact metered.below before more earlier
  · intro process call standing
    exact (metered.clocked _ _ standing).trans clock
  · intro process call standing own lockedUntil listed
    rw [ends] at listed
    exact metered.past _ _ standing own _ listed
  · rw [locking, ends]
    refine metered.lockout.imp_right ?_
    intro past lockedUntil listed
    exact (past _ listed).trans clock
  · intro before now rest split
    rw [log, List.append_eq_append_iff] at split
    have clear : ∀ more, (∀ event ∈ more, event ∈ events) →
        Event.reached (some ip) now ∈ events →
          ∀ lockedUntil ∈ lockouts ip (world.log ++ more), lockedUntil ≤ now := by
      intro more part listed lockedUntil ended
      have still : failures ip more = [] :=
        failures_harmless fun event here => harmless event (part event here)
      rw [lockouts_append, lockouts, lockouts, still] at ended
      exact (harmless _ listed).2 now rfl lockedUntil
        (by simpa [lockouts] using ended)
    rcases split with ⟨more, rfl, rfl⟩ | ⟨more, earlier, same⟩
    · exact clear more (fun event here => by simp [here]) (by simp)
    · cases more with
      | nil =>
        rw [List.nil_append] at same
        rw [List.append_nil] at earlier
        have none := clear [] (by simp) (by simp [← same])
        rwa [List.append_nil, earlier] at none
      | cons _ tail =>
        obtain ⟨rfl, -⟩ := List.cons.inj same
        exact metered.reached before now tail earlier
  · rw [same]
    exact metered.terms
  · rw [same]
    exact metered.sorted

section Stands

variable [DecidableEq ι]

theorem Metered.stand (metered : Metered options ip world stands) (process : ι)
    (call : VerifyCall) (begun : call.now ≤ world.clock)
    (free : call.ip = some ip → ∀ ends ∈ lockouts ip world.log, ends ≤ call.now) :
    Metered options ip world (Function.update stands process (some call)) where
  window := metered.window
  below := metered.below
  clocked := by
    intro other call' standing
    by_cases same : other = process
    · subst same
      rw [Function.update_self] at standing
      cases standing
      exact begun
    · rw [Function.update_of_ne same] at standing
      exact metered.clocked _ _ standing
  past := by
    intro other call' standing own
    by_cases same : other = process
    · subst same
      rw [Function.update_self] at standing
      cases standing
      exact free own
    · rw [Function.update_of_ne same] at standing
      exact metered.past _ _ standing own
  lockout := metered.lockout
  reached := metered.reached
  terms := metered.terms
  sorted := metered.sorted

theorem closed_or_same (standing : Function.update stands process none other = some call) :
    other ≠ process ∧ stands other = some call := by
  by_cases same : other = process
  · subst same
    simp at standing
  · rw [Function.update_of_ne same] at standing
    exact ⟨same, standing⟩

theorem Metered.close (metered : Metered options ip world stands) (process : ι) :
    Metered options ip world (Function.update stands process none) where
  window := metered.window
  below := metered.below
  clocked := fun _ _ standing => metered.clocked _ _ (closed_or_same standing).2
  past := fun _ _ standing => metered.past _ _ (closed_or_same standing).2
  lockout := metered.lockout
  reached := metered.reached
  terms := metered.terms
  sorted := metered.sorted

end Stands

theorem split_last (split : log ++ [event] = before ++ rest) :
    (rest = [] ∧ before = log ++ [event]) ∨
      ∃ rest', rest = rest' ++ [event] ∧ log = before ++ rest' := by
  rcases List.eq_nil_or_concat rest with rfl | ⟨rest', last, rfl⟩
  · exact .inl ⟨rfl, by simpa using split.symm⟩
  · rw [List.concat_eq_append, ← List.append_assoc] at split
    obtain ⟨earlier, same⟩ := List.append_inj' split rfl
    cases same
    exact .inr ⟨rest', List.concat_eq_append, earlier⟩

structure Counted (options : VerifierOptions) (ip : String) (now : Nat)
    (world after : World) (lockedUntil : Option Nat) : Prop where
  log : ∃ reason retry, reason ≠ .ipLockedOut ∧ after.log = world.log ++
    [.answered (some ip) now (.refused reason retry) lockedUntil]
  clock : after.clock = world.clock
  window : (after.verifier.ipFailures.get ip).getD {} =
    countFailure options.perIpWindowMs
      ((world.verifier.ipFailures.get ip).getD {}) (now, lockedUntil)
  locked : ∀ ends, lockedUntil = some ends → ends = now + options.perIpLockoutMs ∧
    (after.verifier.ipLockouts.get ip = some ends ∨ ends ≤ now)
  free : lockedUntil = none → (((world.verifier.ipFailures.get ip).getD
      {}).record now options.perIpWindowMs).count < options.perIpFailureThreshold ∧
    (after.verifier.ipLockouts.get ip = world.verifier.ipLockouts.get ip ∨
      ∃ current, world.verifier.ipLockouts.get ip = some current ∧ current ≤ now)

def Alone (ip : String) (stands : ι → Option VerifyCall) : Prop :=
  ∀ process call, stands process = some call → call.ip ≠ some ip

variable {now : Nat}

theorem Metered.count (metered : Metered options ip world stands)
    (positive : 0 < options.perIpFailureThreshold)
    (counted : Counted options ip now world after lockedUntil)
    (free : ∀ ends ∈ lockouts ip world.log, ends ≤ now) (begun : now ≤ world.clock)
    (alone : lockedUntil = none ∨ Alone ip stands)
    (ordered : ∀ earlier ∈ failures ip world.log, earlier.1 ≤ now) :
    Metered options ip after stands := by
  obtain ⟨reason, retry, counts, log⟩ := counted.log
  have new : failures ip after.log = failures ip world.log ++ [(now, lockedUntil)] := by
    rw [log, failures_append]
    simp [failures, failure, counts]
  have window : (after.verifier.ipFailures.get ip).getD {} =
      tally options.perIpWindowMs ip after.log := by
    rw [counted.window, metered.window, tally, tally, new, List.foldl_append]
    rfl
  have bound : (tally options.perIpWindowMs ip after.log).count <
      options.perIpFailureThreshold := by
    rw [← window, counted.window]
    cases lockedUntil with
    | none => exact (counted.free rfl).1
    | some => exact positive
  have listed_new : ∀ ends ∈ lockouts ip after.log,
      ends ∈ lockouts ip world.log ∨ lockedUntil = some ends := by
    intro ends listed
    rw [lockouts, new, List.filterMap_append, List.mem_append] at listed
    refine listed.imp id fun last => ?_
    simpa using last
  refine ⟨window, ?_, ?_, ?_, ?_, ?_, ?_, ?_⟩
  · intro before rest split
    rw [log] at split
    rcases split_last split with ⟨-, rfl⟩ | ⟨rest', -, earlier⟩
    · rw [← log]
      exact bound
    · exact metered.below before rest' earlier
  · intro process call standing
    rw [counted.clock]
    exact metered.clocked _ _ standing
  · intro process call standing own ends listed
    rcases listed_new ends listed with before | locks
    · exact metered.past _ _ standing own ends before
    · rcases alone with none | alone
      · rw [none] at locks
        cases locks
      · exact absurd own (alone _ _ standing)
  · rw [counted.clock]
    cases lockedUntil with
    | none =>
      have same : ∀ ends ∈ lockouts ip after.log, ends ∈ lockouts ip world.log := by
        intro ends listed
        rcases listed_new ends listed with before | locks
        · exact before
        · cases locks
      exact .inr fun ends listed => (free ends (same ends listed)).trans begun
    | some current =>
      obtain ⟨term, stored⟩ := counted.locked current rfl
      have all : ∀ ends ∈ lockouts ip after.log, ends ≤ current := by
        intro ends listed
        rcases listed_new ends listed with before | locks
        · exact (free ends before).trans (by omega)
        · cases locks
          exact le_rfl
      rcases stored with stored | past
      · exact .inl ⟨current, stored, all⟩
      · exact .inr fun ends listed => ((all ends listed).trans past).trans begun
  · intro before now' rest split
    rw [log] at split
    rcases split_last split with ⟨none, -⟩ | ⟨rest', same, earlier⟩
    · cases none
    · cases rest' with
      | nil => cases same
      | cons _ tail =>
        obtain ⟨rfl, -⟩ := List.cons.inj same
        exact metered.reached before now' tail earlier
  · intro failed listed ends locks
    rw [new, List.mem_append, List.mem_singleton] at listed
    rcases listed with before | rfl
    · exact metered.terms failed before ends locks
    · exact (counted.locked ends locks).1
  · rw [new, List.map_append, List.pairwise_append]
    refine ⟨metered.sorted, List.pairwise_singleton _ _, fun earlier listed last there => ?_⟩
    rw [List.mem_singleton.mp there]
    obtain ⟨failed, counted, rfl⟩ := List.mem_map.mp listed
    exact ordered failed counted

/-- A step that keeps the window and lifts no lockout that is in force. -/
theorem Metered.lift (metered : Metered options ip world stands)
    (log : after.log = world.log) (clock : after.clock = world.clock)
    (failing : after.verifier.ipFailures.get ip = world.verifier.ipFailures.get ip)
    (locking : after.verifier.ipLockouts.get ip = world.verifier.ipLockouts.get ip ∨
      ∃ current, world.verifier.ipLockouts.get ip = some current ∧
        current ≤ world.clock) : Metered options ip after stands where
  window := by rw [failing, log, metered.window]
  below := by
    rw [log]
    exact metered.below
  clocked := by
    rw [clock]
    exact metered.clocked
  past := by
    rw [log]
    exact metered.past
  lockout := by
    rw [log, clock]
    rcases locking with same | ⟨current, stored, past⟩
    · rw [same]
      exact metered.lockout
    · right
      rcases metered.lockout with ⟨current', stored', all⟩ | all
      · rw [stored] at stored'
        cases stored'
        exact fun ends listed => (all ends listed).trans past
      · exact all
  reached := by
    rw [log]
    exact metered.reached
  terms := by
    rw [log]
    exact metered.terms
  sorted := by
    rw [log]
    exact metered.sorted

theorem evictedBy_harmless {log : List Event}
    (listed : event ∈ world.evictedBy options address now) :
    Harmless ip log event := by
  unfold World.evictedBy at listed
  split at listed
  · cases listed
  · obtain ⟨other, -, rfl⟩ := List.mem_map.mp listed
    exact ⟨rfl, fun now same => by cases same⟩

variable {reason : VerifyFailureReason}

theorem not_evicted
    (kept : .evicted ip ∉ (world.refuseIp options (some address) now reason).2.log) :
    ip ∉ (world.verifier.countIpFailure options address now).evictedIps options now := by
  intro evicted
  refine kept ?_
  simp only [World.refuseIp, World.noted, List.mem_append, List.mem_cons]
  exact .inr (.inr (List.mem_map_of_mem evicted))

theorem countIpFailure_own (now : Nat) :
    let window := world.verifier.ipWindow options ip now
    let counted := world.verifier.countIpFailure options ip now
    (options.perIpFailureThreshold ≤ window.count ∧
        counted.ipFailures.get ip = none ∧
        counted.ipLockouts.get ip = some (now + options.perIpLockoutMs)) ∨
      window.count < options.perIpFailureThreshold ∧
        counted.ipFailures.get ip = some window ∧
        counted.ipLockouts = world.verifier.ipLockouts := by
  dsimp only
  unfold TokenVerifier.countIpFailure
  dsimp only
  split
  · rename_i reached
    exact .inl ⟨reached, by simp [OrderedMap.get_delete], by simp [OrderedMap.get_set]⟩
  · rename_i below
    exact .inr ⟨Nat.lt_of_not_le below, by simp [OrderedMap.get_set], rfl⟩

def judged (options : VerifierOptions) (world : World) (ip : String) (now : Nat)
    (reason : VerifyFailureReason) : World :=
  { world with
    verifier := world.verifier.noteIpFailure options (some ip) now
    log := world.log ++ [.answered (some ip) now (.refused reason none)
      (world.lockedBy options (some ip) now)] }

theorem judged_counted (counts : reason ≠ .ipLockedOut)
    (kept : .evicted ip ∉ (world.refuseIp options (some ip) now reason).2.log) :
    Counted options ip now world (judged options world ip now reason)
      (world.lockedBy options (some ip) now) := by
  obtain ⟨failing, locking⟩ := boundIpMaps_get (not_evicted kept)
  rcases @countIpFailure_own options ip world now with
    ⟨above, dropped, stored⟩ | ⟨below, stored, same⟩
  · have locks : world.lockedBy options (some ip) now =
        some (now + options.perIpLockoutMs) := if_pos above
    refine ⟨⟨reason, none, counts, rfl⟩, rfl, ?_, ?_, ?_⟩
    · rw [locks]
      simp only [judged, TokenVerifier.noteIpFailure]
      rw [failing, dropped]
      rfl
    · intro ends locked
      rw [locks] at locked
      cases locked
      refine ⟨rfl, ?_⟩
      simp only [judged, TokenVerifier.noteIpFailure]
      rw [stored] at locking
      refine locking.imp id ?_
      rintro ⟨ends, same, past⟩
      cases same
      exact past
    · intro none
      rw [locks] at none
      cases none
  · have locks : world.lockedBy options (some ip) now = none :=
      if_neg (Nat.not_le.mpr below)
    refine ⟨⟨reason, none, counts, rfl⟩, rfl, ?_, ?_, ?_⟩
    · rw [locks]
      simp only [judged, TokenVerifier.noteIpFailure]
      rw [failing, stored]
      rfl
    · intro ends locked
      rw [locks] at locked
      cases locked
    · intro _
      refine ⟨below, ?_⟩
      simp only [judged, TokenVerifier.noteIpFailure]
      rw [same] at locking
      exact locking

/-- A step that locks the address out only while nothing else of it is under way, and that
counts a failure only after those of the verifications that began before. -/
structure Solitary (ip : String) (stands : ι → Option VerifyCall) (log log' : List Event) :
    Prop where
  alone : Alone ip stands ∨ lockouts ip log' = lockouts ip log
  ordered : ∀ failed, failures ip log' = failures ip log ++ [failed] →
    ∀ earlier ∈ failures ip log, earlier.1 ≤ failed.1

theorem failures_refuse (counts : reason ≠ .ipLockedOut) :
    failures ip (world.refuseIp options (some ip) now reason).2.log =
      failures ip world.log ++ [(now, world.lockedBy options (some ip) now)] := by
  have none : failures ip (world.evictedBy options (some ip) now) = [] :=
    @failures_harmless ip [] _ fun _ listed => evictedBy_harmless listed
  simp only [World.refuseIp, World.noted, failures_append, List.append_cancel_left_eq]
  rw [← List.singleton_append, failures_append, none, List.append_nil]
  simp [failures, failure, counts]

theorem Metered.refuse_own (metered : Metered options ip world stands)
    (positive : 0 < options.perIpFailureThreshold) (counts : reason ≠ .ipLockedOut)
    (free : ∀ ends ∈ lockouts ip world.log, ends ≤ now) (begun : now ≤ world.clock)
    (solitary : Solitary ip stands world.log
      (world.refuseIp options (some ip) now reason).2.log)
    (kept : .evicted ip ∉ (world.refuseIp options (some ip) now reason).2.log) :
    Metered options ip (world.refuseIp options (some ip) now reason).2 stands := by
  have alone : world.lockedBy options (some ip) now = none ∨ Alone ip stands := by
    rcases solitary.alone with alone | same
    · exact .inr alone
    · left
      rw [lockouts, failures_refuse counts, List.filterMap_append, ← lockouts] at same
      cases locked : world.lockedBy options (some ip) now with
      | none => rfl
      | some => simp [locked] at same
  have judged := metered.count positive (judged_counted counts kept) free begun alone
    (solitary.ordered _ (failures_refuse counts))
  have log : (world.refuseIp options (some ip) now reason).2.log =
      (Auth.judged options world ip now reason).log ++
        world.evictedBy options (some ip) now := by
    simp [World.refuseIp, World.noted, Auth.judged]
  exact judged.quiet _ (fun _ listed => evictedBy_harmless listed) rfl rfl log le_rfl

theorem Metered.refuse_other (metered : Metered options ip world stands)
    (other : address ≠ some ip) (begun : now ≤ world.clock)
    (kept : .evicted ip ∉ (world.refuseIp options address now reason).2.log) :
    Metered options ip (world.refuseIp options address now reason).2 stands := by
  have noted : Metered options ip
      { world with verifier := world.verifier.noteIpFailure options address now }
      stands := by
    cases address with
    | none => exact metered
    | some address =>
      have apart : ip ≠ address := fun same => other (congrArg some same.symm)
      obtain ⟨failing, locking⟩ := boundIpMaps_get (not_evicted kept)
      obtain ⟨sameFailures, sameLockouts⟩ := @countIpFailure_other
        options world.verifier ip address apart now
      rw [sameFailures] at failing
      rw [sameLockouts] at locking
      refine metered.lift rfl rfl failing (locking.imp id ?_)
      exact fun ⟨current, stored, past⟩ => ⟨current, stored, past.trans begun⟩
  refine noted.quiet (.answered address now (.refused reason none)
    (world.lockedBy options address now) :: world.evictedBy options address now)
    ?_ rfl rfl rfl le_rfl
  intro event listed
  rcases List.mem_cons.mp listed with rfl | evicted
  · exact ⟨by simp [failure, other], fun now same => by cases same⟩
  · exact evictedBy_harmless evicted

/-- The step does to the two maps and the record what doing nothing does. -/
structure Apart (world after : World) : Prop where
  failing : after.verifier.ipFailures = world.verifier.ipFailures
  locking : after.verifier.ipLockouts = world.verifier.ipLockouts
  log : after.log = world.log
  clock : world.clock ≤ after.clock

theorem Metered.apart (metered : Metered options ip world stands)
    (apart : Apart world after) : Metered options ip after stands :=
  metered.quiet [] (by simp) apart.failing apart.locking
    (by rw [apart.log, List.append_nil]) apart.clock

section Steps

variable [DecidableEq ι]

variable {process : ι} {call : VerifyCall}

theorem Metered.close_refuse (metered : Metered options ip world stands)
    (positive : 0 < options.perIpFailureThreshold) (standing : stands process = some call)
    (apart : Apart world after) (counts : reason ≠ .ipLockedOut)
    (solitary : Solitary ip (Function.update stands process none) world.log
      (after.refuseIp options call.ip call.now reason).2.log)
    (kept : .evicted ip ∉ (after.refuseIp options call.ip call.now reason).2.log) :
    Metered options ip (after.refuseIp options call.ip call.now reason).2
      (Function.update stands process none) := by
  have begun : call.now ≤ after.clock :=
    (metered.clocked _ _ standing).trans apart.clock
  have same := metered.apart apart
  rw [← apart.log] at solitary
  by_cases own : call.ip = some ip
  · have free := same.past _ _ standing own
    rw [own] at kept solitary ⊢
    exact (same.close process).refuse_own positive counts free begun solitary kept
  · exact (same.close process).refuse_other own begun kept

theorem Metered.close_pass (metered : Metered options ip world stands) (process : ι)
    (passes : failure ip event = none) (closing : ∀ now, event ≠ .reached (some ip) now)
    (failing : after.verifier.ipFailures = world.verifier.ipFailures)
    (locking : after.verifier.ipLockouts = world.verifier.ipLockouts)
    (log : after.log = world.log ++ [event]) (clock : world.clock ≤ after.clock) :
    Metered options ip after (Function.update stands process none) := by
  refine (metered.close process).quiet [event] ?_ failing locking log clock
  intro event' listed
  rw [List.mem_singleton.mp listed]
  exact ⟨passes, fun now same => absurd same (closing now)⟩

abbrev standsAfter (stands : ι → Option VerifyCall) (process : ι) (op : AuthOp)
    (answer : op.Answer) : ι → Option VerifyCall :=
  Function.update stands process (Auth.stand (stands process) (did op answer))

theorem Metered.consultCache (metered : Metered options ip world stands)
    (positive : 0 < options.perIpFailureThreshold) (standing : stands process = some call)
    (hashHex : String) :
    let consulted := world.consultCache options hashHex call
    Solitary ip (Function.update stands process none) world.log consulted.2.log →
      .evicted ip ∉ consulted.2.log → Metered options ip consulted.2
        (standsAfter stands process (.consultCache hashHex call) consulted.1) := by
  dsimp only
  unfold World.consultCache
  dsimp only
  split
  · intro _ _
    simp only [standsAfter, Auth.stand, Function.update_eq_self]
    refine metered.quiet [.reached call.ip call.now] ?_ rfl rfl rfl le_rfl
    intro event listed
    rw [List.mem_singleton.mp listed]
    refine ⟨rfl, fun now same => ?_⟩
    injection same with own began
    rw [← began]
    exact metered.past _ _ standing own
  · split
    · split
      · intro solitary kept
        refine metered.close_refuse positive standing ?_ (by decide) solitary kept
        exact ⟨rfl, rfl, rfl, le_rfl⟩
      · intro _ _
        exact metered.close_pass process rfl (by rintro _ ⟨⟩) rfl rfl rfl
          le_rfl
    · intro _ _
      exact metered.close_pass process rfl (by rintro _ ⟨⟩) rfl rfl rfl
        le_rfl

theorem noteTokenFailure_apart (tokenId : String) (now : Nat) :
    Apart world { world.leave with verifier :=
      world.leave.verifier.noteTokenFailure options tokenId now } := by
  unfold TokenVerifier.noteTokenFailure
  dsimp only
  split <;> exact ⟨rfl, rfl, rfl, le_rfl⟩

theorem Metered.conclude (metered : Metered options ip world stands)
    (positive : 0 < options.perIpFailureThreshold) (standing : stands process = some call)
    (record : Option AuthTokenRecord) (hashHex tokenId : String) :
    let concluded := world.conclude options record hashHex tokenId call
    Solitary ip (Function.update stands process none) world.log concluded.2.log →
      .evicted ip ∉ concluded.2.log →
        Metered options ip concluded.2 (Function.update stands process none) := by
  dsimp only
  unfold World.conclude
  dsimp only
  split
  · intro solitary kept
    refine metered.close_refuse positive standing ?_ (by decide) solitary kept
    exact ⟨rfl, rfl, rfl, le_rfl⟩
  · split
    · intro solitary kept
      refine metered.close_refuse positive standing ?_ (by decide) solitary kept
      exact noteTokenFailure_apart ..
    · split
      · intro solitary kept
        refine metered.close_refuse positive standing ?_ (by decide) solitary kept
        exact noteTokenFailure_apart ..
      · intro _ _
        exact metered.close_pass process rfl (by rintro _ ⟨⟩) rfl rfl rfl
          le_rfl

theorem Metered.refuseUnknown (metered : Metered options ip world stands)
    (positive : 0 < options.perIpFailureThreshold) (standing : stands process = some call)
    (solitary : Solitary ip (Function.update stands process none) world.log
      (world.refuseUnknown options call).2.log)
    (kept : .evicted ip ∉ (world.refuseUnknown options call).2.log) :
    Metered options ip (world.refuseUnknown options call).2
      (Function.update stands process none) := by
  have left : Apart world world.leave := ⟨rfl, rfl, rfl, le_rfl⟩
  exact metered.close_refuse positive standing left (by decide) solitary kept

theorem Metered.checkTokenLockout (metered : Metered options ip world stands) (process : ι)
    (tokenId : String)
    (unlocked : call.ip = some ip → tokenId ∉ world.verifier.tokenLockouts) :
    Metered options ip (world.checkTokenLockout tokenId call).2
      (standsAfter stands process (.checkTokenLockout tokenId call)
        (world.checkTokenLockout tokenId call).1) := by
  unfold World.checkTokenLockout
  split
  · rename_i locked
    have other : call.ip ≠ some ip := fun own => unlocked own locked
    exact metered.close_pass process (by simp [failure, other])
      (by rintro _ ⟨⟩) rfl rfl rfl le_rfl
  · simpa only [standsAfter, Auth.stand, Function.update_eq_self] using metered

theorem Metered.parseAndProceed (metered : Metered options ip world stands)
    (positive : 0 < options.perIpFailureThreshold) (rawToken : String)
    (address : Option String)
    (free : address = some ip → ∀ ends ∈ lockouts ip world.log, ends ≤ world.clock) :
    let parsed := world.parseAndProceed options rawToken address world.clock
    Solitary ip stands world.log parsed.2.log → .evicted ip ∉ parsed.2.log →
      Metered options ip parsed.2
        (standsAfter stands process (.beginVerify rawToken address) parsed.1) := by
  dsimp only
  unfold World.parseAndProceed
  split
  · intro solitary kept
    simp only [standsAfter, Auth.stand, Function.update_eq_self]
    by_cases own : address = some ip
    · subst own
      exact metered.refuse_own positive (by decide) (free rfl) le_rfl solitary kept
    · exact metered.refuse_other own le_rfl kept
  · rename_i parsed same
    intro _ _
    let call : VerifyCall := ⟨address, world.clock, parsed.env⟩
    have counting : Apart world { world with verifier :=
        { world.verifier with inFlight := world.verifier.inFlight + 1 } } :=
      ⟨rfl, rfl, rfl, le_rfl⟩
    have begun := metered.stand process call le_rfl free
    exact begun.apart counting

theorem Metered.beginVerify (metered : Metered options ip world stands)
    (positive : 0 < options.perIpFailureThreshold) (rawToken : String)
    (address : Option String)
    (solitary : Solitary ip stands world.log
      (world.beginVerify options rawToken address).2.log)
    (kept : .evicted ip ∉ (world.beginVerify options rawToken address).2.log) :
    Metered options ip (world.beginVerify options rawToken address).2
      (standsAfter stands process (.beginVerify rawToken address)
        (world.beginVerify options rawToken address).1) := by
  have entered : Metered options ip (world.noted [.entered address world.clock])
      stands := by
    refine metered.quiet [.entered address world.clock] ?_ rfl rfl rfl le_rfl
    intro event listed
    rw [List.mem_singleton.mp listed]
    exact ⟨rfl, by rintro _ ⟨⟩⟩
  have none : failures ip (world.noted [.entered address world.clock]).log =
      failures ip world.log := by
    rw [World.noted, failures_append]
    exact List.append_nil _
  replace solitary : Solitary ip stands (world.noted [.entered address world.clock]).log
      (world.beginVerify options rawToken address).2.log := by
    refine ⟨?_, ?_⟩
    · rw [lockouts, lockouts, none]
      exact solitary.alone
    · rw [none]
      exact solitary.ordered
  revert kept solitary
  unfold World.beginVerify
  split
  · intro _ _
    simpa only [standsAfter, Auth.stand, Function.update_eq_self] using metered
  · dsimp only
    cases address with
    | none =>
      intro kept solitary
      exact entered.parseAndProceed positive rawToken Option.none (by simp) solitary
        kept
    | some address =>
      dsimp only
      split
      · rename_i unlocked
        intro kept solitary
        refine entered.parseAndProceed positive rawToken (some address) ?_ solitary
          kept
        intro own
        cases own
        rcases entered.lockout with ⟨current, stored, -⟩ | past
        · rw [unlocked] at stored
          cases stored
        · exact past
      · rename_i lockedUntil locked
        split
        · intro _ _
          simp only [standsAfter, Auth.stand, Function.update_eq_self]
          refine entered.quiet [_] ?_ rfl rfl rfl le_rfl
          intro event listed
          rw [List.mem_singleton.mp listed]
          exact ⟨by simp [failure], by rintro _ ⟨⟩⟩
        · rename_i expired
          intro kept solitary
          have lifted : Metered options ip
              ((world.noted [.entered (some address) world.clock]).liftLockout address)
              stands := by
            refine entered.lift rfl rfl rfl ?_
            by_cases same : ip = address
            · subst same
              exact .inr ⟨lockedUntil, locked, Nat.le_of_not_lt expired⟩
            · left
              simp [World.liftLockout, OrderedMap.get_delete, same]
          refine lifted.parseAndProceed positive rawToken (some address) ?_ solitary
            kept
          intro own
          cases own
          rcases lifted.lockout with ⟨current, stored, -⟩ | past
          · simp [World.liftLockout, OrderedMap.get_delete] at stored
          · exact past

end Steps

end Meter

section Calls

variable {crypto : Crypto} {options : VerifierOptions} {world : World} {ip : String}

theorem noted_extends (events : List Event) : world.log <+: (world.noted events).log :=
  List.prefix_append _ _

theorem parseAndProceed_extends (rawToken : String) (address : Option String)
    (now : Nat) :
    world.log <+: (world.parseAndProceed options rawToken address now).2.log := by
  unfold World.parseAndProceed
  split
  · exact List.prefix_append _ _
  · exact List.prefix_rfl

theorem beginVerify_extends (rawToken : String) (address : Option String) :
    world.log <+: (world.beginVerify options rawToken address).2.log := by
  have entered : world.log <+: (world.noted [.entered address world.clock]).log :=
    noted_extends _
  unfold World.beginVerify
  split
  · exact List.prefix_rfl
  · dsimp only
    split
    · exact entered.trans (parseAndProceed_extends ..)
    · split
      · exact entered.trans (parseAndProceed_extends ..)
      · split
        · exact entered.trans (noted_extends _)
        · refine entered.trans ?_
          rename_i address _ _ _ _
          change ((world.noted [.entered (some address) world.clock]).liftLockout
            address).log <+: _
          exact parseAndProceed_extends ..

theorem consultCache_extends (hashHex : String) (call : VerifyCall) :
    world.log <+: (world.consultCache options hashHex call).2.log := by
  unfold World.consultCache
  dsimp only
  split
  · exact List.prefix_append _ _
  · split
    · split <;> exact List.prefix_append _ _
    · exact List.prefix_append _ _

theorem checkTokenLockout_extends (tokenId : String) (call : VerifyCall) :
    world.log <+: (world.checkTokenLockout tokenId call).2.log := by
  unfold World.checkTokenLockout
  split
  · exact List.prefix_append _ _
  · exact List.prefix_rfl

theorem conclude_extends (record : Option AuthTokenRecord) (hashHex tokenId : String)
    (call : VerifyCall) :
    world.log <+: (world.conclude options record hashHex tokenId call).2.log := by
  unfold World.conclude
  dsimp only
  split
  · exact List.prefix_append _ _
  · split
    · exact List.prefix_append _ _
    · split <;> exact List.prefix_append _ _

def idleOp : AuthOp → Bool
  | .beginVerify _ _ => false
  | .consultCache _ _ => false
  | .refuseUnknown _ => false
  | .checkTokenLockout _ _ => false
  | .conclude _ _ _ _ => false
  | .abandon _ => false
  | _ => true

theorem storeCall_apart (value : α) (records : OrderedMap String AuthTokenRecord) :
    Apart world (world.storeCall value records).2 := by
  unfold World.storeCall
  split <;> exact ⟨rfl, rfl, rfl, le_rfl⟩

variable {op : AuthOp}

theorem apart_of_idle (idle : idleOp op = true) :
    Apart world (handle crypto options op world).2 := by
  cases op with
  | put => exact storeCall_apart ..
  | get => exact storeCall_apart ..
  | list => exact storeCall_apart ..
  | revoke => exact storeCall_apart ..
  | recordUse => exact storeCall_apart ..
  | getByHash => exact storeCall_apart ..
  | invalidate =>
    rw [handle, World.invalidate]
    split <;> exact ⟨rfl, rfl, rfl, le_rfl⟩
  | finishInvalidation =>
    rw [handle]
    split <;> exact ⟨rfl, rfl, rfl, le_rfl⟩
  | elapse => exact ⟨rfl, rfl, rfl, Nat.le_add_right _ _⟩
  | assess => exact ⟨rfl, rfl, rfl, le_rfl⟩
  | hmac => exact ⟨rfl, rfl, rfl, le_rfl⟩
  | now => exact ⟨rfl, rfl, rfl, le_rfl⟩
  | randomUUID => exact ⟨rfl, rfl, rfl, le_rfl⟩
  | randomBytes => exact ⟨rfl, rfl, rfl, le_rfl⟩
  | beginVerify => cases idle
  | consultCache => cases idle
  | refuseUnknown => cases idle
  | checkTokenLockout => cases idle
  | conclude => cases idle
  | abandon => cases idle

theorem stand_of_idle (idle : idleOp op = true) (current : Option VerifyCall)
    (answer : op.Answer) : stand current (did op answer) = current := by
  cases op <;> first | rfl | cases idle

theorem log_extends (op : AuthOp) :
    world.log <+: (handle crypto options op world).2.log := by
  cases idle : idleOp op with
  | true => exact (apart_of_idle idle).log ▸ List.prefix_rfl
  | false =>
    cases op with
    | beginVerify => exact beginVerify_extends ..
    | consultCache => exact consultCache_extends ..
    | refuseUnknown => exact List.prefix_append _ _
    | checkTokenLockout => exact checkTokenLockout_extends ..
    | conclude => exact conclude_extends ..
    | abandon => exact List.prefix_append _ _
    | _ => cases idle

variable {ι : Type} [DecidableEq ι] {stands : ι → Option VerifyCall}

theorem Metered.answer (metered : Metered options ip world stands)
    (positive : 0 < options.perIpFailureThreshold) {process : ι} {task : Task}
    {past : List AuthAction} (same : stands process = standing past)
    (asked : task.asks past op)
    (solitary : Solitary ip (Function.update stands process none) world.log
      (handle crypto options op world).2.log)
    (unlocked : ∀ tokenId call, op = .checkTokenLockout tokenId call → call.ip = some ip →
      tokenId ∉ world.verifier.tokenLockouts)
    (kept : .evicted ip ∉ (handle crypto options op world).2.log) :
    Metered options ip (handle crypto options op world).2
      (standsAfter stands process op (handle crypto options op world).1) := by
  cases idle : idleOp op with
  | true =>
    rw [standsAfter, stand_of_idle idle, Function.update_eq_self]
    exact metered.apart (apart_of_idle idle)
  | false =>
    cases op with
    | beginVerify rawToken address =>
      have free : stands process = none := same.trans asked
      rw [← free, Function.update_eq_self] at solitary
      exact metered.beginVerify positive rawToken address solitary kept
    | consultCache hashHex =>
      exact metered.consultCache positive (same.trans asked) hashHex solitary kept
    | refuseUnknown =>
      exact metered.refuseUnknown positive (same.trans asked) solitary kept
    | checkTokenLockout tokenId call =>
      exact metered.checkTokenLockout process tokenId (unlocked tokenId call rfl)
    | conclude record hashHex tokenId =>
      exact metered.conclude positive (same.trans asked.2.2.2) record hashHex
        tokenId solitary kept
    | abandon =>
      exact metered.close_pass process rfl (by rintro _ ⟨⟩) rfl rfl
        rfl le_rfl
    | _ => cases idle

end Calls

section Runs

variable {ι : Type} [DecidableEq ι]
variable {crypto : Crypto} {options : VerifierOptions} {tasks : ι → Task}
variable {ip : String} {pool : Service ι} {process : ι}

def standings (pool : Service ι) (process : ι) : Option VerifyCall :=
  standing (pool.trace process)

/-- No failure locks the address out while another of its verifications, past
the check of the lockout, is under way, and none is counted after that of a verification
that began later; and none is refused for the lockout of its token, which counts nothing. -/
structure Rationed (crypto : Crypto) (options : VerifierOptions) (ip : String)
    (pool : Service ι) (process : ι) : Prop where
  solitary : Solitary ip (Function.update (standings pool) process none) pool.store.log
    (pool.move (handle crypto options) process).store.log
  unlocked : ∀ tokenId call next,
    pool.rest process = .call (.checkTokenLockout tokenId call) next →
      call.ip = some ip → tokenId ∉ pool.store.verifier.tokenLockouts

structure Watched (options : VerifierOptions) (tasks : ι → Task) (ip : String)
    (pool : Service ι) : Prop where
  heeding : pool.Heeds (fun process => (tasks process).asks)
    (fun process => (tasks process).ends)
  metered : .evicted ip ∉ pool.store.log →
    Metered options ip pool.store (standings pool)

variable {world : World}

theorem standings_advance {rest : AuthProgram Outcome} {action : AuthAction} :
    standings (pool.advance process rest action world) =
      Function.update (standings pool) process
        (stand (standings pool process) action) := by
  funext other
  by_cases same : other = process
  · subst same
    simp [standings, Pool.advance]
  · simp [standings, Pool.advance, same]

theorem Watched.move (watched : Watched options tasks ip pool)
    (positive : 0 < options.perIpFailureThreshold)
    (rationed : Rationed crypto options ip pool process) :
    Watched options tasks ip (pool.move (handle crypto options) process) := by
  refine ⟨watched.heeding.move process, ?_⟩
  cases waiting : pool.rest process with
  | done =>
    rw [Pool.move_done waiting]
    exact watched.metered
  | fail =>
    rw [Pool.move_fail waiting]
    exact watched.metered
  | emit =>
    rw [Pool.move_emit waiting, standings_advance]
    intro kept
    simp only [stand, Function.update_eq_self]
    exact watched.metered kept
  | call op next =>
    have solitary := rationed.solitary
    have asked := watched.heeding process
    rw [waiting] at asked
    rw [Pool.move_call waiting] at solitary ⊢
    rw [standings_advance]
    intro kept
    have metered := watched.metered fun evicted =>
      kept ((log_extends op).subset evicted)
    refine metered.answer positive rfl asked.1 solitary ?_ kept
    rintro tokenId call rfl own
    exact rationed.unlocked tokenId call next waiting own

omit [DecidableEq ι] in
theorem Watched.start (positive : 0 < options.perIpFailureThreshold)
    (new : world.verifier = .new options) (unlogged : world.log = []) :
    Watched options tasks ip (Service.start options tasks world) where
  heeding := fun process => (tasks process).heeds options
  metered := by
    intro _
    refine ⟨?_, ?_, ?_, ?_, ?_, ?_, ?_, ?_⟩
    · simp only [Service.start, Pool.start, new, unlogged]
      rfl
    · intro before rest split
      simp only [Service.start, Pool.start, unlogged] at split
      obtain ⟨rfl, -⟩ := List.nil_eq_append_iff.mp split
      exact positive
    · intro process call standing
      cases standing
    · intro process call standing
      cases standing
    · right
      intro ends listed
      simp [Service.start, Pool.start, unlogged, lockouts, failures] at listed
    · intro before now after split
      simp [Service.start, Pool.start, unlogged] at split
    · intro failed listed
      simp [Service.start, Pool.start, unlogged, failures] at listed
    · simp [Service.start, Pool.start, unlogged, failures]

/-- What the record of events promises of one address. -/
structure Bounded (options : VerifierOptions) (ip : String) (log : List Event) :
    Prop where
  /-- No verification that reaches the token store after a lockout began before
  the lockout ended. -/
  locked : ∀ before now after, log = before ++ .reached (some ip) now :: after →
    ∀ ends ∈ lockouts ip before, ends ≤ now
  /-- Failures without a silence among them lock the address out in time; a failure stands at
  the time its verification began. -/
  locks : ∀ before between after, log = before ++ between ++ after →
    lockouts ip between = [] →
      Unbroken options.perIpWindowMs ((failures ip between).map Prod.fst) →
        (failures ip between).length < options.perIpFailureThreshold
  /-- A lockout has its full length. -/
  terms : ∀ failed ∈ failures ip log, ∀ ends, failed.2 = some ends →
    ends = failed.1 + options.perIpLockoutMs
  /-- How many wrong tokens are tested before the next lockout begins. -/
  tested : ∀ before between last after, log = before ++ between ++ last :: after →
    lockouts ip between = [] →
      Unbroken options.perIpWindowMs
          ((failures ip (between ++ [last])).map Prod.fst) →
        (failures ip (between ++ [last])).length ≤ options.perIpFailureThreshold

omit [DecidableEq ι] in
theorem Metered.close_of (metered : Metered options ip world stands)
    (split : world.log = before ++ between ++ after)
    (unbroken : Unbroken options.perIpWindowMs ((failures ip between).map Prod.fst)) :
    Close options.perIpWindowMs ((failures ip between).map Prod.fst) := by
  have sorted := metered.sorted
  rw [split, failures_append, failures_append, List.map_append, List.map_append] at sorted
  exact close_of_unbroken (sorted.sublist (List.infix_append _ _ _).sublist) unbroken

omit [DecidableEq ι] in
theorem Metered.locks (metered : Metered options ip world stands)
    (split : world.log = before ++ between ++ after) (unlocked : lockouts ip between = [])
    (close : Close options.perIpWindowMs ((failures ip between).map Prod.fst)) :
    (failures ip between).length < options.perIpFailureThreshold := by
  have below := metered.below (before ++ between) after split
  rw [tally_append] at below
  cases failing : failures ip between with
  | nil =>
    rw [List.length_nil]
    omega
  | cons first rest =>
    rw [failing] at below close
    have free : ∀ failure ∈ first :: rest, failure.2 = none := by
      rw [lockouts, failing, List.filterMap_eq_nil_iff] at unlocked
      exact unlocked
    have counted := length_le_count
      (tally options.perIpWindowMs ip before) free close
    rw [List.foldl_cons] at below
    rw [List.length_cons]
    omega

theorem failures_singleton_length (ip : String) (event : Event) :
    (failures ip [event]).length ≤ 1 :=
  List.length_filterMap_le _ _

omit [DecidableEq ι] in
theorem Metered.bounded (metered : Metered options ip world stands) :
    Bounded options ip world.log where
  locked := metered.reached
  locks := fun _ _ _ split unlocked unbroken =>
    metered.locks split unlocked (metered.close_of split unbroken)
  terms := metered.terms
  tested := by
    intro before between last after split unlocked unbroken
    have whole : world.log = before ++ (between ++ [last]) ++ after := by
      rw [split, List.append_assoc, List.append_assoc, List.append_assoc, List.singleton_append]
    have close := metered.close_of whole unbroken
    rw [failures_append, List.map_append] at close
    have fewer := metered.locks split unlocked close.left_of_append
    have one := failures_singleton_length ip last
    rw [failures_append, List.length_append]
    omega

theorem failed_logins_are_bounded (crypto : Crypto) (options : VerifierOptions)
    (positive : 0 < options.perIpFailureThreshold) (tasks : ι → Task) (world : World)
    (new : world.verifier = .new options) (unlogged : world.log = [])
    (ip : String) (schedule : List ι)
    (rationed : (Service.start options tasks world).Along (handle crypto options)
      (Rationed crypto options ip) schedule)
    (kept : .evicted ip ∉ (Service.after crypto options tasks world schedule).store.log) :
    Bounded options ip (Service.after crypto options tasks world schedule).store.log := by
  have watched : Watched options tasks ip
      (Service.after crypto options tasks world schedule) :=
    Pool.play_keeps (fun pool process holds meets => holds.move positive meets) rationed
      (.start positive new unlogged)
  exact (watched.metered kept).bounded

end Runs

namespace LockoutSample

open RevocationSample

def strict : VerifierOptions := { options with perIpFailureThreshold := 1 }

def world : World :=
  { RevocationSample.world with records := .empty, verifier := .new strict }

def together : Fin 2 → Task
  | 0 => .verify raw (some "a")
  | 1 => .verify otherRaw (some "a")

def apart : Fin 3 → Task
  | 0 => .verify raw (some "a")
  | 1 => .elapse 300000
  | 2 => .verify otherRaw (some "a")

def separate {ι : Type} [Fintype ι] [DecidableEq ι] (ip : String) (pool : Service ι)
    (process : ι) : Bool :=
  decide (∀ other, other ≠ process → standings pool other = none) &&
    pool.store.verifier.tokenLockouts.isEmpty &&
    decide (((failures ip (pool.move (handle crypto strict) process).store.log).map
      Prod.fst).Pairwise (· ≤ ·))

theorem rationed_of_separate {ι : Type} [Fintype ι] [DecidableEq ι] {ip : String}
    {pool : Service ι} {process : ι} (holds : separate ip pool process = true) :
    Rationed crypto strict ip pool process := by
  rw [separate, Bool.and_eq_true, Bool.and_eq_true, decide_eq_true_eq, decide_eq_true_eq,
    List.isEmpty_iff] at holds
  obtain ⟨⟨idle, unlocked⟩, sorted⟩ := holds
  refine ⟨⟨.inl ?_, ?_⟩, ?_⟩
  · intro other call standing
    obtain ⟨away, standing⟩ := closed_or_same standing
    rw [idle other away] at standing
    cases standing
  · intro failed new earlier listed
    rw [new, List.map_append, List.pairwise_append] at sorted
    exact sorted.2.2 _ (List.mem_map_of_mem listed) _ List.mem_cons_self
  · intro tokenId call next _ _
    rw [unlocked]
    exact List.not_mem_nil

end LockoutSample

open RevocationSample LockoutSample in
theorem store_reached_amid_the_lockout :
    ¬ ∀ (ι : Type) [DecidableEq ι] (crypto : Crypto) (options : VerifierOptions)
      (_positive : 0 < options.perIpFailureThreshold) (tasks : ι → Task)
      (world : World) (_new : world.verifier = .new options) (_unlogged : world.log = [])
      (ip : String) (schedule : List ι) (_kept : .evicted ip ∉
        (Service.after crypto options tasks world schedule).store.log),
      Bounded options ip
        (Service.after crypto options tasks world schedule).store.log := by
  intro claimed
  have log : (Service.after crypto strict together LockoutSample.world
      [0, 0, 0, 1, 1, 1, 0, 0, 0, 1]).store.log =
        [.entered (some "a") 1000, .entered (some "a") 1000, .reached (some "a") 1000,
          .answered (some "a") 1000 (.refused .unknownToken none) (some 301000)] ++
        .reached (some "a") 1000 :: [] := by set_option maxRecDepth 20000 in decide
  have bounded := claimed (Fin 2) crypto strict (by decide) together
    LockoutSample.world rfl rfl "a" [0, 0, 0, 1, 1, 1, 0, 0, 0, 1]
    (by rw [log]; decide)
  have begun := bounded.locked _ _ _ log 301000 (by decide)
  omega

open RevocationSample LockoutSample in
theorem bounded_when_apart : Bounded strict "a"
    (Service.after crypto strict apart LockoutSample.world
      [0, 0, 0, 0, 0, 0, 1, 2, 2, 2, 2]).store.log := by
  have played : (Service.start strict apart LockoutSample.world).Along
      (handle crypto strict) (fun pool process => separate "a" pool process = true)
      [0, 0, 0, 0, 0, 0, 1, 2, 2, 2, 2] ∧
      .evicted "a" ∉ (Service.after crypto strict apart LockoutSample.world
        [0, 0, 0, 0, 0, 0, 1, 2, 2, 2, 2]).store.log := by set_option maxRecDepth 20000 in decide
  exact failed_logins_are_bounded crypto strict (by decide) apart LockoutSample.world
    rfl rfl "a" _ (Pool.along_mono (fun _ _ => rationed_of_separate) played.1) played.2

end Graphorin.Auth
