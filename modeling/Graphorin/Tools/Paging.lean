import Mathlib.Data.List.Induction
import Graphorin.Lib.OrderedMap
import Graphorin.Js.Utf8

/-!
# Spilled results and their pages

The spill writer puts a body into the artifact tree and names it by a handle; the reader
resolves the handle inside the root and returns a range of the artifact as text. A path is
the list of its segments.
-/

namespace Graphorin.Tools.Paging

open Graphorin.Js Graphorin.Js.Utf8 Graphorin.Lib

abbrev Text := List Char
abbrev Path := List Text

def dot : Text := ['.']
def dotDot : Text := ['.', '.']

/-- A segment of a normalised path. -/
def Plain (segment : Text) : Prop :=
  segment ≠ [] ∧ segment ≠ dot ∧ segment ≠ dotDot ∧ '/' ∉ segment

instance (segment : Text) : Decidable (Plain segment) :=
  inferInstanceAs (Decidable (_ ∧ _))

structure Root where
  path : Path
  plain : ∀ segment ∈ path, Plain segment

def walk (base : Path) (segments : List Text) : Path :=
  segments.foldl (fun path segment =>
    if segment = [] ∨ segment = dot then path
    else if segment = dotDot then path.dropLast
    else path ++ [segment]) base

/-- `path.join` of a path and a text. -/
def join (base : Path) (text : Text) : Path := walk base (text.splitOn '/')

/-- `path.relative`. -/
def relative : Path → Path → Path
  | first :: root, second :: path =>
    if first = second then relative root path
    else (first :: root).map (fun _ => dotDot) ++ second :: path
  | root, path => root.map (fun _ => dotDot) ++ path

/-- The artifacts on disk, and what their sidecars say of the producer. -/
structure Disk (τ : Type) where
  files : OrderedMap Path Bytes
  sidecars : OrderedMap Path τ

variable {τ : Type}

structure Spill (τ : Type) where
  runId : Text
  toolCallId : Text
  extension : Text
  body : Text
  taint : Option τ

structure Written where
  path : Path
  bytes : Nat

def Spill.path (root : Root) (spill : Spill τ) : Path :=
  join (join root.path spill.runId) (spill.toolCallId ++ '.' :: spill.extension)

def write (root : Root) (disk : Disk τ) (spill : Spill τ) : Disk τ × Written :=
  let file := spill.path root
  ({ files := disk.files.set file (encode spill.body)
     sidecars := match spill.taint with
      | some taint => disk.sidecars.set file taint
      | none => disk.sidecars },
    { path := file, bytes := (encode spill.body).length })

def scheme : Text := "graphorin-spill:".toList

/-- The handle the truncated body names its artifact by. -/
def handle (root : Root) (path : Path) : Text :=
  scheme ++ ['/'].intercalate (relative root.path path)

inductive ReadError where
  | unsupportedScheme (uri : Text)
  | emptyHandle
  | sidecar (uri : Text)
  | malformed (uri : Text)
  | escapes (uri : Text)
  | missing (path : Path)
  deriving DecidableEq

def sidecarSuffix : Text := ".meta.json".toList

def resolveHandle (root : Root) (uri : Text) : Except ReadError Path :=
  if ¬ scheme.isPrefixOf uri then .error (.unsupportedScheme uri)
  else
    let relative := uri.drop scheme.length
    if relative.length = 0 then .error .emptyHandle
    else if sidecarSuffix.isSuffixOf relative then .error (.sidecar uri)
    else
      let segments := relative.splitOn '/'
      if segments.length ≠ 2 ∨ segments.any (·.length = 0) then .error (.malformed uri)
      else
        let resolved := walk root.path segments
        -- Under the filesystem root no text starts with the root and a separator.
        if resolved ≠ root.path ∧ ¬ (root.path ≠ [] ∧ root.path.isPrefixOf resolved) then
          .error (.escapes uri)
        else .ok resolved

structure ResultReadRange where
  offset : Option Int
  length : Option Int
  startLine : Option Int
  endLine : Option Int
  maxBytes : Option Int

structure ResultReadOutcome (τ : Type) where
  content : Text
  bytes : Nat
  totalBytes : Nat
  eof : Bool
  taint : Option τ

def clamp (value low high : Int) : Int := min high (max low value)

def capBytes (text : Text) (maxBytes : Int) : Text :=
  if (encode text).length ≤ maxBytes then text
  else decode ((encode text).take maxBytes.toNat)

def readLines (buffer : Bytes) (range : ResultReadRange) (cap : Int) (taint : Option τ) :
    ResultReadOutcome τ :=
  let lines := (decode buffer).splitOn '\n'
  let start := max 1 (range.startLine.getD 1)
  let finish := min (lines.length : Int) (range.endLine.getD lines.length)
  let selected :=
    if start ≤ finish then
      ['\n'].intercalate ((lines.take finish.toNat).drop (start - 1).toNat)
    else []
  let content := capBytes selected cap
  let capped := decide (cap < (encode selected).length)
  { content, bytes := (encode content).length, totalBytes := buffer.length
    eof := decide (lines.length ≤ finish) && !capped
    taint }

def readBytes (buffer : Bytes) (range : ResultReadRange) (cap : Int) (taint : Option τ) :
    ResultReadOutcome τ :=
  let totalBytes : Int := buffer.length
  let offset := clamp (range.offset.getD 0) 0 totalBytes
  let requested := range.length.getD (totalBytes - offset)
  let rawEnd := clamp (offset + max 0 requested) offset totalBytes
  let finish := min rawEnd (offset + cap)
  let slice := (buffer.take finish.toNat).drop offset.toNat
  { content := decode slice, bytes := slice.length, totalBytes := buffer.length
    eof := decide (totalBytes ≤ finish)
    taint }

def read (root : Root) (defaultMaxBytes : Int) (disk : Disk τ) (uri : Text)
    (range : ResultReadRange) : Except ReadError (ResultReadOutcome τ) := do
  let resolved ← resolveHandle root uri
  let some buffer := disk.files.get resolved | .error (.missing resolved)
  let cap := max 0 (range.maxBytes.getD defaultMaxBytes)
  let taint := disk.sidecars.get resolved
  if range.startLine.isSome ∨ range.endLine.isSome then
    return readLines buffer range cap taint
  else
    return readBytes buffer range cap taint

/-- What every page of one walk asks for. -/
structure PageSize where
  length : Nat
  maxBytes : Nat
  lengthPositive : 0 < length
  maxBytesPositive : 0 < maxBytes

namespace PageSize

def range (size : PageSize) (offset : Nat) : ResultReadRange :=
  { offset := some offset, length := some size.length, startLine := none, endLine := none
    maxBytes := some size.maxBytes }

def step (size : PageSize) : Nat := min size.length size.maxBytes

theorem step_positive (size : PageSize) : 0 < size.step :=
  Nat.lt_min.mpr ⟨size.lengthPositive, size.maxBytesPositive⟩

end PageSize

/-- Reading page after page until `eof`; none when a read fails or the fuel runs out. -/
def pages (root : Root) (defaultMaxBytes : Int) (disk : Disk τ) (uri : Text)
    (size : PageSize) : Nat → Nat → Option (List (Nat × ResultReadOutcome τ))
  | 0, _ => none
  | fuel + 1, offset =>
    match read root defaultMaxBytes disk uri (size.range offset) with
    | .error _ => none
    | .ok outcome =>
      if outcome.eof then some [(offset, outcome)]
      else (pages root defaultMaxBytes disk uri size fuel
        (offset + outcome.bytes)).map ((offset, outcome) :: ·)

theorem walk_append (base : Path) (first second : List Text) :
    walk base (first ++ second) = walk (walk base first) second := List.foldl_append

theorem walk_plain (base : Path) (plain : ∀ segment ∈ segments, Plain segment) :
    walk base segments = base ++ segments := by
  induction segments generalizing base with
  | nil => exact (List.append_nil base).symm
  | cons segment _ ih =>
    obtain ⟨⟨named, noDot, noDots, -⟩, others⟩ := List.forall_mem_cons.mp plain
    have onward := ih (base ++ [segment]) others
    rw [List.append_assoc, List.singleton_append] at onward
    simpa only [walk, List.foldl_cons, named, noDot, noDots, or_self, if_false] using onward

theorem walk_up (base root : Path) :
    walk (base ++ root) (root.map fun _ => dotDot) = base := by
  induction root using List.reverseRecOn with
  | nil => exact List.append_nil base
  | append_singleton root segment ih =>
    have up : walk (base ++ (root ++ [segment])) [dotDot] = base ++ root := by
      rw [← List.append_assoc]
      exact List.dropLast_concat
    rw [List.map_append, List.map_singleton,
      show (root.map fun _ => dotDot) ++ [dotDot] =
        [dotDot] ++ root.map fun _ => dotDot from ?_, walk_append, up, ih]
    rw [List.map_const', ← List.replicate_succ', List.singleton_append,
      List.replicate_succ]

theorem walk_relative (base root path : Path) (plain : ∀ segment ∈ path, Plain segment) :
    walk (base ++ root) (relative root path) = base ++ path := by
  induction root generalizing base path with
  | nil =>
    have same : relative [] path = path := by
      cases path <;> rfl
    rw [same, List.append_nil, walk_plain base plain]
  | cons first root ih =>
    cases path with
    | nil =>
      rw [relative, List.append_nil, walk_up, List.append_nil]
      exact nofun
    | cons second path =>
      rw [relative]
      split
      · rename_i same
        subst same
        have onward := ih (base ++ [first]) path fun segment among =>
          plain segment (.tail _ among)
        rwa [List.append_assoc, List.append_assoc] at onward
      · rw [walk_append, walk_up, walk_plain base plain]

variable {path : Path}

theorem relative_slashless {root : Path} (plain : ∀ segment ∈ path, Plain segment) :
    ∀ segment ∈ relative root path, '/' ∉ segment := by
  have dots : '/' ∉ dotDot := by decide
  induction root generalizing path with
  | nil =>
    have same : relative [] path = path := by
      cases path <;> rfl
    rw [same]
    exact fun segment among => (plain segment among).2.2.2
  | cons first root ih =>
    cases path with
    | nil =>
      intro segment among
      rw [relative, List.append_nil] at among
      · obtain ⟨-, -, rfl⟩ := List.mem_map.mp among
        exact dots
      · exact nofun
    | cons =>
      rw [relative]
      split
      · exact ih fun segment among => plain segment (.tail _ among)
      · intro segment among
        rcases List.mem_append.mp among with up | down
        · obtain ⟨-, -, rfl⟩ := List.mem_map.mp up
          exact dots
        · exact (plain segment down).2.2.2

theorem walk_keeps_plain (plain : ∀ segment ∈ base, Plain segment)
    (slashless : ∀ segment ∈ segments, '/' ∉ segment) :
    ∀ segment ∈ walk base segments, Plain segment := by
  induction segments generalizing base with
  | nil => exact plain
  | cons segment rest ih =>
    obtain ⟨here, later⟩ := List.forall_mem_cons.mp slashless
    rw [walk, List.foldl_cons]
    refine ih ?_ later
    split
    · exact plain
    · rename_i named
      obtain ⟨nonempty, noDot⟩ := not_or.mp named
      split
      · exact fun other among => plain other (List.dropLast_subset _ among)
      · rename_i noDots
        intro other among
        rcases List.mem_append.mp among with old | new
        · exact plain other old
        · obtain rfl := List.mem_singleton.mp new
          exact ⟨nonempty, noDot, noDots, here⟩

theorem splitOn_slashless (text : Text) : ∀ segment ∈ text.splitOn '/', '/' ∉ segment := by
  induction text with
  | nil => simp
  | cons char rest ih =>
    rw [List.splitOn_cons_eq_if_modifyHead]
    split
    · exact List.forall_mem_cons.mpr ⟨List.not_mem_nil, ih⟩
    · rename_i other
      cases segments : rest.splitOn '/' with
      | nil => exact nofun
      | cons =>
        rw [segments] at ih
        obtain ⟨here, later⟩ := List.forall_mem_cons.mp ih
        refine List.forall_mem_cons.mpr ⟨fun slash => ?_, later⟩
        rcases List.mem_cons.mp slash with rfl | inside
        · simp at other
        · exact here inside

theorem join_plain (plain : ∀ segment ∈ base, Plain segment) (text : Text) :
    ∀ segment ∈ join base text, Plain segment :=
  walk_keeps_plain plain (splitOn_slashless text)

theorem Spill.path_plain (root : Root) (spill : Spill τ) :
    ∀ segment ∈ spill.path root, Plain segment :=
  join_plain (join_plain root.plain _) _

theorem resolveHandle_own (plain : ∀ segment ∈ path, Plain segment)
    (resolves : resolveHandle root (handle root path) = .ok resolved) : resolved = path := by
  have dropped : (handle root path).drop scheme.length =
      ['/'].intercalate (relative root.path path) := List.drop_left
  unfold resolveHandle at resolves
  simp only [dropped] at resolves
  split at resolves
  · cases resolves
  · split at resolves
    · cases resolves
    · rename_i nonempty
      split at resolves
      · cases resolves
      · split at resolves
        · cases resolves
        · split at resolves
          · cases resolves
          · have some : relative root.path path ≠ [] := by
              intro nothing
              rw [nothing] at nonempty
              exact nonempty rfl
            rw [List.splitOn_intercalate '/' (relative_slashless plain) some] at resolves
            have same := Except.ok.inj resolves
            rw [← same]
            exact walk_relative [] root.path path plain

def pageAt (buffer : Bytes) (taint : Option τ) (step offset : Nat) : ResultReadOutcome τ :=
  { content := decode ((buffer.drop offset).take step)
    bytes := min step (buffer.length - offset), totalBytes := buffer.length
    eof := decide (buffer.length ≤ offset + step)
    taint }

theorem readBytes_page (buffer : Bytes) (taint : Option τ) (size : PageSize) (offset : Nat)
    (inside : offset ≤ buffer.length) :
    readBytes buffer (size.range offset) (max 0 size.maxBytes) taint =
      pageAt buffer taint size.step offset := by
  have start : clamp (offset : Int) 0 buffer.length = offset := by
    unfold clamp
    omega
  have finish : min (clamp ((offset : Int) + max 0 (size.length : Int)) offset buffer.length)
      ((offset : Int) + max 0 (size.maxBytes : Int)) =
        (min buffer.length (offset + size.step) : Nat) := by
    unfold clamp PageSize.step
    omega
  have slice : (buffer.take (min buffer.length (offset + size.step))).drop offset =
      (buffer.drop offset).take size.step := by
    rw [List.drop_take, List.take_eq_take_iff, List.length_drop]
    omega
  simp only [readBytes, PageSize.range, Option.getD_some, start, finish, Int.toNat_natCast,
    slice, pageAt, List.length_take, List.length_drop]
  congr 1
  exact decide_eq_decide.mpr (by omega)

theorem read_page (defaultMaxBytes : Int) (size : PageSize)
    (resolves : resolveHandle root uri = .ok path)
    (stored : disk.files.get path = some buffer) (inside : offset ≤ buffer.length) :
    read root defaultMaxBytes disk uri (size.range offset) =
      .ok (pageAt buffer (disk.sidecars.get path) size.step offset) := by
  rw [← readBytes_page buffer _ size offset inside]
  simp only [read, resolves, stored, bind, Except.bind, PageSize.range, Option.getD_some]
  rfl

section Walk

variable {root : Root} {path : Path} {disk : Disk τ} {uri : Text} {buffer : Bytes}
  (defaultMaxBytes : Int) (size : PageSize)

def Whole (buffer : Bytes) (step offset : Nat) : Prop :=
  ∀ later byte, offset ≤ later → step ∣ later - offset → buffer[later]? = some byte →
    ¬ Continuation byte

variable {offset : Nat}

theorem pages_step (resolves : resolveHandle root uri = .ok path)
    (stored : disk.files.get path = some buffer) (fuel : Nat)
    (inside : offset ≤ buffer.length) :
    pages root defaultMaxBytes disk uri size (fuel + 1) offset =
      if buffer.length ≤ offset + size.step then
        some [(offset, pageAt buffer (disk.sidecars.get path) size.step offset)]
      else
        (pages root defaultMaxBytes disk uri size fuel (offset + size.step)).map
          ((offset, pageAt buffer (disk.sidecars.get path) size.step offset) :: ·) := by
  rw [pages, read_page defaultMaxBytes size resolves stored inside]
  by_cases last : buffer.length ≤ offset + size.step
  · simp only [pageAt, last, decide_true, if_true]
  · have full : min size.step (buffer.length - offset) = size.step := by omega
    simp only [pageAt, last, decide_false, Bool.false_eq_true, if_false, full]

variable {fuel : Nat}

theorem pages_end (resolves : resolveHandle root uri = .ok path)
    (stored : disk.files.get path = some buffer) (inside : offset ≤ buffer.length)
    (enough : buffer.length - offset < fuel) :
    ∃ walk, pages root defaultMaxBytes disk uri size fuel offset = some walk := by
  induction fuel generalizing offset with
  | zero => omega
  | succ fuel ih =>
    rw [pages_step defaultMaxBytes size resolves stored fuel inside]
    split
    · exact ⟨_, rfl⟩
    · have onward := size.step_positive
      obtain ⟨walk, ended⟩ := @ih (offset + size.step) (by omega) (by omega)
      exact ⟨_, by rw [ended]; rfl⟩

variable {walk : List (Nat × ResultReadOutcome τ)}

theorem pages_cover (resolves : resolveHandle root uri = .ok path)
    (stored : disk.files.get path = some buffer) (inside : offset ≤ buffer.length)
    (walked : pages root defaultMaxBytes disk uri size fuel offset = some walk) :
    (walk.flatMap fun page => (buffer.drop page.1).take page.2.bytes) =
      buffer.drop offset := by
  induction fuel generalizing offset walk with
  | zero => cases walked
  | succ fuel ih =>
    rw [pages_step defaultMaxBytes size resolves stored fuel inside] at walked
    split at walked
    · cases walked
      rw [List.flatMap_singleton]
      refine List.take_of_length_le ?_
      show (buffer.drop offset).length ≤ min size.step (buffer.length - offset)
      rw [List.length_drop]
      omega
    · cases later : pages root defaultMaxBytes disk uri size fuel (offset + size.step) with
      | none =>
        rw [later] at walked
        cases walked
      | some =>
        rw [later] at walked
        cases walked
        have full : min size.step (buffer.length - offset) = size.step := by omega
        rw [List.flatMap_cons, ih (by omega) later, pageAt, full, ← List.drop_drop]
        exact List.take_append_drop _ _

theorem lead_of_cut (uncut : cut bytes = 0) (first : bytes[0]? = some byte) :
    ¬ Continuation byte := by
  cases bytes with
  | nil => cases first
  | cons =>
    obtain rfl := Option.some.inj first
    rw [cut_cons] at uncut
    intro continues
    rw [if_pos continues] at uncut
    omega

theorem pages_whole (resolves : resolveHandle root uri = .ok path)
    (stored : disk.files.get path = some buffer) (inside : offset ≤ buffer.length)
    (walked : pages root defaultMaxBytes disk uri size fuel offset = some walk) :
    leads (buffer.drop offset) ≤ (walk.flatMap (·.2.content)).length ∧
      ((walk.flatMap (·.2.content)).length ≤ leads (buffer.drop offset) →
        Whole buffer size.step offset) := by
  have positive := size.step_positive
  have first : ((buffer.drop offset).take size.step)[0]? = buffer[offset]? := by
    rw [List.getElem?_take_of_lt positive, List.getElem?_drop, Nat.add_zero]
  have counted := leads_le_length ((buffer.drop offset).take size.step)
  induction fuel generalizing offset walk with
  | zero => cases walked
  | succ fuel ih =>
    rw [pages_step defaultMaxBytes size resolves stored fuel inside] at walked
    split at walked
    · rename_i last
      cases walked
      rw [List.flatMap_singleton]
      have all : (buffer.drop offset).take size.step = buffer.drop offset :=
        List.take_of_length_le (by rw [List.length_drop]; omega)
      simp only [pageAt, all] at counted ⊢
      refine ⟨by omega, fun few later byte reached aligned found => ?_⟩
      have bound := (List.getElem?_eq_some_iff.mp found).1
      have same : later = offset := by
        have := Nat.eq_zero_of_dvd_of_lt aligned (by omega)
        omega
      rw [same, ← first, all] at found
      exact lead_of_cut (by omega) found
    · cases later : pages root defaultMaxBytes disk uri size fuel (offset + size.step) with
      | none =>
        rw [later] at walked
        cases walked
      | some =>
        rw [later] at walked
        cases walked
        have first' : ((buffer.drop (offset + size.step)).take size.step)[0]? =
            buffer[offset + size.step]? := by
          rw [List.getElem?_take_of_lt positive, List.getElem?_drop, Nat.add_zero]
        obtain ⟨enough, whole⟩ := ih (by omega) later first' (leads_le_length _)
        have split : leads (buffer.drop offset) =
            leads ((buffer.drop offset).take size.step) +
              leads (buffer.drop (offset + size.step)) := by
          rw [← leads_append, ← List.drop_drop, List.take_append_drop]
        rw [List.flatMap_cons, List.length_append]
        simp only [pageAt]
        refine ⟨by omega, fun few later byte reached aligned found => ?_⟩
        by_cases same : later = offset
        · rw [same, ← first] at found
          exact lead_of_cut (by omega) found
        · have far := Nat.le_of_dvd (by omega) aligned
          refine whole (by omega) later byte (by omega) ?_ found
          rw [← Nat.sub_sub]
          exact Nat.dvd_sub aligned (Nat.dvd_refl _)

/-- Where the characters of a body start. -/
def CharacterBoundary (body : Text) (offset : Nat) : Prop :=
  ∃ front back, body = front ++ back ∧ (encode front).length = offset

theorem pages_text (resolves : resolveHandle root uri = .ok path)
    (stored : disk.files.get path = some (encode (front ++ back)))
    (onBoundary : ∀ offset < (encode (front ++ back)).length, (encode front).length ≤ offset →
      size.step ∣ offset - (encode front).length → CharacterBoundary (front ++ back) offset)
    (walked : pages root defaultMaxBytes disk uri size fuel (encode front).length = some walk) :
    walk.flatMap (·.2.content) = back := by
  have positive := size.step_positive
  induction fuel generalizing front back walk with
  | zero => cases walked
  | succ fuel ih =>
    have rest : (encode (front ++ back)).drop (encode front).length = encode back := by
      rw [encode_append, List.drop_left]
    have total : (encode (front ++ back)).length =
        (encode front).length + (encode back).length := by
      rw [encode_append, List.length_append]
    rw [pages_step defaultMaxBytes size resolves stored fuel (by omega)] at walked
    split at walked
    · cases walked
      rw [List.flatMap_singleton]
      simp only [pageAt, rest]
      rw [List.take_of_length_le (by omega), decode_encode]
    · cases later : pages root defaultMaxBytes disk uri size fuel
          ((encode front).length + size.step) with
      | none =>
        rw [later] at walked
        cases walked
      | some =>
        rw [later] at walked
        cases walked
        obtain ⟨front', back', body, length⟩ := onBoundary
          ((encode front).length + size.step) (by omega) (by omega) (by simp)
        have longer : front <+: front' := by
          rcases List.append_eq_append_iff.mp body with
            ⟨middle, same, -⟩ | ⟨middle, same, -⟩
          · exact ⟨middle, same.symm⟩
          · rw [same, encode_append, List.length_append] at length
            omega
        obtain ⟨middle, rfl⟩ := longer
        rw [List.append_assoc] at body
        obtain rfl := List.append_cancel_left body
        rw [← List.append_assoc] at stored onBoundary
        rw [← length] at later
        have onward := ih stored (fun offset inside reached aligned => by
          refine onBoundary offset inside (by omega) ?_
          have split : offset - (encode front).length =
              offset - (encode (front ++ middle)).length + size.step := by omega
          rw [split]
          exact Nat.dvd_add aligned (Nat.dvd_refl _)) later
        rw [List.flatMap_cons, onward]
        simp only [pageAt, rest]
        rw [encode_append] at length
        rw [encode_append, List.take_left' (by simpa using length), decode_encode]

end Walk

/-- Paging through a spilled body gives the body back exactly when the reader takes the
handle and no page ends inside a character. -/
theorem paging_lossless_iff (root : Root) (defaultMaxBytes : Int) (disk : Disk τ)
    (spill : Spill τ) (size : PageSize) : (∃ fuel walk,
      pages root defaultMaxBytes (write root disk spill).1
        (handle root (write root disk spill).2.path) size fuel 0 = some walk ∧
      (walk.flatMap fun page => ((encode spill.body).drop page.1).take page.2.bytes) =
        encode spill.body ∧ walk.flatMap (·.2.content) = spill.body) ↔
    (∃ path, resolveHandle root (handle root (write root disk spill).2.path) = .ok path) ∧
      ∀ offset < (encode spill.body).length, size.step ∣ offset →
        CharacterBoundary spill.body offset := by
  have stored : (write root disk spill).1.files.get (write root disk spill).2.path =
      some (encode spill.body) := by
    rw [write, OrderedMap.get_set, if_pos rfl]
  constructor
  · rintro ⟨fuel, walk, walked, -, content⟩
    cases resolves : resolveHandle root (handle root (write root disk spill).2.path) with
    | error =>
      cases fuel with
      | zero => cases walked
      | succ =>
        rw [pages, read, resolves] at walked
        cases walked
    | ok path =>
      refine ⟨⟨path, rfl⟩, fun offset inside aligned => ?_⟩
      obtain rfl := resolveHandle_own (spill.path_plain root) resolves
      obtain ⟨-, whole⟩ := pages_whole defaultMaxBytes size resolves stored
        (Nat.zero_le _) walked
      rw [content, List.drop_zero, leads_encode] at whole
      have found := List.getElem?_eq_getElem inside
      have lead := whole (Nat.le_refl _) offset _ (Nat.zero_le _) aligned found
      have split := List.take_append_drop offset (encode spill.body)
      rw [List.drop_eq_getElem_cons inside] at split
      obtain ⟨front, back, body, before, -⟩ := whole_before_lead split.symm lead
      refine ⟨front, back, body, ?_⟩
      rw [before, List.length_take]
      omega
  · rintro ⟨⟨path, resolves⟩, onBoundary⟩
    obtain rfl := resolveHandle_own (spill.path_plain root) resolves
    obtain ⟨walk, walked⟩ := pages_end defaultMaxBytes size resolves stored (Nat.zero_le _)
      (Nat.lt_succ_self _)
    refine ⟨_, walk, walked, ?_, ?_⟩
    · exact pages_cover defaultMaxBytes size resolves stored (Nat.zero_le _) walked
    · have behind : (write root disk spill).1.files.get (write root disk spill).2.path =
          some (encode ([] ++ spill.body)) := stored
      exact pages_text defaultMaxBytes size resolves behind
        (fun offset inside _ aligned => onBoundary offset inside aligned) walked

def shared : Root := ⟨["tmp".toList, "graphorin-spill".toList], by decide⟩

def accented : Spill Unit := ⟨"run".toList, "call".toList, "txt".toList, ['é'], none⟩

theorem page_inside_character : ¬ ∀ (root : Root) (defaultMaxBytes : Int) (disk : Disk Unit)
    (spill : Spill Unit) (size : PageSize), ∃ fuel walk,
      pages root defaultMaxBytes (write root disk spill).1
        (handle root (write root disk spill).2.path) size fuel 0 = some walk ∧
      walk.flatMap (·.2.content) = spill.body := by
  intro lossless
  obtain ⟨fuel, walk, walked, content⟩ := lossless shared 65536 ⟨.empty, .empty⟩ accented
    ⟨1, 1, by decide, by decide⟩
  match fuel, walked with
  | fuel + 2, walked =>
    obtain rfl : _ = walk := Option.some.inj walked
    exact absurd content (by decide)

end Graphorin.Tools.Paging
