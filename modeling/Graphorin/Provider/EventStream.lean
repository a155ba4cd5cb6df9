import Graphorin.Js.Space
import Graphorin.Js.Utf8
import Mathlib.Data.List.Infix

namespace Graphorin.Provider.EventStream

open Graphorin.Js

/-! Reading a response body, as it comes in chunks, as server-sent events. -/

abbrev Text := List Char

/-- A decoder drops one byte order mark, before everything else. -/
structure TextDecoder where
  pending : Option Utf8.Pending := none
  bomSeen : Bool := false

def byteOrderMark : Char := Char.ofNat 0xfeff

def TextDecoder.decode (decoder : TextDecoder) (value : Bytes) : Text × TextDecoder :=
  let fed := Utf8.feed decoder.pending value
  if decoder.bomSeen then (fed.1, ⟨fed.2, true⟩)
  else
    match fed.1 with
    | [] => ([], ⟨fed.2, false⟩)
    | first :: rest => (if first = byteOrderMark then rest else first :: rest, ⟨fed.2, true⟩)

def lfPair : Text := ['\n', '\n']

def crlfPair : Text := ['\r', '\n', '\r', '\n']

def indexOf (pattern : Text) : Text → Option Nat
  | [] => if pattern.isEmpty then some 0 else none
  | char :: rest =>
    if pattern.isPrefixOf (char :: rest) then some 0
    else (indexOf pattern rest).map (· + 1)

def findSeparator (buffer : Text) : Option Nat :=
  match indexOf lfPair buffer, indexOf crlfPair buffer with
  | none, crlf => crlf
  | some lf, none => some lf
  | some lf, some crlf => some (if lf < crlf then lf else crlf)

def matchSeparatorLength (buffer : Text) (idx : Nat) : Nat :=
  if crlfPair.isPrefixOf (buffer.drop idx) then 4 else 2

def splitLines : Text → List Text
  | [] => [[]]
  | '\r' :: '\n' :: rest => [] :: splitLines rest
  | char :: rest =>
    if char = '\n' then [] :: splitLines rest
    else
      match splitLines rest with
      | [] => [[char]]
      | line :: lines => (char :: line) :: lines

def dataMark : Text := ['d', 'a', 't', 'a', ':']

def dataLine (line : Text) : Option Text :=
  if [':'].isPrefixOf line then none
  else if dataMark.isPrefixOf line then
    let value := line.drop 5
    some (if value.head? = some ' ' then value.tail else value)
  else none

def joinLines (lines : List Text) : Text := List.intercalate ['\n'] lines

def extractDataLines (block : Text) : Option Text :=
  let dataLines := (splitLines block).filterMap dataLine
  if dataLines = [] then none else some (joinLines dataLines)

def doneMark : Text := ['[', 'D', 'O', 'N', 'E', ']']

variable {buffer : Text}

theorem findSeparator_filled (found : findSeparator buffer = some idx) :
    buffer ≠ [] := by
  rintro rfl
  cases found

/-- Also tells what is left of the buffer, unless `[DONE]` was read. -/
def drain (buffer : Text) : List Text × Option Text :=
  match _found : findSeparator buffer with
  | none => ([], some buffer)
  | some separatorIdx =>
    let eventBlock := buffer.take separatorIdx
    let rest := buffer.drop (separatorIdx + matchSeparatorLength buffer separatorIdx)
    match extractDataLines eventBlock with
    | none => drain rest
    | some dataPayload =>
      if dataPayload = doneMark then ([], none)
      else
        let next := drain rest
        (dataPayload :: next.1, next.2)
termination_by buffer.length
decreasing_by
  all_goals
    have filled := List.length_pos_iff.mpr (findSeparator_filled _found)
    rw [List.length_drop, matchSeparatorLength]
    split <;> omega

def readTail (buffer : Text) : List Text :=
  let tail := trim isWhiteChar buffer
  if tail.length > 0 then
    match extractDataLines tail with
    | none => []
    | some dataPayload => if dataPayload = doneMark then [] else [dataPayload]
  else []

def readChunks (decoder : TextDecoder) (buffer : Text) : List Bytes → List Text
  | [] => readTail buffer
  | value :: rest =>
    let decoded := decoder.decode value
    let drained := drain (buffer ++ decoded.1)
    match drained.2 with
    | none => drained.1
    | some left => drained.1 ++ readChunks decoded.2 left rest

/-- The payloads yielded for a body that is read in chunks. -/
def parseEventStream (body : Option (List Bytes)) : List Text :=
  match body with
  | none => []
  | some chunks => readChunks {} [] chunks

def separatorAt (text : Text) : Option Nat :=
  if crlfPair.isPrefixOf text then some 4 else if lfPair.isPrefixOf text then some 2 else none

def cut : Text → Option (Text × Text)
  | [] => none
  | char :: rest =>
    match separatorAt (char :: rest) with
    | some length => some ([], (char :: rest).drop length)
    | none => (cut rest).map fun parts => (char :: parts.1, parts.2)

theorem findSeparator_cons (char : Char) (rest : Text) :
    findSeparator (char :: rest) =
      if (separatorAt (char :: rest)).isSome then some 0
      else (findSeparator rest).map (· + 1) := by
  rw [findSeparator, findSeparator, indexOf, indexOf, separatorAt]
  by_cases lf : lfPair.isPrefixOf (char :: rest) = true
  · by_cases crlf : crlfPair.isPrefixOf (char :: rest) = true
    · simp [lf, crlf]
    · simp only [lf, crlf]
      cases indexOf crlfPair rest <;> simp
  · by_cases crlf : crlfPair.isPrefixOf (char :: rest) = true
    · simp only [lf, crlf]
      cases indexOf lfPair rest <;> simp
    · simp only [lf, crlf]
      cases indexOf lfPair rest with
      | none => cases indexOf crlfPair rest <;> simp
      | some =>
        cases indexOf crlfPair rest with
        | none => simp
        | some =>
          simp only [Bool.false_eq_true, if_false, Option.map_some, Option.isSome_none,
            Nat.add_lt_add_iff_right, Option.some.injEq]
          split <;> rfl

theorem cut_find (buffer : Text) :
    cut buffer = (findSeparator buffer).map fun idx =>
      (buffer.take idx, buffer.drop (idx + matchSeparatorLength buffer idx)) := by
  induction buffer with
  | nil => rfl
  | cons char rest ih =>
    rw [cut, findSeparator_cons]
    cases at' : separatorAt (char :: rest) with
    | some length =>
      have same : length = matchSeparatorLength (char :: rest) 0 := by
        rw [separatorAt] at at'
        rw [matchSeparatorLength, List.drop_zero]
        split at at'
        · cases at'
          rw [if_pos ‹_›]
        · split at at'
          · cases at'
            rw [if_neg ‹_›]
          · cases at'
      rw [Option.isSome_some, if_pos rfl, Option.map_some, Nat.zero_add, ← same]
      rfl
    | none =>
      rw [ih]
      cases findSeparator rest with
      | none => rfl
      | some =>
        simp only [Option.isSome_none, Bool.false_eq_true, if_false, Option.map_some,
          matchSeparatorLength, List.drop_succ_cons, List.take_succ_cons]
        rw [Nat.add_right_comm, List.drop_succ_cons]

variable {text : Text} {length : Nat}

theorem separatorAt_iff : separatorAt text = some length ↔
      (crlfPair <+: text ∧ length = 4) ∨ (¬crlfPair <+: text ∧ lfPair <+: text ∧ length = 2) := by
  rw [separatorAt, ← List.isPrefixOf_iff_prefix, ← List.isPrefixOf_iff_prefix]
  by_cases crlf : crlfPair.isPrefixOf text = true
  · rw [if_pos crlf, Option.some.injEq]
    exact ⟨fun four => .inl ⟨crlf, four.symm⟩,
      fun found => found.elim (fun here => here.2.symm) fun other => absurd crlf other.1⟩
  · rw [if_neg crlf]
    by_cases lf : lfPair.isPrefixOf text = true
    · rw [if_pos lf, Option.some.injEq]
      exact ⟨fun two => .inr ⟨crlf, lf, two.symm⟩,
        fun found => found.elim (fun other => absurd other.1 crlf) fun here => here.2.2.symm⟩
    · rw [if_neg lf]
      exact ⟨nofun, fun found =>
        found.elim (fun other => absurd other.1 crlf) fun other => absurd other.2.1 lf⟩

theorem separatorAt_append (more : Text) (found : separatorAt text = some length) :
    separatorAt (text ++ more) = some length ∧ length ≤ text.length := by
  obtain ⟨crlf, rfl⟩ | ⟨none, lf, rfl⟩ := separatorAt_iff.mp found
  · exact ⟨separatorAt_iff.mpr (.inl ⟨crlf.trans (List.prefix_append _ _), rfl⟩), crlf.length_le⟩
  · refine ⟨separatorAt_iff.mpr (.inr ⟨fun crlf => ?_, lf.trans (List.prefix_append _ _), rfl⟩),
      lf.length_le⟩
    obtain ⟨behind, split⟩ := lf
    rw [← split] at crlf
    obtain ⟨_, start⟩ := crlf
    cases start

variable {rest : Text}

/-- Where more text completes a separator, the text itself holds none. -/
theorem cut_short (none : separatorAt (char :: rest) = none)
    (found : separatorAt (char :: rest ++ more) = some length) : cut rest = .none := by
  have shorter (mark : Text) (known : mark = crlfPair ∨ mark = lfPair)
      (begins : mark <+: char :: rest ++ more) (fails : ¬mark <+: char :: rest) :
      cut rest = .none := by
    obtain held | held := List.prefix_or_prefix_of_prefix begins (List.prefix_append _ more)
    · exact absurd held fails
    · rw [← List.mem_inits] at held
      obtain rfl | rfl := known
      · simp only [crlfPair, List.inits, List.map_cons, List.map_nil, List.mem_cons,
          List.not_mem_nil, or_false, reduceCtorEq, false_or, List.cons.injEq] at held
        obtain ⟨rfl, rfl⟩ | ⟨rfl, rfl⟩ | ⟨rfl, rfl⟩ | ⟨rfl, rfl⟩ := held
        · rfl
        · rfl
        · rfl
        · exact absurd (List.prefix_refl _) fails
      · simp only [lfPair, List.inits, List.map_cons, List.map_nil, List.mem_cons,
          List.not_mem_nil, or_false, reduceCtorEq, false_or, List.cons.injEq] at held
        obtain ⟨rfl, rfl⟩ | ⟨rfl, rfl⟩ := held
        · rfl
        · exact absurd (List.prefix_refl _) fails
  have without : ¬crlfPair <+: char :: rest ∧ ¬lfPair <+: char :: rest := by
    rw [← List.isPrefixOf_iff_prefix, ← List.isPrefixOf_iff_prefix]
    rw [separatorAt] at none
    split at none
    · cases none
    · split at none
      · cases none
      · exact ⟨‹_›, ‹_›⟩
  obtain ⟨crlf, -⟩ | ⟨-, lf, -⟩ := separatorAt_iff.mp found
  · exact shorter crlfPair (.inl rfl) crlf without.1
  · exact shorter lfPair (.inr rfl) lf without.2

variable {block : Text}

theorem cut_append (more : Text) (found : cut text = some (block, rest)) :
    cut (text ++ more) = some (block, rest ++ more) := by
  induction text generalizing block with
  | nil => cases found
  | cons char others ih =>
    rw [cut] at found
    rw [List.cons_append, cut]
    cases at' : separatorAt (char :: others) with
    | some =>
      rw [at'] at found
      cases found
      obtain ⟨still, within⟩ := separatorAt_append more at'
      rw [← List.cons_append, still]
      exact congrArg (fun behind => some ([], behind)) (List.drop_append_of_le_length within)
    | none =>
      rw [at'] at found
      obtain ⟨parts, later, same⟩ := Option.map_eq_some_iff.mp found
      cases same
      cases still : separatorAt (char :: (others ++ more)) with
      | some => cases (cut_short at' still).symm.trans later
      | none =>
        rw [ih later]
        rfl

theorem cut_shorter (found : cut text = some (block, rest)) :
    rest.length < text.length := by
  induction text generalizing block with
  | nil => cases found
  | cons char others ih =>
    rw [cut] at found
    cases at' : separatorAt (char :: others) with
    | some =>
      rw [at'] at found
      cases found
      rw [List.length_drop, List.length_cons]
      obtain ⟨-, rfl⟩ | ⟨-, -, rfl⟩ := separatorAt_iff.mp at' <;> omega
    | none =>
      rw [at'] at found
      obtain ⟨parts, later, same⟩ := Option.map_eq_some_iff.mp found
      cases same
      exact Nat.lt_succ_of_lt (ih later)

theorem drain_none (none : cut buffer = .none) :
    drain buffer = ([], some buffer) := by
  rw [cut_find, Option.map_eq_none_iff] at none
  rw [drain]
  split
  · rfl
  · simp_all

def reading (payload : Option Text) (next : List Text × Option Text) : List Text × Option Text :=
  match payload with
  | none => next
  | some payload => if payload = doneMark then ([], none) else (payload :: next.1, next.2)

theorem drain_some (found : cut buffer = some (block, rest)) :
    drain buffer = reading (extractDataLines block) (drain rest) := by
  rw [cut_find] at found
  obtain ⟨idx, here, same⟩ := Option.map_eq_some_iff.mp found
  obtain ⟨rfl, rfl⟩ := Prod.mk.inj same
  rw [drain]
  split
  · simp_all
  · rename_i other found'
    obtain rfl : idx = other := by
      rw [here] at found'
      exact Option.some.inj found'
    rfl

/-- The end of the stream, after what was read before. -/
def settle (drained : List Text × Option Text) : List Text :=
  match drained.2 with
  | none => drained.1
  | some left => drained.1 ++ readTail left

def further (drained : List Text × Option Text) (more : Text) : List Text × Option Text :=
  match drained.2 with
  | none => drained
  | some left => (drained.1 ++ (drain (left ++ more)).1, (drain (left ++ more)).2)

theorem further_reading (payload : Option Text) (next : List Text × Option Text) (more : Text) :
    further (reading payload next) more = reading payload (further next more) := by
  obtain ⟨payloads, left⟩ := next
  cases payload with
  | none => rfl
  | some payload =>
    rw [reading, reading]
    by_cases finished : payload = doneMark
    · rw [if_pos finished, if_pos finished]
      rfl
    · rw [if_neg finished, if_neg finished]
      cases left <;> rfl

theorem drain_append (text more : Text) : drain (text ++ more) = further (drain text) more := by
  induction length : text.length using Nat.strongRecOn generalizing text with
  | _ _ ih =>
    cases found : cut text with
    | none =>
      rw [drain_none found]
      rfl
    | some parts =>
      rw [drain_some (cut_append more found), drain_some found, further_reading,
        ih _ (length ▸ cut_shorter found) parts.2 rfl]

/-- What is left of a buffer holds no separator. -/
theorem drain_left (drained : (drain text).2 = some left) : cut left = none := by
  induction length : text.length using Nat.strongRecOn generalizing text with
  | _ _ ih =>
    cases found : cut text with
    | none =>
      rw [drain_none found] at drained
      cases drained
      exact found
    | some parts =>
      have later : (drain parts.2).2 = some left → cut left = none :=
        fun behind => ih _ (length ▸ cut_shorter found) behind rfl
      rw [drain_some found] at drained
      cases payload : extractDataLines parts.1 with
      | none =>
        rw [payload] at drained
        exact later drained
      | some payload' =>
        rw [payload, reading] at drained
        by_cases finished : payload' = doneMark
        · rw [if_pos finished] at drained
          cases drained
        · rw [if_neg finished] at drained
          exact later drained

theorem TextDecoder.decode_append (decoder : TextDecoder) (first second : Bytes) :
    decoder.decode (first ++ second) =
      ((decoder.decode first).1 ++ ((decoder.decode first).2.decode second).1,
        ((decoder.decode first).2.decode second).2) := by
  rw [TextDecoder.decode, TextDecoder.decode, Utf8.feed_append]
  generalize Utf8.feed decoder.pending first = fed
  obtain ⟨chars, pending⟩ := fed
  by_cases seen : decoder.bomSeen = true
  · simp only [if_pos seen, TextDecoder.decode, if_true]
  · simp only [if_neg seen]
    cases chars with
    | nil => rfl
    | cons =>
      simp only [List.cons_append, TextDecoder.decode, if_true]
      split <;> rfl

theorem readChunks_whole (decoder : TextDecoder) (chunks : List Bytes)
    (drained : cut buffer = none) : readChunks decoder buffer chunks =
      settle (drain (buffer ++ (decoder.decode chunks.flatten).1)) := by
  induction chunks generalizing decoder buffer with
  | nil =>
    have empty : (decoder.decode []).1 = [] := by
      rw [TextDecoder.decode, Utf8.feed]
      split <;> rfl
    rw [List.flatten_nil, empty, List.append_nil, drain_none drained]
    rfl
  | cons value rest ih =>
    rw [readChunks, List.flatten_cons, TextDecoder.decode_append, ← List.append_assoc,
      drain_append (buffer ++ (decoder.decode value).1)]
    cases whole : drain (buffer ++ (decoder.decode value).1) with
    | mk _ left =>
      cases left with
      | none => rfl
      | some behind =>
        have held : cut behind = none := drain_left (by rw [whole])
        simp only [further, ih _ held, settle]
        cases (drain (behind ++ ((decoder.decode value).2.decode rest.flatten).1)).2 with
        | none => rfl
        | some => exact (List.append_assoc _ _ _).symm

/-- How a body is cut into chunks makes no difference. -/
theorem parseEventStream_whole (chunks : List Bytes) :
    parseEventStream (some chunks) =
      settle (drain (TextDecoder.decode {} chunks.flatten).1) :=
  readChunks_whole {} chunks rfl

end Graphorin.Provider.EventStream
