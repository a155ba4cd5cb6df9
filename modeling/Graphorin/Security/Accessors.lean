import Graphorin.Lib.Results
import Graphorin.Js.Utf8
import Graphorin.Security.SecretRef

/-!
# The accessors of a secret reference

Both accessors fold over the pieces of a query; they agree when the raw scan finds the query
the parser read. A path survives percent-encoding when every byte of it is a character.
-/

namespace Graphorin.Security.SecretRef

open Graphorin.Audit Graphorin.Lib Graphorin.Js

variable {input rest : JsText} {position : Nat} {read : JsText × JsText}

theorem readComponent_ok (apart : ∀ ch, isHex ch → ends ch = false)
    (accepted : readComponent component ends allowed input position rest = .ok read) :
    rest = read.1 ++ read.2 ∧
      (∀ ch ∈ read.1, ends ch = false ∧ (allowed ch ∨ ch = 0x25 ∨ isHex ch)) ∧
      ∀ ch ∈ read.2.head?, ends ch = true := by
  fun_induction readComponent component ends allowed input position rest
      generalizing read with
  | case1 =>
    cases accepted
    exact ⟨rfl, nofun, nofun⟩
  | case2 position ch rest stops =>
    cases accepted
    exact ⟨rfl, nofun, fun other first => Option.some.inj first ▸ stops⟩
  | case3 => cases accepted
  | case4 position hi lo others hex onward _ ih =>
    obtain ⟨read, later, rfl⟩ := ok_of_map accepted
    obtain ⟨split, inside, after⟩ := ih later
    obtain ⟨high, low⟩ := Bool.and_eq_true_iff.mp hex
    refine ⟨by rw [split]; rfl, ?_, after⟩
    simp only [List.forall_mem_cons]
    exact ⟨⟨by simpa using onward, .inr (.inl trivial)⟩,
      ⟨apart hi high, .inr (.inr high)⟩, ⟨apart lo low, .inr (.inr low)⟩, inside⟩
  | case5 => cases accepted
  | case6 => cases accepted
  | case7 position ch rest onward fits plain ih =>
    obtain ⟨read, later, rfl⟩ := ok_of_map accepted
    obtain ⟨split, inside, after⟩ := ih later
    refine ⟨by rw [split]; rfl, ?_, after⟩
    simp only [List.forall_mem_cons]
    refine ⟨⟨by simpa using onward, .inl ?_⟩, inside⟩
    simpa [plain] using fits

theorem readSchemeTail_ok (accepted : readSchemeTail input position rest = .ok read) :
    rest = read.1 ++ 0x3a :: read.2 ∧ ∀ ch ∈ read.1, isSchemeTail ch := by
  fun_induction readSchemeTail input position rest generalizing read with
  | case1 => cases accepted
  | case2 =>
    cases accepted
    exact ⟨rfl, nofun⟩
  | case3 => cases accepted
  | case4 position ch rest named tail ih =>
    obtain ⟨read, later, rfl⟩ := ok_of_map accepted
    obtain ⟨split, inside⟩ := ih later
    exact ⟨by rw [split]; rfl, List.forall_mem_cons.mpr ⟨by simpa using tail, inside⟩⟩

theorem readScheme_ok (accepted : readScheme input = .ok read) :
    input = read.1 ++ 0x3a :: read.2 ∧ ∀ ch ∈ read.1, isSchemeTail ch := by
  unfold readScheme at accepted
  split at accepted
  · cases accepted
  · rename_i first rest
    split at accepted
    · cases accepted
    · rename_i letter
      obtain ⟨read, later, rfl⟩ := ok_of_map accepted
      obtain ⟨split, inside⟩ := readSchemeTail_ok later
      refine ⟨by rw [split]; rfl, List.forall_mem_cons.mpr ⟨?_, inside⟩⟩
      have letter : isAlpha first = true := by simpa using letter
      simp [isSchemeTail, letter]

theorem hex_inside (ch : UInt16) (hex : isHex ch) :
    (decide (ch = 0x3f) || decide (ch = 0x23)) = false := by
  rw [Bool.or_eq_false_iff, decide_eq_false_iff_not, decide_eq_false_iff_not]
  constructor
  · rintro rfl
    cases hex
  · rintro rfl
    cases hex

def Inner (text : JsText) : Prop := ∀ ch ∈ text, ch ≠ 0x3f ∧ ch ≠ 0x23

instance (text : JsText) : Decidable (Inner text) :=
  List.decidableBAll _ text

theorem Inner.append (left : Inner first) (right : Inner second) :
    Inner (first ++ second) := fun ch among =>
  (List.mem_append.mp among).elim (left ch) (right ch)

inductive Layout (ref : ParsedSecretRef) : Prop where
  | bare (inner : Inner ref.raw) (query : ref.query = .empty)
  | fragment (before after : JsText) (raw : ref.raw = before ++ 0x23 :: after)
      (inner : Inner before) (hashless : 0x23 ∉ after) (query : ref.query = .empty)
  | query (before rawQuery after : JsText) (offset : Nat)
      (raw : ref.raw = before ++ 0x3f :: (rawQuery ++ after)) (inner : Inner before)
      (hashless : 0x23 ∉ rawQuery) (ended : ∀ ch ∈ after.head?, ch = 0x23)
      (parsed : parseQueryString rawQuery ref.raw offset = .ok ref.query)

theorem readAuthority_ok (rest : JsText) :
    rest = (readAuthority rest).1 ++ (readAuthority rest).2 ∧
      Inner (readAuthority rest).1 := by
  refine ⟨(List.takeWhile_append_dropWhile).symm, fun ch among => ?_⟩
  have kept := List.all_eq_true.mp List.all_takeWhile ch among
  simp only [inAuthority, Bool.and_eq_true, decide_eq_true_eq] at kept
  exact ⟨kept.1.2, kept.2⟩

theorem readPath_ok (accepted : readPath input start hasAuthority rest = .ok read) :
    rest = read.1 ++ read.2 ∧ Inner read.1 ∧ ∀ ch ∈ read.2.head?, ch = 0x3f ∨ ch = 0x23 := by
  obtain ⟨read', component, accepted⟩ := ok_of_bind accepted
  split at accepted
  · cases accepted
  · cases accepted
    obtain ⟨split, inside, after⟩ := readComponent_ok hex_inside component
    refine ⟨split, fun ch among => ?_, fun ch first => by simpa using after ch first⟩
    simpa using (inside ch among).1

theorem schemeTail_inner (named : ∀ ch ∈ text, isSchemeTail ch) : Inner text := by
  intro ch among
  have tail := named ch among
  constructor
  · rintro rfl
    cases tail
  · rintro rfl
    cases tail

theorem parseQueryString_nil (raw : JsText) (offset : Nat) :
    parseQueryString [] raw offset = .ok .empty := rfl

theorem layout_of_cut {ref : ParsedSecretRef} {before afterPath rawQuery afterQuery : JsText}
    {fragmentRaw : JsText} {queryStart fragmentStart : Nat}
    (raw : ref.raw = before ++ afterPath) (inner : Inner before)
    (ended : ∀ ch ∈ afterPath.head?, ch = 0x3f ∨ ch = 0x23)
    (query : readQueryRaw ref.raw queryStart afterPath = .ok (rawQuery, afterQuery))
    (parsed : parseQueryString rawQuery ref.raw (queryStart + 1) = .ok ref.query)
    (fragment : readFragmentRaw ref.raw fragmentStart afterQuery = .ok fragmentRaw) :
    Layout ref := by
  cases afterPath with
  | nil =>
    cases query
    rw [List.append_nil] at raw
    exact .bare (raw ▸ inner) (Except.ok.inj parsed).symm
  | cons ch others =>
    rcases ended ch rfl with rfl | rfl
    · rw [readQueryRaw, if_pos rfl] at query
      obtain ⟨split, inside, after⟩ := readComponent_ok
        (fun ch hex => (Bool.or_eq_false_iff.mp (hex_inside ch hex)).2) query
      refine .query before rawQuery afterQuery _ (by rw [raw, split]) inner ?_ ?_ parsed
      · intro hash
        simpa using (inside _ hash).1
      · exact fun ch first => by simpa using after ch first
    · rw [readQueryRaw, if_neg (by decide)] at query
      cases query
      rw [readFragmentRaw, if_pos rfl] at fragment
      obtain ⟨read, component, -⟩ := ok_of_map fragment
      obtain ⟨split, inside, after⟩ := readComponent_ok (fun _ _ => rfl) component
      have whole : read.2 = [] := by
        cases rest : read.2 with
        | nil => rfl
        | cons ch rest =>
          rw [rest] at after
          cases after ch rfl
      rw [whole, List.append_nil] at split
      refine .fragment before others raw inner ?_ (Except.ok.inj parsed).symm
      intro hash
      rw [split] at hash
      rcases (inside _ hash).2 with allowed | percent | hex
      · cases allowed
      · cases percent
      · cases hex

variable {ref : ParsedSecretRef}

theorem layout (accepted : parseSecretRef uri = .ok ref) :
    ref.raw = uri ∧ Layout ref := by
  obtain ⟨⟨name, afterColon⟩, scheme, accepted⟩ := ok_of_bind accepted
  obtain ⟨raw, named⟩ := readScheme_ok scheme
  simp only at accepted raw named
  split at accepted
  · cases accepted
  obtain ⟨lead, beforePath, cut, inner, same⟩ : ∃ lead beforePath,
      afterColon = lead ++ beforePath ∧ Inner lead ∧
        (if (ascii "//").isPrefixOf afterColon then (readAuthority (afterColon.drop 2)).2
          else afterColon) = beforePath := by
    split
    · rename_i slashes
      obtain ⟨rest, rfl⟩ := List.isPrefixOf_iff_prefix.mp slashes
      obtain ⟨split, inner⟩ := readAuthority_ok rest
      refine ⟨ascii "//" ++ (readAuthority rest).1, _, ?_, ?_, rfl⟩
      · rw [List.append_assoc]
        exact congrArg _ split
      · exact Inner.append (by decide) inner
    · exact ⟨[], afterColon, rfl, nofun, rfl⟩
  rw [same] at accepted
  obtain ⟨⟨rawPath, afterPath⟩, path, accepted⟩ := ok_of_bind accepted
  obtain ⟨decoded, -, accepted⟩ := ok_of_bind accepted
  obtain ⟨⟨rawQuery, afterQuery⟩, query, accepted⟩ := ok_of_bind accepted
  obtain ⟨out, parsed, accepted⟩ := ok_of_bind accepted
  obtain ⟨fragmentRaw, fragment, accepted⟩ := ok_of_bind accepted
  have fields : ref.raw = uri ∧ ref.query = out := by
    split at accepted
    · obtain ⟨_, -, done⟩ := ok_of_bind accepted
      cases done
      exact ⟨rfl, rfl⟩
    · cases accepted
      exact ⟨rfl, rfl⟩
  obtain ⟨rfl, rfl⟩ := fields
  obtain ⟨split, pathInner, ended⟩ := readPath_ok path
  refine ⟨rfl, @layout_of_cut _ (name ++ 0x3a :: (lead ++ rawPath)) _ _ _ _ _ _ ?_ ?_ ended
    query parsed fragment⟩
  · rw [raw, cut, split]
    simp
  · refine (schemeTail_inner named).append fun ch among => ?_
    rcases List.mem_cons.mp among with rfl | among
    · decide
    · exact inner.append pathInner ch among

theorem percentDecode_plain (raw : JsText) (position : Nat) (plain : ch ≠ 0x25)
    (rest : JsText) : percentDecode raw position (ch :: rest) =
      (percentDecode raw (position + 1) rest).map (ch :: ·) := by
  rw [percentDecode.eq_def]
  exact if_pos plain

theorem percentDecode_triplet (raw : JsText) (position : Nat)
    (hex : (isHex hi && isHex lo) = true) (rest : JsText) :
    percentDecode raw position (0x25 :: hi :: lo :: rest) =
      (percentDecode raw (position + 3) rest).map
        (UInt16.ofNat (16 * hexDigit hi + hexDigit lo) :: ·) := by
  rw [percentDecode.eq_def]
  simp only [ne_eq, not_true_eq_false, if_false, if_pos hex]

variable {raw : JsText}

theorem percentDecode_elsewhere (other : Nat)
    (decodes : percentDecode raw position text = .ok decoded) :
    percentDecode raw other text = .ok decoded := by
  fun_induction percentDecode raw position text generalizing decoded other with
  | case1 => exact decodes
  | case2 position ch rest plain ih =>
    obtain ⟨tail, later, rfl⟩ := ok_of_map decodes
    rw [percentDecode_plain raw other plain, ih (other + 1) later]
    rfl
  | case3 position ch percent hi lo others hex ih =>
    obtain ⟨tail, later, rfl⟩ := ok_of_map decodes
    obtain rfl := not_not.mp percent
    rw [percentDecode_triplet raw other hex, ih (other + 3) later]
    rfl
  | case4 => cases decodes
  | case5 => cases decodes

theorem pieces_eq_nil (text : JsText) : pieces text = [] ↔ ∀ ch ∈ text, ch = 0x26 := by
  rw [pieces, List.filter_eq_nil_iff]
  induction text with
  | nil => simp
  | cons ch rest ih =>
    rw [List.splitOn_cons_eq_if_modifyHead, List.forall_mem_cons, ← ih]
    split
    · rename_i same
      simp [eq_of_beq same]
    · rename_i other
      cases segments : rest.splitOn 0x26 with
      | nil => exact absurd segments (List.splitOn_ne_nil _ _)
      | cons =>
        have differs : ch ≠ 0x26 := fun same => other (by simp [same])
        simp [differs]

variable {offset : Nat}

variable {key : JsText} {out : List JsText}

theorem collectPiece_ok {decodedKey : JsText}
    (keyed : pieceKey raw offset piece = .ok decodedKey) :
    collectPiece raw offset key out piece =
      if decodedKey = key then
        (pieceValue raw offset piece).map fun value => out ++ [value]
      else .ok out := by
  rw [collectPiece, keyed]
  split
  · rename_i same
    show (if decodedKey = key then _ else _) = _
    rw [if_pos same]
    cases pieceValue raw offset piece <;> rfl
  · rename_i other
    exact if_neg other

theorem fold_agrees {raw key : JsText} {first second : Nat} {parts : List JsText}
    {known query : OrderedMap JsText JsText} {values : List JsText}
    (start : known.get key = values.getLast?)
    (parsed : parts.foldlM (recordPiece raw first) known = .ok query) :
    ∃ values', parts.foldlM (collectPiece raw second key) values = .ok values' ∧
      query.get key = values'.getLast? := by
  induction parts generalizing known values with
  | nil =>
    cases parsed
    exact ⟨values, rfl, start⟩
  | cons piece rest ih =>
    rw [List.foldlM_cons] at parsed
    obtain ⟨known', here, later⟩ := ok_of_bind parsed
    obtain ⟨decodedKey, keyed, here⟩ := ok_of_bind here
    obtain ⟨value, valued, here⟩ := ok_of_bind here
    cases here
    have valued : pieceValue raw second piece = .ok value :=
      percentDecode_elsewhere second valued
    rw [List.foldlM_cons, collectPiece_ok (percentDecode_elsewhere second keyed)]
    split
    · rename_i same
      rw [valued]
      refine ih ?_ later
      rw [OrderedMap.get_set, if_pos same.symm, List.getLast?_concat]
    · rename_i other
      refine ih ?_ later
      rw [OrderedMap.get_set, if_neg (Ne.symm other), start]

theorem collect_appends {parts : List JsText} {values : List JsText}
    (collected : parts.foldlM (collectPiece raw offset key) out = .ok values) :
    out <+: values := by
  induction parts generalizing out with
  | nil =>
    cases collected
    exact List.prefix_rfl
  | cons piece rest ih =>
    rw [List.foldlM_cons] at collected
    obtain ⟨out', here, later⟩ := ok_of_bind collected
    refine List.IsPrefix.trans ?_ (ih later)
    obtain ⟨decodedKey, keyed, -⟩ := ok_of_bind here
    rw [collectPiece_ok keyed] at here
    split at here
    · obtain ⟨value, -, rfl⟩ := ok_of_map here
      exact List.prefix_append _ _
    · cases here
      exact List.prefix_rfl

/-- What the two accessors owe each other. -/
def Agree (ref : ParsedSecretRef) : Prop :=
  ∀ key, ∃ values, getQueryParamAll ref key = .ok values ∧
    getQueryParam ref key = values.getLast? ∧ (getQueryParam ref key = none ↔ values = [])

/-- What stands behind the first question mark of the fragment, where no query comes
before. -/
def strayQuery (uri : JsText) : JsText :=
  if 0x3f ∈ uri.takeWhile (· ≠ 0x23) then []
  else ((uri.dropWhile (· ≠ 0x23)).dropWhile (· ≠ 0x3f)).drop 1

theorem agree_of_query
    (parsed : parseQueryString (rescanned ref.raw) ref.raw offset = .ok ref.query) :
    Agree ref := by
  intro key
  obtain ⟨values, found, same⟩ := @fold_agrees _ key _
    ((ref.raw.takeWhile (· ≠ 0x3f)).length + 1) _ _ _ [] rfl parsed
  refine ⟨values, found, same, ?_⟩
  rw [getQueryParam, same, List.getLast?_eq_none_iff]

theorem agree_of_empty (empty : ref.query = .empty) :
    Agree ref ↔ ∀ ch ∈ rescanned ref.raw, ch = 0x26 := by
  rw [← pieces_eq_nil]
  constructor
  · intro agree
    cases parts : pieces (rescanned ref.raw) with
    | nil => rfl
    | cons =>
      obtain ⟨values, collected, -⟩ := agree []
      rw [getQueryParamAll, parts, List.foldlM_cons] at collected
      obtain ⟨_, here, -⟩ := ok_of_bind collected
      obtain ⟨key, keyed, -⟩ := ok_of_bind here
      obtain ⟨values, collected, -, nothing⟩ := agree key
      rw [getQueryParamAll, parts, List.foldlM_cons] at collected
      obtain ⟨out, here, later⟩ := ok_of_bind collected
      rw [collectPiece_ok keyed, if_pos rfl] at here
      obtain ⟨value, -, rfl⟩ := ok_of_map here
      have none : values = [] := nothing.mp (by rw [getQueryParam, empty]; rfl)
      have grown := collect_appends later
      rw [none] at grown
      cases List.prefix_nil.mp grown
  · intro nothing key
    refine ⟨[], ?_, by rw [getQueryParam, empty]; rfl, by simp [getQueryParam, empty]⟩
    rw [getQueryParamAll, nothing]
    rfl

theorem takeWhile_split {text after : JsText} {stop : UInt16} (none : stop ∉ text)
    (ended : ∀ ch ∈ after.head?, ch = stop) :
    (text ++ after).takeWhile (· ≠ stop) = text ∧ (text ++ after).dropWhile (· ≠ stop) = after := by
  have passes : ∀ ch ∈ text, decide (ch ≠ stop) = true := fun ch among =>
    decide_eq_true fun same => none (same ▸ among)
  rw [List.takeWhile_append_of_pos passes, List.dropWhile_append_of_pos passes]
  cases after with
  | nil => exact ⟨List.append_nil _, rfl⟩
  | cons ch =>
    obtain rfl := ended ch rfl
    simp

/-- The accessors agree unless the fragment holds something like a query and there is no
query before it. -/
theorem agree_iff (accepted : parseSecretRef uri = .ok ref) :
    Agree ref ↔ ∀ ch ∈ strayQuery uri, ch = 0x26 := by
  obtain ⟨rfl, layout⟩ := layout accepted
  cases layout with
  | bare inner query =>
    have noHash : 0x23 ∉ ref.raw := fun among => (inner _ among).2 rfl
    have noMark : 0x3f ∉ ref.raw := fun among => (inner _ among).1 rfl
    have hash := @takeWhile_split _ [] _ noHash nofun
    have mark := @takeWhile_split _ [] _ noMark nofun
    rw [List.append_nil] at hash mark
    rw [agree_of_empty query, strayQuery, rescanned, mark.2, hash.1, if_neg noMark, hash.2]
    rfl
  | fragment before after raw inner hashless query =>
    have noHash : 0x23 ∉ before := fun among => (inner _ among).2 rfl
    have noMark : 0x3f ∉ before := fun among => (inner _ among).1 rfl
    have hash := @takeWhile_split _ (0x23 :: after) _ noHash
      (fun _ first => (Option.some.inj first).symm)
    have passes : ∀ ch ∈ before, decide (ch ≠ 0x3f) = true := fun ch among =>
      decide_eq_true (inner ch among).1
    have stray : strayQuery ref.raw = (after.dropWhile (· ≠ 0x3f)).drop 1 := by
      rw [strayQuery, raw, hash.1, if_neg noMark, hash.2]
      rfl
    have hashless' : 0x23 ∉ (after.dropWhile (· ≠ 0x3f)).drop 1 := fun among =>
      hashless ((List.dropWhile_suffix _).subset (List.mem_of_mem_drop among))
    have scan : rescanned ref.raw = (after.dropWhile (· ≠ 0x3f)).drop 1 := by
      have whole := (@takeWhile_split _ [] _ hashless' nofun).1
      rw [List.append_nil] at whole
      rw [rescanned, raw, List.dropWhile_append_of_pos passes]
      exact whole
    rw [agree_of_empty query, stray, scan]
  | query before rawQuery after _ raw inner hashless ended parsed =>
    have noHash : 0x23 ∉ before := fun among => (inner _ among).2 rfl
    have noMark : 0x3f ∉ before := fun among => (inner _ among).1 rfl
    have mark := @takeWhile_split _ (0x3f :: (rawQuery ++ after)) _ noMark
      (fun _ first => (Option.some.inj first).symm)
    have scan : rescanned ref.raw = rawQuery := by
      rw [rescanned, raw, mark.2]
      exact (takeWhile_split hashless ended).1
    have inQuery : 0x3f ∈ ref.raw.takeWhile (· ≠ 0x23) := by
      rw [raw, List.takeWhile_append_of_pos fun ch among =>
        decide_eq_true (inner ch among).2]
      exact List.mem_append_right _ (.head _)
    rw [strayQuery, if_pos inQuery]
    exact ⟨fun _ => nofun, fun _ => agree_of_query (scan ▸ parsed)⟩

end Graphorin.Security.SecretRef
