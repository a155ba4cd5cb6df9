import Graphorin.Observability.Redaction

namespace Graphorin.Observability.Redaction

open Graphorin.Js.JsonText

/-! The items of a document, one after another. -/

def Stretch.masked (mask : Units) : Stretch → Units
  | .kept piece => piece.text
  | .hit _ _ => mask

def Marked.masked (mask : Units) : Marked → Units
  | .kept lexeme => lexeme.text
  | .span _ _ => quoted mask
  | .string stretches => 0x22 :: (stretches.flatMap (Stretch.masked mask) ++ [0x22])

def Marked.quotes : Marked → Nat
  | .span _ _ => 2
  | item => item.lexeme.quotes

def Marked.Stands (before after : Units) : Marked → Prop
  | .span _ _ => opensValue (leftOf before).head? = true ∧ closesRight after = true
  | _ => True

theorem Stretch.segment_text (stretch : Stretch) :
    stretch.segment.text = stretch.pieces.flatMap Piece.text := by
  cases stretch with
  | kept => exact (List.append_nil _).symm
  | hit =>
    rw [Stretch.segment, Segment.text, Stretch.pieces, List.flatMap_map]
    exact List.map_eq_flatMap

theorem Marked.segments_text (item : Marked) :
    segmentsText item.segments = item.lexeme.text := by
  cases item with
  | kept => exact List.append_nil _
  | span number signed =>
    cases signed with
    | true => exact List.append_nil _
    | false => exact congrArg (number.sign ++ ·) (List.append_nil _)
  | string stretches =>
    have inner : segmentsText (stretches.map Stretch.segment) =
        (stretches.flatMap Stretch.pieces).flatMap Piece.text := by
      rw [segmentsText, List.flatMap_map, List.flatMap_assoc]
      exact congrArg (List.flatMap · stretches) (funext Stretch.segment_text)
    rw [Marked.lexeme, Lexeme.text, ← inner, Marked.segments, segmentsText,
      List.flatMap_cons, List.flatMap_append]
    rfl

theorem segmentsOf_text (marked : List Marked) :
    segmentsText (segmentsOf marked) = sourceOf marked := by
  rw [segmentsText, segmentsOf, List.flatMap_assoc, sourceOf, textOf, List.flatMap_map]
  exact congrArg (List.flatMap · marked) (funext Marked.segments_text)

variable {mask after : Units} {stage : Stage}

theorem Stage.place_bare {held : Units}
    (opens : opensValue (leftOf stage.before).head? = true)
    (closes : closesRight after = true) :
    (stage.place mask held after).result = stage.result ++ quoted mask := by
  have signless : (leftOf stage.before).head? ≠ some 0x2d := by
    intro sign
    rw [sign] at opens
    cases opens
  have shown : exposed stage.before after = true := by
    rw [exposed, opensLeft, if_neg signless, opens, closes]
    rfl
  have start : valueStart stage.before stage.before.length = stage.before.length := by
    rw [valueStart]
    exact if_neg signless
  rw [Stage.result, Stage.place, List.append_nil, ← List.append_assoc]
  simp only [if_pos shown]
  rw [start, Stage.before, List.length_append, Nat.add_sub_cancel_left, List.take_length]
  rfl

theorem Stage.place_signed {held : Units}
    (opens : opensValue (leftOf stage.before).head? = true)
    (closes : closesRight after = true) :
    ((stage.keep [0x2d]).place mask held after).result = stage.result ++ quoted mask := by
  have left : leftOf (stage.keep [0x2d]).before = 0x2d :: stage.before.reverse := by
    rw [leftOf, Stage.keep_before, List.reverse_append]
    rfl
  have shown : exposed (stage.keep [0x2d]).before after = true := by
    rw [exposed, opensLeft, left, closes, Bool.and_true]
    exact opens
  have start : valueStart (stage.keep [0x2d]).before (stage.keep [0x2d]).before.length =
      stage.before.length := by
    rw [valueStart, left]
    simp
  have taken : (stage.pending ++ [0x2d]).take (stage.before.length - stage.gone.length) =
      stage.pending := by
    rw [Stage.before, List.length_append, Nat.add_sub_cancel_left, List.take_left]
  rw [Stage.result, Stage.place, List.append_nil, ← List.append_assoc]
  simp only [if_pos shown]
  rw [start]
  exact congrArg (fun text => stage.written ++ text ++ quoted mask) taken

theorem Marked.span_run (stands : (Marked.span number signed).Stands stage.before after) :
    (stage.run mask (Marked.span number signed).segments after).result =
      stage.result ++ quoted mask := by
  obtain ⟨opens, closes⟩ := stands
  cases signed with
  | true => exact Stage.place_bare opens closes
  | false =>
    rw [Marked.segments, Stage.run, Stage.run, Stage.run, Stage.step, Stage.step,
      Number.sign]
    cases number.negative with
    | true => exact Stage.place_signed opens closes
    | false =>
      have unmoved : stage.keep [] = stage := by
        rw [Stage.keep, List.append_nil]
      simp only [Bool.false_eq_true, if_false, unmoved]
      exact Stage.place_bare opens closes

variable {before text : Units}

theorem hidden_inner (covered : hidden before (.inner text :: rest) after = true) :
    exposed before (segmentsText rest ++ after) = false ∧
      hidden (before ++ text) rest after = true := by
  rw [hidden, Bool.and_eq_true, Segment.hidden, Bool.not_eq_true'] at covered
  exact covered

theorem hidden_kept {rest : List Segment} :
    hidden before (.kept text :: rest) after = hidden (before ++ text) rest after := by
  exact Bool.true_and _

variable {stretches : List Stretch}

theorem stretches_hidden
    (covered : hidden stage.before (stretches.map Stretch.segment) after = true) :
    (stage.run mask (stretches.map Stretch.segment) after).result =
      stage.result ++ stretches.flatMap (Stretch.masked mask) := by
  induction stretches generalizing stage with
  | nil => exact (List.append_nil _).symm
  | cons stretch rest ih =>
    rw [List.map_cons] at covered ⊢
    rw [Stage.run, List.flatMap_cons, ← List.append_assoc]
    cases stretch with
    | kept piece =>
      have rest_covered : hidden (stage.keep piece.text).before
          (rest.map Stretch.segment) after = true := by
        rw [Stage.keep_before]
        exact hidden_kept.symm.trans covered
      have behind := ih rest_covered
      rw [Stage.keep_result] at behind
      exact behind
    | hit held =>
      obtain ⟨here, there⟩ := hidden_inner covered
      have moved := Stage.before_step mask
        (segmentsText (rest.map Stretch.segment) ++ after) stage
        (.inner (held.map Plain.unit))
      have behind := ih ((congrArg (hidden · _ after) moved).trans there)
      rw [Stage.step, Stage.place_hidden here] at behind
      exact behind

theorem stretches_read {mask after : Units} {stretches : List Stretch} {stage : Stage}
    {quotes : Nat} (plain : ∀ unit ∈ mask, isInert unit = true)
    (read : Reads stage.result quotes) :
    ∃ more, Reads (stage.run mask (stretches.map Stretch.segment) after).result
        (quotes + more) ∧
      (hidden stage.before (stretches.map Stretch.segment) after = false → 0 < more) := by
  induction stretches generalizing stage quotes with
  | nil => exact ⟨0, read, nofun⟩
  | cons stretch rest ih =>
    rw [List.map_cons, Stage.run]
    cases stretch with
    | kept piece =>
      have next : Reads (stage.keep piece.text).result quotes := by
        rw [Stage.keep_result]
        exact read.append piece.reads
      obtain ⟨more, behind, shown⟩ := ih next
      refine ⟨more, behind, fun found => shown ?_⟩
      rw [Stage.keep_before]
      exact hidden_kept.symm.trans found
    | hit held filled =>
      have next := @Stage.place_reads mask (held.map Plain.unit)
        (segmentsText (rest.map Stretch.segment) ++ after) stage quotes plain read
      obtain ⟨more, behind, shown⟩ := ih next
      rw [Nat.add_assoc] at behind
      refine ⟨_, behind, fun found => ?_⟩
      by_cases here : exposed stage.before
          (segmentsText (rest.map Stretch.segment) ++ after) = true
      · rw [if_pos here]
        omega
      · rw [if_neg here, Nat.zero_add]
        apply shown
        rw [Bool.not_eq_true] at here
        rw [Stage.place, Stage.before, List.append_nil]
        rw [Stretch.segment, hidden, Segment.hidden, here] at found
        exact found

theorem string_hidden : hidden before (Marked.string stretches).segments after =
      hidden (before ++ [0x22]) (stretches.map Stretch.segment) (0x22 :: after) := by
  rw [Marked.segments, hidden_kept, hidden_append, hidden_kept, hidden, Bool.and_true]
  rfl

theorem Stage.run_string (mask after : Units) (stretches : List Stretch) (stage : Stage) :
    stage.run mask (Marked.string stretches).segments after =
      ((stage.keep [0x22]).run mask (stretches.map Stretch.segment) (0x22 :: after)).keep
        [0x22] := by
  rw [Marked.segments, Stage.run, Stage.run_append]
  rfl

variable {item : Marked}

theorem Marked.run_hidden (stands : item.Stands stage.before after)
    (covered : hidden stage.before item.segments after = true) :
    (stage.run mask item.segments after).result = stage.result ++ item.masked mask := by
  cases item with
  | kept => exact Stage.keep_result stage _
  | span => exact Marked.span_run stands
  | string =>
    rw [string_hidden, ← Stage.keep_before] at covered
    rw [Stage.run_string, Stage.keep_result, stretches_hidden covered, Stage.keep_result,
      List.append_assoc, List.append_assoc]
    rfl

theorem Stretch.masked_reads (plain : ∀ unit ∈ mask, isInert unit = true)
    (stretch : Stretch) : Reads (stretch.masked mask) 0 := by
  cases stretch with
  | kept piece => exact piece.reads
  | hit => exact reads_inert plain

theorem stretches_masked_read (plain : ∀ unit ∈ mask, isInert unit = true)
    (stretches : List Stretch) : Reads (stretches.flatMap (Stretch.masked mask)) 0 := by
  induction stretches with
  | nil => exact .nil
  | cons stretch _ ih => exact (stretch.masked_reads plain).append ih

theorem Marked.masked_reads (plain : ∀ unit ∈ mask, isInert unit = true) (item : Marked) :
    Reads (item.masked mask) item.quotes := by
  cases item with
  | kept lexeme => exact lexeme.reads
  | span => exact quoted_reads plain
  | string stretches =>
    exact .quote ((stretches_masked_read plain stretches).append (.quote .nil))

theorem Marked.run_reads {quotes : Nat} (plain : ∀ unit ∈ mask, isInert unit = true)
    (stands : item.Stands stage.before after) (read : Reads stage.result quotes) :
    ∃ more, Reads (stage.run mask item.segments after).result (quotes + item.quotes + more) ∧
      (hidden stage.before item.segments after = false → 0 < more) := by
  by_cases covered : hidden stage.before item.segments after = true
  · rw [item.run_hidden stands covered]
    exact ⟨0, read.append (item.masked_reads plain),
      fun shown => absurd covered (by rw [shown]; exact Bool.false_ne_true)⟩
  · cases item with
    | kept => exact absurd rfl covered
    | span _ signed => cases signed <;> exact absurd rfl covered
    | string stretches =>
      have opened : Reads (stage.keep [0x22]).result (quotes + 1) := by
        rw [Stage.keep_result]
        exact read.append (.quote .nil)
      obtain ⟨more, inside, shown⟩ :=
        @stretches_read mask (0x22 :: after) stretches (stage.keep [0x22]) _ plain opened
      refine ⟨more, ?_, fun found => shown ?_⟩
      · rw [Stage.run_string, Stage.keep_result]
        have closed := inside.append (.quote .nil)
        rwa [Nat.add_right_comm] at closed
      · rw [string_hidden] at found
        rw [Stage.keep_before]
        exact found

def Standing : Units → List Marked → Prop
  | _, [] => True
  | before, item :: rest =>
    item.Stands before (sourceOf rest) ∧ Standing (before ++ item.lexeme.text) rest

theorem marked_hidden {mask : Units} {marked : List Marked} {stage : Stage}
    (standing : Standing stage.before marked)
    (covered : hidden stage.before (segmentsOf marked) [] = true) :
    (stage.run mask (segmentsOf marked) []).result =
      stage.result ++ marked.flatMap (Marked.masked mask) := by
  induction marked generalizing stage with
  | nil => exact (List.append_nil _).symm
  | cons item rest ih =>
    rw [segmentsOf, List.flatMap_cons, ← segmentsOf] at covered ⊢
    rw [hidden_append, segmentsOf_text, Bool.and_eq_true, List.append_nil,
      item.segments_text] at covered
    rw [Stage.run_append, segmentsOf_text, List.append_nil, List.flatMap_cons,
      ← List.append_assoc, ← item.run_hidden standing.1 covered.1]
    have moved := Stage.before_run mask (sourceOf rest) stage item.segments
    rw [item.segments_text] at moved
    exact ih (moved ▸ standing.2) (moved ▸ covered.2)

theorem marked_reads {mask : Units} {marked : List Marked} {stage : Stage} {quotes : Nat}
    (plain : ∀ unit ∈ mask, isInert unit = true) (standing : Standing stage.before marked)
    (read : Reads stage.result quotes) :
    ∃ more, Reads (stage.run mask (segmentsOf marked) []).result
        (quotes + (marked.map Marked.quotes).sum + more) ∧
      (hidden stage.before (segmentsOf marked) [] = false → 0 < more) := by
  induction marked generalizing stage quotes with
  | nil => exact ⟨0, read, nofun⟩
  | cons item rest ih =>
    rw [segmentsOf, List.flatMap_cons, ← segmentsOf, Stage.run_append, segmentsOf_text,
      List.append_nil, hidden_append, segmentsOf_text, List.append_nil, item.segments_text]
    have moved := Stage.before_run mask (sourceOf rest) stage item.segments
    rw [item.segments_text] at moved
    obtain ⟨more, first, shown⟩ := item.run_reads plain standing.1 read
    obtain ⟨others, whole, others_shown⟩ := ih (moved ▸ standing.2) first
    rw [moved] at others_shown
    refine ⟨more + others, ?_, fun found => ?_⟩
    · have sum : quotes + ((item :: rest).map Marked.quotes).sum + (more + others) =
          quotes + item.quotes + more + (rest.map Marked.quotes).sum + others := by
        rw [List.map_cons, List.sum_cons]
        omega
      rw [sum]
      exact whole
    · obtain first | second := Bool.and_eq_false_iff.mp found
      · have := shown first
        omega
      · have := others_shown second
        omega

theorem opensValue_punct {before : Option Kind} (opens : Opens before) :
    opensValue (before.bind Kind.unit?) = true := by
  simp only [Opens, List.mem_cons, List.not_mem_nil, or_false] at opens
  obtain rfl | rfl | rfl | rfl := opens <;> rfl

theorem closesValue_punct {after : Option Kind} (closes : Closes after) :
    closesValue (after.bind Kind.unit?) = true := by
  simp only [Closes, List.mem_cons, List.not_mem_nil, or_false] at closes
  obtain rfl | rfl | rfl | rfl := closes <;> rfl

theorem document_standing {front back : List Marked}
    (document : Document ((front ++ back).map Marked.lexeme)) :
    Standing (sourceOf front) back := by
  induction back generalizing front with
  | nil => trivial
  | cons item _ ih =>
    refine ⟨?_, ?_⟩
    · cases item with
      | span =>
        rw [List.map_append, List.map_cons] at document
        obtain ⟨opens, closes⟩ := document.beside rfl
        refine ⟨?_, ?_⟩
        · rw [leftOf, sourceOf, unit_before opens]
          exact opensValue_punct opens
        · rw [closesRight, sourceOf, unit_after closes]
          exact closesValue_punct closes
      | _ => trivial
    · have moved : sourceOf front ++ item.lexeme.text = sourceOf (front ++ [item]) := by
        rw [sourceOf, sourceOf, textOf, textOf, List.map_append, List.flatMap_append,
          List.map_singleton, List.flatMap_singleton]
      rw [moved]
      exact ih (by rwa [List.append_assoc])

def Stretch.maskedPieces (mask : List Piece) : Stretch → List Piece
  | .kept piece => [piece]
  | .hit _ _ => mask

def Marked.maskedLexeme (mask : List Piece) : Marked → Lexeme
  | .kept lexeme => lexeme
  | .span _ _ => .string mask
  | .string stretches => .string (stretches.flatMap (Stretch.maskedPieces mask))

theorem stretches_unmasked (mask : List Piece) (clean : ¬stretches.any Stretch.isHit = true) :
    stretches.flatMap (Stretch.maskedPieces mask) = stretches.flatMap Stretch.pieces := by
  induction stretches with
  | nil => rfl
  | cons stretch _ ih =>
    rw [List.any_cons, Bool.or_eq_true, not_or] at clean
    rw [List.flatMap_cons, List.flatMap_cons, ih clean.2]
    cases stretch with
    | kept => rfl
    | hit => exact absurd rfl clean.1

theorem Marked.maskedLexeme_same (mask : List Piece) (item : Marked) :
    Same item (item.maskedLexeme mask) := by
  rw [Same]
  by_cases touched : item.touched = true
  · rw [if_pos touched]
    cases item with
    | kept => cases touched
    | span => exact .inr rfl
    | string => exact .inr rfl
  · rw [if_neg touched]
    cases item with
    | kept => rfl
    | span => exact absurd rfl touched
    | string => exact congrArg Lexeme.string (stretches_unmasked mask touched)

theorem stretches_masked_text {mask : List Piece}
    (same : stretches.any Stretch.isHit = true → mask.flatMap Piece.text = text) :
    stretches.flatMap (Stretch.masked text) =
      (stretches.flatMap (Stretch.maskedPieces mask)).flatMap Piece.text := by
  induction stretches with
  | nil => rfl
  | cons stretch _ ih =>
    rw [List.flatMap_cons, List.flatMap_cons, List.flatMap_append,
      ih fun hit => same (by rw [List.any_cons, hit, Bool.or_true])]
    cases stretch with
    | kept => exact congrArg (· ++ _) (List.append_nil _).symm
    | hit => exact congrArg (· ++ _) (same rfl).symm

theorem Marked.maskedLexeme_text {mask : List Piece}
    (same : item.touched = true → mask.flatMap Piece.text = text) :
    item.masked text = (item.maskedLexeme mask).text := by
  cases item with
  | kept => rfl
  | span =>
    rw [Marked.maskedLexeme, Lexeme.text, same rfl]
    rfl
  | string =>
    rw [Marked.masked, Marked.maskedLexeme, Lexeme.text, stretches_masked_text same]

theorem Marked.maskedLexeme_kind (mask : List Piece) (item : Marked) :
    (item.lexeme.kind = none ∧ (item.maskedLexeme mask).kind = none) ∨
      ∃ kind other, item.lexeme.kind = some kind ∧
        (item.maskedLexeme mask).kind = some other ∧ Loosens kind other := by
  cases item with
  | kept lexeme =>
    cases kind : lexeme.kind with
    | none => exact .inl ⟨kind, kind⟩
    | some held => exact .inr ⟨held, held, kind, kind, .inl rfl⟩
  | span => exact .inr ⟨.scalar, .string, rfl, rfl, .inr ⟨rfl, rfl⟩⟩
  | string => exact .inr ⟨.string, .string, rfl, rfl, .inl rfl⟩

theorem maskedLexemes_loosen (mask : List Piece) (marked : List Marked) :
    List.Forall₂ Loosens ((marked.map Marked.lexeme).filterMap Lexeme.kind)
      ((marked.map (Marked.maskedLexeme mask)).filterMap Lexeme.kind) := by
  induction marked with
  | nil => exact .nil
  | cons item _ ih =>
    rw [List.map_cons, List.map_cons]
    obtain ⟨none, none'⟩ | ⟨kind, other, held, held', loosens⟩ := item.maskedLexeme_kind mask
    · rwa [List.filterMap_cons_none none, List.filterMap_cons_none none']
    · rw [List.filterMap_cons_some held, List.filterMap_cons_some held']
      exact .cons loosens ih

theorem Marked.maskedLexeme_token (mask : List Piece) (item : Marked) :
    isToken (item.maskedLexeme mask) = isToken item.lexeme := by
  obtain ⟨none, none'⟩ | ⟨kind, other, held, held', -⟩ := item.maskedLexeme_kind mask
  · rw [isToken, isToken, none, none']
  · rw [isToken, isToken, held, held']
    rfl

theorem maskedLexemes_same (mask : List Piece) (marked : List Marked) :
    List.Forall₂ Same (marked.filter fun item => isToken item.lexeme)
      ((marked.map (Marked.maskedLexeme mask)).filter isToken) := by
  have tokens : (isToken ∘ Marked.maskedLexeme mask) = fun item => isToken item.lexeme :=
    funext (Marked.maskedLexeme_token mask)
  rw [List.filter_map, tokens, List.forall₂_map_right_iff, List.forall₂_same]
  exact fun item _ => item.maskedLexeme_same mask

theorem exists_pieces (plain : ∀ unit ∈ mask, isInert unit = true)
    (printed : ∀ unit ∈ mask, 0x20 ≤ unit) :
    ∃ pieces : List Piece, pieces.flatMap Piece.text = mask := by
  induction mask with
  | nil => exact ⟨[], rfl⟩
  | cons unit _ ih =>
    obtain ⟨pieces, text⟩ := ih (fun other held => plain other (List.mem_cons_of_mem _ held))
      fun other held => printed other (List.mem_cons_of_mem _ held)
    refine ⟨.plain ⟨unit, plain unit List.mem_cons_self, printed unit List.mem_cons_self⟩ ::
      pieces, ?_⟩
    rw [List.flatMap_cons, text]
    rfl

variable {marked : List Marked}

theorem masked_keeps (document : Document (marked.map Marked.lexeme))
    (plain : ∀ unit ∈ mask, isInert unit = true)
    (printed : (∃ item ∈ marked, item.touched = true) → ∀ unit ∈ mask, 0x20 ≤ unit) :
    KeepsJson marked (marked.flatMap (Marked.masked mask)) := by
  have exists_mask : ∃ pieces : List Piece,
      (∃ item ∈ marked, item.touched = true) → pieces.flatMap Piece.text = mask := by
    by_cases touched : ∃ item ∈ marked, item.touched = true
    · obtain ⟨pieces, text⟩ := exists_pieces plain (printed touched)
      exact ⟨pieces, fun _ => text⟩
    · exact ⟨[], fun found => absurd found touched⟩
  obtain ⟨pieces, text⟩ := exists_mask
  refine ⟨marked.map (Marked.maskedLexeme pieces), ?_,
    Parses.loosened document (maskedLexemes_loosen pieces marked),
    maskedLexemes_same pieces marked⟩
  rw [textOf, List.flatMap_map]
  exact List.flatMap_congr fun item held =>
    Marked.maskedLexeme_text fun touched => text ⟨item, held, touched⟩

theorem Same.quotes_le (same : Same item lexeme) : lexeme.quotes ≤ item.quotes := by
  have most : lexeme.quotes ≤ 2 := by
    cases lexeme <;> simp [Lexeme.quotes]
  rw [Same] at same
  cases item with
  | kept =>
    obtain rfl := (if_neg Bool.false_ne_true).mp same
    exact Nat.le_refl _
  | span => exact most
  | string => exact most

theorem quotes_tokens (lexemes : List Lexeme) :
    ((lexemes.filter isToken).map Lexeme.quotes).sum = (lexemes.map Lexeme.quotes).sum := by
  induction lexemes with
  | nil => rfl
  | cons lexeme _ ih =>
    cases lexeme with
    | blank =>
      rw [List.filter_cons_of_neg (by exact Bool.false_ne_true), ih]
      exact (Nat.zero_add _).symm
    | _ =>
      rw [List.filter_cons_of_pos rfl, List.map_cons, List.sum_cons, ih]
      rfl

theorem marked_tokens_le (marked : List Marked) :
    ((marked.filter fun item => isToken item.lexeme).map Marked.quotes).sum ≤
      (marked.map Marked.quotes).sum := by
  induction marked with
  | nil => exact Nat.le_refl _
  | cons item rest ih =>
    rw [List.filter_cons]
    split
    · exact Nat.add_le_add_left ih _
    · exact Nat.le_trans ih (Nat.le_add_left _ _)

theorem same_quotes_le (same : List.Forall₂ Same items lexemes) :
    (lexemes.map Lexeme.quotes).sum ≤ (items.map Marked.quotes).sum := by
  induction same with
  | nil => exact Nat.le_refl _
  | cons first _ ih => exact Nat.add_le_add first.quotes_le ih

theorem Marked.quotes_even (item : Marked) : item.quotes % 2 = 0 := by
  cases item with
  | kept lexeme => exact lexeme.quotes_even
  | span => simp [Marked.quotes]
  | string => simp [Marked.quotes, Marked.lexeme, Lexeme.quotes]

theorem marked_even (marked : List Marked) : (marked.map Marked.quotes).sum % 2 = 0 := by
  induction marked with
  | nil => rfl
  | cons item =>
    have even := item.quotes_even
    rw [List.map_cons, List.sum_cons]
    omega

theorem marked_masked_read (plain : ∀ unit ∈ mask, isInert unit = true)
    (marked : List Marked) :
    Reads (marked.flatMap (Marked.masked mask)) (marked.map Marked.quotes).sum := by
  induction marked with
  | nil => exact .nil
  | cons item _ ih => exact (item.masked_reads plain).append ih

theorem Marked.touched_split (touched : item.touched = true)
    (plain : ∀ unit ∈ mask, isInert unit = true) :
    ∃ front back, item.masked mask = front ++ (mask ++ back) ∧ Reads front 1 := by
  cases item with
  | kept => cases touched
  | span => exact ⟨[0x22], [0x22], rfl, .quote .nil⟩
  | string =>
    obtain ⟨stretch, held, hit⟩ := List.any_eq_true.mp touched
    obtain ⟨front, back, rfl⟩ := List.append_of_mem held
    cases stretch with
    | kept => cases hit
    | hit =>
      refine ⟨0x22 :: front.flatMap (Stretch.masked mask),
        back.flatMap (Stretch.masked mask) ++ [0x22], ?_,
        .quote (stretches_masked_read plain front)⟩
      rw [Marked.masked, List.flatMap_append, List.flatMap_cons, Stretch.masked,
        List.append_assoc, List.append_assoc]
      rfl

theorem masked_printed (plain : ∀ unit ∈ mask, isInert unit = true)
    (text : marked.flatMap (Marked.masked mask) = textOf lexemes)
    (touched : ∃ item ∈ marked, item.touched = true) : ∀ unit ∈ mask, 0x20 ≤ unit := by
  intro unit held
  by_contra low
  obtain ⟨item, member, touched⟩ := touched
  obtain ⟨before, after, rfl⟩ := List.append_of_mem member
  obtain ⟨start, stop, split, opened⟩ := Marked.touched_split touched plain
  obtain ⟨first, second, rfl⟩ := List.append_of_mem held
  have inside : Reads first 0 :=
    reads_inert fun other found => plain other (List.mem_append_left _ found)
  have read := ((marked_masked_read plain before).append opened).append inside
  have whole : textOf lexemes =
      before.flatMap (Marked.masked (first ++ unit :: second)) ++ start ++ first ++
        unit :: (second ++ stop ++ after.flatMap (Marked.masked (first ++ unit :: second))) := by
    rw [← text, List.flatMap_append, List.flatMap_cons, split]
    simp only [List.append_assoc, List.cons_append]
  have odd := control_outside whole (UInt16.not_le.mp low) read
  have even := marked_even before
  omega

theorem keeps_json_iff {matched : List Units}
    (document : Document (marked.map Marked.lexeme))
    (plain : ∀ unit ∈ p.maskText, isInert unit = true)
    (found : p.accepted (sourceOf marked) = spansOf marked) :
    KeepsJson marked (applyPatterns (sourceOf marked) [p] matched).1 ↔
      hidden [] (segmentsOf marked) [] = true ∧
        ((∃ item ∈ marked, item.touched = true) → ∀ unit ∈ p.maskText, 0x20 ≤ unit) := by
  have standing : Standing [] marked := @document_standing [] marked document
  have run : (applyPatterns (sourceOf marked) [p] matched).1 =
      (Stage.run p.maskText ⟨[], [], []⟩ (segmentsOf marked) []).result := by
    rw [← segmentsOf_text] at found ⊢
    exact applyPatterns_run found
  have written (covered : hidden [] (segmentsOf marked) [] = true) :
      (Stage.run p.maskText ⟨[], [], []⟩ (segmentsOf marked) []).result =
        marked.flatMap (Marked.masked p.maskText) :=
    @marked_hidden p.maskText marked ⟨[], [], []⟩ standing covered
  rw [run]
  constructor
  · rintro ⟨lexemes, text, parsed, same⟩
    have covered : hidden [] (segmentsOf marked) [] = true := by
      by_contra shown
      obtain ⟨more, read, counted⟩ :=
        @marked_reads p.maskText marked ⟨[], [], []⟩ 0 plain standing .nil
      have fewer := same_quotes_le same
      rw [quotes_tokens] at fewer
      have bound := marked_tokens_le marked
      have total := (textOf_reads lexemes).unique (text ▸ read)
      have := counted (Bool.not_eq_true _ ▸ shown)
      omega
    rw [written covered] at text
    exact ⟨covered, masked_printed plain text⟩
  · rintro ⟨covered, printed⟩
    rw [written covered]
    exact masked_keeps document plain printed

theorem applyPatterns_keeps_json {marked : List Marked} {p : RedactionPattern}
    {matched : List Units} (document : Document (marked.map Marked.lexeme))
    (plain : ∀ unit ∈ p.maskText, isInert unit = true)
    (found : p.accepted (sourceOf marked) = spansOf marked) :
    KeepsJson marked (applyPatterns (sourceOf marked) [p] matched).1 ↔
      hidden [] (segmentsOf marked) [] = true ∧
        ((∃ item ∈ marked, item.touched = true) → ∀ unit ∈ p.maskText, 0x20 ≤ unit) :=
  keeps_json_iff document plain found

/-- `[-4]`, the digit found. -/
def signedItem : List Marked :=
  [.kept (.punct .openBracket), .span ⟨true, ⟨4, []⟩, nofun, none, none⟩ false,
    .kept (.punct .closeBracket)]

def digitPattern : RedactionPattern :=
  ⟨[0x64], none, true, fun out => if out[2]? = some 0x34 then [⟨2, 1⟩] else [], none⟩

theorem signedItem_kept :
    KeepsJson signedItem (applyPatterns (sourceOf signedItem) [digitPattern] []).1 := by
  have document : Document (signedItem.map Marked.lexeme) := .items (.lastItem .scalar)
  exact (applyPatterns_keeps_json document (Js.each_of_all (by decide)) rfl).mpr
    ⟨by decide, fun _ => Js.each_of_all (by decide)⟩

/-- `{"a":"x, 41, y"}`, the number found. -/
def proseLeaf : List Marked :=
  [.kept (.punct .openBrace), .kept (.string [.plain ⟨0x61, rfl, by decide⟩]),
    .kept (.punct .colon),
    .string [.kept (.plain ⟨0x78, rfl, by decide⟩), .kept (.plain ⟨0x2c, rfl, by decide⟩),
      .kept (.plain ⟨0x20, rfl, by decide⟩),
      .hit (⟨0x34, rfl, by decide⟩ :: List.replicate 15 ⟨0x31, rfl, by decide⟩) nofun,
      .kept (.plain ⟨0x2c, rfl, by decide⟩), .kept (.plain ⟨0x20, rfl, by decide⟩),
      .kept (.plain ⟨0x79, rfl, by decide⟩)],
    .kept (.punct .closeBrace)]

def cardPattern : RedactionPattern :=
  ⟨[0x63, 0x61, 0x72, 0x64], none, true,
    fun out => if out[9]? = some 0x34 then [⟨9, 16⟩] else [], none⟩

theorem proseLeaf_broken : Document (proseLeaf.map Marked.lexeme) ∧
      (∀ unit ∈ cardPattern.maskText, isInert unit = true) ∧
      cardPattern.accepted (sourceOf proseLeaf) = spansOf proseLeaf ∧
      ¬KeepsJson proseLeaf (applyPatterns (sourceOf proseLeaf) [cardPattern] []).1 := by
  have document : Document (proseLeaf.map Marked.lexeme) := .fields (.lastField .string)
  have plain : ∀ unit ∈ cardPattern.maskText, isInert unit = true :=
    Js.each_of_all (by decide)
  have found : cardPattern.accepted (sourceOf proseLeaf) = spansOf proseLeaf := rfl
  refine ⟨document, plain, found, fun kept => ?_⟩
  have covered := ((keeps_json_iff document plain found).mp kept).1
  revert covered
  decide

end Graphorin.Observability.Redaction
