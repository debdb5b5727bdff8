import OpenApiClient.Proofs.Path.Filling
import OpenApiClient.Proofs.Path.Literal

/-!
# The Value of the Request Path

The request path of a method is the source text of a string literal. It is right when, whatever the
path parameters are, its value is the path with every placeholder replaced by its parameter. The path
is pasted into the literal as it stands, so this depends on the path: `evaluatesRight_iff`
says on what exactly.

## Layers

- **Pieces of a path**: `pathPieces`, what the literal is meant to consist of.
- **Expansion**: the value of pieces, and that the values under all assignments determine the pieces.
- **Weights**: filling placeholders keeps the weight of a path, so that a literal with the right
  pieces is their text.
- **Main statement**: `evaluatesRight_iff`, refuted without its condition for a path with an
  apostrophe.
-/

namespace OpenApiClient.Client

open OpenApiClient.TypeScript (Alphabet Piece Quote ReadsBack evaluate readLiteral readPieces render
  textWeight weight)

/-! ## Assignments -/

/-- The values of the identifiers in scope. -/
def assign (identifiers : List Text) (value : Text → Text) (name : Text) : Option Text :=
  if identifiers.contains name then some (value name) else none

/-- The kind of literal for a request path. -/
def pathQuote (operation : Operation) : Quote :=
  if (pathParameterNames operation).isEmpty then .single else .template

/-- The request path between its marks; without path parameters the path is left as it is. -/
theorem pathExpression_eq_quoted (path : Text) (operation : Operation) :
    pathExpression path operation = (pathQuote operation).mark ::
      ((pathParameterNames operation).foldl fillPlaceholder path ++
        [(pathQuote operation).mark]) := by
  unfold pathExpression pathQuote
  cases pathParameterNames operation with
  | nil => rfl
  | cons name names => rfl

/-! ## Pieces of a path -/

/-- What a segment is meant to be in the literal. -/
def Segment.piece : Segment → Piece
  | .literal point => .point point
  | .hole name => .reference (camelCase name)

/-- What the literal of a path is meant to consist of. -/
def pathPieces (names : List Text) (path : Text) : List Piece :=
  (segments names path).map Segment.piece

theorem render_pathPieces (names : List Text) (path : Text) :
    render (pathPieces names path) = substitute names interpolation path := by
  rw [render, pathPieces, List.flatMap_map, substitute]
  congr 1
  funext segment
  cases segment <;> rfl

theorem mem_identifiers_of_mem_pathPieces {names : List Text} {path name : Text}
    (h : .reference name ∈ pathPieces names path) : name ∈ names.map camelCase := by
  obtain ⟨segment, hsegment, heq⟩ := List.mem_map.mp h
  cases segment with
  | literal point => contradiction
  | hole declared =>
    rw [← Piece.reference.inj heq]
    exact List.mem_map_of_mem (mem_of_hole_mem_segments path hsegment)

/-! ## Expansion -/

/-- The text of a piece when every reference has a value. -/
def expandPiece (value : Text → Text) : Piece → Text
  | .point code => [code]
  | .reference name => value name

/-- The text of pieces when every reference has a value. -/
def expand (value : Text → Text) (pieces : List Piece) : Text :=
  pieces.flatMap (expandPiece value)

theorem expand_cons (value : Text → Text) (piece : Piece) (pieces : List Piece) :
    expand value (piece :: pieces) = expandPiece value piece ++ expand value pieces := by
  rw [expand, List.flatMap_cons, expand]

theorem expand_pathPieces (names : List Text) (value : Text → Text) (path : Text) :
    expand value (pathPieces names path) =
      substitute names (fun name => value (camelCase name)) path := by
  rw [expand, pathPieces, List.flatMap_map, substitute]
  congr 1
  funext segment
  cases segment <;> rfl

/-- Pieces have a value when all their references are in scope: then it is their expansion. -/
theorem mapM_value?_eq_some_iff {identifiers : List Text} {value : Text → Text}
    {pieces : List Piece} {text : Text} :
    (pieces.mapM (Piece.value? (assign identifiers value))).map List.flatten = some text ↔
      (∀ name, .reference name ∈ pieces → name ∈ identifiers) ∧ expand value pieces = text := by
  induction pieces generalizing text with
  | nil => simp [expand]
  | cons piece pieces ih =>
    -- A piece has a value when it is a point, or a reference in scope.
    have hvalue : ∀ texts, Piece.value? (assign identifiers value) piece = some texts ↔
        (∀ name, piece = .reference name → name ∈ identifiers) ∧ expandPiece value piece = texts := by
      intro texts
      cases piece with
      | point code => simp [Piece.value?, expandPiece]
      | reference name => simp [Piece.value?, assign, expandPiece]
    simp only [List.mapM_cons, Option.pure_def, Option.bind_eq_bind, Option.map_eq_some_iff,
      Option.bind_eq_some_iff, hvalue, expand_cons, List.mem_cons] at ih ⊢
    constructor
    · rintro ⟨texts, ⟨first, ⟨hfirst, rfl⟩, others, hothers, htexts⟩, rfl⟩
      obtain rfl : expandPiece value piece :: others = texts := Option.some.inj htexts
      obtain ⟨hscope, hexpand⟩ := ih.mp ⟨others, hothers, rfl⟩
      refine ⟨?_, by rw [List.flatten_cons, hexpand]⟩
      rintro name (hname | hname)
      · exact hfirst name hname.symm
      · exact hscope name hname
    · rintro ⟨hscope, rfl⟩
      obtain ⟨others, hothers, hflatten⟩ :=
        ih.mpr ⟨fun name hname => hscope name (.inr hname), rfl⟩
      exact ⟨_, ⟨_, ⟨fun name hname => hscope name (.inl hname.symm), rfl⟩, others, hothers, rfl⟩,
        by rw [List.flatten_cons, hflatten]⟩

/-- The expansions under all assignments determine the pieces. -/
theorem eq_of_expand_eq {pieces others : List Piece}
    (h : ∀ value, expand value pieces = expand value others) : pieces = others := by
  -- A reference gives way to any text, so neither a point, nor another reference, nor the end of the
  -- pieces can stand in its place.
  have hpoint : ∀ {code name rest rest'},
      ¬ ∀ value, expand value (.point code :: rest) = expand value (.reference name :: rest') := by
    intro code name rest rest' hall
    obtain ⟨other, hother⟩ : ∃ other, other ≠ code :=
      if hcode : code = dollar then ⟨openBrace, hcode ▸ by decide⟩ else ⟨dollar, Ne.symm hcode⟩
    have hvalue := hall fun _ => [other]
    rw [expand_cons, expand_cons] at hvalue
    exact hother (List.cons.inj hvalue).1.symm
  have hnil : ∀ {piece rest}, ¬ ∀ value, expand value [] = expand value (piece :: rest) := by
    intro piece rest hall
    have hvalue := hall fun _ => [dollar]
    rw [expand_cons] at hvalue
    cases piece <;> contradiction
  have hrest : ∀ {piece rest rest'},
      (∀ value, expand value (piece :: rest) = expand value (piece :: rest')) →
        ∀ value, expand value rest = expand value rest' := by
    intro piece rest rest' hall value
    have hvalue := hall value
    rw [expand_cons, expand_cons] at hvalue
    exact List.append_cancel_left hvalue
  induction pieces generalizing others with
  | nil =>
    cases others with
    | nil => rfl
    | cons other others => exact absurd h hnil
  | cons piece pieces ih =>
    cases others with
    | nil => exact absurd (fun value => (h value).symm) hnil
    | cons other others =>
      suffices hsame : piece = other by
        subst hsame
        rw [ih (hrest h)]
      cases piece with
      | point code =>
        cases other with
        | reference name => exact absurd h hpoint
        | point code' =>
          have hvalue := h fun _ => []
          rw [expand_cons, expand_cons] at hvalue
          rw [(List.cons.inj hvalue).1]
      | reference name =>
        cases other with
        | point code => exact absurd (fun value => (h value).symm) hpoint
        | reference name' =>
          by_cases hname : name = name'
          · rw [hname]
          · have hvalue := h fun n => if n = name then [dollar] else [openBrace]
            rw [expand_cons, expand_cons, expandPiece, expandPiece, if_pos rfl,
              if_neg (Ne.symm hname)] at hvalue
            exact absurd (List.cons.inj hvalue).1 (by decide)

/-! ## Weights -/

private theorem weight_eq_zero (point : CodePoint) (h : ¬ point.is isCaseless) :
    weight point = 0 := by
  unfold weight
  rw [if_neg, if_neg]
  · rintro (rfl | rfl) <;> exact h (by decide)
  · rintro rfl
    exact h (by decide)

theorem textWeight_interpolation (name : Text) :
    textWeight (interpolation name) = textWeight (placeholder name) := by
  have hname : textWeight (camelCase name) = textWeight name :=
    totalWeight_camelCase weight weight_eq_zero name
  have hdollar : weight dollar = 0 := by decide
  simp only [interpolation_eq, placeholder_eq, TypeScript.textWeight_cons,
    TypeScript.textWeight_append, hname, hdollar, Nat.zero_add]

theorem textWeight_replaceAll {x : CodePoint} {pattern replacement : Text}
    (h : textWeight replacement = textWeight (x :: pattern)) (text : Text) :
    textWeight (Text.replaceAll (x :: pattern) replacement text) = textWeight text := by
  -- An occurrence leaves the text after it, any other place the text after one point.
  induction hlength : text.length using Nat.strongRecOn generalizing text with
  | _ length ih =>
    cases text with
    | nil => rfl
    | cons point rest =>
      by_cases hprefix : (x :: pattern).isPrefixOf (point :: rest)
      · obtain ⟨after, hafter⟩ := List.isPrefixOf_iff_prefix.mp hprefix
        have hshorter : after.length < length := by
          rw [← hlength, ← hafter, List.length_append, List.length_cons]
          omega
        rw [← hafter, Text.replaceAll_append, TypeScript.textWeight_append,
          TypeScript.textWeight_append, ih after.length hshorter after rfl, h]
      · have hshorter : rest.length < length := hlength ▸ Nat.lt_succ_self _
        rw [Text.replaceAll_cons replacement hprefix, TypeScript.textWeight_cons,
          TypeScript.textWeight_cons, ih rest.length hshorter rest rfl]

/-- No step makes the path lighter or heavier. -/
theorem textWeight_foldl_fillPlaceholder (names : List Text) (path : Text) :
    textWeight (names.foldl fillPlaceholder path) = textWeight path := by
  induction names generalizing path with
  | nil => rfl
  | cons name names ih =>
    rw [List.foldl_cons, ih, fillPlaceholder, placeholder_eq]
    exact textWeight_replaceAll (textWeight_interpolation name) path

theorem textWeight_substitute_interpolation (names : List Text) (path : Text) :
    textWeight (substitute names interpolation path) = textWeight path := by
  induction path using segmentsInduction names with
  | nil => rfl
  | hole name rest hfound ih =>
    rw [substitute_hole _ hfound, TypeScript.textWeight_append, TypeScript.textWeight_append, ih,
      textWeight_interpolation]
  | literal point rest hnone ih =>
    rw [substitute_literal _ hnone, TypeScript.textWeight_cons, TypeScript.textWeight_cons, ih]

/-! ## The value of the request path -/

/-- Whether the source of a request path has the right value under every assignment to the
identifiers of the path parameters: the path with the value of its parameter in every hole. -/
def EvaluatesRight (alphabet : Alphabet) (path : Text) (operation : Operation) : Prop :=
  ∀ value : Text → Text,
    evaluate alphabet (pathQuote operation)
        (assign ((pathParameterNames operation).map camelCase) value)
        (pathExpression path operation) =
      some (substitute (pathParameterNames operation) (fun name => value (camelCase name)) path)

/-- What the literal of a request path consists of, when it is read and all values come out right. -/
theorem readPieces_of_evaluatesRight {alphabet : Alphabet} {path : Text} {operation : Operation}
    (h : EvaluatesRight alphabet path operation) :
    readPieces alphabet (pathQuote operation)
        ((pathParameterNames operation).foldl fillPlaceholder path ++
          [(pathQuote operation).mark]) =
      some (pathPieces (pathParameterNames operation) path) := by
  have hread : ∀ value, ∃ pieces,
      readPieces alphabet (pathQuote operation)
          ((pathParameterNames operation).foldl fillPlaceholder path ++
            [(pathQuote operation).mark]) = some pieces ∧
        expand value pieces = expand value (pathPieces (pathParameterNames operation) path) := by
    intro value
    obtain ⟨pieces, hpieces, hvalue⟩ := Option.bind_eq_some_iff.mp (h value)
    rw [pathExpression_eq_quoted, TypeScript.readLiteral_mark] at hpieces
    exact ⟨pieces, hpieces, by rw [(mapM_value?_eq_some_iff.mp hvalue).2, expand_pathPieces]⟩
  -- The pieces do not depend on the values, so all their expansions are known.
  obtain ⟨pieces, hpieces, -⟩ := hread fun _ => []
  have hsame : pieces = pathPieces (pathParameterNames operation) path := by
    apply eq_of_expand_eq
    intro value
    obtain ⟨pieces', hpieces', hvalue⟩ := hread value
    obtain rfl : pieces = pieces' := Option.some.inj (hpieces.symm.trans hpieces')
    exact hvalue
  rw [hpieces, hsame]

/-- A request path with the right values has been filled at once, and its pieces read back. -/
theorem readsBack_of_evaluatesRight {alphabet : Alphabet} {path : Text} {operation : Operation}
    (h : EvaluatesRight alphabet path operation) :
    (pathParameterNames operation).foldl fillPlaceholder path =
        substitute (pathParameterNames operation) interpolation path ∧
      ReadsBack alphabet (pathQuote operation) (pathPieces (pathParameterNames operation) path) := by
  -- Reading loses no weight here, so that the text between the marks is that of the pieces.
  obtain ⟨body, hbody, -, hsame⟩ :=
    TypeScript.readPieces_weight (readPieces_of_evaluatesRight h)
  obtain rfl := List.append_cancel_right hbody
  rw [render_pathPieces, textWeight_foldl_fillPlaceholder,
    textWeight_substitute_interpolation] at hsame
  exact hsame rfl

/-- A request path that has been filled at once and whose pieces read back has the right values. -/
theorem evaluatesRight_of_readsBack {alphabet : Alphabet} {path : Text} {operation : Operation}
    (honce : (pathParameterNames operation).foldl fillPlaceholder path =
      substitute (pathParameterNames operation) interpolation path)
    (hback : ReadsBack alphabet (pathQuote operation)
      (pathPieces (pathParameterNames operation) path)) :
    EvaluatesRight alphabet path operation := by
  intro value
  rw [evaluate, pathExpression_eq_quoted, TypeScript.readLiteral_mark, honce,
    ← render_pathPieces, TypeScript.readPieces_render hback, Option.bind_some,
    mapM_value?_eq_some_iff]
  exact ⟨fun name hname => mem_identifiers_of_mem_pathPieces hname, expand_pathPieces _ _ _⟩

/-- **The value of the request path.** The request path is a complete literal with the right value
under every assignment exactly when filling the placeholders in sequence has filled them at once, and
the path can stand between the marks as it is. For names without braces the former means that no
placeholder of the path is filled a second time, for a later name spelled like its identifier. -/
theorem evaluatesRight_iff (alphabet : Alphabet) (path : Text) (operation : Operation) :
    (EvaluatesRight alphabet path operation ↔
      (pathParameterNames operation).foldl fillPlaceholder path =
          substitute (pathParameterNames operation) interpolation path ∧
        ReadsBack alphabet (pathQuote operation)
          (pathPieces (pathParameterNames operation) path)) ∧
      ((∀ name ∈ pathParameterNames operation, IsBraceless name) →
        ((pathParameterNames operation).foldl fillPlaceholder path =
            substitute (pathParameterNames operation) interpolation path ↔
          ∀ name, .hole name ∈ segments (pathParameterNames operation) path →
            ¬ [name, camelCase name].Sublist (pathParameterNames operation))) := by
  constructor
  · constructor
    · exact readsBack_of_evaluatesRight
    · rintro ⟨honce, hback⟩
      exact evaluatesRight_of_readsBack honce hback
  · exact foldl_fillPlaceholder_eq_iff path

/-- Two path parameters, one of them spelled with a capital. -/
theorem evaluatesRight_iff_pets :
    let operation : Operation :=
      { parameters :=
          [{ name := "Owner", location := "path" }, { name := "pet", location := "path" }] }
    let path : Text := "/\x7bOwner\x7d/it's/\x7bpet\x7d"
    (∀ name ∈ pathParameterNames operation, IsBraceless name) ∧
      EvaluatesRight .plain path operation := by
  intro operation path
  have hbraceless : ∀ name ∈ pathParameterNames operation, IsBraceless name := by decide
  have hmain := evaluatesRight_iff .plain path operation
  refine ⟨hbraceless, hmain.1.mpr ⟨(hmain.2 hbraceless).mpr fun name hhole => ?_, ?_⟩⟩
  · have hunshadowed : ∀ name ∈ pathParameterNames operation,
        ¬ [name, camelCase name].Sublist (pathParameterNames operation) := by decide
    exact hunshadowed name (mem_of_hole_mem_segments path hhole)
  · have hbrace : .point openBrace ∉ pathPieces (pathParameterNames operation) path := by decide
    exact ⟨by decide, fun _ hwithin => hbrace (hwithin.subset (by simp))⟩

/-- Between single quotes an apostrophe ends the literal. -/
theorem not_evaluatesRight_apostrophe : ¬ EvaluatesRight .plain "/it's" {} := by
  intro hright
  have hself := (readsBack_of_evaluatesRight hright).2.each (.point (.char '\x27')) (by decide)
  exact absurd hself (by decide)

/-- A later parameter spelled like an earlier identifier fills its placeholder a second time. -/
example :
    pathExpression "/\x7bId\x7d/\x7bid\x7d"
      { parameters :=
          [{ name := "Id", location := "path" }, { name := "id", location := "path" }] } =
      "`/$$\x7bid\x7d/$\x7bid\x7d`" := by
  decide

end OpenApiClient.Client
