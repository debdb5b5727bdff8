import OpenApiClient.TypeScript.Draft

/-!
# Misplaced Nodes

A draft becomes a source file exactly if every node stands where its family may stand. Otherwise the check
names the first node in document order that does not, a node coming before those inside it.

## Layers

- **Placements**: what a position calls for and what stands there, in document order (`placements`).
- **Judgements**: `Judges`, a result that is decided by placements, and how results in a row are decided
  (`Judges.append`).
- **Checks**: one case per kind of node (`judges_statement`, `judges_declaration`).
- **Files**: the drafts that are accepted are those of source files (`eq_draft_of_statement`).
- **Main statement**: `sourceText_eq_error_iff_first`.
-/

namespace OpenApiClient.TypeScript

/-! ## Placements -/

/-- The family of a node; what is no node has none. -/
def Draft.family? : Draft → Option Family
  | .line _ | .blank | .block _ _ _ => some .statement
  | .interface _ _ | .class _ _ _ => some .declaration
  | .foreign _ => none

/-- A position, by the family that it calls for, with what stands there. -/
structure Placement where
  expected : Family
  node : Draft
  deriving Repr

/-- Whether what stands at a position is of the family that is called for. -/
def Placement.Fits (placement : Placement) : Prop :=
  placement.node.family? = some placement.expected

instance (placement : Placement) : Decidable placement.Fits :=
  inferInstanceAs (Decidable (placement.node.family? = some placement.expected))

namespace Draft

mutual

/-- A position for a statement, and the positions inside what stands there: those of a block's body. -/
def statementPlacements : Draft → List Placement
  | .block opener body closer =>
    ⟨.statement, .block opener body closer⟩ :: bodyPlacements body
  | node => [⟨.statement, node⟩]
termination_by structural node => node

/-- The positions of a body. -/
def bodyPlacements : List Draft → List Placement
  | [] => []
  | node :: nodes => node.statementPlacements ++ bodyPlacements nodes
termination_by structural nodes => nodes

end

/-- A position for a declaration, and the positions inside what stands there: those of the bodies of a
class's methods. -/
def declarationPlacements : Draft → List Placement
  | .class name fields methods =>
    ⟨.declaration, .class name fields methods⟩ ::
      methods.flatMap fun method => bodyPlacements method.body
  | node => [⟨.declaration, node⟩]

/-- The positions of a drafted source file, in document order. -/
def placements (nodes : List Draft) : List Placement :=
  nodes.flatMap declarationPlacements

end Draft

/-- Whether a node is the first among placements that does not fit. -/
def IsFirstMisplaced (placements : List Placement) (misplaced : Misplaced) : Prop :=
  ∃ before after, placements = before ++ ⟨misplaced.expected, misplaced.node⟩ :: after ∧
    (∀ placement ∈ before, placement.Fits) ∧ ¬ Placement.Fits ⟨misplaced.expected, misplaced.node⟩

/-! ## Judgements -/

section

variable {α β : Type} {placements others : List Placement} {misplaced : Misplaced}
  {result : Except Misplaced α}

theorem isFirstMisplaced_iff :
    IsFirstMisplaced placements misplaced ↔
      placements.find? (¬ Placement.Fits ·) = some ⟨misplaced.expected, misplaced.node⟩ := by
  rw [List.find?_eq_some_iff_append]
  constructor
  · rintro ⟨before, after, hplacements, hbefore, hmisplaced⟩
    exact ⟨by simpa using hmisplaced, before, after, hplacements, by simpa using hbefore⟩
  · rintro ⟨hmisplaced, before, after, hplacements, hbefore⟩
    exact ⟨before, after, hplacements, by simpa using hbefore, by simpa using hmisplaced⟩

theorem IsFirstMisplaced.unique {other : Misplaced} (h : IsFirstMisplaced placements misplaced)
    (hother : IsFirstMisplaced placements other) : misplaced = other := by
  rw [isFirstMisplaced_iff] at h hother
  obtain ⟨hexpected, hnode⟩ := Placement.mk.inj (Option.some.inj (h.symm.trans hother))
  cases misplaced
  cases other
  simp_all

theorem IsFirstMisplaced.exists_misfit (h : IsFirstMisplaced placements misplaced) :
    ∃ placement ∈ placements, ¬ placement.Fits := by
  obtain ⟨before, after, rfl, -, hmisplaced⟩ := h
  exact ⟨_, by simp, hmisplaced⟩

/-- Whether placements decide a result: there is a value when all of them fit, and an error that names the
first misfit otherwise. -/
inductive Judges : List Placement → Except Misplaced α → Prop
  | accepted {placements : List Placement} {value : α} :
      (∀ placement ∈ placements, placement.Fits) → Judges placements (.ok value)
  | refused {placements : List Placement} {misplaced : Misplaced} :
      IsFirstMisplaced placements misplaced → Judges placements (.error misplaced)

namespace Judges

theorem map (h : Judges placements result) (f : α → β) : Judges placements (result.map f) := by
  cases h with
  | accepted hfits => exact .accepted hfits
  | refused hfirst => exact .refused hfirst

theorem misfit {placement : Placement} (h : ¬ placement.Fits) :
    Judges [placement] (.error ⟨placement.expected, placement.node⟩ : Except Misplaced α) :=
  .refused ⟨[], [], rfl, nofun, h⟩

/-- When the first result is a value, the second one decides; otherwise its error stays. -/
theorem append {next : α → Except Misplaced β} (h : Judges placements result)
    (hnext : ∀ value, Judges others (next value)) : Judges (placements ++ others) (result.bind next) := by
  cases h with
  | @accepted value hfits =>
    show Judges _ (next value)
    have hsecond := hnext value
    generalize next value = second at hsecond
    cases hsecond with
    | accepted hothers => exact .accepted (List.forall_mem_append.mpr ⟨hfits, hothers⟩)
    | refused hfirst =>
      obtain ⟨before, after, rfl, hbefore, hmisplaced⟩ := hfirst
      refine .refused ⟨placements ++ before, after, (List.append_assoc ..).symm, ?_, hmisplaced⟩
      exact List.forall_mem_append.mpr ⟨hfits, hbefore⟩
  | refused hfirst =>
    obtain ⟨before, after, rfl, hbefore, hmisplaced⟩ := hfirst
    exact .refused ⟨before, after ++ others, List.append_assoc .., hbefore, hmisplaced⟩

/-- What fits itself is decided by what stands inside it. -/
theorem cons {placement : Placement} (hfits : placement.Fits) (h : Judges placements result) :
    Judges (placement :: placements) result := by
  have hself : Judges [placement] (.ok () : Except Misplaced Unit) := .accepted (by simpa using hfits)
  exact hself.append fun _ => h

theorem eq_error_iff (h : Judges placements result) :
    result = .error misplaced ↔ IsFirstMisplaced placements misplaced := by
  cases h with
  | accepted hfits =>
    refine ⟨nofun, fun hfirst => ?_⟩
    obtain ⟨placement, hmem, hmisfit⟩ := hfirst.exists_misfit
    exact absurd (hfits placement hmem) hmisfit
  | refused hfirst =>
    refine ⟨fun heq => Except.error.inj heq ▸ hfirst, fun hother => ?_⟩
    rw [hfirst.unique hother]

theorem exists_eq_error_iff (h : Judges placements result) :
    (∃ misplaced, result = .error misplaced) ↔ ∃ placement ∈ placements, ¬ placement.Fits := by
  cases h with
  | accepted hfits =>
    refine ⟨nofun, fun ⟨placement, hmem, hmisfit⟩ => ?_⟩
    exact absurd (hfits placement hmem) hmisfit
  | refused hfirst => exact ⟨fun _ => hfirst.exists_misfit, fun _ => ⟨_, rfl⟩⟩

theorem exists_eq_ok_iff (h : Judges placements result) :
    (∃ value, result = .ok value) ↔ ∀ placement ∈ placements, placement.Fits := by
  cases h with
  | accepted hfits => exact ⟨fun _ => hfits, fun _ => ⟨_, rfl⟩⟩
  | refused hfirst =>
    refine ⟨nofun, fun hfits => ?_⟩
    obtain ⟨placement, hmem, hmisfit⟩ := hfirst.exists_misfit
    exact absurd (hfits placement hmem) hmisfit

/-- Results that are collected in order are decided by all their placements in a row. -/
theorem mapM {items : List α} {places : α → List Placement} {check : α → Except Misplaced β}
    (h : ∀ item ∈ items, Judges (places item) (check item)) :
    Judges (items.flatMap places) (items.mapM check) := by
  induction items with
  | nil => exact .accepted nofun
  | cons item items ih =>
    obtain ⟨hitem, hitems⟩ := List.forall_mem_cons.mp h
    rw [List.flatMap_cons, List.mapM_cons]
    exact hitem.append fun value => (ih hitems).map (value :: ·)

end Judges

end

/-! ## Checks -/

namespace Draft

theorem statement_block (opener : Text) (body : List Draft) (closer : Text) :
    statement (.block opener body closer) =
      (statements body).map fun body => .block opener body closer := by
  rw [statement]
  cases statements body <;> rfl

theorem statements_cons (node : Draft) (nodes : List Draft) :
    statements (node :: nodes) =
      node.statement.bind fun first => (statements nodes).map (first :: ·) := by
  rw [statements]
  cases node.statement with
  | error misplaced => rfl
  | ok first => cases statements nodes <;> rfl

mutual

/-- The check of a statement is decided by its positions. -/
theorem judges_statement : (node : Draft) → Judges node.statementPlacements node.statement
  | .line text => .accepted (by simp [statementPlacements, Placement.Fits, family?])
  | .blank => .accepted (by simp [statementPlacements, Placement.Fits, family?])
  | .block opener body closer => by
    rw [statement_block]
    exact ((judges_statements body).map _).cons rfl
  | .interface name members => .misfit (by simp [Placement.Fits, family?])
  | .class name fields methods => .misfit (by simp [Placement.Fits, family?])
  | .foreign text => .misfit (by simp [Placement.Fits, family?])

/-- The check of a body is decided by its positions. -/
theorem judges_statements : (nodes : List Draft) → Judges (bodyPlacements nodes) (statements nodes)
  | [] => .accepted nofun
  | node :: nodes => by
    rw [statements_cons]
    exact (judges_statement node).append fun first => (judges_statements nodes).map (first :: ·)

end

theorem judges_declaration (node : Draft) : Judges node.declarationPlacements node.declaration := by
  cases node with
  | interface name members => exact .accepted (by simp [declarationPlacements, Placement.Fits, family?])
  | «class» name fields methods =>
    have hmethods : ∀ draft ∈ methods, Judges (bodyPlacements draft.body) (method draft) :=
      fun draft _ => (judges_statements draft.body).map _
    exact ((Judges.mapM hmethods).map _).cons rfl
  | line text => exact .misfit (by simp [Placement.Fits, family?])
  | blank => exact .misfit (by simp [Placement.Fits, family?])
  | block opener body closer => exact .misfit (by simp [Placement.Fits, family?])
  | foreign text => exact .misfit (by simp [Placement.Fits, family?])

theorem judges_sourceText (comments : List Text) (nodes : List Draft) :
    Judges (placements nodes) (sourceText comments nodes) :=
  (Judges.mapM fun node _ => judges_declaration node).map _

end Draft

/-! ## Files -/

mutual

/-- A statement as a draft. -/
def Statement.draft : Statement → Draft
  | .line text => .line text
  | .blank => .blank
  | .block opener body closer => .block opener (drafts body) closer
termination_by structural statement => statement

/-- Statements as drafts. -/
def drafts : List Statement → List Draft
  | [] => []
  | statement :: statements => statement.draft :: drafts statements
termination_by structural statements => statements

end

/-- A method as a method of drafts. -/
def Method.draft (method : Method Statement) : Method Draft :=
  { method with body := drafts method.body }

/-- A declaration as a draft. -/
def Declaration.draft : Declaration → Draft
  | .interface ⟨name, members⟩ => .interface name members
  | .class ⟨name, fields, methods⟩ => .class name fields (methods.map Method.draft)

namespace Draft

theorem map_eq_ok_iff {ε α β : Type} {f : α → β} {result : Except ε α} {value : β} :
    result.map f = .ok value ↔ ∃ own, result = .ok own ∧ f own = value := by
  cases result <;> simp [Except.map]

theorem bind_eq_ok_iff {ε α β : Type} {next : α → Except ε β} {result : Except ε α} {value : β} :
    result.bind next = .ok value ↔ ∃ own, result = .ok own ∧ next own = .ok value := by
  cases result <;> simp [Except.bind]

mutual

/-- A draft that is accepted as a statement is that of the statement. -/
theorem eq_draft_of_statement : (node : Draft) → ∀ {result : Statement},
    node.statement = .ok result → node = result.draft
  | .line text, _, h => by
    obtain rfl := Except.ok.inj h
    rfl
  | .blank, _, h => by
    obtain rfl := Except.ok.inj h
    rfl
  | .block opener body closer, _, h => by
    rw [statement_block, map_eq_ok_iff] at h
    obtain ⟨own, hbody, rfl⟩ := h
    rw [Statement.draft, ← eq_drafts_of_statements body hbody]

theorem eq_drafts_of_statements : (nodes : List Draft) → ∀ {result : List Statement},
    statements nodes = .ok result → nodes = drafts result
  | [], _, h => by
    obtain rfl := Except.ok.inj h
    rfl
  | node :: nodes, _, h => by
    rw [statements_cons, bind_eq_ok_iff] at h
    obtain ⟨first, hfirst, h⟩ := h
    obtain ⟨rest, hrest, rfl⟩ := map_eq_ok_iff.mp h
    rw [drafts, ← eq_draft_of_statement node hfirst, ← eq_drafts_of_statements nodes hrest]

end

theorem eq_map_of_mapM {ε α β : Type} {check : α → Except ε β} {back : β → α}
    (h : ∀ item value, check item = .ok value → item = back value) {items : List α} {values : List β}
    (hvalues : items.mapM check = .ok values) : items = values.map back := by
  induction items generalizing values with
  | nil =>
    obtain rfl := Except.ok.inj hvalues
    rfl
  | cons item items ih =>
    rw [List.mapM_cons] at hvalues
    obtain ⟨first, hfirst, hlater⟩ := bind_eq_ok_iff.mp hvalues
    obtain ⟨rest, hrest, hlist⟩ := bind_eq_ok_iff.mp hlater
    obtain rfl := Except.ok.inj hlist
    rw [List.map_cons, ← h item first hfirst, ← ih hrest]

theorem eq_draft_of_method {draft : Method Draft} {result : Method Statement}
    (h : method draft = .ok result) : draft = result.draft := by
  obtain ⟨body, hbody, rfl⟩ := map_eq_ok_iff.mp h
  simp only [Method.draft, ← eq_drafts_of_statements draft.body hbody]

theorem eq_draft_of_declaration {node : Draft} {result : Declaration}
    (h : node.declaration = .ok result) : node = result.draft := by
  cases node with
  | interface name members =>
    obtain rfl := Except.ok.inj h
    rfl
  | «class» name fields methods =>
    obtain ⟨own, hmethods, rfl⟩ := map_eq_ok_iff.mp h
    rw [Declaration.draft, ← eq_map_of_mapM (fun _ _ => eq_draft_of_method) hmethods]
  | line text => contradiction
  | blank => contradiction
  | block opener body closer => contradiction
  | foreign text => contradiction

/-! ## Main statement -/

/-- **The first misplaced node is named.** Drafts are refused exactly if some position does not hold what it
calls for, and the error names the first such position in document order, with the family that it calls for.
Otherwise they are those of a source file, and its text is given. -/
theorem sourceText_eq_error_iff_first (comments : List Text) (nodes : List Draft) :
    (∀ misplaced, sourceText comments nodes = .error misplaced ↔
      IsFirstMisplaced (placements nodes) misplaced) ∧
    ((∃ misplaced, sourceText comments nodes = .error misplaced) ↔
      ∃ placement ∈ placements nodes, ¬ placement.Fits) ∧
    ((∃ file : SourceFile, file.comments = comments ∧ file.declarations.map Declaration.draft = nodes ∧
        sourceText comments nodes = .ok file.text) ↔
      ∀ placement ∈ placements nodes, placement.Fits) := by
  have hjudges := judges_sourceText comments nodes
  refine ⟨fun _ => hjudges.eq_error_iff, hjudges.exists_eq_error_iff, ?_⟩
  rw [← hjudges.exists_eq_ok_iff]
  constructor
  · rintro ⟨file, -, -, htext⟩
    exact ⟨_, htext⟩
  · rintro ⟨text, htext⟩
    obtain ⟨declarations, hnodes, rfl⟩ := map_eq_ok_iff.mp htext
    exact ⟨⟨comments, declarations⟩, rfl, (eq_map_of_mapM (fun _ _ => eq_draft_of_declaration) hnodes).symm,
      htext⟩

end Draft

end OpenApiClient.TypeScript
