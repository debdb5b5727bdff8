import OpenApiClient.Proofs.LowerCase
import OpenApiClient.Proofs.Path.Segments

/-!
# Filling a Path Template

The placeholders of a path template are filled one name after the other, and each step runs over the
text that the earlier ones have written. For names without braces the steps do not disturb the
reading of the template: every step acts on each hole by itself. What happens to one hole is then a
matter of the list of names alone, and distinct identifiers make it the same as filling all holes at
once.

## Layers

- **Holes**: `holeText count name`, a placeholder after some dollar signs, is what a hole can hold.
- **One step**: `fillPlaceholder_substitute`, filling acts on the holes and nothing else.
- **All steps**: `foldl_fillPlaceholder`, by induction on the names.
- **One hole**: `holeAfter` follows a single hole; `holeAfter_eq_interpolation_iff` says when it ends
  as one interpolation.
- **Main statement**: `pathExpression_eq_substitute`.
-/

namespace OpenApiClient.Client

open OpenApiClient.Text

/-! ## Names without braces -/

/-- A name that contains no brace. -/
def IsBraceless (name : Text) : Prop :=
  openBrace ∉ name ∧ closeBrace ∉ name

instance (name : Text) : Decidable (IsBraceless name) :=
  inferInstanceAs (Decidable (_ ∧ _))

theorem isBraceless_camelCase {name : Text} (h : IsBraceless name) :
    IsBraceless (camelCase name) := by
  rw [IsBraceless, caseless_mem_camelCase (by decide), caseless_mem_camelCase (by decide)]
  exact h

/-- Of two names without braces, only the same one begins the text that follows an opened brace. -/
theorem placeholder_prefix_inj {name other rest : Text} (hname : IsBraceless name)
    (hother : IsBraceless other) (h : placeholder name <+: placeholder other ++ rest) :
    name = other := by
  rw [placeholder_eq, placeholder_eq, List.cons_append, List.cons_prefix_cons] at h
  -- Where one of the names ends, its closing brace meets a point of the other one, or its end.
  replace h := h.2
  induction name generalizing other with
  | nil =>
    cases other with
    | nil => rfl
    | cons point other =>
      rw [List.nil_append, List.cons_append, List.cons_append, List.cons_prefix_cons] at h
      exact absurd (by simp [h.1]) hother.2
  | cons point name ih =>
    have hpoint : point ≠ closeBrace := fun he => hname.2 (by simp [he])
    cases other with
    | nil =>
      rw [List.nil_append, List.cons_append, List.cons_append, List.cons_prefix_cons] at h
      exact absurd h.1 hpoint
    | cons point' other =>
      simp only [List.cons_append, List.cons_prefix_cons] at h
      simp only [IsBraceless, List.mem_cons, not_or] at hname hother
      rw [h.1, ih ⟨hname.1.2, hname.2.2⟩ ⟨hother.1.2, hother.2.2⟩ h.2]

/-! ## Holes -/

/-- What a hole can hold: a placeholder after some dollar signs. -/
def holeText (count : Nat) (name : Text) : Text :=
  List.replicate count dollar ++ placeholder name

theorem holeText_zero (name : Text) : holeText 0 name = placeholder name := rfl

theorem holeText_one (name : Text) : holeText 1 (camelCase name) = interpolation name := rfl

/-- Filling passes over a hole that holds another name, and adds a dollar sign to one that holds
this name. -/
theorem fillPlaceholder_holeText (count : Nat) {held name : Text} (rest : Text)
    (hheld : IsBraceless held) (hname : IsBraceless name) :
    fillPlaceholder (holeText count held ++ rest) name =
      (if held = name then holeText (count + 1) (camelCase name) else holeText count held) ++
        fillPlaceholder rest name := by
  have hdollars : openBrace ∉ List.replicate count dollar := by
    intro h
    exact absurd (List.eq_of_mem_replicate h) (by decide)
  unfold fillPlaceholder
  rw [placeholder_eq name, holeText, List.append_assoc, replaceAll_append_of_notMem _ _ hdollars]
  split
  case isTrue hsame =>
    -- The interpolation brings a dollar sign of its own, which joins those before it.
    subst hsame
    rw [placeholder_eq held, replaceAll_append, interpolation_eq, holeText, List.replicate_succ']
    simp only [List.append_assoc, List.nil_append, List.cons_append]
  case isFalse hdifferent =>
    -- No occurrence begins at the brace of the other name, and no other brace opens one.
    have hprefix : ¬ (openBrace :: (name ++ [closeBrace])).isPrefixOf
        (openBrace :: (held ++ [closeBrace] ++ rest)) := by
      intro h
      rw [List.isPrefixOf_iff_prefix] at h
      exact hdifferent (placeholder_prefix_inj hname hheld h).symm
    have hafter : openBrace ∉ held ++ [closeBrace] := by
      simp only [List.mem_append, List.mem_singleton, not_or]
      exact ⟨hheld.1, by decide⟩
    rw [placeholder_eq held, List.cons_append, replaceAll_cons _ hprefix,
      replaceAll_append_of_notMem _ _ hafter]
    simp only [List.append_assoc, List.cons_append]

/-! ## One step -/

/-- What closes a placeholder cannot begin with a hole. -/
private theorem not_prefix_holeText {name : Text} (hname : openBrace ∉ name) (count : Nat)
    (held rest : Text) : ¬ name ++ [closeBrace] <+: holeText count held ++ rest := by
  induction count generalizing name with
  | zero =>
    rw [holeText_zero, placeholder_eq]
    cases name with
    | nil => simp [openBrace, closeBrace]
    | cons point name =>
      rw [List.cons_append, List.cons_append, List.cons_prefix_cons]
      rintro ⟨rfl, -⟩
      exact hname (List.mem_cons_self ..)
  | succ count ih =>
    rw [holeText, List.replicate_succ, List.cons_append, List.cons_append]
    cases name with
    | nil => simp [dollar, closeBrace]
    | cons point name =>
      rw [List.cons_append, List.cons_prefix_cons]
      rintro ⟨-, h⟩
      exact ih (fun hmem => hname (List.mem_cons_of_mem _ hmem)) h

/-- The rest of a placeholder that begins the filled template also begins the template itself: it
ends before the first hole. -/
theorem prefix_of_prefix_substitute {names : List Text} {count : Text → Nat} {held : Text → Text}
    {name path : Text} (hname : openBrace ∉ name)
    (h : name ++ [closeBrace] <+: substitute names (fun n => holeText (count n) (held n)) path) :
    name ++ [closeBrace] <+: path := by
  induction path using segmentsInduction names generalizing name with
  | nil => exact h
  | hole found rest hfound ih =>
    rw [substitute_hole _ hfound] at h
    exact absurd h (not_prefix_holeText hname _ _ _)
  | literal point rest hnone ih =>
    rw [substitute_literal _ hnone] at h
    cases name with
    | nil =>
      rw [List.nil_append, List.cons_prefix_cons] at h ⊢
      exact ⟨h.1, List.nil_prefix⟩
    | cons first name =>
      rw [List.cons_append, List.cons_prefix_cons] at h ⊢
      exact ⟨h.1, ih (fun hmem => hname (List.mem_cons_of_mem _ hmem)) h.2⟩

/-- **One step.** Filling the placeholders of a declared name in a partly filled template fills each
hole by itself and copies everything between the holes. -/
theorem fillPlaceholder_substitute {names : List Text} {count : Text → Nat} {held : Text → Text}
    {name : Text} (path : Text) (hmem : name ∈ names) (hname : IsBraceless name)
    (hheld : ∀ n ∈ names, IsBraceless (held n)) :
    fillPlaceholder (substitute names (fun n => holeText (count n) (held n)) path) name =
      substitute names
        (fun n => if held n = name then holeText (count n + 1) (camelCase name)
          else holeText (count n) (held n)) path := by
  induction path using segmentsInduction names with
  | nil => rfl
  | hole found rest hfound ih =>
    rw [substitute_hole _ hfound, substitute_hole _ hfound,
      fillPlaceholder_holeText _ _ (hheld found (mem_of_placeholderAt? hfound)) hname, ih]
  | literal point rest hnone ih =>
    rw [substitute_literal _ hnone, substitute_literal _ hnone, ← ih, fillPlaceholder,
      fillPlaceholder]
    apply replaceAll_cons
    rw [List.isPrefixOf_iff_prefix, placeholder_eq, List.cons_prefix_cons]
    rintro ⟨rfl, h⟩
    -- The occurrence would have been a hole of the template already.
    apply placeholderAt?_eq_none.mp hnone name hmem
    rw [placeholder_eq, List.cons_prefix_cons]
    exact ⟨rfl, prefix_of_prefix_substitute hname.1 h⟩

/-! ## All steps -/

/-- What a hole holds, as the number of dollar signs and the name, after one more filling step. -/
def fillHole (hole : Nat × Text) (name : Text) : Nat × Text :=
  if hole.2 = name then (hole.1 + 1, camelCase name) else hole

/-- What the hole of `name` holds after the steps for `done`. -/
def holeAfter (done : List Text) (name : Text) : Nat × Text :=
  done.foldl fillHole (0, name)

private theorem isBraceless_fillHole {hole : Nat × Text} {name : Text} (hhole : IsBraceless hole.2)
    (hname : IsBraceless name) : IsBraceless (fillHole hole name).2 := by
  unfold fillHole
  split
  · exact isBraceless_camelCase hname
  · exact hhole

/-- **All steps.** Filling names one after the other does to a template what it does to each hole. -/
theorem foldl_fillPlaceholder {names : List Text} (path : Text) (done : List Text)
    (hdone : ∀ name ∈ done, name ∈ names) (hbraceless : ∀ name ∈ names, IsBraceless name) :
    done.foldl fillPlaceholder path =
      substitute names (fun n => holeText (holeAfter done n).1 (holeAfter done n).2) path := by
  -- The induction needs any state of the holes, not only the first one.
  have hstate : ∀ hole : Text → Nat × Text, (∀ n ∈ names, IsBraceless (hole n).2) →
      done.foldl fillPlaceholder (substitute names (fun n => holeText (hole n).1 (hole n).2) path) =
        substitute names (fun n =>
          holeText (done.foldl fillHole (hole n)).1 (done.foldl fillHole (hole n)).2) path := by
    induction done with
    | nil => intro hole _; rfl
    | cons name done ih =>
      intro hole hhole
      rw [List.forall_mem_cons] at hdone
      have hname := hbraceless name hdone.1
      have hstep : ∀ n, (if (hole n).2 = name then holeText ((hole n).1 + 1) (camelCase name)
          else holeText (hole n).1 (hole n).2) =
            holeText (fillHole (hole n) name).1 (fillHole (hole n) name).2 := by
        intro n
        unfold fillHole
        split <;> rfl
      simp only [List.foldl_cons]
      rw [fillPlaceholder_substitute path hdone.1 hname hhole]
      simp only [hstep]
      exact ih hdone.2 (fun n => fillHole (hole n) name)
        (fun n hn => isBraceless_fillHole (hhole n hn) hname)
  have hfirst := hstate (fun n => (0, n)) hbraceless
  simp only [holeText_zero, substitute_placeholder] at hfirst
  exact hfirst

/-! ## One hole -/

private theorem foldl_fillHole_of_notMem {done : List Text} {hole : Nat × Text}
    (h : hole.2 ∉ done) : done.foldl fillHole hole = hole := by
  induction done with
  | nil => rfl
  | cons name done ih =>
    rw [List.mem_cons, not_or] at h
    rw [List.foldl_cons, fillHole, if_neg h.1, ih h.2]

/-- A hole that holds an identifier keeps it, and takes a dollar sign for each step that finds it. -/
private theorem foldl_fillHole_of_settled {done : List Text} {count : Nat} {name : Text}
    (h : camelCase name = name) :
    done.foldl fillHole (count, name) = (count + done.count name, name) := by
  induction done generalizing count with
  | nil => rfl
  | cons other done ih =>
    rw [List.foldl_cons, fillHole]
    split
    case isTrue hsame =>
      subst hsame
      simp only [h]
      rw [ih, List.count_cons_self, Nat.add_right_comm, Nat.add_assoc]
    case isFalse hdifferent =>
      rw [ih, List.count_cons_of_ne (Ne.symm hdifferent)]

/-- The hole of a name holds its identifier after the step for the name, with one dollar sign more
for each later name that is spelled like the identifier. -/
theorem holeAfter_append_cons {before after : List Text} {name : Text} (h : name ∉ before) :
    holeAfter (before ++ name :: after) name = (1 + after.count (camelCase name), camelCase name) := by
  have hbefore : before.foldl fillHole (0, name) = (0, name) := foldl_fillHole_of_notMem h
  rw [holeAfter, List.foldl_append, hbefore, List.foldl_cons, fillHole, if_pos rfl,
    foldl_fillHole_of_settled (camelCase_camelCase name)]

theorem holeAfter_of_notMem {done : List Text} {name : Text} (h : name ∉ done) :
    holeAfter done name = (0, name) :=
  foldl_fillHole_of_notMem h

private theorem pair_sublist_append_cons_iff {before after : List Text} {name other : Text}
    (h : name ∉ before) :
    [name, other].Sublist (before ++ name :: after) ↔ other ∈ after := by
  induction before with
  | nil => rw [List.nil_append, List.cons_sublist_cons, List.singleton_sublist]
  | cons first before ih =>
    rw [List.mem_cons, not_or] at h
    rw [List.cons_append, List.sublist_cons_iff, ih h.2]
    constructor
    · rintro (hafter | ⟨rest, heq, -⟩)
      · exact hafter
      · exact absurd (List.cons.inj heq).1 h.1
    · exact Or.inl

/-- A declared hole ends as one interpolation unless a later name is spelled like its identifier. -/
theorem holeAfter_eq_interpolation_iff {names : List Text} {name : Text} (hmem : name ∈ names) :
    holeText (holeAfter names name).1 (holeAfter names name).2 = interpolation name ↔
      ¬ [name, camelCase name].Sublist names := by
  obtain ⟨before, after, rfl, hfirst⟩ := List.eq_append_cons_of_mem hmem
  rw [holeAfter_append_cons hfirst, pair_sublist_append_cons_iff hfirst,
    ← List.count_eq_zero, ← holeText_one]
  constructor
  · intro h
    have hlength := congrArg List.length h
    simp only [holeText, List.length_append, List.length_replicate] at hlength
    omega
  · intro h
    rw [h]

/-- When no two names make the same identifier, every declared hole ends as one interpolation. -/
theorem holeAfter_of_nodup {names : List Text} {name : Text}
    (hdistinct : (names.map camelCase).Nodup) (hmem : name ∈ names) :
    holeAfter names name = (1, camelCase name) := by
  obtain ⟨before, after, rfl, hfirst⟩ := List.eq_append_cons_of_mem hmem
  rw [holeAfter_append_cons hfirst, List.count_eq_zero_of_not_mem]
  -- A later name spelled like the identifier would make the same identifier.
  intro hlater
  rw [List.map_append, List.map_cons] at hdistinct
  have hafter := (List.nodup_cons.mp (List.nodup_append.mp hdistinct).2.1).1
  exact hafter (List.mem_map.mpr ⟨camelCase name, hlater, camelCase_camelCase name⟩)

/-! ## The order of names -/

/-- Names without braces are found whatever their order: at most one of them fits a place. -/
theorem placeholderAt?_congr {names others : List Text} (text : Text)
    (hmem : ∀ name, name ∈ others ↔ name ∈ names)
    (hbraceless : ∀ name ∈ names, IsBraceless name) :
    placeholderAt? others text = placeholderAt? names text := by
  cases hfound : placeholderAt? names text with
  | none =>
    rw [placeholderAt?_eq_none] at hfound ⊢
    exact fun name hname => hfound name ((hmem name).mp hname)
  | some name =>
    have hname := mem_of_placeholderAt? hfound
    have hprefix := prefix_of_placeholderAt? hfound
    cases hother : placeholderAt? others text with
    | none =>
      rw [placeholderAt?_eq_none] at hother
      exact absurd hprefix (hother name ((hmem name).mpr hname))
    | some other =>
      have hmem' := (hmem other).mp (mem_of_placeholderAt? hother)
      obtain ⟨rest, rfl⟩ := hprefix
      rw [placeholder_prefix_inj (hbraceless other hmem') (hbraceless name hname)
        (prefix_of_placeholderAt? hother)]

theorem substitute_congr_names {names others : List Text} (f : Text → Text) (path : Text)
    (hmem : ∀ name, name ∈ others ↔ name ∈ names)
    (hbraceless : ∀ name ∈ names, IsBraceless name) :
    substitute others f path = substitute names f path := by
  induction path using segmentsInduction names with
  | nil => rfl
  | hole name rest hfound ih =>
    have hother := hfound
    rw [← placeholderAt?_congr _ hmem hbraceless] at hother
    rw [substitute_hole f hother, substitute_hole f hfound, ih]
  | literal point rest hnone ih =>
    have hother := hnone
    rw [← placeholderAt?_congr _ hmem hbraceless] at hother
    rw [substitute_literal f hother, substitute_literal f hnone, ih]

/-! ## The request path -/

/-- A template literal of the steps for all path parameters. -/
theorem pathExpression_of_ne_nil {operation : Operation} (path : Text)
    (h : pathParameterNames operation ≠ []) :
    pathExpression path operation =
      "`" ++ (pathParameterNames operation).foldl fillPlaceholder path ++ "`" := by
  have hempty : (pathParameterNames operation).isEmpty = false := by simpa using h
  simp only [pathExpression, hempty, Bool.false_eq_true, if_false]

/-- Filling all holes of distinct identifiers is filling them at once. -/
theorem foldl_fillPlaceholder_of_nodup {names : List Text} (path : Text)
    (hbraceless : ∀ name ∈ names, IsBraceless name) (hdistinct : (names.map camelCase).Nodup) :
    names.foldl fillPlaceholder path = substitute names interpolation path := by
  rw [foldl_fillPlaceholder path names (fun _ h => h) hbraceless]
  apply substitute_congr
  intro name hname
  rw [holeAfter_of_nodup hdistinct hname, holeText_one]

/-- Filling the holes one name after the other is filling them at once unless a hole of the path gets
filled a second time, for a later name that is spelled like its identifier. -/
theorem foldl_fillPlaceholder_eq_iff {names : List Text} (path : Text)
    (hbraceless : ∀ name ∈ names, IsBraceless name) :
    names.foldl fillPlaceholder path = substitute names interpolation path ↔
      ∀ name, .hole name ∈ segments names path → ¬ [name, camelCase name].Sublist names := by
  -- A hole never holds less than one interpolation, so the paths agree only hole by hole.
  have hlength : ∀ name ∈ names, (interpolation name).length ≤
      (holeText (holeAfter names name).1 (holeAfter names name).2).length := by
    intro name hname
    obtain ⟨before, after, rfl, hfirst⟩ := List.eq_append_cons_of_mem hname
    rw [holeAfter_append_cons hfirst, ← holeText_one]
    simp only [holeText, List.length_append, List.length_replicate]
    omega
  rw [foldl_fillPlaceholder path names (fun _ h => h) hbraceless, substitute_eq_iff path hlength]
  constructor
  · exact fun h name hhole =>
      (holeAfter_eq_interpolation_iff (mem_of_hole_mem_segments path hhole)).mp (h name hhole)
  · exact fun h name hhole =>
      (holeAfter_eq_interpolation_iff (mem_of_hole_mem_segments path hhole)).mpr (h name hhole)

/-- **Filling in sequence is filling at once.** When the path parameters of an operation have names
without braces that make distinct identifiers, the request path is the template literal of a single
pass over the path template, which writes the interpolation of a parameter for each of its
placeholders and copies everything else. So the order of the parameters does not matter; after any
number of steps the interpolations written so far stand in the places of their placeholders and
everything else is as it was; and every interpolated identifier is the name of a method parameter. -/
theorem pathExpression_eq_substitute (path : Text) (operation : Operation)
    (hsome : pathParameterNames operation ≠ [])
    (hbraceless : ∀ name ∈ pathParameterNames operation, IsBraceless name)
    (hdistinct : ((pathParameterNames operation).map camelCase).Nodup) :
    pathExpression path operation =
        "`" ++ substitute (pathParameterNames operation) interpolation path ++ "`" ∧
      (∀ other : Operation, other.parameters.Perm operation.parameters →
        pathExpression path other = pathExpression path operation) ∧
      (∀ done rest, pathParameterNames operation = done ++ rest →
        done.foldl fillPlaceholder path =
          substitute (pathParameterNames operation)
            (fun name => if name ∈ done then interpolation name else placeholder name) path) ∧
      ∀ name, .hole name ∈ segments (pathParameterNames operation) path →
        camelCase name ∈ (methodParameters operation).map (·.name) := by
  have hexpression : pathExpression path operation =
      "`" ++ substitute (pathParameterNames operation) interpolation path ++ "`" := by
    rw [pathExpression_of_ne_nil path hsome,
      foldl_fillPlaceholder_of_nodup path hbraceless hdistinct]
  refine ⟨hexpression, ?order, ?steps, ?identifiers⟩
  case order =>
    intro other hperm
    have hnames : (pathParameterNames other).Perm (pathParameterNames operation) :=
      (hperm.filter inPath).map Parameter.name
    have hmem : ∀ name, name ∈ pathParameterNames other ↔ name ∈ pathParameterNames operation :=
      fun _ => hnames.mem_iff
    have hsome' : pathParameterNames other ≠ [] := fun h => hsome (h ▸ hnames).nil_eq.symm
    rw [hexpression, pathExpression_of_ne_nil path hsome',
      foldl_fillPlaceholder_of_nodup path (fun name h => hbraceless name ((hmem name).mp h))
        ((hnames.map camelCase).nodup_iff.mpr hdistinct),
      substitute_congr_names interpolation path hmem hbraceless]
  case steps =>
    -- After the steps for some names, their holes are done and the others untouched.
    intro done rest hsplit
    have hdone : (done.map camelCase).Nodup := by
      rw [hsplit, List.map_append] at hdistinct
      exact (List.nodup_append.mp hdistinct).1
    rw [foldl_fillPlaceholder path done (fun name h => by simp [hsplit, h]) hbraceless]
    apply substitute_congr
    intro name _
    by_cases hname : name ∈ done
    · rw [if_pos hname, holeAfter_of_nodup hdone hname, holeText_one]
    · rw [if_neg hname, holeAfter_of_notMem hname, holeText_zero]
  case identifiers =>
    intro name hhole
    have hname := mem_of_hole_mem_segments path hhole
    simp only [pathParameterNames, List.mem_map, List.mem_filter] at hname
    obtain ⟨parameter, ⟨hparameter, hpath⟩, rfl⟩ := hname
    simp only [methodParameters, List.map_map, List.mem_map, List.mem_filter]
    exact ⟨parameter, ⟨hparameter, by simp [inSignature, hpath]⟩, rfl⟩

/-- Two path parameters, one of them spelled with a capital and written twice, beside a query
parameter of the same identifier. -/
theorem pathExpression_eq_substitute_pets :
    let operation : Operation :=
      { parameters :=
          [{ name := "Owner", location := "path" }, { name := "owner", location := "query" },
           { name := "pet", location := "path" }] }
    let path : Text := "/\x7bOwner\x7d/\x7bowner\x7d/\x7bpet\x7d/\x7bOwner\x7d"
    pathParameterNames operation ≠ [] ∧
      (∀ name ∈ pathParameterNames operation, IsBraceless name) ∧
      ((pathParameterNames operation).map camelCase).Nodup ∧
      pathExpression path operation =
        "`" ++ substitute (pathParameterNames operation) interpolation path ++ "`" ∧
      substitute (pathParameterNames operation) interpolation path =
        "/$\x7bowner\x7d/\x7bowner\x7d/$\x7bpet\x7d/$\x7bowner\x7d" := by
  intro operation path
  have hsome : pathParameterNames operation ≠ [] := by decide
  have hbraceless : ∀ name ∈ pathParameterNames operation, IsBraceless name := by decide
  have hdistinct : ((pathParameterNames operation).map camelCase).Nodup := by decide
  exact ⟨hsome, hbraceless, hdistinct,
    (pathExpression_eq_substitute path operation hsome hbraceless hdistinct).1, by decide⟩

end OpenApiClient.Client
