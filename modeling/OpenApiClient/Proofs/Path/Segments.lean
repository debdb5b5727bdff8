import OpenApiClient.Client.Method

/-!
# Segments of a Path Template

A path template read once from left to right: at each place the placeholder of a declared name is a
*hole*, and everything else is copied point by point. This is what replacing all placeholders at the
same time means. The module also says how `Text.replaceAll` runs over an occurrence and over text
in which no occurrence can begin.

## Layers

- **Replacing**: the equations of `Text.replaceAll`, over patterns and over texts.
- **Segments**: `segments`, with the induction `segmentsInduction` that follows the reading.
- **Substitution**: `substitute` writes a text for each hole; writing the placeholders themselves
  gives the path again.
-/

namespace OpenApiClient.Text

variable {α : Type} [BEq α]

/-! ## Replacing -/

private theorem replaceFrom_append (pattern replacement used xs : List α) :
    replaceFrom pattern replacement used.length (used ++ xs) =
      replaceAll pattern replacement xs := by
  induction used with
  | nil => rfl
  | cons x used ih => simpa [replaceFrom] using ih

theorem replaceAll_cons {pattern : List α} (replacement : List α) {x : α} {xs : List α}
    (h : ¬ pattern.isPrefixOf (x :: xs)) :
    replaceAll pattern replacement (x :: xs) = x :: replaceAll pattern replacement xs := by
  rw [replaceAll, replaceFrom, if_neg h, replaceAll]

variable [LawfulBEq α]

theorem replaceAll_append (x : α) (pattern replacement xs : List α) :
    replaceAll (x :: pattern) replacement (x :: pattern ++ xs) =
      replacement ++ replaceAll (x :: pattern) replacement xs := by
  have hprefix : (x :: pattern).isPrefixOf (x :: (pattern ++ xs)) := by
    rw [List.isPrefixOf_iff_prefix, ← List.cons_append]
    exact List.prefix_append _ _
  rw [replaceAll, List.cons_append, replaceFrom, if_pos hprefix, List.length_cons,
    Nat.add_sub_cancel, replaceFrom_append]

/-- Text without the first element of the pattern is copied. -/
theorem replaceAll_append_of_notMem {x : α} (pattern replacement : List α) {used : List α}
    (hused : x ∉ used) (xs : List α) :
    replaceAll (x :: pattern) replacement (used ++ xs) =
      used ++ replaceAll (x :: pattern) replacement xs := by
  induction used with
  | nil => rfl
  | cons y used ih =>
    rw [List.mem_cons, not_or] at hused
    have hprefix : ¬ (x :: pattern).isPrefixOf (y :: (used ++ xs)) := by
      rw [List.isPrefixOf_iff_prefix, List.cons_prefix_cons]
      exact fun h => hused.1 h.1
    rw [List.cons_append, replaceAll_cons replacement hprefix, ih hused.2, List.cons_append]

end OpenApiClient.Text

namespace OpenApiClient.Client

/-! ## Placeholders -/

/-- The brace that opens a placeholder. -/
def openBrace : CodePoint := .char '\x7b'

/-- The brace that closes a placeholder. -/
def closeBrace : CodePoint := .char '\x7d'

/-- The sign that makes an interpolation of a placeholder. -/
def dollar : CodePoint := .char '$'

theorem placeholder_eq (name : Text) : placeholder name = openBrace :: (name ++ [closeBrace]) := rfl

theorem interpolation_eq (name : Text) :
    interpolation name = dollar :: placeholder (camelCase name) := rfl

/-! ## Segments -/

/-- A part of a path template: one code point that is copied, or the placeholder of a name. -/
inductive Segment where
  | literal (point : CodePoint)
  | hole (name : Text)
  deriving DecidableEq, Repr

/-- The declared name whose placeholder begins a text; of several, the one declared first. -/
def placeholderAt? (names : List Text) (text : Text) : Option Text :=
  names.find? fun name => (placeholder name).isPrefixOf text

/-- The segments of a path template after `skip` code points of a placeholder already read. -/
def segmentsFrom (names : List Text) : Nat → Text → List Segment
  | _, [] => []
  | skip + 1, _ :: rest => segmentsFrom names skip rest
  | 0, point :: rest =>
    match placeholderAt? names (point :: rest) with
    | some name => .hole name :: segmentsFrom names ((placeholder name).length - 1) rest
    | none => .literal point :: segmentsFrom names 0 rest

/-- The segments of a path template, read once from left to right. -/
def segments (names : List Text) (path : Text) : List Segment :=
  segmentsFrom names 0 path

private theorem segmentsFrom_append (names : List Text) (used rest : Text) :
    segmentsFrom names used.length (used ++ rest) = segments names rest := by
  induction used with
  | nil => rfl
  | cons point used ih => simpa [segmentsFrom] using ih

theorem mem_of_placeholderAt? {names : List Text} {text name : Text}
    (h : placeholderAt? names text = some name) : name ∈ names :=
  List.mem_of_find?_eq_some h

theorem prefix_of_placeholderAt? {names : List Text} {text name : Text}
    (h : placeholderAt? names text = some name) : placeholder name <+: text := by
  rw [← List.isPrefixOf_iff_prefix]
  simpa using List.find?_some h

theorem placeholderAt?_eq_none {names : List Text} {text : Text} :
    placeholderAt? names text = none ↔ ∀ name ∈ names, ¬ placeholder name <+: text := by
  simp [placeholderAt?, List.find?_eq_none, ← List.isPrefixOf_iff_prefix]

@[simp] theorem segments_nil (names : List Text) : segments names [] = [] := rfl

theorem segments_hole {names : List Text} {name rest : Text}
    (h : placeholderAt? names (placeholder name ++ rest) = some name) :
    segments names (placeholder name ++ rest) = .hole name :: segments names rest := by
  rw [placeholder_eq, List.cons_append] at h ⊢
  rw [segments, segmentsFrom]
  simp only [h, placeholder_eq, List.length_cons, Nat.add_sub_cancel, segmentsFrom_append]

theorem segments_literal {names : List Text} {point : CodePoint} {rest : Text}
    (h : placeholderAt? names (point :: rest) = none) :
    segments names (point :: rest) = .literal point :: segments names rest := by
  rw [segments, segmentsFrom]
  simp only [h, segments]

/-- Induction along the reading of a path template. -/
@[elab_as_elim]
theorem segmentsInduction (names : List Text) {motive : Text → Prop} (nil : motive [])
    (hole : ∀ name rest, placeholderAt? names (placeholder name ++ rest) = some name →
      motive rest → motive (placeholder name ++ rest))
    (literal : ∀ point rest, placeholderAt? names (point :: rest) = none →
      motive rest → motive (point :: rest)) (path : Text) : motive path := by
  induction hlength : path.length using Nat.strongRecOn generalizing path with
  | _ length ih =>
    cases path with
    | nil => exact nil
    | cons point rest =>
      cases hfound : placeholderAt? names (point :: rest) with
      | none => exact literal point rest hfound (ih rest.length (by simp [← hlength]) rest rfl)
      | some name =>
        obtain ⟨after, hafter⟩ := prefix_of_placeholderAt? hfound
        rw [← hafter] at hfound hlength ⊢
        have hshorter : after.length < length := by
          rw [← hlength, placeholder_eq, List.length_append, List.length_cons]
          omega
        exact hole name after hfound (ih after.length hshorter after rfl)

theorem mem_of_hole_mem_segments {names : List Text} {name : Text} (path : Text)
    (h : .hole name ∈ segments names path) : name ∈ names := by
  induction path using segmentsInduction names with
  | nil => simp at h
  | hole found rest hfound ih =>
    rw [segments_hole hfound, List.mem_cons, Segment.hole.injEq] at h
    rcases h with rfl | h
    · exact mem_of_placeholderAt? hfound
    · exact ih h
  | literal point rest hnone ih =>
    rw [segments_literal hnone, List.mem_cons] at h
    rcases h with h | h
    · contradiction
    · exact ih h

/-! ## Substitution -/

/-- The text of a segment, when `f` gives the text of a hole. -/
def Segment.fill (f : Text → Text) : Segment → Text
  | .literal point => [point]
  | .hole name => f name

/-- The path template with every hole filled in one pass, and everything else copied. -/
def substitute (names : List Text) (f : Text → Text) (path : Text) : Text :=
  (segments names path).flatMap (Segment.fill f)

@[simp] theorem substitute_nil (names : List Text) (f : Text → Text) : substitute names f [] = [] :=
  rfl

theorem substitute_hole {names : List Text} {name rest : Text} (f : Text → Text)
    (h : placeholderAt? names (placeholder name ++ rest) = some name) :
    substitute names f (placeholder name ++ rest) = f name ++ substitute names f rest := by
  rw [substitute, segments_hole h, List.flatMap_cons, Segment.fill, substitute]

theorem substitute_literal {names : List Text} {point : CodePoint} {rest : Text} (f : Text → Text)
    (h : placeholderAt? names (point :: rest) = none) :
    substitute names f (point :: rest) = point :: substitute names f rest := by
  rw [substitute, segments_literal h, List.flatMap_cons, Segment.fill, substitute,
    List.singleton_append]

/-- Only the texts of declared names matter. -/
theorem substitute_congr {names : List Text} {f g : Text → Text} (path : Text)
    (h : ∀ name ∈ names, f name = g name) : substitute names f path = substitute names g path := by
  induction path using segmentsInduction names with
  | nil => rfl
  | hole name rest hfound ih =>
    rw [substitute_hole f hfound, substitute_hole g hfound, ih,
      h name (mem_of_placeholderAt? hfound)]
  | literal point rest hnone ih =>
    rw [substitute_literal f hnone, substitute_literal g hnone, ih]

theorem length_substitute_le {names : List Text} {f g : Text → Text} (path : Text)
    (h : ∀ name ∈ names, (g name).length ≤ (f name).length) :
    (substitute names g path).length ≤ (substitute names f path).length := by
  induction path using segmentsInduction names with
  | nil => exact Nat.le_refl _
  | hole name rest hfound ih =>
    rw [substitute_hole f hfound, substitute_hole g hfound, List.length_append, List.length_append]
    exact Nat.add_le_add (h name (mem_of_placeholderAt? hfound)) ih
  | literal point rest hnone ih =>
    rw [substitute_literal f hnone, substitute_literal g hnone, List.length_cons, List.length_cons]
    exact Nat.succ_le_succ ih

/-- Texts of which one kind is never shorter give the same path only if they agree at every hole. -/
theorem substitute_eq_iff {names : List Text} {f g : Text → Text} (path : Text)
    (h : ∀ name ∈ names, (g name).length ≤ (f name).length) :
    substitute names f path = substitute names g path ↔
      ∀ name, .hole name ∈ segments names path → f name = g name := by
  induction path using segmentsInduction names with
  | nil => simp
  | hole name rest hfound ih =>
    rw [substitute_hole f hfound, substitute_hole g hfound, segments_hole hfound]
    constructor
    · -- As no text is shorter, texts of equal length must begin with equal holes.
      intro heq other hother
      have hname := h name (mem_of_placeholderAt? hfound)
      have hrest := length_substitute_le rest h
      have hlength := congrArg List.length heq
      rw [List.length_append, List.length_append] at hlength
      obtain ⟨hsame, hafter⟩ := List.append_inj heq (by omega)
      rcases List.mem_cons.mp hother with hother | hother
      · rw [Segment.hole.inj hother, hsame]
      · exact ih.mp hafter other hother
    · intro hholes
      rw [hholes name (List.mem_cons_self ..),
        ih.mpr fun other hother => hholes other (List.mem_cons_of_mem _ hother)]
  | literal point rest hnone ih =>
    rw [substitute_literal f hnone, substitute_literal g hnone, segments_literal hnone,
      List.cons_inj_right, ih]
    simp

/-- Nothing is lost: with its placeholders in the holes, the path is as it was. -/
theorem substitute_placeholder (names : List Text) (path : Text) :
    substitute names placeholder path = path := by
  induction path using segmentsInduction names with
  | nil => rfl
  | hole name rest hfound ih => rw [substitute_hole _ hfound, ih]
  | literal point rest hnone ih => rw [substitute_literal _ hnone, ih]

end OpenApiClient.Client
