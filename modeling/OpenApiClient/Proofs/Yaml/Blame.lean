import Mathlib
import OpenApiClient.Document.Yaml.Cursor
import OpenApiClient.Proofs.Oversize

/-!
# Who Is to Blame for a Failure

Reading YAML fails because the text breaks a rule of the grammar, because a number in it is oversized, or
because the text breaks off where its file holds bytes that are no text or a character that no document may
hold. A stage never makes a failure of the last kind up: it can only pass on the one that its text breaks
off with. Every stage of the reader has a triple that says so, with the name of the stage and the ending
`_spec`.

## Layers

- **Places**: `Cursor.IsAfter`, when a cursor is further on in the same text.
- **Failures**: `IsGrammatical`, `IsDueTo`.
- **Outcomes**: triples for outcomes that are given, mapped or collected.
- **Cursors**: looking ahead and moving on stays in the same text.
-/

namespace OpenApiClient.Document.Yaml

open Std.Do
open OpenApiClient.Text (HasOversize)

set_option mvcgen.warning false

/-! ## Places -/

/-- Whether a cursor is at or behind another one in the same text. -/
structure Cursor.IsAfter (after cursor : Cursor) : Prop where
  ending : after.ending = cursor.ending
  rest : after.rest <:+ cursor.rest

section

variable {first second third : Cursor}

@[simp, grind .]
theorem Cursor.IsAfter.refl (cursor : Cursor) : cursor.IsAfter cursor :=
  ⟨rfl, List.suffix_rfl⟩

@[grind →]
theorem Cursor.IsAfter.trans (hthird : third.IsAfter second) (hsecond : second.IsAfter first) :
    third.IsAfter first :=
  ⟨hthird.ending.trans hsecond.ending, hthird.rest.trans hsecond.rest⟩

end

/-! ## Failures -/

/-- Whether a failure tells that a text breaks a rule of the grammar, or of what nodes may denote. -/
@[grind =]
def Failure.IsGrammatical : Failure → Prop
  | .malformed | .misplaced | .reference | .unconstructible => True
  | .undecodable _ | .unacceptable | .scalar _ => False

/-- Whether a failure comes from what a text says from a cursor on, or is the one that it breaks off with. -/
inductive Failure.IsDueTo (cursor : Cursor) : Failure → Prop
  | grammar {failure : Failure} : failure.IsGrammatical → failure.IsDueTo cursor
  | oversize {error : ScalarError} : HasOversize cursor.rest → (Failure.scalar error).IsDueTo cursor
  | ending {failure : Failure} : cursor.ending = some failure → failure.IsDueTo cursor

section

variable {cursor after : Cursor} {failure : Failure}

@[simp, grind .]
theorem isDueTo_malformed : Failure.malformed.IsDueTo cursor := .grammar trivial

/-- What is to blame further on in a text is to blame in front of it, too. -/
@[grind →]
theorem Failure.IsDueTo.of_isAfter (h : failure.IsDueTo after) (hafter : after.IsAfter cursor) :
    failure.IsDueTo cursor := by
  cases h with
  | grammar h => exact .grammar h
  | oversize h => exact .oversize (h.of_suffix hafter.rest)
  | ending h => exact .ending (hafter.ending.symm.trans h)

end

/-! ## Outcomes -/

section

variable {ε φ α β : Type}

@[spec]
theorem error_spec {e : ε} {Q : PostCond α (.except ε .pure)} :
    ⦃Q.2.1 e⦄ (Except.error e : Except ε α) ⦃Q⦄ :=
  fun h => h

@[spec]
theorem ok_spec {a : α} {Q : PostCond α (.except ε .pure)} :
    ⦃Q.1 a⦄ (Except.ok a : Except ε α) ⦃Q⦄ :=
  fun h => h

-- The general triple for throwing leaves its monad open, so this one is tried before it.
@[spec high]
theorem throw_spec {e : ε} {Q : PostCond α (.except ε .pure)} :
    ⦃Q.2.1 e⦄ (throw e : Except ε α) ⦃Q⦄ :=
  fun h => h

@[spec]
theorem map_spec {f : α → β} {x : Except ε α} {Q : PostCond β (.except ε .pure)} :
    ⦃wp⟦x⟧ (fun a => Q.1 (f a), Q.2)⦄ x.map f ⦃Q⦄ := by
  cases x <;> exact fun h => h

@[spec]
theorem mapM_spec {f : α → Except ε β} {P : ε → Prop}
    (hf : ∀ a, ⦃⌜True⌝⦄ f a ⦃post⟨fun _ => ⌜True⌝, fun e => ⌜P e⌝⟩⦄) (as : List α) :
    ⦃⌜True⌝⦄ as.mapM f ⦃post⟨fun _ => ⌜True⌝, fun e => ⌜P e⌝⟩⦄ := by
  induction as with
  | nil => mvcgen [List.mapM_nil]
  | cons a as ih => mvcgen [List.mapM_cons, hf, ih]

end

/-! ## Cursors -/

/-- A stage looks at the text of a cursor. -/
abbrev Blames {α : Type} (cursor : Cursor) : PostCond α (.except Failure .pure) :=
  post⟨fun _ => ⌜True⌝, fun e => ⌜e.IsDueTo cursor⌝⟩

/-- A stage goes on in the text of a cursor. -/
abbrev Follows {α : Type} (cursor : Cursor) (place : α → Cursor) :
    PostCond α (.except Failure .pure) :=
  post⟨fun a => ⌜(place a).IsAfter cursor⌝, fun e => ⌜e.IsDueTo cursor⌝⟩

/-- Whether a place that a stage may have found is further on in the text of a cursor. -/
@[grind =]
def Cursor.MayLeadTo {α : Type} (cursor : Cursor) : Option (α × Cursor) → Prop
  | none => True
  | some (_, after) => after.IsAfter cursor

/-- A stage may go on in the text of a cursor. -/
abbrev MayFollow {α : Type} (cursor : Cursor) :
    PostCond (Option (α × Cursor)) (.except Failure .pure) :=
  post⟨fun taken => ⌜cursor.MayLeadTo taken⌝, fun e => ⌜e.IsDueTo cursor⌝⟩

/-- A place that may follow another one is in the same text. -/
@[grind →]
theorem Cursor.MayLeadTo.getD {α : Type} {cursor : Cursor} {taken : Option (α × Cursor)}
    (h : cursor.MayLeadTo taken) : ((taken.map (·.2)).getD cursor).IsAfter cursor := by
  cases taken with
  | none => exact .refl cursor
  | some a => exact h

namespace Cursor

variable {cursor : Cursor} {n : Nat} {belongs : Char → Bool}

theorem isAfter_pass : cursor.pass.IsAfter cursor := by
  fun_cases pass cursor with
  | case1 => exact .refl cursor
  | case2 c rest hrest => exact ⟨rfl, hrest ▸ List.suffix_cons c rest⟩
  | case3 c rest hrest => exact ⟨rfl, hrest ▸ List.suffix_cons c rest⟩
  | case4 c rest hrest => exact ⟨rfl, hrest ▸ List.suffix_cons c rest⟩

theorem rest_pass : cursor.pass.rest = cursor.rest.tail := by
  fun_cases pass cursor <;> simp_all

@[simp]
theorem isAfter_passAll : (cursor.passAll n).IsAfter cursor := by
  induction n generalizing cursor with
  | zero => exact .refl cursor
  | succ n ih => exact ih.trans isAfter_pass

/-- What is seen ahead stands there, unless it is the mark for the end of the text. -/
@[spec]
theorem peekAt_spec :
    ⦃⌜True⌝⦄ cursor.peekAt n
    ⦃post⟨fun c => ⌜c = endMark ∨ cursor.rest[n]? = some c⌝, fun e => ⌜e.IsDueTo cursor⌝⟩⦄ := by
  mvcgen [peekAt]
  case vc1 => exact .inr ‹_›
  case vc2 => exact .inl trivial
  case vc3 => exact .ending ‹_›

@[spec]
theorem peek_spec :
    ⦃⌜True⌝⦄ cursor.peek
    ⦃post⟨fun c => ⌜c = endMark ∨ cursor.rest[0]? = some c⌝, fun e => ⌜e.IsDueTo cursor⌝⟩⦄ :=
  peekAt_spec

@[spec]
theorem ahead_spec : ⦃⌜True⌝⦄ cursor.ahead n ⦃Blames cursor⦄ := by
  mvcgen [ahead]
  exact .ending ‹_›

@[spec]
theorem isGapAt_spec : ⦃⌜True⌝⦄ cursor.isGapAt n ⦃Blames cursor⦄ := by
  mvcgen [isGapAt]

@[spec]
theorem advance_spec : ⦃⌜True⌝⦄ cursor.advance n ⦃Follows cursor id⦄ := by
  mvcgen [advance]
  exact fun _ => isAfter_passAll

@[spec]
theorem next_spec :
    ⦃⌜True⌝⦄ cursor.next
    ⦃post⟨fun after => ⌜after.IsAfter cursor ∧ after.rest = cursor.rest.tail⌝,
      fun e => ⌜e.IsDueTo cursor⌝⟩⦄ := by
  mvcgen [next, advance]
  exact fun _ => ⟨isAfter_passAll, rest_pass⟩

@[spec]
theorem takeRun_spec :
    ⦃⌜True⌝⦄ cursor.takeRun belongs
    ⦃post⟨fun run => ⌜run.2.IsAfter cursor ∧ run.1 = cursor.rest.takeWhile belongs⌝,
      fun e => ⌜e.IsDueTo cursor⌝⟩⦄ := by
  mvcgen [takeRun]
  exact fun h => ⟨h, rfl⟩

@[spec]
theorem skipRun_spec : ⦃⌜True⌝⦄ cursor.skipRun belongs ⦃Follows cursor id⦄ := by
  mvcgen [skipRun]
  exact fun h _ => h

@[spec]
theorem skipSpaces_spec : ⦃⌜True⌝⦄ cursor.skipSpaces ⦃Follows cursor id⦄ :=
  skipRun_spec

@[spec]
theorem takeBreak?_spec : ⦃⌜True⌝⦄ cursor.takeBreak? ⦃MayFollow cursor⦄ := by
  mvcgen [takeBreak?]
  grind

@[spec]
theorem skipBreak_spec : ⦃⌜True⌝⦄ cursor.skipBreak ⦃Follows cursor id⦄ := by
  mvcgen [skipBreak]
  exact MayLeadTo.getD

@[spec]
theorem skipComment_spec : ⦃⌜True⌝⦄ cursor.skipComment ⦃Follows cursor id⦄ := by
  mvcgen [skipComment]
  exact .refl cursor

@[spec]
theorem atSeparator_spec {marks : List Char} :
    ⦃⌜True⌝⦄ cursor.atSeparator marks ⦃Blames cursor⦄ := by
  mvcgen [atSeparator]

end Cursor

end OpenApiClient.Document.Yaml
