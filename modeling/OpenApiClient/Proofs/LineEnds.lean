import Mathlib.Data.List.Infix
import OpenApiClient.Text.LineEnd

/-!
# Unifying Line Ends

Unifying the line ends of a text changes nothing but line ends, and it can be done piece by piece: a text
may be cut anywhere but inside a line end.

## Layers

- **Words in a text**: a word without line feeds stands in a text if it stands there after unifying line
  ends (`infix_of_infix_unifyLineEnds`).
- **Pieces of a text**: `unifyLineEnds_append`.
-/

namespace OpenApiClient.Text

/-! ## Words in a text -/

variable {word cs : List Char}

theorem eq_nil_of_prefix_lineFeed (hword : '\n' ∉ word) (h : word <+: '\n' :: cs) : word = [] := by
  cases word with
  | nil => rfl
  | cons c word =>
    obtain rfl := (List.cons_prefix_cons.mp h).1
    exact absurd List.mem_cons_self hword

theorem prefix_of_prefix_unifyLineEnds (hword : '\n' ∉ word) (h : word <+: unifyLineEnds cs) :
    word <+: cs := by
  fun_induction unifyLineEnds cs generalizing word
  case case1 => exact h
  case case2 => exact eq_nil_of_prefix_lineFeed hword h ▸ List.nil_prefix
  case case3 => exact eq_nil_of_prefix_lineFeed hword h ▸ List.nil_prefix
  case case4 c cs _ _ ih =>
    cases word with
    | nil => exact List.nil_prefix
    | cons first word =>
      obtain ⟨rfl, hrest⟩ := List.cons_prefix_cons.mp h
      exact List.cons_prefix_cons.mpr ⟨rfl, ih (fun hmem => hword (List.mem_cons_of_mem _ hmem)) hrest⟩

/-- Unifying line ends changes nothing but line ends. -/
theorem infix_of_infix_unifyLineEnds (hword : '\n' ∉ word) (h : word <:+: unifyLineEnds cs) :
    word <:+: cs := by
  fun_induction unifyLineEnds cs
  case case1 => exact h
  case case2 cs ih =>
    obtain hprefix | hrest := List.infix_cons_iff.mp h
    · exact eq_nil_of_prefix_lineFeed hword hprefix ▸ List.nil_infix
    · exact List.infix_cons (List.infix_cons (ih hrest))
  case case3 cs _ ih =>
    obtain hprefix | hrest := List.infix_cons_iff.mp h
    · exact eq_nil_of_prefix_lineFeed hword hprefix ▸ List.nil_infix
    · exact List.infix_cons (ih hrest)
  case case4 c cs hcr hlone ih =>
    obtain hprefix | hrest := List.infix_cons_iff.mp h
    · have hprefix' : word <+: unifyLineEnds (c :: cs) := by rwa [unifyLineEnds.eq_4 c cs hcr hlone]
      exact (prefix_of_prefix_unifyLineEnds hword hprefix').isInfix
    · exact List.infix_cons (ih hrest)

/-! ## Pieces of a text -/

/-- A text can be cut anywhere but inside a line end. -/
theorem unifyLineEnds_append {xs ys : List Char}
    (h : xs.getLast? = some '\r' → ys.head? ≠ some '\n') :
    unifyLineEnds (xs ++ ys) = unifyLineEnds xs ++ unifyLineEnds ys := by
  fun_induction unifyLineEnds xs with
  | case1 => rfl
  | case2 cs ih =>
    have hcs : cs.getLast? = some '\r' → ys.head? ≠ some '\n' :=
      fun hlast => h (by simp [List.getLast?_cons, hlast])
    simp [unifyLineEnds, ih hcs]
  | case3 cs hcs ih =>
    have hrest : cs.getLast? = some '\r' → ys.head? ≠ some '\n' :=
      fun hlast => h (by simp [List.getLast?_cons, hlast])
    have hlone : ∀ rest, cs ++ ys = '\n' :: rest → False := by
      intro rest hrest
      cases cs with
      | nil => exact h rfl (by simp [show ys = _ from hrest])
      | cons c cs => exact hcs cs (by rw [(List.cons.inj hrest).1])
    rw [List.cons_append, unifyLineEnds.eq_3 _ hlone, ih hrest, List.cons_append]
  | case4 c cs hcr hlone ih =>
    have hrest : cs.getLast? = some '\r' → ys.head? ≠ some '\n' :=
      fun hlast => h (by simp [List.getLast?_cons, hlast])
    rw [List.cons_append, unifyLineEnds.eq_4 _ _ (fun _ hc _ => hlone hc) hlone, ih hrest,
      List.cons_append]

end OpenApiClient.Text
