import OpenApiClient.Document.Yaml.TokenStream
import OpenApiClient.Proofs.Numerals
import OpenApiClient.Proofs.Yaml.Blame

/-!
# Failures of the Token Stream

Cutting a text into tokens stays in the text: every stage goes on to a place in it, and so its failures
are due to what the text says or to where it breaks off. The state of the scanner changes in many ways
from token to token, but the text of its cursor is the same in every step.

## Layers

- **Scalars**: block scalars, plain scalars, quoted scalars.
- **Properties and directives**.
- **Tokens**: the parts of a step, and the step (`Scan.step_spec`).
- **Main statement**: `TokenStream.isDueTo_of_failure_eq`, by induction over the steps.
-/

namespace OpenApiClient.Document.Yaml

open Std.Do
open OpenApiClient.Text

set_option mvcgen.warning false

variable {cursor : Cursor} {fuel : Nat}

/-! ## Block scalars -/

section

variable {folded : Bool} {indent : Nat} {parent : Int} {breaks : List Char}

@[spec]
theorem takeChomping?_spec : ⦃⌜True⌝⦄ takeChomping? cursor ⦃MayFollow cursor⦄ := by
  mvcgen [takeChomping?]
  all_goals grind

@[spec]
theorem takeIncrement?_spec : ⦃⌜True⌝⦄ takeIncrement? cursor ⦃MayFollow cursor⦄ := by
  mvcgen [takeIncrement?]
  all_goals grind

@[spec]
theorem readIndicators_spec :
    ⦃⌜True⌝⦄ readIndicators cursor ⦃Follows cursor Prod.snd⦄ := by
  mvcgen [readIndicators]
  all_goals grind

@[spec]
theorem skipRestOfLine_spec : ⦃⌜True⌝⦄ skipRestOfLine cursor ⦃Follows cursor id⦄ := by
  mvcgen [skipRestOfLine]
  all_goals grind

@[spec]
theorem leadingBreaks_spec {deepest : Nat} :
    ⦃⌜True⌝⦄ leadingBreaks fuel breaks deepest cursor ⦃Follows cursor (·.2.2)⦄ := by
  induction fuel generalizing breaks deepest cursor with
  | zero =>
    mvcgen [leadingBreaks]
    exact .refl _
  | succ fuel ih =>
    mvcgen [leadingBreaks, ih]
    all_goals grind

@[spec]
theorem skipIndent_spec :
    ⦃⌜True⌝⦄ skipIndent indent fuel cursor ⦃Follows cursor id⦄ := by
  induction fuel generalizing cursor with
  | zero =>
    mvcgen [skipIndent]
    exact .refl _
  | succ fuel ih =>
    mvcgen [skipIndent, ih]
    all_goals grind

@[spec]
theorem emptyLines_spec :
    ⦃⌜True⌝⦄ emptyLines indent fuel breaks cursor ⦃Follows cursor Prod.snd⦄ := by
  induction fuel generalizing breaks cursor with
  | zero =>
    mvcgen [emptyLines]
    exact .refl _
  | succ fuel ih =>
    mvcgen [emptyLines, ih]
    all_goals grind

@[spec]
theorem startsLine_spec : ⦃⌜True⌝⦄ startsLine indent cursor ⦃Blames cursor⦄ := by
  mvcgen [startsLine]

@[spec]
theorem startsWithSpace_spec : ⦃⌜True⌝⦄ startsWithSpace cursor ⦃Blames cursor⦄ := by
  mvcgen [startsWithSpace]

@[spec]
theorem blockLines_spec {text : BlockText} :
    ⦃⌜True⌝⦄ blockLines folded indent fuel text cursor ⦃Follows cursor Prod.snd⦄ := by
  induction fuel generalizing text cursor with
  | zero =>
    mvcgen [blockLines]
    exact .refl _
  | succ fuel ih =>
    mvcgen [blockLines, ih]
    all_goals grind

@[spec]
theorem readBlockScalar_spec :
    ⦃⌜True⌝⦄ readBlockScalar fuel folded parent cursor ⦃Follows cursor Prod.snd⦄ := by
  mvcgen [readBlockScalar]
  all_goals grind

end

/-! ## Plain scalars -/

section

variable {inFlow : Bool} {indent : Int}

@[spec]
theorem wordAt_spec : ⦃⌜True⌝⦄ wordAt inFlow cursor ⦃Blames cursor⦄ := by
  mvcgen [wordAt]

@[spec]
theorem plainBreaks_spec {breaks : List Char} :
    ⦃⌜True⌝⦄ plainBreaks fuel breaks cursor ⦃Follows cursor Prod.snd⦄ := by
  induction fuel generalizing breaks cursor with
  | zero =>
    mvcgen [plainBreaks]
    exact .refl _
  | succ fuel ih =>
    mvcgen [plainBreaks, ih]
    all_goals grind

@[spec]
theorem plainGap_spec : ⦃⌜True⌝⦄ plainGap fuel cursor ⦃Follows cursor PlainGap.after⦄ := by
  mvcgen [plainGap]
  all_goals grind

@[spec]
theorem plainWords_spec {done : List Char} {gap : PlainGap} :
    ⦃⌜True⌝⦄ plainWords inFlow indent fuel done gap
    ⦃Follows gap.after PlainScalar.after⦄ := by
  induction fuel generalizing done gap with
  | zero =>
    mvcgen [plainWords]
    exact .refl _
  | succ fuel ih =>
    mvcgen [plainWords, ih]
    all_goals grind

@[spec]
theorem readPlainScalar_spec :
    ⦃⌜True⌝⦄ readPlainScalar fuel inFlow indent cursor
    ⦃Follows cursor PlainScalar.after⦄ :=
  plainWords_spec

@[spec]
theorem startsPlainScalar_spec :
    ⦃⌜True⌝⦄ startsPlainScalar inFlow cursor ⦃Blames cursor⦄ := by
  mvcgen [startsPlainScalar]

end

/-! ## Quoted scalars -/

section

variable {code count : Nat}

theorem takeHexDigits_succ (cursor : Cursor) (count : Nat) :
    takeHexDigits cursor (count + 1) = (do
      let digits ← takeHexDigits cursor count
      let c ← cursor.peekAt count
      if isDigitIn 16 c then return digits ++ [c] else throw .malformed) := by
  unfold takeHexDigits
  rw [List.range_succ, List.mapM_append]
  refine bind_congr fun digits => ?_
  simp only [List.mapM_cons, List.mapM_nil, bind_assoc, pure_bind]
  refine bind_congr fun c => ?_
  split
  · rfl
  · rfl

/-- The digits that are taken stand at the cursor. -/
@[spec]
theorem takeHexDigits_spec :
    ⦃⌜True⌝⦄ takeHexDigits cursor count
    ⦃post⟨fun digits => ⌜digits = cursor.rest.take count ∧ digits.length = count ∧
        ∀ c ∈ digits, isDigitIn 16 c = true⌝,
      fun e => ⌜e.IsDueTo cursor⌝⟩⦄ := by
  induction count with
  | zero => exact fun _ => ⟨rfl, rfl, nofun⟩
  | succ count ih =>
    rw [takeHexDigits_succ]
    mvcgen [ih]
    case vc1 digits hdigits c hc hseen =>
      obtain ⟨htaken, hlength, hall⟩ := hdigits
      -- The mark for the end is no digit, so the digit stands in the text.
      obtain rfl | hseen := hseen
      · contradiction
      · refine ⟨by rw [htaken, List.take_add_one, hseen]; rfl, by simp [hlength], ?_⟩
        simpa [or_imp, forall_and] using ⟨hall, hc⟩
    case vc2 => exact isDueTo_malformed

@[spec]
theorem escapedPoint_spec :
    ⦃⌜True⌝⦄ escapedPoint code
    ⦃post⟨fun _ => ⌜True⌝, fun e => ⌜(∃ error, e = .scalar error) ∧ 0x10FFFF < code⌝⟩⦄ := by
  mvcgen [escapedPoint]
  exact ⟨⟨_, rfl⟩, Nat.lt_of_not_le ‹_›⟩

/-- A numeric escape names a code point unless its digits are too wide. -/
@[spec]
theorem readNumericEscape_spec :
    ⦃⌜True⌝⦄ readNumericEscape count cursor
    ⦃post⟨fun a => ⌜a.2.IsAfter cursor⌝,
      fun e => ⌜e.IsDueTo cursor ∨ (∃ error, e = .scalar error) ∧
        ∃ digits, digits <+: cursor.rest ∧ digits.length = count ∧ AreWide digits⌝⟩⦄ := by
  mvcgen [readNumericEscape]
  case vc2 => exact .inl
  case vc4 => exact .inl
  case vc3 digits hdigits e =>
    obtain ⟨rfl, hlength, hall⟩ := hdigits
    exact fun herror hwide => .inr ⟨herror, _, List.take_prefix count cursor.rest, hlength, hall, hwide⟩

@[spec]
theorem quotedBreaks_spec {breaks : List Char} :
    ⦃⌜True⌝⦄ quotedBreaks fuel breaks cursor ⦃Follows cursor Prod.snd⦄ := by
  induction fuel generalizing breaks cursor with
  | zero =>
    mvcgen [quotedBreaks]
    exact .refl _
  | succ fuel ih =>
    mvcgen [quotedBreaks, ih]
    all_goals grind

@[spec]
theorem quotedGap_spec : ⦃⌜True⌝⦄ quotedGap fuel cursor ⦃Follows cursor Prod.snd⦄ := by
  mvcgen [quotedGap]
  all_goals grind

theorem escapeLength?_cases {letter : Char} (h : escapeLength? letter = some count) :
    count ≤ 4 ∨ letter = 'U' ∧ count = 8 := by
  unfold escapeLength? at h
  split at h
  · exact .inl (Option.some.inj h ▸ by decide)
  · exact .inl (Option.some.inj h ▸ by decide)
  · exact .inr ⟨rfl, (Option.some.inj h).symm⟩
  · contradiction

theorem rest_eq_cons {c : Char} (h : cursor.rest[0]? = some c) :
    cursor.rest = c :: cursor.rest.tail := by
  rw [← List.head?_eq_getElem?] at h
  exact (List.eq_cons_of_mem_head? h)

/-- Only the escape with eight digits has room for wide ones. -/
theorem exists_isWideEscape {after : Cursor} {letter : Char} {digits : List Char}
    (hletter : escapeLength? letter = some count)
    (hseen : letter = endMark ∨ cursor.rest[0]? = some letter)
    (hrest : after.rest = cursor.rest.tail) (htaken : digits <+: after.rest)
    (hlength : digits.length = count) (hwide : AreWide digits) :
    ∃ word, IsWideEscape word ∧ word <+: cursor.rest := by
  have hlong := hwide.four_lt_length
  obtain hshort | ⟨rfl, rfl⟩ := escapeLength?_cases hletter
  · omega
  · obtain hend | hseen := hseen
    · contradiction
    · refine ⟨'U' :: digits, ⟨digits, rfl, hlength, hwide⟩, ?_⟩
      rw [rest_eq_cons hseen, ← hrest]
      exact List.cons_prefix_cons.mpr ⟨rfl, htaken⟩

/-- An escape names a code point unless it is too wide. -/
@[spec]
theorem readEscape_spec :
    ⦃⌜True⌝⦄ readEscape fuel cursor
    ⦃post⟨fun a => ⌜a.2.IsAfter cursor⌝,
      fun e => ⌜e.IsDueTo cursor ∨ (∃ error, e = .scalar error) ∧
        ∃ word, IsWideEscape word ∧ word <+: cursor.rest⌝⟩⦄ := by
  mvcgen [readEscape]
  case vc4 letter count hcount _ hseen after hafter e =>
    intro h
    obtain h | ⟨herror, digits, htaken, hlength, hwide⟩ := h
    · exact .inl (h.of_isAfter hafter.1)
    · exact .inr ⟨herror, exists_isWideEscape hcount hseen hafter.2 htaken hlength hwide⟩
  all_goals grind

/-- A wide escape is one of the text in front of it, too. -/
theorem isDueTo_of_escape {after : Cursor} {e : Failure} {c : Char} (hc : c = '\\')
    (hseen : c = endMark ∨ cursor.rest[0]? = some c)
    (hafter : after.IsAfter cursor ∧ after.rest = cursor.rest.tail)
    (h : e.IsDueTo after ∨ (∃ error, e = .scalar error) ∧
      ∃ word, IsWideEscape word ∧ word <+: after.rest) : e.IsDueTo cursor := by
  subst hc
  obtain h | ⟨⟨error, rfl⟩, word, hword, htaken⟩ := h
  · exact h.of_isAfter hafter.1
  · obtain hend | hseen := hseen
    · contradiction
    · refine .oversize (.inr ⟨word, hword, ?_⟩)
      rw [rest_eq_cons hseen, ← hafter.2]
      exact (List.cons_prefix_cons.mpr ⟨rfl, htaken⟩).isInfix

@[spec]
theorem quotedContent_spec {double : Bool} {done : Text} :
    ⦃⌜True⌝⦄ quotedContent double fuel done cursor ⦃Follows cursor Prod.snd⦄ := by
  induction fuel generalizing done cursor with
  | zero =>
    mvcgen [quotedContent]
    exact isDueTo_malformed
  | succ fuel ih =>
    mvcgen [quotedContent, ih]
    case vc7 c _ _ hc hseen after hafter e => exact isDueTo_of_escape (by simp_all) hseen hafter
    all_goals grind

@[spec]
theorem readQuotedScalar_spec :
    ⦃⌜True⌝⦄ readQuotedScalar fuel cursor ⦃Follows cursor Prod.snd⦄ := by
  mvcgen [readQuotedScalar]
  all_goals grind

end

/-! ## Properties and directives -/

@[spec]
theorem readAnchorName_spec :
    ⦃⌜True⌝⦄ readAnchorName cursor ⦃Follows cursor Prod.snd⦄ := by
  mvcgen [readAnchorName]
  all_goals grind

@[spec]
theorem readTagEscapes_spec {octets : List UInt8} :
    ⦃⌜True⌝⦄ readTagEscapes fuel octets cursor ⦃Follows cursor Prod.snd⦄ := by
  induction fuel generalizing octets cursor with
  | zero =>
    mvcgen [readTagEscapes]
    exact .refl _
  | succ fuel ih =>
    mvcgen [readTagEscapes, ih]
    all_goals grind

@[spec]
theorem readTagText_spec {done : List Char} :
    ⦃⌜True⌝⦄ readTagText fuel done cursor ⦃Follows cursor Prod.snd⦄ := by
  induction fuel generalizing done cursor with
  | zero =>
    mvcgen [readTagText]
    exact .refl _
  | succ fuel ih =>
    mvcgen [readTagText, ih]
    all_goals grind

@[spec]
theorem readTagUri_spec : ⦃⌜True⌝⦄ readTagUri fuel cursor ⦃Follows cursor Prod.snd⦄ := by
  mvcgen [readTagUri]
  all_goals grind

@[spec]
theorem readTagHandle_spec :
    ⦃⌜True⌝⦄ readTagHandle cursor ⦃Follows cursor Prod.snd⦄ := by
  mvcgen [readTagHandle]
  all_goals grind

@[spec]
theorem hasHandle_spec : ⦃⌜True⌝⦄ hasHandle cursor ⦃Blames cursor⦄ := by
  mvcgen [hasHandle]

@[spec]
theorem readTag_spec : ⦃⌜True⌝⦄ readTag fuel cursor ⦃Follows cursor Prod.snd⦄ := by
  mvcgen [readTag]
  all_goals grind

@[spec]
theorem readVersionNumber_spec :
    ⦃⌜True⌝⦄ readVersionNumber cursor ⦃Follows cursor Prod.snd⦄ := by
  mvcgen [readVersionNumber]
  case vc1 => exact isDueTo_malformed
  case vc2 hrun => exact hrun.1
  case vc3 run hne text e herror hrun =>
    have hdigits : ∀ c ∈ run.1, isPlainDigit c = true := by
      rw [hrun.2]
      exact fun c hc => List.mem_takeWhile_imp hc
    -- Plain digits are a number unless there are too many of them.
    refine .oversize (.inl ⟨run.1, hrun.2 ▸ (List.takeWhile_prefix _).isInfix, hdigits, ?_⟩)
    by_contra hlimit
    obtain ⟨number, hnumber⟩ :=
      exists_readInteger_ofChars (by simpa using hne) hdigits (Nat.le_of_not_lt hlimit)
    simp [text, hnumber] at herror

@[spec]
theorem readVersion_spec : ⦃⌜True⌝⦄ readVersion cursor ⦃Follows cursor Prod.snd⦄ := by
  mvcgen [readVersion]
  all_goals grind

@[spec]
theorem readTagDirective_spec :
    ⦃⌜True⌝⦄ readTagDirective fuel cursor ⦃Follows cursor Prod.snd⦄ := by
  mvcgen [readTagDirective]
  all_goals grind

@[spec]
theorem readDirectiveBody_spec {name : String} :
    ⦃⌜True⌝⦄ readDirectiveBody fuel name cursor ⦃Follows cursor Prod.snd⦄ := by
  mvcgen [readDirectiveBody]

@[spec]
theorem readDirective_spec :
    ⦃⌜True⌝⦄ readDirective fuel cursor ⦃Follows cursor Prod.snd⦄ := by
  mvcgen [readDirective]
  all_goals grind

namespace Scan

variable {scan : Scan} {opening token : Token}

/-! ## The cursor of the state -/

@[simp, grind =]
theorem cursor_push : (scan.push token).cursor = scan.cursor := rfl

@[simp, grind =]
theorem cursor_pushAt : (scan.pushAt token cursor).cursor = cursor := rfl

@[simp, grind =]
theorem cursor_release : scan.release.cursor = scan.cursor := by
  have hgo (released : List Token) (count : Nat) (held : List Token) :
      (release.go scan released count held).cursor = scan.cursor := by
    fun_induction release.go scan released count held with
    | case1 => rfl
    | case2 => rfl
    | case3 _ _ _ _ _ ih => exact ih
  exact hgo _ _ _

@[simp, grind =]
theorem cursor_unwind {column : Int} : (scan.unwind column).cursor = scan.cursor := by
  have hgo (scan : Scan) (indents : List Int) :
      (unwind.go column scan indents).cursor = scan.cursor := by
    fun_induction unwind.go column scan indents with
    | case1 => rfl
    | case2 _ _ _ _ ih => exact ih
    | case3 => rfl
  unfold unwind
  split
  · rfl
  · exact hgo _ _

@[simp, grind =]
theorem cursor_openBlockHere : (scan.openBlockHere token).cursor = scan.cursor := by
  unfold openBlockHere openBlock?
  split_ifs <;> rfl

@[simp, grind =]
theorem cursor_completeKey {key : PendingKey} : (scan.completeKey key).cursor = scan.cursor := by
  simp only [completeKey, openBlock?, apply_ite Scan.cursor]
  split_ifs <;> rfl

/-! ## Pending keys -/

@[spec]
theorem dropKey_spec : ⦃⌜True⌝⦄ scan.dropKey ⦃Follows scan.cursor Scan.cursor⦄ := by
  mvcgen [dropKey]
  all_goals grind

@[spec]
theorem saveKey_spec : ⦃⌜True⌝⦄ scan.saveKey ⦃Follows scan.cursor Scan.cursor⦄ := by
  mvcgen [saveKey]
  exact .refl scan.cursor

@[spec]
theorem dropStaleKeys_spec :
    ⦃⌜True⌝⦄ scan.dropStaleKeys ⦃Follows scan.cursor Scan.cursor⦄ := by
  mvcgen [dropStaleKeys]
  all_goals grind

/-! ## Tokens -/

@[spec]
theorem skipGaps_spec {inFlow allowsKey : Bool} :
    ⦃⌜True⌝⦄ skipGaps inFlow fuel allowsKey cursor ⦃Follows cursor Prod.snd⦄ := by
  induction fuel generalizing allowsKey cursor with
  | zero =>
    mvcgen [skipGaps]
    exact .refl _
  | succ fuel ih =>
    mvcgen [skipGaps, ih]
    all_goals grind

@[spec]
theorem finish_spec : ⦃⌜True⌝⦄ scan.finish ⦃Follows scan.cursor Scan.cursor⦄ := by
  mvcgen [finish]
  all_goals grind

@[spec]
theorem directive_spec :
    ⦃⌜True⌝⦄ scan.directive fuel ⦃Follows scan.cursor Scan.cursor⦄ := by
  mvcgen [directive]
  all_goals grind

@[spec]
theorem documentMark_spec :
    ⦃⌜True⌝⦄ scan.documentMark token ⦃Follows scan.cursor Scan.cursor⦄ := by
  mvcgen [documentMark]
  all_goals grind

@[spec]
theorem flowStart_spec :
    ⦃⌜True⌝⦄ scan.flowStart token ⦃Follows scan.cursor Scan.cursor⦄ := by
  mvcgen [flowStart]
  all_goals grind

@[spec]
theorem flowEnd_spec :
    ⦃⌜True⌝⦄ scan.flowEnd token ⦃Follows scan.cursor Scan.cursor⦄ := by
  mvcgen [flowEnd]
  all_goals grind

@[spec]
theorem flowEntry_spec :
    ⦃⌜True⌝⦄ scan.flowEntry ⦃Follows scan.cursor Scan.cursor⦄ := by
  mvcgen [flowEntry]
  all_goals grind

@[spec]
theorem blockIndicator_spec {allowsKey : Bool} :
    ⦃⌜True⌝⦄ scan.blockIndicator opening token allowsKey
    ⦃Follows scan.cursor Scan.cursor⦄ := by
  mvcgen [blockIndicator]
  all_goals grind

@[spec]
theorem value_spec : ⦃⌜True⌝⦄ scan.value ⦃Follows scan.cursor Scan.cursor⦄ := by
  mvcgen [value]
  all_goals grind

@[spec]
theorem keyCandidate_spec {read : Cursor → Except Failure (Token × Cursor)}
    (hread : ∀ cursor, ⦃⌜True⌝⦄ read cursor ⦃Follows cursor Prod.snd⦄) :
    ⦃⌜True⌝⦄ scan.keyCandidate read ⦃Follows scan.cursor Scan.cursor⦄ := by
  mvcgen [keyCandidate, hread]
  all_goals grind

@[spec]
theorem blockScalar_spec {folded : Bool} :
    ⦃⌜True⌝⦄ scan.blockScalar fuel folded ⦃Follows scan.cursor Scan.cursor⦄ := by
  mvcgen [blockScalar]
  all_goals grind

@[spec]
theorem plainScalar_spec :
    ⦃⌜True⌝⦄ scan.plainScalar fuel ⦃Follows scan.cursor Scan.cursor⦄ := by
  mvcgen [plainScalar]
  all_goals grind

@[spec]
theorem atSeparator_spec {c mark : Char} :
    ⦃⌜True⌝⦄ scan.atSeparator c mark ⦃Blames scan.cursor⦄ := by
  mvcgen [atSeparator]

@[spec]
theorem atIndicator_spec {c mark : Char} {anywhereInFlow : Bool} :
    ⦃⌜True⌝⦄ scan.atIndicator c mark anywhereInFlow ⦃Blames scan.cursor⦄ := by
  mvcgen [atIndicator]

@[spec]
theorem ambiguousToken_spec {c : Char} :
    ⦃⌜True⌝⦄ scan.ambiguousToken fuel c ⦃Follows scan.cursor Scan.cursor⦄ := by
  mvcgen [ambiguousToken]
  exact isDueTo_malformed

@[spec]
theorem token_spec : ⦃⌜True⌝⦄ scan.token fuel ⦃Follows scan.cursor Scan.cursor⦄ := by
  mvcgen [token]

@[spec]
theorem skipByteOrderMark_spec :
    ⦃⌜True⌝⦄ skipByteOrderMark cursor ⦃Follows cursor id⦄ := by
  mvcgen [skipByteOrderMark]
  all_goals grind

/-- One step of the scanner stays in the text. -/
@[spec]
theorem step_spec : ⦃⌜True⌝⦄ scan.step fuel ⦃Follows scan.cursor Scan.cursor⦄ := by
  mvcgen [step]
  all_goals grind

/-! ## The stream -/

theorem isDueTo_of_run {bound : Nat} {e : Failure} (h : (run bound fuel scan).2 = some e) :
    e.IsDueTo scan.cursor := by
  induction fuel generalizing scan with
  | zero => contradiction
  | succ fuel ih =>
    have hstep : ⦃⌜True⌝⦄ scan.step bound ⦃Follows scan.cursor Scan.cursor⦄ := step_spec
    unfold run at h
    split at h
    case isTrue => contradiction
    case isFalse =>
      split at h
      case h_1 failure hfailure =>
        rw [hfailure] at hstep
        obtain rfl := Option.some.inj h
        exact hstep trivial
      case h_2 next hnext =>
        rw [hnext] at hstep
        have hafter : next.cursor.IsAfter scan.cursor := hstep trivial
        have hdue := ih h
        rw [cursor_release] at hdue
        exact hdue.of_isAfter hafter

end Scan

/-- **What ends the tokens of a text is due to what the text says or to where it breaks off.** -/
theorem TokenStream.isDueTo_of_failure_eq {cs : List Char} {ending : Option Failure} {e : Failure}
    (h : (TokenStream.ofChars cs ending).failure = some e) : e.IsDueTo { rest := cs, ending } := by
  unfold TokenStream.ofChars at h
  exact Scan.isDueTo_of_run h

end OpenApiClient.Document.Yaml
