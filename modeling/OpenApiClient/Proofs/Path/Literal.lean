import OpenApiClient.Proofs.Identifier
import OpenApiClient.Proofs.LowerCase
import OpenApiClient.Proofs.Path.Segments
import OpenApiClient.Text.Numeral

/-!
# String Literals

How the language reads a string literal: between single quotes, or between backticks with parameters
interpolated. A literal is read as *pieces*, the code points of its value and the references that it
interpolates, and has a value once its references have values. Escape sequences, line ends and the
ends of literals follow the rules of strict code; the only expressions interpolated are references.

## Layers

- **Escapes**: `escape?` reads what follows a backslash.
- **Pieces**: `piece?` reads the first piece of a literal, `readPieces` all of them up to the mark
  that ends it.
- **Values**: `evaluate`.
- **Weights**: a measure that reading never increases, and that it keeps only where the text stands
  for itself (`readPieces_weight`).
- **Reading back**: `readPieces_render`, pieces whose text stands for itself are read back.
-/

namespace OpenApiClient.TypeScript

open OpenApiClient.Client (openBrace closeBrace dollar)

/-! ## Marks -/

/-- The sign that begins an escape sequence. -/
def backslash : CodePoint := .char '\x5c'

def lineFeed : CodePoint := .char '\n'

def carriageReturn : CodePoint := .char '\r'

/-- The line ends of source text. -/
def lineEnds : List CodePoint :=
  [lineFeed, carriageReturn, .char '\u2028', .char '\u2029']

/-- The two kinds of string literals. -/
inductive Quote where
  | single
  | template
  deriving DecidableEq, Repr

/-- The mark that begins and ends a literal. -/
def Quote.mark : Quote → CodePoint
  | .single => .char '\x27'
  | .template => .char '\x60'

/-! ## Escapes -/

/-- The number that hexadecimal digits denote. -/
def hexValue? (digits : Text) : Option Nat :=
  digits.foldlM
    (fun value point => (point.char?.bind Text.hexDigitValue?).map (16 * value + ·)) 0

/-- Reads the number of a code point in a fixed number of digits. -/
def fixedEscape? (size : Nat) (text : Text) : Option (Text × Text) :=
  if size ≤ text.length then
    (hexValue? (text.take size)).map fun code => ([CodePoint.ofNat code], text.drop size)
  else none

/-- Reads the number of a code point up to a closing brace. -/
def bracedEscape? (text : Text) : Option (Text × Text) :=
  match text.dropWhile (· != closeBrace) with
  | [] => none
  | _ :: after =>
    match text.takeWhile (· != closeBrace) with
    | [] => none
    | digits => (hexValue? digits).bind fun code =>
        if code ≤ 0x10FFFF then some ([CodePoint.ofNat code], after) else none

/-- The escapes that name a control character. -/
def controlEscapes : List (CodePoint × CodePoint) :=
  [(.char 'b', .char '\x08'), (.char 't', .char '\t'), (.char 'n', lineFeed),
   (.char 'v', .char '\x0b'), (.char 'f', .char '\x0c'), (.char 'r', carriageReturn)]

/-- Reads an escape sequence after its backslash: its value, and what follows it. A line end has no
value; digits other than a lone zero are no escapes; every other character stands for itself. -/
def escape? : Text → Option (Text × Text)
  | [] => none
  | point :: rest =>
    if point = .char 'x' then fixedEscape? 2 rest
    else if point = .char 'u' then
      if rest.head? = some openBrace then bracedEscape? rest.tail else fixedEscape? 4 rest
    else if point.is Char.isDigit then
      if point = .char '0' ∧ ¬ rest.head?.any (·.is Char.isDigit) then some ([.char '\x00'], rest)
      else none
    else if point = carriageReturn ∧ rest.head? = some lineFeed then some ([], rest.tail)
    else if point ∈ lineEnds then some ([], rest)
    else some ([(controlEscapes.lookup point).getD point], rest)

/-! ## Pieces -/

/-- A piece of a literal: a code point of its value, or a reference that it interpolates. -/
inductive Piece where
  | point (code : CodePoint)
  | reference (name : Text)
  deriving DecidableEq, Repr

/-- The text of a piece that stands for itself. -/
def Piece.text : Piece → Text
  | .point code => [code]
  | .reference name => dollar :: openBrace :: (name ++ [closeBrace])

/-- The text of pieces that stand for themselves. -/
def render (pieces : List Piece) : Text :=
  pieces.flatMap Piece.text

/-- Reads a reference up to the brace that closes its interpolation. -/
def reference? (alphabet : Alphabet) (text : Text) : Option (List Piece × Text) :=
  match text.dropWhile (·.is alphabet.continues) with
  | [] => none
  | point :: after =>
    if point = closeBrace ∧ alphabet.isReference (text.takeWhile (·.is alphabet.continues)) then
      some ([.reference (text.takeWhile (·.is alphabet.continues))], after)
    else none

/-- Reads the first piece of a literal, after its mark; an escaped line end gives no piece. -/
def piece? (alphabet : Alphabet) (quote : Quote) : Text → Option (List Piece × Text)
  | [] => none
  | point :: rest =>
    if point = backslash then
      (escape? rest).map fun (value, after) => (value.map .point, after)
    else match quote with
      | .single =>
        if point = lineFeed ∨ point = carriageReturn then none else some ([.point point], rest)
      | .template =>
        if point = carriageReturn then
          some ([.point lineFeed], if rest.head? = some lineFeed then rest.tail else rest)
        else if point = dollar ∧ rest.head? = some openBrace then reference? alphabet rest.tail
        else some ([.point point], rest)

/-! ## Weights -/

/-- The weight of a code point: escapes and line ends lose weight when they are read, because a
backslash weighs most and is written by an escape only with the digit five. -/
def weight (point : CodePoint) : Nat :=
  if point = backslash then 2 else if point = .char '5' ∨ point = carriageReturn then 1 else 0

def textWeight (text : Text) : Nat :=
  Text.totalWeight weight text

@[simp] theorem textWeight_nil : textWeight [] = 0 := rfl

@[simp] theorem textWeight_cons (point : CodePoint) (text : Text) :
    textWeight (point :: text) = weight point + textWeight text := rfl

@[simp] theorem textWeight_append (text other : Text) :
    textWeight (text ++ other) = textWeight text + textWeight other :=
  Text.totalWeight_append weight text other

theorem weight_le (point : CodePoint) : weight point ≤ 2 := by
  unfold weight
  split
  · exact Nat.le_refl 2
  · split <;> omega

theorem weight_le_one {point : CodePoint} (h : point ≠ backslash) : weight point ≤ 1 := by
  unfold weight
  rw [if_neg h]
  split <;> omega

theorem weight_le_textWeight {point : CodePoint} {text : Text} (h : point ∈ text) :
    weight point ≤ textWeight text := by
  induction text with
  | nil => simp at h
  | cons first rest ih =>
    rw [textWeight_cons]
    rcases List.mem_cons.mp h with rfl | hrest
    · omega
    · have := ih hrest
      omega

/-! ## Escapes lose weight -/

theorem hexDigitValue?_cases {c : Char} {value : Nat} (h : Text.hexDigitValue? c = some value) :
    value < 16 ∧ (value < 10 → c.toNat = 48 + value) := by
  unfold Text.hexDigitValue? at h
  simp only [Text.isPlainDigit, Text.plainDigitValue, Bool.and_eq_true, decide_eq_true_eq,
    Char.le_def, UInt32.le_iff_toNat_le] at h
  change (if 48 ≤ c.toNat ∧ c.toNat ≤ 57 then some (c.toNat - 48)
    else if 97 ≤ c.toNat ∧ c.toNat ≤ 102 then some (c.toNat - 97 + 10)
    else if 65 ≤ c.toNat ∧ c.toNat ≤ 70 then some (c.toNat - 65 + 10) else none) = some value at h
  split at h
  · rw [Option.some.injEq] at h
    omega
  · split at h
    · rw [Option.some.injEq] at h
      omega
    · split at h
      · rw [Option.some.injEq] at h
        omega
      · contradiction

/-- The last hexadecimal digit and the number before it. -/
private theorem exists_last_of_hexValue? {digits : Text} {code : Nat}
    (h : hexValue? digits = some code) (hpos : 0 < code) :
    ∃ init c value digit, digits = init ++ [.char c] ∧ hexValue? init = some value ∧
      Text.hexDigitValue? c = some digit ∧ code = 16 * value + digit := by
  rcases List.eq_nil_or_concat digits with rfl | ⟨init, last, rfl⟩
  · have hzero : 0 = code := by simpa [hexValue?] using h
    omega
  · -- The last step of the fold reads the last digit.
    rw [List.concat_eq_append] at h ⊢
    rw [hexValue?, List.foldlM_append] at h
    obtain ⟨value, hvalue, h⟩ := Option.bind_eq_some_iff.mp h
    rw [List.foldlM_cons] at h
    obtain ⟨total, htotal, h⟩ := Option.bind_eq_some_iff.mp h
    obtain rfl : total = code := Option.some.inj h
    obtain ⟨digit, hdigit, rfl⟩ := Option.map_eq_some_iff.mp htotal
    obtain ⟨c, hc, hdigit⟩ := Option.bind_eq_some_iff.mp hdigit
    cases last with
    | surrogate offset => contradiction
    | char d =>
      obtain rfl : d = c := by simpa [CodePoint.char?] using hc
      exact ⟨init, d, value, digit, rfl, hvalue, hdigit, rfl⟩

/-- The number of a backslash is written with the digit five. -/
theorem five_mem_of_hexValue? {digits : Text} (h : hexValue? digits = some 0x5C) :
    .char '5' ∈ digits := by
  obtain ⟨init, c, value, digit, rfl, hvalue, hdigit, hcode⟩ :=
    exists_last_of_hexValue? h (by omega)
  have hlt := (hexDigitValue?_cases hdigit).1
  -- The number is five times sixteen and twelve, so the last digit but one is the five.
  obtain ⟨init, c', value', digit', rfl, -, hdigit', hcode'⟩ :=
    exists_last_of_hexValue? hvalue (by omega)
  have hfive : c'.toNat = '5'.toNat := by
    have := (hexDigitValue?_cases hdigit').2 (by omega)
    rw [this, show digit' = 5 by omega]
    rfl
  have : c' = '5' := Char.toNat_inj.mp hfive
  simp [this]

theorem eq_of_ofNat_eq_backslash {code : Nat} (h : CodePoint.ofNat code = backslash) :
    code = 0x5C := by
  unfold CodePoint.ofNat at h
  split at h
  · contradiction
  · have hchar : Char.ofNat code = '\x5c' := CodePoint.char.inj h
    by_cases hvalid : code.isValidChar
    · rw [← Text.toNat_ofNat_of_valid hvalid, hchar]
      rfl
    · -- What is no character stands for the one of number zero.
      rw [Char.ofNat, dif_neg hvalid] at hchar
      exact absurd hchar (by decide)

/-- A code point weighs less than a backslash and the digits of its number. -/
theorem weight_ofNat_lt {digits : Text} {code : Nat} (h : hexValue? digits = some code) :
    weight (CodePoint.ofNat code) < 2 + textWeight digits := by
  by_cases hcode : CodePoint.ofNat code = backslash
  · rw [eq_of_ofNat_eq_backslash hcode] at h
    have hfive : 1 ≤ textWeight digits := weight_le_textWeight (five_mem_of_hexValue? h)
    have := weight_le (CodePoint.ofNat code)
    omega
  · have := weight_le_one hcode
    omega

/-- What an escape says: it uses some text after the backslash, and its value weighs less than the
backslash and that text. -/
def EscapeLosesWeight (text value after : Text) : Prop :=
  ∃ used, text = used ++ after ∧ used ≠ [] ∧ textWeight value < 2 + textWeight used

theorem fixedEscape?_losesWeight {size : Nat} {text value after : Text} (hsize : 0 < size)
    (h : fixedEscape? size text = some (value, after)) : EscapeLosesWeight text value after := by
  unfold fixedEscape? at h
  split at h
  case isFalse => contradiction
  case isTrue hlength =>
    obtain ⟨code, hcode, heq⟩ := Option.map_eq_some_iff.mp h
    obtain ⟨rfl, rfl⟩ := Prod.mk.inj heq
    refine ⟨text.take size, (List.take_append_drop size text).symm, ?_, ?_⟩
    · intro hnil
      have := congrArg List.length hnil
      rw [List.length_take, List.length_nil] at this
      omega
    · simpa using weight_ofNat_lt hcode

theorem bracedEscape?_losesWeight {text value after : Text}
    (h : bracedEscape? text = some (value, after)) : EscapeLosesWeight text value after := by
  unfold bracedEscape? at h
  split at h
  case h_1 => contradiction
  case h_2 brace after' hafter =>
    split at h
    case h_1 => contradiction
    case h_2 digits hne =>
      obtain ⟨code, hcode, h⟩ := Option.bind_eq_some_iff.mp h
      split at h
      case isFalse => contradiction
      case isTrue hvalid =>
        obtain ⟨rfl, rfl⟩ := Prod.mk.inj (Option.some.inj h)
        refine ⟨text.takeWhile (· != closeBrace) ++ [brace], ?_, by simp, ?_⟩
        · rw [List.append_assoc, List.singleton_append, ← hafter, List.takeWhile_append_dropWhile]
        · have := weight_ofNat_lt hcode
          simp only [textWeight_append, textWeight_cons, textWeight_nil]
          omega

theorem escape?_losesWeight {text value after : Text} (h : escape? text = some (value, after)) :
    EscapeLosesWeight text value after := by
  cases text with
  | nil => contradiction
  | cons point rest =>
    -- An escape of one character uses that character, a line end of two uses both.
    have hone : ∀ value', textWeight value' < 2 + weight point →
        EscapeLosesWeight (point :: rest) value' rest :=
      fun value' hvalue => ⟨[point], rfl, List.cons_ne_nil _ _, by simpa using hvalue⟩
    have hmore : ∀ {tail}, EscapeLosesWeight tail value after → (∃ used, rest = used ++ tail) →
        EscapeLosesWeight (point :: rest) value after := by
      rintro tail ⟨used, rfl, -, hused⟩ ⟨before, rfl⟩
      refine ⟨point :: (before ++ used), by simp, List.cons_ne_nil _ _, ?_⟩
      simp only [textWeight_cons, textWeight_append]
      omega
    rw [escape?] at h
    split at h
    · exact hmore (fixedEscape?_losesWeight (by omega) h) ⟨[], rfl⟩
    split at h
    · split at h
      case isTrue hbrace =>
        cases rest with
        | nil => contradiction
        | cons brace rest => exact hmore (bracedEscape?_losesWeight h) ⟨[brace], rfl⟩
      case isFalse => exact hmore (fixedEscape?_losesWeight (by omega) h) ⟨[], rfl⟩
    split at h
    · split at h
      · obtain ⟨rfl, rfl⟩ := Prod.mk.inj (Option.some.inj h)
        exact hone _ (Nat.lt_of_lt_of_le (by decide) (Nat.le_add_right _ _))
      · contradiction
    split at h
    case isTrue hline =>
      obtain ⟨rfl, rfl⟩ := Prod.mk.inj (Option.some.inj h)
      cases rest with
      | nil => simp at hline
      | cons feed rest =>
        exact ⟨[point, feed], rfl, List.cons_ne_nil _ _, by rw [textWeight_nil]; omega⟩
    split at h
    · obtain ⟨rfl, rfl⟩ := Prod.mk.inj (Option.some.inj h)
      exact hone _ (by rw [textWeight_nil]; omega)
    · obtain ⟨rfl, rfl⟩ := Prod.mk.inj (Option.some.inj h)
      apply hone
      cases hlookup : controlEscapes.lookup point with
      | none => simp
      | some control =>
        obtain ⟨before, after, hsplit, -⟩ := List.lookup_eq_some_iff.mp hlookup
        have hmem : (point, control) ∈ controlEscapes := by simp [hsplit]
        have hcontrol : control ≠ backslash :=
          (by decide : ∀ escape ∈ controlEscapes, escape.2 ≠ backslash) _ hmem
        have := weight_le_one hcontrol
        simp only [Option.getD_some, textWeight_cons, textWeight_nil]
        omega

/-! ## The first piece -/

/-- A reference is a name up to the brace that closes the interpolation. -/
theorem reference?_eq_some_iff {alphabet : Alphabet} {text after : Text} {pieces : List Piece} :
    reference? alphabet text = some (pieces, after) ↔
      ∃ name, pieces = [.reference name] ∧ text = name ++ closeBrace :: after ∧
        alphabet.isReference name := by
  constructor
  · intro h
    unfold reference? at h
    split at h
    case h_1 => contradiction
    case h_2 point after' hafter =>
      split at h
      case isFalse => contradiction
      case isTrue hname =>
        obtain ⟨rfl, rfl⟩ := Prod.mk.inj (Option.some.inj h)
        refine ⟨_, rfl, ?_, hname.2⟩
        rw [← hname.1, ← hafter, List.takeWhile_append_dropWhile]
  · rintro ⟨name, rfl, rfl, hname⟩
    have hcontinues := Alphabet.continues_of_isWord (Alphabet.isWord_of_isReference hname)
    have hbrace : ¬ closeBrace.is alphabet.continues :=
      alphabet.not_continues (by decide) (by decide)
    have htake : (name ++ closeBrace :: after).takeWhile (·.is alphabet.continues) = name := by
      rw [List.takeWhile_append_of_pos hcontinues, List.takeWhile_cons_of_neg hbrace,
        List.append_nil]
    have hdrop : (name ++ closeBrace :: after).dropWhile (·.is alphabet.continues) =
        closeBrace :: after := by
      rw [List.dropWhile_append_of_pos hcontinues, List.dropWhile_cons_of_neg hbrace]
    simp only [reference?, htake, hdrop, hname, and_self, if_true]

/-- Whether a piece can stand in a literal as its own text. -/
def Piece.StandsForItself (alphabet : Alphabet) (quote : Quote) : Piece → Prop
  | .point code =>
    code ≠ quote.mark ∧ code ≠ backslash ∧ code ≠ carriageReturn ∧
      (quote = .single → code ≠ lineFeed)
  | .reference name => quote = .template ∧ alphabet.isReference name

instance (alphabet : Alphabet) (quote : Quote) (piece : Piece) :
    Decidable (piece.StandsForItself alphabet quote) :=
  match piece with
  | .point code => inferInstanceAs (Decidable (code ≠ quote.mark ∧ _))
  | .reference name => inferInstanceAs (Decidable (quote = .template ∧ alphabet.isReference name))

/-- What reading one piece says: it uses some text, and either the text is that of the piece itself,
or it weighs more than the piece. -/
theorem piece?_cases {alphabet : Alphabet} {quote : Quote} {point : CodePoint} {rest after : Text}
    {pieces : List Piece} (hmark : point ≠ quote.mark)
    (h : piece? alphabet quote (point :: rest) = some (pieces, after)) :
    ∃ used, point :: rest = used ++ after ∧ used ≠ [] ∧
      ((∃ piece, pieces = [piece] ∧ used = piece.text ∧ piece.StandsForItself alphabet quote ∧
          (quote = .template → piece = .point dollar → after.head? ≠ some openBrace)) ∨
        textWeight (render pieces) < textWeight used) := by
  have hpoint : ∀ value, textWeight (render (value.map Piece.point)) = textWeight value := by
    intro value
    simp [render, List.flatMap_map, Piece.text]
  unfold piece? at h
  dsimp only at h
  split at h
  case isTrue hescape =>
    -- An escape weighs more than its value, whose points are the pieces.
    obtain ⟨⟨value, after'⟩, hvalue, heq⟩ := Option.map_eq_some_iff.mp h
    obtain ⟨rfl, rfl⟩ := Prod.mk.inj heq
    obtain ⟨used, rfl, hused, hweight⟩ := escape?_losesWeight hvalue
    refine ⟨point :: used, rfl, List.cons_ne_nil _ _, .inr ?_⟩
    rw [hpoint, textWeight_cons, hescape]
    exact hweight
  case isFalse hescape =>
    cases quote with
    | single =>
      simp only at h
      split at h
      case isTrue => contradiction
      case isFalse hline =>
        obtain ⟨rfl, rfl⟩ := Prod.mk.inj (Option.some.inj h)
        rw [not_or] at hline
        exact ⟨[point], rfl, List.cons_ne_nil _ _,
          .inl ⟨.point point, rfl, rfl, ⟨hmark, hescape, hline.2, fun _ => hline.1⟩,
            fun hq => absurd hq (by decide)⟩⟩
    | template =>
      simp only at h
      split at h
      case isTrue hreturn =>
        -- A carriage return, alone or with its line feed, is read as a line feed.
        obtain ⟨rfl, rfl⟩ := Prod.mk.inj (Option.some.inj h)
        have hfeed : textWeight (render [.point lineFeed]) = 0 := rfl
        have hweight : weight point = 1 := by rw [hreturn]; rfl
        split
        case isTrue hnext =>
          cases rest with
          | nil => contradiction
          | cons feed rest =>
            exact ⟨[point, feed], rfl, List.cons_ne_nil _ _,
              .inr (by simp only [hfeed, textWeight_cons, hweight]; omega)⟩
        case isFalse =>
          exact ⟨[point], rfl, List.cons_ne_nil _ _,
            .inr (by simp only [hfeed, textWeight_cons, hweight]; omega)⟩
      case isFalse hreturn =>
        split at h
        case isTrue hdollar =>
          obtain ⟨rfl, hbrace⟩ := hdollar
          obtain ⟨name, rfl, htail, hname⟩ := reference?_eq_some_iff.mp h
          cases rest with
          | nil => contradiction
          | cons brace rest =>
            obtain rfl : brace = openBrace := Option.some.inj hbrace
            obtain rfl : rest = name ++ closeBrace :: after := htail
            exact ⟨(Piece.reference name).text, by simp [Piece.text], List.cons_ne_nil _ _,
              .inl ⟨.reference name, rfl, rfl, ⟨rfl, hname⟩, fun _ hpiece => by contradiction⟩⟩
        case isFalse hdollar =>
          obtain ⟨rfl, rfl⟩ := Prod.mk.inj (Option.some.inj h)
          refine ⟨[point], rfl, List.cons_ne_nil _ _, .inl ⟨.point point, rfl, rfl,
            ⟨hmark, hescape, hreturn, fun hq => absurd hq (by decide)⟩, fun _ hpiece hbrace => ?_⟩⟩
          exact hdollar ⟨Piece.point.inj hpiece, hbrace⟩

/-! ## Reading -/

theorem length_lt_of_piece? {alphabet : Alphabet} {quote : Quote} {point : CodePoint}
    {rest after : Text} {pieces : List Piece} (hmark : point ≠ quote.mark)
    (h : piece? alphabet quote (point :: rest) = some (pieces, after)) :
    after.length < (point :: rest).length := by
  obtain ⟨used, hused, hne, -⟩ := piece?_cases hmark h
  rw [hused, List.length_append]
  have := List.length_pos_iff.mpr hne
  omega

/-- Reads the pieces of a literal after its first mark, up to the mark that ends it and the text. -/
def readPieces (alphabet : Alphabet) (quote : Quote) : Text → Option (List Piece)
  | [] => none
  | point :: rest =>
    if hmark : point = quote.mark then
      if rest = [] then some [] else none
    else
      match hpiece : piece? alphabet quote (point :: rest) with
      | none => none
      | some (pieces, after) =>
        have := length_lt_of_piece? hmark hpiece
        (readPieces alphabet quote after).map (pieces ++ ·)
termination_by text => text.length
decreasing_by exact this

/-- Reads the pieces of a complete literal. -/
def readLiteral (alphabet : Alphabet) (quote : Quote) : Text → Option (List Piece)
  | [] => none
  | point :: rest => if point = quote.mark then readPieces alphabet quote rest else none

theorem readLiteral_mark (alphabet : Alphabet) (quote : Quote) (text : Text) :
    readLiteral alphabet quote (quote.mark :: text) = readPieces alphabet quote text := by
  rw [readLiteral, if_pos rfl]

theorem readPieces_mark (alphabet : Alphabet) (quote : Quote) (rest : Text) :
    readPieces alphabet quote (quote.mark :: rest) = if rest = [] then some [] else none := by
  rw [readPieces, dif_pos rfl]

theorem readPieces_piece {alphabet : Alphabet} {quote : Quote} {point : CodePoint}
    {rest after : Text} {pieces : List Piece} (hmark : point ≠ quote.mark)
    (hpiece : piece? alphabet quote (point :: rest) = some (pieces, after)) :
    readPieces alphabet quote (point :: rest) =
      (readPieces alphabet quote after).map (pieces ++ ·) := by
  rw [readPieces, dif_neg hmark]
  split
  case h_1 hnone => simp [hpiece] at hnone
  case h_2 pieces' after' hsome =>
    rw [hpiece] at hsome
    obtain ⟨rfl, rfl⟩ := Prod.mk.inj (Option.some.inj hsome)
    rfl

theorem readPieces_cases {alphabet : Alphabet} {quote : Quote} {point : CodePoint} {rest : Text}
    {pieces : List Piece} (hmark : point ≠ quote.mark)
    (h : readPieces alphabet quote (point :: rest) = some pieces) :
    ∃ first after others, piece? alphabet quote (point :: rest) = some (first, after) ∧
      readPieces alphabet quote after = some others ∧ pieces = first ++ others := by
  cases hpiece : piece? alphabet quote (point :: rest) with
  | none =>
    rw [readPieces, dif_neg hmark] at h
    split at h
    case h_1 => contradiction
    case h_2 hsome => simp [hpiece] at hsome
  | some result =>
    rw [readPieces_piece hmark hpiece] at h
    obtain ⟨others, hothers, rfl⟩ := Option.map_eq_some_iff.mp h
    exact ⟨_, _, others, rfl, hothers, rfl⟩

/-! ## Reading back -/

/-- When the text of pieces is read as these pieces again: every piece stands for itself, and no
dollar sign of a template comes to stand before an opening brace. -/
structure ReadsBack (alphabet : Alphabet) (quote : Quote) (pieces : List Piece) : Prop where
  each : ∀ piece ∈ pieces, piece.StandsForItself alphabet quote
  apart : quote = .template → ¬ [.point dollar, .point openBrace] <:+: pieces

theorem readsBack_nil (alphabet : Alphabet) (quote : Quote) : ReadsBack alphabet quote [] :=
  ⟨by simp, by simp⟩

@[simp] theorem render_cons (piece : Piece) (pieces : List Piece) :
    render (piece :: pieces) = piece.text ++ render pieces := by
  rw [render, List.flatMap_cons, render]

@[simp] theorem render_append (pieces others : List Piece) :
    render (pieces ++ others) = render pieces ++ render others := by
  rw [render, List.flatMap_append, render, render]

/-- The text of pieces begins with an opening brace only if the first piece is that brace. -/
theorem eq_openBrace_of_head?_render {pieces : List Piece} {quote : Quote}
    (h : (render pieces ++ [quote.mark]).head? = some openBrace) :
    ∃ others, pieces = .point openBrace :: others := by
  cases pieces with
  | nil => cases quote <;> exact absurd h (by decide)
  | cons piece others =>
    cases piece with
    | point code =>
      obtain rfl : code = openBrace := Option.some.inj h
      exact ⟨others, rfl⟩
    | reference name => exact absurd h (by simp [Piece.text, dollar, openBrace])

theorem readsBack_cons {alphabet : Alphabet} {quote : Quote} {piece : Piece} {pieces : List Piece}
    (hpiece : piece.StandsForItself alphabet quote) (hpieces : ReadsBack alphabet quote pieces)
    (hapart : quote = .template → piece = .point dollar →
      (render pieces ++ [quote.mark]).head? ≠ some openBrace) :
    ReadsBack alphabet quote (piece :: pieces) where
  each := List.forall_mem_cons.mpr ⟨hpiece, hpieces.each⟩
  apart hquote hwithin := by
    rw [List.infix_cons_iff] at hwithin
    rcases hwithin with hprefix | hwithin
    · rw [List.cons_prefix_cons] at hprefix
      obtain ⟨rfl, others, rfl⟩ := hprefix
      exact hapart hquote rfl rfl
    · exact hpieces.apart hquote hwithin

/-- **What reading keeps.** A literal that is read ends with its mark, its pieces weigh no more than
the text between the marks, and where they weigh the same every piece stands for itself. -/
theorem readPieces_weight {alphabet : Alphabet} {quote : Quote} {text : Text}
    {pieces : List Piece} (h : readPieces alphabet quote text = some pieces) :
    ∃ body, text = body ++ [quote.mark] ∧ textWeight (render pieces) ≤ textWeight body ∧
      (textWeight (render pieces) = textWeight body →
        body = render pieces ∧ ReadsBack alphabet quote pieces) := by
  induction hlength : text.length using Nat.strongRecOn generalizing text pieces with
  | _ length ih =>
    cases text with
    | nil => simp [readPieces] at h
    | cons point rest =>
      by_cases hmark : point = quote.mark
      · subst hmark
        rw [readPieces_mark] at h
        split at h
        case isFalse => contradiction
        case isTrue hrest =>
          obtain rfl : [] = pieces := Option.some.inj h
          exact ⟨[], by rw [hrest, List.nil_append], Nat.le_refl _,
            fun _ => ⟨rfl, readsBack_nil alphabet quote⟩⟩
      · obtain ⟨first, after, others, hpiece, hothers, rfl⟩ := readPieces_cases hmark h
        obtain ⟨used, hused, -, hcases⟩ := piece?_cases hmark hpiece
        have hshorter : after.length < length := hlength ▸ length_lt_of_piece? hmark hpiece
        obtain ⟨body, rfl, hle, hsame⟩ := ih after.length hshorter hothers rfl
        refine ⟨used ++ body, by rw [hused, List.append_assoc], ?_⟩
        rw [render_append, textWeight_append, textWeight_append]
        rcases hcases with ⟨piece, rfl, rfl, hself, hapart⟩ | hlost
        · -- The first piece keeps its weight, so equal weights are left to the rest.
          have hfirst : render [piece] = piece.text := by simp [render]
          rw [hfirst]
          refine ⟨by omega, fun hequal => ?_⟩
          obtain ⟨rfl, hback⟩ := hsame (by omega)
          exact ⟨rfl, readsBack_cons hself hback hapart⟩
        · -- The weight lost in the first piece is not made up by the rest.
          exact ⟨by omega, fun hequal => by omega⟩

/-- The text of pieces that read back, ended by its mark, is read as these pieces. -/
theorem readPieces_render {alphabet : Alphabet} {quote : Quote} {pieces : List Piece}
    (h : ReadsBack alphabet quote pieces) :
    readPieces alphabet quote (render pieces ++ [quote.mark]) = some pieces := by
  induction pieces with
  | nil =>
    rw [render, List.flatMap_nil, List.nil_append, readPieces_mark, if_pos rfl]
  | cons piece pieces ih =>
    have hrest : ReadsBack alphabet quote pieces :=
      ⟨fun p hp => h.each p (List.mem_cons_of_mem _ hp),
        fun hquote hwithin => h.apart hquote (List.infix_cons hwithin)⟩
    have hself := h.each piece (List.mem_cons_self ..)
    cases piece with
    | point code =>
      obtain ⟨hmark, hescape, hreturn, hline⟩ := hself
      have hapart : quote = .template →
          ¬ (code = dollar ∧ (render pieces ++ [quote.mark]).head? = some openBrace) := by
        -- Only a piece that is an opening brace could follow the dollar sign.
        rintro hquote ⟨rfl, hhead⟩
        obtain ⟨others, rfl⟩ := eq_openBrace_of_head?_render hhead
        exact h.apart hquote ⟨[], others, rfl⟩
      have hpiece : piece? alphabet quote (code :: (render pieces ++ [quote.mark])) =
          some ([.point code], render pieces ++ [quote.mark]) := by
        unfold piece?
        dsimp only
        rw [if_neg hescape]
        cases quote with
        | single => exact if_neg fun h => h.elim (hline rfl) hreturn
        | template => exact (if_neg hreturn).trans (if_neg (hapart rfl))
      rw [render_cons, Piece.text, List.append_assoc, List.singleton_append,
        readPieces_piece hmark hpiece, ih hrest]
      rfl
    | reference name =>
      obtain ⟨rfl, hname⟩ := hself
      have hmark : dollar ≠ Quote.template.mark := by decide
      have hpiece : piece? alphabet .template
          (dollar :: openBrace :: (name ++ closeBrace :: (render pieces ++ [Quote.template.mark]))) =
          some ([.reference name], render pieces ++ [Quote.template.mark]) := by
        unfold piece?
        dsimp only
        rw [if_neg (by decide), if_neg (by decide), if_pos ⟨rfl, rfl⟩]
        exact reference?_eq_some_iff.mpr ⟨name, rfl, rfl, hname⟩
      rw [render_cons, Piece.text]
      simp only [List.cons_append, List.append_assoc, List.nil_append]
      rw [readPieces_piece hmark hpiece, ih hrest]
      rfl

/-! ## Values -/

/-- The value of a piece, when `value` gives the values of references. -/
def Piece.value? (value : Text → Option Text) : Piece → Option Text
  | .point code => some [code]
  | .reference name => value name

/-- The value of a literal; none if the source is no complete literal, or refers to a name without
value. -/
def evaluate (alphabet : Alphabet) (quote : Quote) (value : Text → Option Text) (source : Text) :
    Option Text :=
  (readLiteral alphabet quote source).bind fun pieces =>
    (pieces.mapM (Piece.value? value)).map List.flatten

end OpenApiClient.TypeScript
