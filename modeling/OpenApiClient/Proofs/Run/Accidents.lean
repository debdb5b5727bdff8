import OpenApiClient.CommandLine
import OpenApiClient.Proofs.JsonNumerals
import OpenApiClient.Proofs.Run.Confinement
import OpenApiClient.Proofs.Utf8
import OpenApiClient.Proofs.Yaml.Documents

/-!
# Where Runs End in Accidents

Loading a specification gives it or a declared error unless one of a few things is met that no stage
foresees: a path too long for the operating system, bytes that are no text, a scalar without a value, a
number too long to be read or written. Writing and printing add one more, a surrogate in the source or in a
warning. In all other cases the program answers with its exit status.

## Layers

- **Outcomes**: `IsForeseen`, and when a sequence of stages is foreseen.
- **Loading**: the stages, and what each asks of the path and of the bytes (`FileSystem.IsHarmless`).
- **Writing**: what becomes of a source (`writeSource_cases`).
- **Runs**: `isForeseen_run_and_iff`, for a run and what is done with its client.
- **Printing**: what a stream takes, and the paths that a request gives.
- **Main statement**: `isForeseen_of_isHarmless`. For JSON the condition is exact, with the numbers that
  reading really comes to.
-/

namespace OpenApiClient

open OpenApiClient.Document

/-! ## Outcomes -/

/-- Whether an outcome is a result or a declared error. -/
def IsForeseen {ε α : Type} (outcome : Except (Stop ε) α) : Prop :=
  (∃ result, outcome = .ok result) ∨ ∃ e, outcome = .error (.error e)

section

variable {ε α β : Type}

theorem isForeseen_ok {result : α} : IsForeseen (.ok result : Except (Stop ε) α) :=
  .inl ⟨result, rfl⟩

theorem isForeseen_error {e : ε} : IsForeseen (.error (.error e) : Except (Stop ε) α) :=
  .inr ⟨e, rfl⟩

theorem not_isForeseen_accident {accident : Accident} :
    ¬ IsForeseen (.error (.accident accident) : Except (Stop ε) α) := by
  simp [IsForeseen]

theorem isForeseen_mapError {φ : Type} {f : φ → ε} (x : Except φ α) :
    IsForeseen (x.mapError fun e => Stop.error (f e)) := by
  cases x with
  | error e => exact isForeseen_error
  | ok result => exact isForeseen_ok

theorem isForeseen_bind_iff {x : Except (Stop ε) α} {next : α → Except (Stop ε) β} :
    IsForeseen (x >>= next) ↔ IsForeseen x ∧ ∀ result, x = .ok result → IsForeseen (next result) := by
  cases x with
  | error stop => simp [IsForeseen, bind, Except.bind]
  | ok result => simp [bind, Except.bind, isForeseen_ok]

end

/-! ## Loading -/

variable {fs : FileSystem} {path : PathName} {bytes : List UInt8}

theorem isForeseen_inputBytes_iff (hnul : path.hasNul = false) :
    IsForeseen (inputBytes fs path) ↔ ¬ fs.IsOverlong path := by
  unfold inputBytes
  cases hfile : fs.isFile path with
  | error e =>
    have hlong := (FileSystem.isFile_eq_error_iff.mp hfile).1
    simp [hnul, hlong, not_isForeseen_accident]
  | ok found =>
    have hshort : ¬ fs.IsOverlong path := fun hlong => by
      simp [FileSystem.isFile_eq_error_iff.mpr ⟨hlong, rfl⟩] at hfile
    cases found <;> simp [hnul, hshort, isForeseen_error, isForeseen_mapError]

/-- Whether bytes are a text in which JSON finds no number that is too long. -/
def IsReadableJson (bytes : List UInt8) : Prop :=
  ∃ cs : List Char, bytes = cs.flatMap String.utf8EncodeChar ∧
    ∀ e literal, Json.read (Text.unifyLineEnds cs) ≠ .error (.numeral e literal)

theorem isForeseen_readJson_iff : IsForeseen (readJson path bytes) ↔ IsReadableJson bytes := by
  simp only [IsReadableJson, ← Text.Utf8.decode_eq_ok_iff]
  unfold readJson
  cases hdecode : Text.Utf8.decode bytes with
  | error fault => simp [not_isForeseen_accident]
  | ok cs =>
    simp only [Except.ok.injEq, exists_eq_left']
    split
    case h_1 value hread => simp [hread, isForeseen_ok]
    case h_2 fault hread => simp [hread, isForeseen_error]
    case h_3 e literal hread => simp [hread, not_isForeseen_accident]

/-- Whether bytes are a text without a run of more digits than a number may have. -/
def IsHarmlessJson (bytes : List UInt8) : Prop :=
  ∃ cs : List Char, bytes = cs.flatMap String.utf8EncodeChar ∧ ¬ Text.HasLongNumeral cs

theorem IsHarmlessJson.isReadableJson (h : IsHarmlessJson bytes) : IsReadableJson bytes := by
  obtain ⟨cs, hbytes, hdigits⟩ := h
  refine ⟨cs, hbytes, fun e literal hread => ?_⟩
  exact hdigits (Json.hasLongNumeral_of_read hread).of_unifyLineEnds

/-- A harmless text is no YAML only because it breaks a rule. -/
theorem isForeseen_readYaml (h : Yaml.IsHarmless bytes) : IsForeseen (readYaml path bytes) := by
  unfold readYaml
  split
  case h_1 document hread => exact isForeseen_ok
  case h_2 fault hread => obtain hrule | hrule := h.isGrammatical_of_read hread <;> contradiction
  case h_3 e hread => obtain hrule | hrule := h.isGrammatical_of_read hread <;> contradiction
  case h_4 => exact isForeseen_error

theorem isForeseen_bindDocument_iff {document : Document} :
    IsForeseen (bindDocument document) ↔ Binding.specification document ≠ .abandoned := by
  unfold bindDocument
  split
  case h_1 specification h => simp [h, isForeseen_ok]
  case h_2 issues h => simp [h, isForeseen_error]
  case h_3 h => simp [h, not_isForeseen_accident]

/-- The specification that a document describes, which must be a mapping. -/
def bindMapping (document : Document) : Except (Stop InputError) Specification := do
  match document.knots.content document.root with
  | .map _ => bindDocument document
  | other => throw (.error (.notMapping other.kindName))

theorem isForeseen_bindMapping_iff {document : Document} :
    IsForeseen (bindMapping document) ↔ Binding.specification document ≠ .abandoned := by
  unfold bindMapping
  split
  case h_1 => exact isForeseen_bindDocument_iff
  case h_2 other hother =>
    -- What is no mapping has issues.
    refine iff_of_true isForeseen_error ?_
    unfold Binding.specification Binding.part
    dsimp only
    split
    case h_1 entries hentries => exact absurd hentries (hother entries)
    case h_2 => simp [Checked.fail]

theorem loadSpecification_eq (fs : FileSystem) (path : PathName) :
    loadSpecification fs path = inputBytes fs path >>= fun bytes =>
      (if path.isJson then readJson path bytes else readYaml path bytes) >>= bindMapping := by
  have hmapping (document : Document) :
      (match document.knots.content document.root with
        | .map _ => pure document
        | other => throw (.error (.notMapping other.kindName)) : Except _ Document) >>= bindDocument =
      bindMapping document := by
    unfold bindMapping
    cases document.knots.content document.root <;> rfl
  simp only [loadSpecification, loadDocument, bind_assoc]
  refine bind_congr fun bytes => ?_
  cases path.isJson with
  | true => exact (bind_assoc (readJson path bytes) _ _).trans (bind_congr hmapping)
  | false => exact (bind_assoc (readYaml path bytes) _ _).trans (bind_congr hmapping)

/-- What is read from a JSON text can be written again, so it is read to the end. -/
theorem isForeseen_bindMapping_of_readJson {document : Document}
    (h : readJson path bytes = .ok document) : IsForeseen (bindMapping document) := by
  rw [isForeseen_bindMapping_iff]
  unfold readJson at h
  split at h
  case h_1 => contradiction
  case h_2 cs hdecode =>
    dsimp only at h
    split at h
    case h_1 value hread =>
      obtain rfl := Except.ok.inj h
      exact Binding.specification_ne_abandoned ⟨Json.isWritable_of_read hread, nofun⟩
    case h_2 => contradiction
    case h_3 => contradiction

theorem isForeseen_bindMapping_of_readYaml (hbytes : Yaml.IsHarmless bytes) {document : Document}
    (h : readYaml path bytes = .ok document) : IsForeseen (bindMapping document) := by
  rw [isForeseen_bindMapping_iff]
  unfold readYaml at h
  split at h
  case h_1 read hread =>
    obtain rfl := Except.ok.inj h
    exact Binding.specification_ne_abandoned (hbytes.isWritable_of_read hread)
  all_goals contradiction

/-- **A JSON file is loaded as foreseen exactly if its path is short enough and reading it meets no number
that is too long.** -/
theorem isForeseen_loadSpecification_json_iff (hnul : path.hasNul = false) (hjson : path.isJson = true) :
    IsForeseen (loadSpecification fs path) ↔
      ¬ fs.IsOverlong path ∧ ∀ bytes, fs.bytesOf path = .ok bytes → IsReadableJson bytes := by
  rw [loadSpecification_eq, isForeseen_bind_iff, isForeseen_inputBytes_iff hnul]
  simp only [inputBytes_eq_ok_iff, hnul, true_and, isForeseen_bind_iff, hjson, if_true,
    isForeseen_readJson_iff]
  refine and_congr_right fun _ => forall_congr' fun bytes => forall_congr' fun _ => ?_
  exact and_iff_left fun document => isForeseen_bindMapping_of_readJson

/-- Whether a path is short enough and leads, if to a file that can be read, to harmless bytes. -/
structure FileSystem.IsHarmless (fs : FileSystem) (path : PathName) : Prop where
  short : ¬ fs.IsOverlong path
  json : ∀ bytes, path.isJson = true → fs.bytesOf path = .ok bytes → IsHarmlessJson bytes
  yaml : ∀ bytes, path.isJson = false → fs.bytesOf path = .ok bytes → Yaml.IsHarmless bytes

theorem FileSystem.IsHarmless.isForeseen_loadSpecification (h : fs.IsHarmless path)
    (hnul : path.hasNul = false) : IsForeseen (loadSpecification fs path) := by
  cases hjson : path.isJson with
  | true =>
    rw [isForeseen_loadSpecification_json_iff hnul hjson]
    exact ⟨h.short, fun bytes hbytes => (h.json bytes hjson hbytes).isReadableJson⟩
  | false =>
    rw [loadSpecification_eq, isForeseen_bind_iff, isForeseen_inputBytes_iff hnul]
    refine ⟨h.short, fun bytes hinput => ?_⟩
    have hbytes := h.yaml bytes hjson (inputBytes_eq_ok_iff.mp hinput).2
    simp only [hjson, Bool.false_eq_true, if_false]
    rw [isForeseen_bind_iff]
    exact ⟨isForeseen_readYaml hbytes, fun document => isForeseen_bindMapping_of_readYaml hbytes⟩

/-! ## Writing -/

theorem hasNul_parent (hnul : path.hasNul = false) : path.parent.hasNul = false := by
  rw [PathName.hasNul, List.any_eq_false] at hnul ⊢
  exact fun name hname => hnul name (List.mem_of_mem_tail hname)

/-- Whether a file can be written does not depend on the bytes. -/
theorem isOk_write (fs : FileSystem) (path : PathName) (bytes : List UInt8) :
    (∃ cause, fs.write path bytes = .error cause ∧ fs.write path [] = .error cause) ∨
      ∃ written emptied, fs.write path bytes = .ok written ∧ fs.write path [] = .ok emptied := by
  unfold FileSystem.write
  split
  case h_1 => exact .inl ⟨_, rfl, rfl⟩
  case h_2 => exact .inl ⟨_, rfl, rfl⟩
  case h_3 =>
    split
    · exact .inl ⟨_, rfl, rfl⟩
    · exact .inr ⟨_, _, rfl, rfl⟩

/-- A source is refused if an empty one is, since the file is opened first. Otherwise it is written if it has
bytes. -/
theorem writeSource_cases (fs : FileSystem) (path : PathName) (text : Text) :
    (∃ stop, (writeSource fs path text).2 = .error stop ∧ (writeSource fs path []).2 = .error stop) ∨
      (∃ place other, (writeSource fs path text).2 = .ok place ∧ (writeSource fs path []).2 = .ok other ∧
        (Text.Utf8.encode text).isOk = true) ∨
      ∃ fault other, (writeSource fs path text).2 = .error (.accident (.unencodable fault)) ∧
        (writeSource fs path []).2 = .ok other ∧ (Text.Utf8.encode text).isOk = false := by
  have hempty : Text.Utf8.encode [] = .ok [] := rfl
  unfold writeSource
  dsimp only
  split
  case isTrue => exact .inl ⟨_, rfl, rfl⟩
  case isFalse =>
    rcases fs.haveDirectories path.parent.slashes path.parent.names with ⟨after, cause | -⟩
    case error => exact .inl ⟨_, rfl, rfl⟩
    case ok =>
      dsimp only
      split
      case isTrue => exact .inl ⟨_, rfl, rfl⟩
      case isFalse =>
        rw [hempty]
        obtain ⟨cause, hwrite, hnone⟩ | ⟨written, emptied, hwrite, hnone⟩ :=
          isOk_write after path ((Text.Utf8.encode text).toOption.getD [])
        · refine .inl ⟨.error (.file path cause), ?_, ?_⟩
          · rw [hwrite]
          · simp only [Except.toOption, Option.getD_some, hnone]
        · rw [hwrite]
          simp only [Except.toOption, Option.getD_some, hnone]
          cases Text.Utf8.encode text with
          | ok bytes => exact .inr (.inl ⟨_, _, rfl, rfl, rfl⟩)
          | error fault => exact .inr (.inr ⟨_, _, rfl, rfl, rfl⟩)

/-- An empty source is written or refused in the declared way. -/
theorem isForeseen_writeSource_nil (hnul : path.hasNul = false) :
    IsForeseen (writeSource fs path []).2 := by
  have hempty : Text.Utf8.encode [] = .ok [] := rfl
  unfold writeSource
  simp only [hasNul_parent hnul, hnul, hempty, Bool.false_eq_true, if_false]
  rcases fs.haveDirectories path.parent.slashes path.parent.names with ⟨after, cause | -⟩
  · exact isForeseen_error
  · dsimp only
    split
    · exact isForeseen_error
    · contradiction
    · exact isForeseen_ok

/-- A source can be written as foreseen if it has bytes, or if not even an empty file can be written in
its place; and what is to hold of a source that is written can be asked in advance. -/
theorem isForeseen_writeSource_and_iff (hnul : path.hasNul = false) {text : Text} {P : Prop} :
    (IsForeseen (writeSource fs path text).2 ∧ ∀ place, (writeSource fs path text).2 = .ok place → P) ↔
      ((∀ point ∈ text, point.isSurrogate = false) ∧ P) ∨
        ∃ e, (writeSource fs path []).2 = .error (.error e) := by
  rw [← Text.Utf8.isOk_encode_iff]
  rcases writeSource_cases fs path text with
    ⟨stop, houtcome, hempty⟩ | ⟨place, other, houtcome, hempty, hbytes⟩ | ⟨fault, other, houtcome, hempty, hbytes⟩
  · -- An empty source has no accident, so this one has none either.
    have hforeseen : IsForeseen (writeSource fs path []).2 := isForeseen_writeSource_nil hnul
    rw [hempty] at hforeseen
    obtain ⟨_, hok⟩ | ⟨e, he⟩ := hforeseen
    · contradiction
    · obtain rfl := Except.error.inj he
      simp [houtcome, hempty, isForeseen_error]
  · simp [houtcome, hempty, hbytes, isForeseen_ok]
  · simp [houtcome, hempty, hbytes, not_isForeseen_accident]

/-! ## Runs -/

theorem isForeseen_map_iff {ε φ α β : Type} {f : ε → φ} {stop : Stop ε} :
    IsForeseen (.error (stop.map f) : Except (Stop φ) β) ↔
      IsForeseen (.error stop : Except (Stop ε) α) := by
  cases stop <;> simp [Stop.map, isForeseen_error, not_isForeseen_accident]

variable {input output : PathName}

theorem isForeseen_loadAndGenerate_iff (givenName : Option Text) :
    IsForeseen (loadAndGenerate fs input givenName) ↔ IsForeseen (loadSpecification fs input) := by
  unfold loadAndGenerate
  cases loadSpecification fs input with
  | error stop => exact isForeseen_map_iff
  | ok specification =>
    dsimp only
    split <;> simp [isForeseen_ok, isForeseen_error]

/-- A run is as foreseen as loading and writing, and gives the client that was written. -/
theorem isForeseen_run_and_iff {givenName : Option Text} {P : Client.GeneratedClient → Prop}
    (hload : IsForeseen (loadSpecification fs input)) (hnul : output.hasNul = false) :
    (IsForeseen (run fs input output givenName).outcome ∧
        ∀ report, (run fs input output givenName).outcome = .ok report → P report.client) ↔
      ∀ specification client, loadSpecification fs input = .ok specification →
        Client.generate specification givenName = .ok client →
          ((∀ point ∈ client.source, point.isSurrogate = false) ∧ P client) ∨
            ∃ e, (writeSource fs output []).2 = .error (.error e) := by
  rw [← isForeseen_loadAndGenerate_iff givenName] at hload
  simp only [← and_imp, ← loadAndGenerate_eq_ok_iff]
  unfold run
  cases hloaded : loadAndGenerate fs input givenName with
  | error stop =>
    rw [hloaded] at hload
    obtain ⟨_, hok⟩ | ⟨e, he⟩ := hload
    · contradiction
    · obtain rfl := Except.error.inj he
      simp [isForeseen_error]
  | ok loaded =>
    obtain ⟨specification, client⟩ := loaded
    have hwriting := @isForeseen_writeSource_and_iff fs output hnul client.source (P client)
    have hall {Q : Client.GeneratedClient → Prop} :
        (∀ specification' client', (Except.ok (specification, client) : Except (Stop RunError) _) =
          .ok (specification', client') → Q client') ↔ Q client := by
      simp
    rw [hall, ← hwriting]
    dsimp only
    rcases writeSource fs output client.source with ⟨after, stop | place⟩
    · simp [isForeseen_map_iff (α := PathName)]
    · simp [isForeseen_ok]

/-! ## Printing -/

namespace CommandLine

/-- Whether a text can be printed: what leads to a file takes no surrogates. -/
def OutputStream.Takes (stream : OutputStream) (text : Text) : Prop :=
  stream = .file → ∀ point ∈ text, point.isSurrogate = false

variable {stream : OutputStream}

theorem OutputStream.fault?_eq_none_iff {line : Text} :
    stream.fault? line = none ↔ stream.Takes line := by
  cases stream <;> simp [fault?, Takes, Text.Utf8.firstSurrogates?_eq_none_iff]

theorem OutputStream.print_eq_ok_iff {lines : List Text} :
    (stream.print lines).2 = .ok () ↔ ∀ line ∈ lines, stream.Takes line := by
  induction lines with
  | nil => simp [print]
  | cons line lines ih =>
    rw [List.forall_mem_cons, ← ih, ← fault?_eq_none_iff, print]
    cases stream.fault? line <;> simp

theorem OutputStream.takes_ofString (s : String) : stream.Takes (Text.ofString s) := by
  intro _ point hpoint
  obtain ⟨c, -, rfl⟩ := List.mem_map.mp hpoint
  rfl

theorem OutputStream.takes_warningLine_iff {warning : Text} :
    stream.Takes (warningLine warning) ↔ stream.Takes warning := by
  have hword := @OutputStream.takes_ofString stream "Warning: "
  unfold warningLine Takes at *
  simp only [List.forall_mem_append]
  exact forall_congr' fun hfile => and_iff_right (hword hfile)

/-- A run is answered with an exit status if it is foreseen and its warnings can be printed. -/
theorem ending_runResponse_iff {time : String} {level : LogLevel} {run : Run} :
    (runResponse time level run stream).ending = .ok 0 ∨
        (runResponse time level run stream).ending = .ok 1 ↔
      IsForeseen run.outcome ∧ ∀ report, run.outcome = .ok report →
        ∀ warning ∈ report.client.warnings, stream.Takes warning := by
  unfold runResponse
  rcases run.outcome with (e | accident) | report
  · simp [isForeseen_error]
  · simp [not_isForeseen_accident]
  · have hprint : (stream.print (report.client.warnings.map warningLine ++
        [Text.ofString ("Generated: " ++ report.path.text)])).2 = .ok () ↔
        ∀ warning ∈ report.client.warnings, stream.Takes warning := by
      rw [OutputStream.print_eq_ok_iff, List.forall_mem_append, List.forall_mem_map,
        List.forall_mem_singleton]
      simp only [OutputStream.takes_warningLine_iff, OutputStream.takes_ofString, and_true]
    simp only [isForeseen_ok, true_and, Except.ok.injEq, forall_eq', ← hprint]
    rcases stream.print _ with ⟨printed, fault | -⟩ <;> simp [Except.map]

/-! ## Requests -/

/-- Whether a text can be a path: it is made of characters, and `U+0000` is none of them. -/
def IsPathText (text : Text) : Prop :=
  ∀ point ∈ text, ∃ c : Char, point = .char c ∧ c ≠ '\x00'

theorem isPathText_ofString {s : String} (h : '\x00' ∉ s.toList) : IsPathText (Text.ofString s) := by
  intro point hpoint
  obtain ⟨c, hc, rfl⟩ := List.mem_map.mp hpoint
  exact ⟨c, rfl, fun hnul => h (hnul ▸ hc)⟩

variable {text : Text}

theorem pathOf_of_isPathText (h : IsPathText text) : pathOf (some text) = .ok (.ofText text.shown) := by
  have hnone : Text.Utf8.firstSurrogates? text = none := by
    rw [Text.Utf8.firstSurrogates?_eq_none_iff]
    intro point hpoint
    obtain ⟨c, rfl, -⟩ := h point hpoint
    rfl
  simp [pathOf, hnone]

theorem not_mem_shown (h : IsPathText text) : '\x00' ∉ text.shown.toList := by
  rw [Text.shown, String.toList_ofList, List.mem_flatMap]
  rintro ⟨point, hpoint, hmem⟩
  obtain ⟨c, rfl, hc⟩ := h point hpoint
  exact hc (List.mem_singleton.mp hmem).symm

theorem mem_intersperse_of_mem {α : Type} {mark a : α} {as : List α} (h : a ∈ as) :
    a ∈ as.intersperse mark := by
  induction as with
  | nil => contradiction
  | cons b as ih =>
    cases as with
    | nil => exact h
    | cons c as =>
      obtain rfl | hrest := List.mem_cons.mp h
      · exact List.mem_cons_self
      · exact List.mem_cons_of_mem b (List.mem_cons_of_mem mark (ih hrest))

theorem mem_of_mem_splitOn {α : Type} [BEq α] [LawfulBEq α] {mark a : α} {as part : List α}
    (hpart : part ∈ as.splitOn mark) (ha : a ∈ part) : a ∈ as := by
  rw [← @List.intercalate_splitOn α as _ _ mark, List.intercalate]
  exact List.mem_flatten.mpr ⟨part, mem_intersperse_of_mem hpart, ha⟩

/-- The names of a path are parts of its text. -/
theorem hasNul_ofText (h : IsPathText text) : (PathName.ofText text.shown).hasNul = false := by
  rw [PathName.hasNul, List.any_eq_false]
  intro name hname hcontains
  simp only [PathName.ofText, List.mem_reverse, List.mem_filter, List.mem_map] at hname
  obtain ⟨⟨part, hpart, rfl⟩, -⟩ := hname
  rw [String.toList_ofList, List.contains_iff_mem] at hcontains
  exact not_mem_shown h (mem_of_mem_splitOn hpart hcontains)

theorem requirements_eq_ok_iff {settings : Settings} {level : LogLevel} {input output : PathName} :
    requirements settings = .ok (level, input, output) ↔
      settings.logLevel = some level ∧ pathOf settings.input = .ok input ∧
        pathOf settings.output = .ok output := by
  unfold requirements
  cases settings.logLevel with
  | none => simp [bind, Except.bind]
  | some given =>
    cases pathOf settings.input with
    | error => simp [bind, Except.bind]
    | ok first =>
      cases pathOf settings.output with
      | error => simp [bind, Except.bind]
      | ok second => simp [bind, Except.bind, pure, Except.pure]

/-- Whether a request has a log level and two paths, and is for a source that can be written and warnings
that can be printed, or for a place that nothing can be written to. -/
def Settings.IsAnswerable (settings : Settings) (fs : FileSystem) (stream : OutputStream) : Prop :=
  ∃ level input output, requirements settings = .ok (level, input, output) ∧
    ∀ specification client, loadSpecification fs input = .ok specification →
      Client.generate specification settings.clientName = .ok client →
        ((∀ point ∈ client.source, point.isSurrogate = false) ∧
            ∀ warning ∈ client.warnings, stream.Takes warning) ∨
          ∃ e, (writeSource fs output []).2 = .error (.error e)

/-- Whether a request is for a harmless input, and both paths of it are paths. -/
structure Settings.IsHarmless (settings : Settings) (fs : FileSystem) : Prop where
  input : ∀ text ∈ settings.input, IsPathText text ∧ fs.IsHarmless (.ofText text.shown)
  output : ∀ text ∈ settings.output, IsPathText text

theorem pathOf_eq_ok {value : Option Text} {path : PathName} (hvalue : ∀ text ∈ value, IsPathText text)
    (h : pathOf value = .ok path) : ∃ text ∈ value, path = .ofText text.shown ∧ path.hasNul = false := by
  cases value with
  | none => contradiction
  | some text =>
    have htext := hvalue text rfl
    rw [pathOf_of_isPathText htext] at h
    obtain rfl := Except.ok.inj h
    exact ⟨text, rfl, rfl, hasNul_ofText htext⟩

theorem ending_respond_iff {time : String} {arguments : List Text} {settings : Settings}
    (hread : readArguments arguments = .ok (.generate settings)) (h : settings.IsHarmless fs) :
    (respond time fs arguments stream).ending = .ok 0 ∨
        (respond time fs arguments stream).ending = .ok 1 ↔ settings.IsAnswerable fs stream := by
  unfold respond Settings.IsAnswerable
  rw [hread]
  dsimp only
  cases hrequirements : requirements settings with
  | error accident => simp
  | ok required =>
    obtain ⟨level, input, output⟩ := required
    obtain ⟨-, hinput, houtput⟩ := requirements_eq_ok_iff.mp hrequirements
    obtain ⟨text, htext, rfl, hinputNul⟩ := pathOf_eq_ok (fun text htext => (h.input text htext).1) hinput
    obtain ⟨-, -, -, houtputNul⟩ := pathOf_eq_ok h.output houtput
    have hload := (h.input text htext).2.isForeseen_loadSpecification hinputNul
    have hrun := @isForeseen_run_and_iff fs _ output settings.clientName
      (fun client => ∀ warning ∈ client.warnings, stream.Takes warning) hload houtputNul
    rw [ending_runResponse_iff, hrun]
    constructor
    · exact fun hall => ⟨level, _, output, rfl, hall⟩
    · rintro ⟨_, _, _, hsame, hall⟩
      obtain ⟨rfl, rfl, rfl⟩ : level = _ ∧ PathName.ofText text.shown = _ ∧ output = _ := by simpa using hsame
      exact hall

end CommandLine

/-! ## Main statement -/

open CommandLine in
/-- **Harmless inputs are loaded in the declared way.** If a path that the operating system takes is
harmless, loading gives a specification or a declared error. For JSON files this is so exactly if the path is
short enough and reading comes to no number that is too long. And for all arguments that are a harmless
request, the program ends with status `0` or `1` exactly if the request can be answered. -/
theorem isForeseen_of_isHarmless (fs : FileSystem) :
    (∀ path : PathName, path.hasNul = false → fs.IsHarmless path →
      IsForeseen (loadSpecification fs path)) ∧
    (∀ path : PathName, path.hasNul = false → path.isJson = true →
      (IsForeseen (loadSpecification fs path) ↔
        ¬ fs.IsOverlong path ∧ ∀ bytes, fs.bytesOf path = .ok bytes → IsReadableJson bytes)) ∧
    ∀ time arguments settings stream, readArguments arguments = .ok (.generate settings) →
      settings.IsHarmless fs →
        ((respond time fs arguments stream).ending = .ok 0 ∨
            (respond time fs arguments stream).ending = .ok 1 ↔ settings.IsAnswerable fs stream) := by
  refine ⟨fun path hnul h => h.isForeseen_loadSpecification hnul,
    fun path => isForeseen_loadSpecification_json_iff, fun time arguments settings stream hread h => ?_⟩
  exact ending_respond_iff hread h

open CommandLine in
/-- A YAML file with a version that is a number, and a JSON file with an empty mapping: both are loaded, and
the client for the first one can be written and its warnings printed. -/
theorem isForeseen_of_isHarmless_pets :
    let yaml := "openapi: 3.0.3\ninfo: \x7btitle: Pets, version: 1.5\x7d\n".toList
    let fs : FileSystem :=
      ⟨(FileTree.empty.put "pets.yaml" [] (.file (yaml.flatMap String.utf8EncodeChar))).put "pets.json" []
        (.file "\x7b\x7d".toUTF8.toList), [], rfl⟩
    let settings : Settings := { input := some "pets.yaml", output := some "pets.ts" }
    IsForeseen (loadSpecification fs (.ofText "pets.yaml")) ∧
      ¬ fs.IsOverlong (.ofText "pets.json") ∧ settings.IsAnswerable fs .file := by
  intro yaml fs settings
  have hnul : (PathName.ofText "pets.yaml").hasNul = false := by decide +kernel
  have hharmless : fs.IsHarmless (.ofText "pets.yaml") := by
    have hfile : (fs.isFile (.ofText "pets.yaml")).isOk = true := by decide +kernel
    refine ⟨fun hlong => ?_, fun bytes hjson => absurd hjson (by decide +kernel), fun bytes _ hbytes => ?_⟩
    · rw [FileSystem.isFile_eq_error_iff.mpr ⟨hlong, rfl⟩] at hfile
      contradiction
    · obtain rfl : yaml.flatMap String.utf8EncodeChar = bytes := Except.ok.inj hbytes
      exact Yaml.isHarmless_of_all (by decide +kernel) (by decide +kernel) (by decide +kernel)
  refine ⟨(isForeseen_of_isHarmless fs).1 _ hnul hharmless, ?_, ?_⟩
  · have hok : (loadSpecification fs (.ofText "pets.json")).isOk = true := by decide +kernel
    have hforeseen : IsForeseen (loadSpecification fs (.ofText "pets.json")) := by
      obtain ⟨specification, hload⟩ := Yaml.exists_of_isOk hok
      exact .inl ⟨specification, hload⟩
    exact (((isForeseen_of_isHarmless fs).2.1 _ (by decide +kernel) (by decide +kernel)).mp hforeseen).1
  · have hread : readArguments ["-i", "pets.yaml", "--output=pets.ts"] = .ok (.generate settings) := by
      decide +kernel
    have hpaths : settings.IsHarmless fs := by
      constructor
      · rintro text htext
        obtain rfl := Option.some.inj htext
        have hshown : (Text.ofString "pets.yaml").shown = "pets.yaml" := by decide +kernel
        exact ⟨isPathText_ofString (by decide +kernel), hshown ▸ hharmless⟩
      · rintro text htext
        obtain rfl := Option.some.inj htext
        exact isPathText_ofString (by decide +kernel)
    have hending : (respond "" fs ["-i", "pets.yaml", "--output=pets.ts"] .file).ending = .ok 0 := by
      decide +kernel
    exact ((isForeseen_of_isHarmless fs).2.2 "" _ settings .file hread hpaths).mp (.inl hending)

/-- A byte that begins no character ends the loading in an accident. -/
theorem not_isForeseen_undecodable :
    let fs : FileSystem := ⟨FileTree.empty.put "doc.json" [] (.file [0xFF]), [], rfl⟩
    (PathName.ofText "doc.json").hasNul = false ∧
      ¬ IsForeseen (loadSpecification fs (.ofText "doc.json")) := by
  intro fs
  refine ⟨by decide +kernel, ?_⟩
  have haccident : (match loadSpecification fs (.ofText "doc.json") with
      | .error (.accident accident) => accident == .undecodable ⟨.invalidStart, 0, 0xFF, 1⟩
      | _ => false) = true := by decide +kernel
  generalize loadSpecification fs (.ofText "doc.json") = outcome at haccident ⊢
  split at haccident
  case h_1 accident => exact not_isForeseen_accident
  case h_2 => contradiction

end OpenApiClient
