import OpenApiClient.Proofs.FileTree.Descending
import OpenApiClient.Proofs.Run.Confinement

/-!
# Independent and Repeated Runs

A run leaves behind one file and the directories above it. So what another run reads and writes elsewhere
is there before it as well as after it, and two runs that write different files and do not read each
other's can change places. A run that is repeated finds everything as it would make it.

## Layers

- **Trees**: `Same`, file systems in which the same stands everywhere.
- **Inputs**: what is read elsewhere does not change (`loadSpecification_iff`).
- **Outputs**: where a source can be written elsewhere (`admits_before`, `admits_after`), and two sources that
  are written in either order (`exists_writeSource_swapped`).
- **Repeated writing**: `exists_writeSource_again`.
- **Main statement**: `run_comm_and_idem`.
-/

namespace OpenApiClient

open Location (IsAbove)

namespace FileSystem

/-! ## Trees -/

/-- Whether the same stands at every place of two file systems, in whatever order it was put there. -/
structure Same (fs other : FileSystem) : Prop where
  here : other.here = fs.here
  entries : ∀ place, other.tree.entry? place = fs.tree.entry? place

section

variable {before after : FileSystem} {output other : PathName} {bytes : List UInt8}

/-! ## Inputs -/

/-- What was written at another place does not matter to an input, nor do the directories above it. -/
theorem WritesOnly.bytesOf_iff (h : WritesOnly before after output bytes) (houtput : output.Descends)
    {input : PathName} (hinput : input.Descends) (hne : before.placeOf output ≠ before.placeOf input)
    {content : List UInt8} :
    after.bytesOf input = .ok content ↔ before.bytesOf input = .ok content := by
  have hentry := h.entry?_eq houtput (before.placeOf input)
  rw [if_neg hne.symm] at hentry
  rw [bytesOf_eq_ok_iff hinput, bytesOf_eq_ok_iff hinput, placeOf_congr h.here]
  refine and_congr_right fun _ => ⟨fun hafter => ?_, h.kept _ _ hne.symm⟩
  split at hentry
  case isTrue => simp [hentry] at hafter
  case isFalse => rwa [← hentry]

/-! ## Outputs -/

/-- Where a source can be written after another one was written elsewhere, it can be written before. -/
theorem WritesOnly.admits_before (h : WritesOnly before after output bytes)
    (hne : before.placeOf output ≠ before.placeOf other) (hadmits : after.Admits other) :
    before.Admits other := by
  have hplace := placeOf_congr h.here other
  refine ⟨hadmits.short, hadmits.named, ?_, ?_⟩
  · intro place habove entry hentry
    have hpassable := hadmits.way place (hplace ▸ habove)
    -- What was written is a file, so it does not stand on the way.
    by_cases hwritten : place = before.placeOf output
    · exact absurd (hpassable _ (hwritten ▸ h.written)) (by simp)
    · exact hpassable entry (h.kept place entry hwritten hentry)
  · intro hdirectory
    exact hadmits.free (hplace ▸ h.kept _ _ hne.symm hdirectory)

/-- Neither of two sources stands above the other if the second can be written after the first. -/
theorem WritesOnly.not_isAbove (h : WritesOnly before after output bytes)
    (hadmits : after.Admits other) :
    ¬ IsAbove (before.placeOf output) (before.placeOf other) ∧
      ¬ IsAbove (before.placeOf other) (before.placeOf output) := by
  rw [← placeOf_congr h.here other]
  constructor
  · intro habove
    exact absurd (hadmits.way _ habove _ h.written) (by simp)
  · intro habove
    exact hadmits.free (FileTree.entry?_of_isAbove (by simp [h.written]) habove)

/-- Where a source can be written, it can be written after another one of which it is not above or below. -/
theorem WritesOnly.admits_after (h : WritesOnly before after output bytes) (houtput : output.Descends)
    (hne : before.placeOf output ≠ before.placeOf other)
    (hbelow : ¬ IsAbove (before.placeOf output) (before.placeOf other))
    (habove : ¬ IsAbove (before.placeOf other) (before.placeOf output))
    (hadmits : before.Admits other) : after.Admits other := by
  have hplace := placeOf_congr h.here other
  refine ⟨hadmits.short, hadmits.named, ?_, ?_⟩
  · intro place hway entry hentry
    rw [hplace] at hway
    rw [h.entry?_eq houtput place] at hentry
    split at hentry
    case isTrue hwritten => exact absurd (hwritten ▸ hway) hbelow
    case isFalse =>
      split at hentry
      case isTrue => exact (Option.some.inj hentry).symm
      case isFalse => exact hadmits.way place hway entry hentry
  · rw [hplace, h.entry?_eq houtput, if_neg hne.symm, if_neg habove]
    exact hadmits.free

/-- Two sources of which neither is above the other leave the same behind in either order. -/
theorem same_of_swapped {first second both swapped : FileSystem} {content : List UInt8}
    (houtput : output.Descends) (hother : other.Descends)
    (hne : before.placeOf output ≠ before.placeOf other)
    (hbelow : ¬ IsAbove (before.placeOf output) (before.placeOf other))
    (habove : ¬ IsAbove (before.placeOf other) (before.placeOf output))
    (hfirst : WritesOnly before first output bytes) (hboth : WritesOnly first both other content)
    (hsecond : WritesOnly before second other content)
    (hswapped : WritesOnly second swapped output bytes) : both.Same swapped := by
  refine ⟨?_, fun place => ?_⟩
  · rw [hswapped.here, hsecond.here, hboth.here, hfirst.here]
  · rw [hswapped.entry?_eq houtput, hsecond.entry?_eq hother, hboth.entry?_eq hother,
      hfirst.entry?_eq houtput, placeOf_congr hfirst.here, placeOf_congr hsecond.here]
    by_cases hplace : place = before.placeOf output
    · subst hplace
      simp only [if_true, if_neg hne, if_neg hbelow]
    · by_cases hplace' : place = before.placeOf other
      · subst hplace'
        simp only [if_true, if_neg hplace, if_neg habove]
      · -- Elsewhere both orders leave directories above the two places, and what was there.
        simp only [if_neg hplace, if_neg hplace']
        split
        · rw [ite_self]
        · rfl

/-- Two sources that were written elsewhere, one after the other, can be written in the other order. -/
theorem exists_writeSource_swapped {first both : FileSystem} {place otherPlace : PathName}
    {text otherText : Text} (houtput : output.Descends) (hother : other.Descends)
    (hne : before.placeOf output ≠ before.placeOf other)
    (hwrite : writeSource before output text = (first, .ok place))
    (hotherWrite : writeSource first other otherText = (both, .ok otherPlace)) :
    ∃ second swapped, writeSource before other otherText = (second, .ok otherPlace) ∧
      writeSource second output text = (swapped, .ok place) ∧ both.Same swapped := by
  obtain ⟨bytes, hbytes, hfirst, -⟩ := writesOnly_of_writeSource hwrite
  obtain ⟨content, hcontent, hboth, -⟩ := writesOnly_of_writeSource hotherWrite
  obtain ⟨hnul, -, hadmits, hplace⟩ := (exists_writeSource_iff houtput).mp ⟨_, hwrite⟩
  obtain ⟨hotherNul, -, hotherAdmits, hotherPlace⟩ :=
    (exists_writeSource_iff hother).mp ⟨_, hotherWrite⟩
  obtain ⟨hbelow, habove⟩ := hfirst.not_isAbove hotherAdmits
  -- The second source could be written after the first, so it can be written at once.
  rw [resolve_congr hfirst.here] at hotherPlace
  obtain ⟨second, hotherFirst⟩ := (exists_writeSource_iff hother).mpr
    ⟨hotherNul, ⟨content, hcontent⟩, hfirst.admits_before hne hotherAdmits, hotherPlace⟩
  obtain ⟨content', hcontent', hsecond, -⟩ := writesOnly_of_writeSource hotherFirst
  obtain rfl : content = content' := Except.ok.inj (hcontent.symm.trans hcontent')
  -- The first source could be written at once, so it can be written after the second.
  rw [← resolve_congr hsecond.here] at hplace
  obtain ⟨swapped, hlast⟩ := (exists_writeSource_iff houtput).mpr ⟨hnul, ⟨bytes, hbytes⟩,
    hsecond.admits_after hother hne.symm habove hbelow hadmits, hplace⟩
  obtain ⟨bytes', hbytes', hswapped, -⟩ := writesOnly_of_writeSource hlast
  obtain rfl : bytes = bytes' := Except.ok.inj (hbytes.symm.trans hbytes')
  exact ⟨second, swapped, hotherFirst, hlast,
    same_of_swapped houtput hother hne hbelow habove hfirst hboth hsecond hswapped⟩

end

/-! ## Repeated writing -/

/-- A path that leads to a place of a file has a directory in front of its last name. -/
theorem entryOf_parent_of_target {fs : FileSystem} {path : PathName} {name : String} {place : Location}
    (h : fs.target path = .ok (some (name, place))) : fs.entryOf path.parent = .ok .directory := by
  obtain ⟨hshort, outer, hnames, houter, hname⟩ := target_eq_ok h
  have hparent : path.parent.names = outer := by rw [PathName.parent, hnames, List.tail_cons]
  have hstart : fs.start path.parent = fs.start path := rfl
  have hdirectory := (nameAt_eq_ok hname).1
  have hlocate : fs.locate path.parent = .ok place := by
    rw [locate, if_neg (Nat.not_lt.mpr (PathName.text_parent_le (Nat.not_lt.mp hshort))), hparent,
      hstart, houter]
  simp only [entryOf, hlocate, bind, Except.bind, hdirectory]

/-- A source that was written can be written again, and nothing changes. -/
theorem exists_writeSource_again {before after : FileSystem} {path place : PathName} {text : Text}
    (h : writeSource before path text = (after, .ok place)) :
    ∃ again, writeSource after path text = (again, .ok place) ∧ after.Same again := by
  obtain ⟨hparent, hnul, middle, bytes, -, hencoded, hwrite, hplace⟩ := writeSource_eq_ok_iff.mp h
  obtain ⟨hhere, -, hwritten, -⟩ := write_eq_ok hwrite
  have hle := le_of_write hwrite
  unfold write at hwrite
  split at hwrite
  case h_1 => contradiction
  case h_2 => contradiction
  case h_3 name location htarget =>
    obtain ⟨hdirectory, hlocation⟩ := placeOf_of_target htarget
    have htarget' := target_eq_ok_of_le hle hhere htarget
    have hthere := entryOf_parent_of_target htarget'
    rw [← hlocation] at hwritten
    have hfree : after.tree.isDirectory (name :: location) = false := by
      rw [FileTree.isDirectory, hwritten]
      rfl
    refine ⟨after.put name location (.file bytes), ?_, ?_⟩
    · rw [writeSource_eq_ok_iff]
      refine ⟨hparent, hnul, after, bytes, haveDirectories_of_entryOf hthere, hencoded, ?_, ?_⟩
      · simp only [write, htarget', hfree, Bool.false_eq_true, if_false]
      · rw [← hplace, resolve_congr put_here]
    · refine ⟨rfl, fun other => ?_⟩
      by_cases hother : other = name :: location
      · rw [hother, hwritten]
        exact FileTree.entry?_put_self (hle.directory _ hdirectory) (by simp [hwritten])
      · exact FileTree.entry?_put_of_ne hother

/-- What was read elsewhere is read after a file was written, also by a path that goes up. -/
theorem WritesOnly.bytesOf_of_ne {before after : FileSystem} {output input : PathName}
    {bytes content : List UInt8} (h : WritesOnly before after output bytes)
    (hne : before.placeOf output ≠ before.placeOf input) (hread : before.bytesOf input = .ok content) :
    after.bytesOf input = .ok content := by
  have hle : before.Le after := by
    constructor
    · intro place hdirectory
      apply h.kept place _ _ hdirectory
      rintro rfl
      exact h.not_directory hdirectory
    · intro place hsome
      obtain ⟨entry, hentry⟩ := Option.isSome_iff_exists.mp hsome
      by_cases hplace : place = before.placeOf output
      · simp [hplace, h.written]
      · simp [h.kept place entry hplace hentry]
  cases hlocate : before.locate input with
  | error fault => simp [bytesOf, entryOf, hlocate, bind, Except.bind] at hread
  | ok place =>
    have hlocate' : after.locate input = .ok place := by
      unfold locate at hlocate ⊢
      split at hlocate
      case isTrue => contradiction
      case isFalse hshort =>
        rw [if_neg hshort, start_congr h.here]
        exact follow_eq_ok_of_le hle hlocate
    have hplace : before.placeOf input = place := by
      unfold locate at hlocate
      split at hlocate
      case isTrue => contradiction
      case isFalse => rw [placeOf_eq, follow_eq_ok hlocate]
    -- The path leads to the same place, where nothing was written.
    cases hentry : before.tree.entry? place with
    | none => simp [bytesOf, entryOf, hlocate, bind, Except.bind, hentry] at hread
    | some entry =>
      have hkept := h.kept place entry (hplace ▸ hne.symm) hentry
      simp only [bytesOf, entryOf, hlocate, hlocate', bind, Except.bind, hentry, hkept] at hread ⊢
      exact hread

end FileSystem

/-! ## Runs -/

theorem exists_bytesOf_of_loadSpecification {fs : FileSystem} {path : PathName}
    {specification : Specification} (h : loadSpecification fs path = .ok specification) :
    ∃ bytes, fs.bytesOf path = .ok bytes := by
  cases hinput : inputBytes fs path with
  | error stop => simp [loadSpecification, loadDocument, hinput, bind, Except.bind] at h
  | ok bytes => exact ⟨bytes, (inputBytes_eq_ok_iff.mp hinput).2⟩

/-- An input gives the same specification before and after something else was written. -/
theorem FileSystem.WritesOnly.loadSpecification_iff {before after : FileSystem}
    {output input : PathName} {bytes : List UInt8} (h : before.WritesOnly after output bytes)
    (houtput : output.Descends) (hinput : input.Descends)
    (hne : before.placeOf output ≠ before.placeOf input) {specification : Specification} :
    loadSpecification after input = .ok specification ↔
      loadSpecification before input = .ok specification := by
  constructor
  · intro hload
    obtain ⟨content, hcontent⟩ := exists_bytesOf_of_loadSpecification hload
    have hbefore := (h.bytesOf_iff houtput hinput hne).mp hcontent
    exact loadSpecification_eq_ok_of_bytesOf hload (hbefore.trans hcontent.symm)
  · intro hload
    obtain ⟨content, hcontent⟩ := exists_bytesOf_of_loadSpecification hload
    have hafter := (h.bytesOf_iff houtput hinput hne).mpr hcontent
    exact loadSpecification_eq_ok_of_bytesOf hload (hafter.trans hcontent.symm)

/-- What a run is given: its input and output, and perhaps a class name. -/
structure Call where
  input : PathName
  output : PathName
  givenName : Option Text := none

/-- The run for a call. -/
def Call.run (call : Call) (fs : FileSystem) : Run :=
  OpenApiClient.run fs call.input call.output call.givenName

/-- Whether neither path of a call goes up. -/
structure Call.Descends (call : Call) : Prop where
  input : call.input.Descends
  output : call.output.Descends

/-- Whether two calls write different files, and none that the other one reads. -/
structure Call.Independent (fs : FileSystem) (call other : Call) : Prop where
  outputs : fs.placeOf call.output ≠ fs.placeOf other.output
  input : fs.placeOf other.output ≠ fs.placeOf call.input
  otherInput : fs.placeOf call.output ≠ fs.placeOf other.input

/-- A run succeeds if the input describes a client, and its source can be written. -/
theorem Call.run_eq_ok_iff {call : Call} {fs : FileSystem} {report : RunReport} {after : FileSystem} :
    (call.run fs).outcome = .ok report ∧ (call.run fs).after = after ↔
      ∃ specification, loadSpecification fs call.input = .ok specification ∧
        Client.generate specification call.givenName = .ok report.client ∧
        writeSource fs call.output report.client.source = (after, .ok report.path) := by
  unfold Call.run OpenApiClient.run
  cases hloaded : loadAndGenerate fs call.input call.givenName with
  | error stop =>
    simp only [reduceCtorEq, false_and, false_iff, not_exists]
    rintro specification ⟨hload, hgenerate, -⟩
    simp [loadAndGenerate_eq_ok_iff.mpr ⟨hload, hgenerate⟩] at hloaded
  | ok loaded =>
    obtain ⟨specification, client⟩ := loaded
    obtain ⟨hload, hgenerate⟩ := loadAndGenerate_eq_ok_iff.mp hloaded
    obtain ⟨reported, path⟩ := report
    simp only [hload, Except.ok.injEq, exists_eq_left', hgenerate]
    constructor
    · intro h
      split at h
      case h_1 => simp at h
      case h_2 written place hwritten =>
        obtain ⟨houtcome, rfl⟩ := h
        obtain ⟨rfl, rfl⟩ := RunReport.mk.inj (Except.ok.inj houtcome)
        exact ⟨rfl, hwritten⟩
    · rintro ⟨rfl, hwritten⟩
      simp only [hwritten, and_self]

/-- Two runs that succeed one after the other, and do not touch each other's files, succeed in the other
order, too, and leave the same behind. -/
theorem Call.run_swapped {fs : FileSystem} {call other : Call} {report otherReport : RunReport}
    (hcall : call.Descends) (hother : other.Descends) (hindependent : call.Independent fs other)
    (hfirst : (call.run fs).outcome = .ok report)
    (hboth : (other.run (call.run fs).after).outcome = .ok otherReport) :
    (other.run fs).outcome = .ok otherReport ∧
      (call.run (other.run fs).after).outcome = .ok report ∧
      (other.run (call.run fs).after).after.Same (call.run (other.run fs).after).after := by
  obtain ⟨specification, hload, hgenerate, hwrite⟩ := Call.run_eq_ok_iff.mp ⟨hfirst, rfl⟩
  obtain ⟨otherSpecification, hotherLoad, hotherGenerate, hotherWrite⟩ :=
    Call.run_eq_ok_iff.mp ⟨hboth, rfl⟩
  obtain ⟨bytes, -, hfirstOnly, -⟩ := FileSystem.writesOnly_of_writeSource hwrite
  obtain ⟨second, swapped, hsecond, hswapped, hsame⟩ := FileSystem.exists_writeSource_swapped
    hcall.output hother.output hindependent.outputs hwrite hotherWrite
  -- The inputs are the same before and after the source of the other run is written.
  obtain ⟨content, -, hsecondOnly, -⟩ := FileSystem.writesOnly_of_writeSource hsecond
  have hotherLoad' := (hfirstOnly.loadSpecification_iff hcall.output hother.input
    hindependent.otherInput).mp hotherLoad
  have hload' := (hsecondOnly.loadSpecification_iff hother.output hcall.input
    hindependent.input).mpr hload
  obtain ⟨houtcome, rfl⟩ :=
    Call.run_eq_ok_iff.mpr ⟨otherSpecification, hotherLoad', hotherGenerate, hsecond⟩
  obtain ⟨houtcome', rfl⟩ := Call.run_eq_ok_iff.mpr ⟨specification, hload', hgenerate, hswapped⟩
  exact ⟨houtcome, houtcome', hsame⟩

/-- A run that does not write its own input can be repeated, and nothing changes then. -/
theorem Call.run_again {fs : FileSystem} {call : Call} {report : RunReport}
    (hne : fs.placeOf call.output ≠ fs.placeOf call.input)
    (hfirst : (call.run fs).outcome = .ok report) :
    (call.run (call.run fs).after).outcome = .ok report ∧
      (call.run fs).after.Same (call.run (call.run fs).after).after := by
  obtain ⟨specification, hload, hgenerate, hwrite⟩ := Call.run_eq_ok_iff.mp ⟨hfirst, rfl⟩
  obtain ⟨bytes, -, honly, -⟩ := FileSystem.writesOnly_of_writeSource hwrite
  obtain ⟨content, hcontent⟩ := exists_bytesOf_of_loadSpecification hload
  have hload' := loadSpecification_eq_ok_of_bytesOf hload
    ((honly.bytesOf_of_ne hne hcontent).trans hcontent.symm)
  obtain ⟨again, hagain, hsame⟩ := FileSystem.exists_writeSource_again hwrite
  have hrun := Call.run_eq_ok_iff.mpr ⟨specification, hload', hgenerate, hagain⟩
  exact ⟨hrun.1, hrun.2.symm ▸ hsame⟩

/-! ## Main statement -/

/-- **Independent runs commute and runs can be repeated.** When two calls without `..` write different
files, none of which the other one reads, and both succeed in one order, then both succeed in the other
order with the same reports, and the same stands everywhere afterwards. When a call that does not write its
own input succeeds, it succeeds again with the same report, and what it left stays as it is. -/
theorem run_comm_and_idem (fs : FileSystem) :
    (∀ call other : Call, call.Descends → other.Descends → call.Independent fs other →
      ∀ report otherReport, (call.run fs).outcome = .ok report →
        (other.run (call.run fs).after).outcome = .ok otherReport →
          (other.run fs).outcome = .ok otherReport ∧
            (call.run (other.run fs).after).outcome = .ok report ∧
            (other.run (call.run fs).after).after.Same (call.run (other.run fs).after).after) ∧
    ∀ call : Call, fs.placeOf call.output ≠ fs.placeOf call.input →
      ∀ report, (call.run fs).outcome = .ok report →
        (call.run (call.run fs).after).outcome = .ok report ∧
          (call.run fs).after.Same (call.run (call.run fs).after).after := by
  constructor
  · intro call other hcall hother hindependent report otherReport hfirst hboth
    exact Call.run_swapped hcall hother hindependent hfirst hboth
  · intro call hne report hfirst
    exact Call.run_again hne hfirst

/-- Two clients in a directory that the first of the two runs creates, one of them further down in it. A third
call writes its client next to its input, by a path that enters the directory and leaves it again. -/
theorem run_comm_and_idem_pets :
    let content : Entry := .file "\x7b\x7d".toUTF8.toList
    let tree := (FileTree.empty.put "pets.json" [] content).put "toys.json" [] content
    let fs : FileSystem := ⟨tree, [], rfl⟩
    let pets : Call := ⟨.ofText "pets.json", .ofText "gen/pets.ts", none⟩
    let toys : Call := ⟨.ofText "/toys.json", .ofText "/gen/api/toys.ts", some "Toys"⟩
    let above : Call := ⟨.ofText "pets.json", .ofText "gen/../pets.ts", none⟩
    (∃ report otherReport, pets.Descends ∧ toys.Descends ∧ pets.Independent fs toys ∧
      (pets.run fs).outcome = .ok report ∧
      (toys.run (pets.run fs).after).outcome = .ok otherReport ∧
      (toys.run fs).outcome = .ok otherReport ∧
      (pets.run (toys.run fs).after).outcome = .ok report ∧
      (toys.run (pets.run fs).after).after.Same (pets.run (toys.run fs).after).after) ∧
    ∃ report, fs.placeOf above.output ≠ fs.placeOf above.input ∧
      (above.run fs).outcome = .ok report ∧ (above.run (above.run fs).after).outcome = .ok report ∧
      (above.run fs).after.Same (above.run (above.run fs).after).after := by
  intro content tree fs pets toys above
  have hok : ∀ run : Run, run.outcome.isOk → ∃ report, run.outcome = .ok report := by
    intro run hok
    cases houtcome : run.outcome with
    | error stop => rw [houtcome] at hok; contradiction
    | ok report => exact ⟨report, rfl⟩
  obtain ⟨report, hpets⟩ := hok (pets.run fs) (by decide +kernel)
  obtain ⟨otherReport, htoys⟩ := hok (toys.run (pets.run fs).after) (by decide +kernel)
  obtain ⟨aboveReport, habove⟩ := hok (above.run fs) (by decide +kernel)
  have hdescends : pets.Descends ∧ toys.Descends := ⟨⟨by decide, by decide⟩, by decide, by decide⟩
  have hindependent : pets.Independent fs toys := ⟨by decide, by decide, by decide⟩
  have hplaces : fs.placeOf above.output ≠ fs.placeOf above.input := by decide
  have hswapped := (run_comm_and_idem fs).1 pets toys hdescends.1 hdescends.2 hindependent report
    otherReport hpets htoys
  have hagain := (run_comm_and_idem fs).2 above hplaces aboveReport habove
  exact ⟨⟨report, otherReport, hdescends.1, hdescends.2, hindependent, hpets, htoys, hswapped⟩,
    aboveReport, hplaces, habove, hagain⟩

end OpenApiClient
