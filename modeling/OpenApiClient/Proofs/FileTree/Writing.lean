import OpenApiClient.Output
import OpenApiClient.Proofs.FileTree.Places

/-!
# Creating Directories and Writing Files

What the writing operations change. Creating a directory with those around it adds directories on the
way to it and nothing else, even where it is refused half-way. Writing a file changes what stands at its
place and nothing else. So writing a source leaves one file that was not there as it is, and directories
in front of it.

## Layers

- **One directory**: `makeDirectory_eq_ok`.
- **Several directories**: `AddsDirectories`, kept by every step (`addsDirectories_haveDirectories`).
- **Files**: `write_eq_ok`, and with the directories `WritesOnly` (`writesOnly_of_writeSource`).
-/

namespace OpenApiClient.FileSystem

/-! ## One directory -/

/-- A directory is created where nothing stands, and nothing changes elsewhere. -/
theorem makeDirectory_eq_ok {fs made : FileSystem} {path : PathName}
    (h : fs.makeDirectory path = .ok made) :
    made.here = fs.here ∧ fs.tree.entry? (fs.placeOf path) = none ∧
      made.tree.entry? (fs.placeOf path) = some .directory ∧
      ∀ place, place ≠ fs.placeOf path → made.tree.entry? place = fs.tree.entry? place := by
  unfold makeDirectory at h
  split at h
  case h_1 => contradiction
  case h_2 => contradiction
  case h_3 name place htarget =>
    obtain ⟨hdirectory, hplace⟩ := placeOf_of_target htarget
    split at h
    case h_1 => contradiction
    case h_2 hnone =>
      obtain rfl := Except.ok.inj h
      rw [← hplace]
      refine ⟨rfl, hnone, ?_, fun other hne => FileTree.entry?_put_of_ne hne⟩
      exact FileTree.entry?_put_self hdirectory (by simp [hnone])

theorem makeDirectory_of_entryOf {fs : FileSystem} {path : PathName}
    (h : fs.entryOf path = .ok .directory) : fs.makeDirectory path = .error .occupied := by
  rw [entryOf, locate] at h
  split at h
  case isTrue => contradiction
  case isFalse hshort =>
    obtain ⟨slashes, names⟩ := path
    cases names with
    | nil => simp [makeDirectory, target, hshort]
    | cons name outer =>
      cases hplace : fs.follow (fs.start ⟨slashes, name :: outer⟩) (name :: outer) with
      | error fault => simp [hplace, bind, Except.bind] at h
      | ok place =>
        -- Either the last name goes up, or something stands where it leads to.
        obtain ⟨middle, houter, hname, hsome⟩ := follow_cons_eq_ok hplace
        have hstep := (nameAt_eq_ok hname).2
        rw [step] at hstep
        simp only [makeDirectory, target, if_neg hshort, houter, hname, bind, Except.bind, pure,
          Except.pure]
        by_cases hup : name == ".."
        · simp only [hup, if_true]
        · rw [if_neg hup] at hstep
          subst hstep
          obtain ⟨entry, hentry⟩ := Option.isSome_iff_exists.mp hsome
          simp only [hup, Bool.false_eq_true, if_false, hentry]

/-- A directory is had by creating it, or as it is there. -/
theorem haveDirectory_eq_ok {fs made : FileSystem} {path : PathName}
    (h : fs.haveDirectory path = .ok made) :
    fs.makeDirectory path = .ok made ∨
      (∃ fault, fs.makeDirectory path = .error fault ∧ fault ≠ .missing) ∧ made = fs := by
  unfold haveDirectory at h
  split at h
  case h_1 new hnew => exact .inl (by rw [hnew, Except.ok.inj h])
  case h_2 => contradiction
  case h_3 fault hfault hmake =>
    split at h
    case h_1 => exact .inr ⟨⟨fault, hmake, hfault⟩, (Except.ok.inj h).symm⟩
    case h_2 => contradiction

theorem haveDirectory_eq_error {fs : FileSystem} {path : PathName} {fault : AccessFault}
    (h : fs.haveDirectory path = .error fault) :
    fs.makeDirectory path = .error fault := by
  unfold haveDirectory at h
  split at h
  case h_1 => contradiction
  case h_2 hmake => rwa [← Except.error.inj h]
  case h_3 own hown hmake =>
    split at h
    case h_1 => contradiction
    case h_2 => rwa [← Except.error.inj h]

/-! ## Several directories -/

/-- A directory that is there is kept. -/
theorem haveDirectories_of_entryOf {fs : FileSystem} {path : PathName}
    (h : fs.entryOf path = .ok .directory) :
    fs.haveDirectories path.slashes path.names = (fs, .ok ()) := by
  have hkept : fs.haveDirectory path = .ok fs := by
    simp only [haveDirectory, makeDirectory_of_entryOf h, h]
  obtain ⟨slashes, names⟩ := path
  cases names with
  | nil => simp only [haveDirectories, hkept]
  | cons name outer => simp only [haveDirectories, hkept]

/-- Whether the file system changes by new directories on the way to a path only, itself included. -/
structure AddsDirectories (before after : FileSystem) (path : PathName) : Prop where
  here : after.here = before.here
  kept : ∀ place entry, before.tree.entry? place = some entry →
    after.tree.entry? place = some entry
  added : ∀ place, before.tree.entry? place = none → (after.tree.entry? place).isSome →
    after.tree.entry? place = some .directory ∧
      ∃ outer, outer <:+ path.names ∧ place = before.placeOf { path with names := outer }

namespace AddsDirectories

theorem refl (fs : FileSystem) (path : PathName) : AddsDirectories fs fs path where
  here := rfl
  kept _ _ h := h
  added place hnone hsome := by simp [hnone] at hsome

theorem trans {before middle after : FileSystem} {path : PathName}
    (h : AddsDirectories before middle path) (h' : AddsDirectories middle after path) :
    AddsDirectories before after path where
  here := h'.here.trans h.here
  kept place entry hentry := h'.kept place entry (h.kept place entry hentry)
  added place hnone hsome := by
    -- It is new in one of the two steps.
    cases hmiddle : middle.tree.entry? place with
    | none =>
      obtain ⟨hdirectory, outer, houter, rfl⟩ := h'.added place hmiddle hsome
      exact ⟨hdirectory, outer, houter, placeOf_congr h.here _⟩
    | some entry =>
      obtain ⟨hdirectory, hway⟩ := h.added place hnone (by simp [hmiddle])
      exact ⟨h'.kept place _ hdirectory, hway⟩

/-- What lies on the way to the parent lies on the way to the path. -/
theorem of_suffix {before after : FileSystem} {slashes : String} {outer names : List String}
    (h : AddsDirectories before after ⟨slashes, outer⟩) (hsuffix : outer <:+ names) :
    AddsDirectories before after ⟨slashes, names⟩ where
  here := h.here
  kept := h.kept
  added place hnone hsome := by
    obtain ⟨hdirectory, shorter, hshorter, hplace⟩ := h.added place hnone hsome
    exact ⟨hdirectory, shorter, hshorter.trans hsuffix, hplace⟩

end AddsDirectories

/-- What becomes of a directory and those around it: it is had at once, or after those around it, as far as
they can be had, or it is refused for another reason than that one of them is missing. -/
theorem haveDirectories_cons_cases (slashes : String) (fs : FileSystem) (name : String)
    (outer : List String) :
    fs.haveDirectory ⟨slashes, name :: outer⟩ = .ok (fs.haveDirectories slashes (name :: outer)).1 ∨
      (fs.haveDirectory ⟨slashes, name :: outer⟩ = .error .missing ∧
        ((fs.haveDirectories slashes (name :: outer)).1 = (fs.haveDirectories slashes outer).1 ∨
          (fs.haveDirectories slashes outer).1.haveDirectory ⟨slashes, name :: outer⟩ =
            .ok (fs.haveDirectories slashes (name :: outer)).1)) ∨
      (∃ fault, fs.haveDirectory ⟨slashes, name :: outer⟩ = .error fault ∧ fault ≠ .missing) ∧
        (fs.haveDirectories slashes (name :: outer)).1 = fs := by
  rw [haveDirectories]
  split
  case h_1 made hmade => exact .inl hmade
  case h_2 hmissing =>
    refine .inr (.inl ⟨hmissing, ?_⟩)
    split
    case h_1 after e hafter => exact .inl (by rw [hafter])
    case h_2 after hafter =>
      rw [hafter]
      dsimp only
      split
      case h_1 made hmade => exact .inr hmade
      case h_2 => exact .inl rfl
  case h_3 fault hother hfault => exact .inr (.inr ⟨⟨fault, hfault, hother⟩, rfl⟩)

theorem addsDirectories_haveDirectory {fs made : FileSystem} {path : PathName}
    (h : fs.haveDirectory path = .ok made) : AddsDirectories fs made path := by
  rcases haveDirectory_eq_ok h with hmake | ⟨-, rfl⟩
  · obtain ⟨hhere, hnone, hdirectory, hother⟩ := makeDirectory_eq_ok hmake
    refine ⟨hhere, ?_, ?_⟩
    · intro place entry hentry
      rwa [hother place]
      rintro rfl
      simp [hnone] at hentry
    · intro place hfree hsome
      -- Nothing but the directory itself is new.
      by_cases hplace : place = fs.placeOf path
      · exact ⟨hplace ▸ hdirectory, path.names, List.suffix_rfl, hplace⟩
      · simp [hother place hplace, hfree] at hsome
  · exact .refl _ path

/-- Directories on the way are all that is added, also where a later one is refused. -/
theorem addsDirectories_haveDirectories (slashes : String) (fs : FileSystem) (names : List String) :
    AddsDirectories fs (fs.haveDirectories slashes names).1 ⟨slashes, names⟩ := by
  induction names with
  | nil =>
    rw [haveDirectories]
    split
    case h_1 made hmade => exact addsDirectories_haveDirectory hmade
    case h_2 => exact .refl fs _
  | cons name outer ih =>
    -- The outer directories come first; then the directory itself is tried again.
    have houter := ih.of_suffix (List.suffix_cons name outer)
    rcases haveDirectories_cons_cases slashes fs name outer with
      hmade | ⟨-, hkept | hmade⟩ | ⟨-, hkept⟩
    · exact addsDirectories_haveDirectory hmade
    · rwa [hkept]
    · exact houter.trans (addsDirectories_haveDirectory hmade)
    · rw [hkept]
      exact .refl fs _

/-! ## Files -/

/-- A file is written where no directory stands, and nothing changes elsewhere. -/
theorem write_eq_ok {fs written : FileSystem} {path : PathName} {bytes : List UInt8}
    (h : fs.write path bytes = .ok written) :
    written.here = fs.here ∧ fs.tree.entry? (fs.placeOf path) ≠ some .directory ∧
      written.tree.entry? (fs.placeOf path) = some (.file bytes) ∧
      ∀ place, place ≠ fs.placeOf path → written.tree.entry? place = fs.tree.entry? place := by
  unfold write at h
  split at h
  case h_1 => contradiction
  case h_2 => contradiction
  case h_3 name place htarget =>
    obtain ⟨hdirectory, hplace⟩ := placeOf_of_target htarget
    split at h
    case isTrue => contradiction
    case isFalse hfree =>
      obtain rfl := Except.ok.inj h
      rw [FileTree.isDirectory, beq_iff_eq] at hfree
      rw [← hplace]
      refine ⟨rfl, hfree, ?_, fun other hne => FileTree.entry?_put_of_ne hne⟩
      exact FileTree.entry?_put_self hdirectory hfree

theorem le_of_write {fs written : FileSystem} {path : PathName} {bytes : List UInt8}
    (h : fs.write path bytes = .ok written) : fs.Le written := by
  obtain ⟨-, hfree, hwritten, hother⟩ := write_eq_ok h
  constructor
  · intro place hdirectory
    rwa [hother place]
    rintro rfl
    exact hfree hdirectory
  · intro place hsome
    by_cases hplace : place = fs.placeOf path
    · simp [hplace, hwritten]
    · rwa [hother place hplace]

/-- A file that was written can be read by its path. -/
theorem bytesOf_of_write {fs written : FileSystem} {path : PathName} {bytes : List UInt8}
    (h : fs.write path bytes = .ok written) : written.bytesOf path = .ok bytes := by
  obtain ⟨hhere, -, hwritten, -⟩ := write_eq_ok h
  have hle := le_of_write h
  unfold write at h
  split at h
  case h_1 => contradiction
  case h_2 => contradiction
  case h_3 name place htarget =>
    -- The last name led to the place before; now something stands there.
    obtain ⟨hshort, outer, hnames, houter, hname⟩ := target_eq_ok htarget
    rw [← (placeOf_of_target htarget).2] at hwritten
    have hlocate : written.locate path = .ok (name :: place) := by
      rw [locate, if_neg hshort, start_congr hhere, hnames]
      simp only [follow, follow_eq_ok_of_le hle houter, nameAt_eq_ok_of_le hle hname, bind,
        Except.bind, hwritten, Option.isSome_some, if_true]
    simp only [bytesOf, entryOf, hlocate, hwritten, bind, Except.bind]

/-- Whether the file system changes by one file that is written at a path, and by new directories on
the way to it, only. -/
structure WritesOnly (before after : FileSystem) (path : PathName) (bytes : List UInt8) : Prop where
  here : after.here = before.here
  /-- The path leads to the file, … -/
  read : after.bytesOf path = .ok bytes
  /-- … which stands where the names of the path lead, … -/
  written : after.tree.entry? (before.placeOf path) = some (.file bytes)
  /-- … and takes the place of no directory. -/
  not_directory : before.tree.entry? (before.placeOf path) ≠ some .directory
  kept : ∀ place entry, place ≠ before.placeOf path → before.tree.entry? place = some entry →
    after.tree.entry? place = some entry
  added : ∀ place, before.tree.entry? place = none → (after.tree.entry? place).isSome →
    place = before.placeOf path ∨ after.tree.entry? place = some .directory ∧
      ∃ outer, outer <:+ path.parent.names ∧ place = before.placeOf { path with names := outer }

/-- A file that is written once the directories on the way to it are there. -/
theorem writesOnly_of_write {before middle after : FileSystem} {path : PathName} {bytes : List UInt8}
    (hdirectories : AddsDirectories before middle path.parent)
    (hwrite : middle.write path bytes = .ok after) : WritesOnly before after path bytes := by
  obtain ⟨hhere, hfree, hwritten, hother⟩ := write_eq_ok hwrite
  have hplace : middle.placeOf path = before.placeOf path := placeOf_congr hdirectories.here path
  rw [hplace] at hfree hwritten hother
  refine ⟨hhere.trans hdirectories.here, bytesOf_of_write hwrite, hwritten, ?_, ?_, ?_⟩
  · exact fun hdirectory => hfree (hdirectories.kept _ _ hdirectory)
  · intro place entry hne hentry
    rw [hother place hne]
    exact hdirectories.kept place entry hentry
  · intro place hnone hsome
    by_cases hne : place = before.placeOf path
    · exact .inl hne
    · rw [hother place hne] at hsome ⊢
      exact .inr (hdirectories.added place hnone hsome)

/-- A source is written in two steps: the directories around it are there or are created, then its bytes
are written. -/
theorem writeSource_eq_ok_iff {before after : FileSystem} {path place : PathName} {text : Text} :
    writeSource before path text = (after, .ok place) ↔
      path.parent.hasNul = false ∧ path.hasNul = false ∧
        ∃ middle bytes, before.haveDirectories path.parent.slashes path.parent.names = (middle, .ok ()) ∧
          Text.Utf8.encode text = .ok bytes ∧ middle.write path bytes = .ok after ∧
          after.resolve path = place := by
  unfold writeSource
  dsimp only
  by_cases hparent : path.parent.hasNul
  · simp [hparent]
  · rcases before.haveDirectories path.parent.slashes path.parent.names with ⟨middle, e | ⟨⟩⟩
    · simp [hparent]
    · by_cases hnul : path.hasNul
      · simp [hparent, hnul]
      · cases hencoded : Text.Utf8.encode text with
        | error fault =>
          simp only [hparent, hnul, Bool.false_eq_true, if_false]
          split <;> simp_all
        | ok bytes =>
          simp only [hparent, hnul, Bool.false_eq_true, if_false, Except.toOption, Option.getD_some]
          split <;> simp_all

/-- A source that is written changes nothing but its file and the directories on the way to it. -/
theorem writesOnly_of_writeSource {before after : FileSystem} {path place : PathName} {text : Text}
    (h : writeSource before path text = (after, .ok place)) :
    ∃ bytes, Text.Utf8.encode text = .ok bytes ∧ WritesOnly before after path bytes ∧
      place = before.resolve path := by
  obtain ⟨-, -, middle, bytes, hmiddle, hencoded, hwrite, rfl⟩ := writeSource_eq_ok_iff.mp h
  have hdirectories := addsDirectories_haveDirectories path.parent.slashes before path.parent.names
  rw [hmiddle] at hdirectories
  have honly := writesOnly_of_write hdirectories hwrite
  exact ⟨bytes, hencoded, honly, resolve_congr honly.here path⟩

end OpenApiClient.FileSystem
