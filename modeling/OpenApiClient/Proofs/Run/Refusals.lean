import OpenApiClient.Proofs.Run.Independence

/-!
# Refused Sources

A source is written in two steps, and a refusal in either of them takes nothing back: the directories that
were created on the way to it remain. So a refused source leaves everything that was there as it was, and
adds at most directories. It adds some exactly if a directory is missing on the way where one can be created,
for that is the first thing that is done.

## Layers

- **Missing directories**: `LacksDirectory`, and the way on from there (`follow_eq_missing_of_lacks`).
- **Creating them**: `haveDirectories` changes a file system exactly if one is missing
  (`same_haveDirectories_iff`).
- **Main statement**: `writeSource_refused`; without its condition it is refuted by a path that goes up again
  from a new directory.
-/

namespace OpenApiClient

namespace FileSystem

variable {fs : FileSystem} {path : PathName} {slashes : String}

/-! ## Missing directories -/

/-- Whether some name on the way to a path, the last one included, leads to nothing from a directory that is
reached, and a directory of that name can be created. -/
def LacksName (fs : FileSystem) (path : PathName) : Prop :=
  ∃ name outer place, name :: outer <:+ path.names ∧ fs.follow (fs.start path) outer = .ok place ∧
    fs.tree.entry? place = some .directory ∧ name ≠ ".." ∧ name.utf8ByteSize ≤ nameLimit ∧
    fs.tree.entry? (name :: place) = none

/-- Whether a directory is missing on the way to a path, itself included, and can be created on behalf of
the path, which is short enough. -/
structure LacksDirectory (fs : FileSystem) (path : PathName) : Prop where
  short : path.text.utf8ByteSize ≤ pathLimit
  name : fs.LacksName path

theorem follow_cons_eq_missing {start place : Location} {name : String} {outer : List String}
    (houter : fs.follow start outer = .ok place) (hplace : fs.tree.entry? place = some .directory)
    (hname : name ≠ "..") (hshort : name.utf8ByteSize ≤ nameLimit)
    (hnone : fs.tree.entry? (name :: place) = none) :
    fs.follow start (name :: outer) = .error .missing := by
  have hnext : fs.nameAt place name = .ok (name :: place) :=
    (nameAt_eq_ok_iff hname).mpr ⟨hplace, hshort, rfl⟩
  simp only [follow, houter, hnext, bind, Except.bind, hnone]
  rfl

/-- Behind a missing name nothing can be reached. -/
theorem follow_eq_missing_of_lacks (h : fs.LacksName path) :
    fs.follow (fs.start path) path.names = .error .missing := by
  obtain ⟨name, outer, place, ⟨inner, hnames⟩, houter, hplace, hname, hshort, hnone⟩ := h
  rw [← hnames]
  clear hnames
  induction inner with
  | nil => exact follow_cons_eq_missing houter hplace hname hshort hnone
  | cons last inner ih =>
    rw [List.cons_append, follow, ih]
    rfl

theorem not_lacksName_root : ¬ fs.LacksName ⟨slashes, []⟩ := by
  rintro ⟨name, outer, place, hsuffix, -⟩
  exact absurd (List.suffix_nil.mp hsuffix) (List.cons_ne_nil name outer)

/-! ## Creating them -/

/-- A directory is created under a name in a directory, where nothing stands. -/
theorem exists_target_of_makeDirectory {made : FileSystem} (h : fs.makeDirectory path = .ok made) :
    ∃ name place, fs.target path = .ok (some (name, place)) ∧ fs.tree.entry? (name :: place) = none := by
  unfold makeDirectory at h
  split at h
  case h_1 => contradiction
  case h_2 => contradiction
  case h_3 name place htarget =>
    split at h
    case h_1 => contradiction
    case h_2 hnone => exact ⟨name, place, htarget, hnone⟩

/-- When one directory can be created. -/
theorem exists_makeDirectory_iff {name : String} {outer : List String} :
    (∃ made, fs.makeDirectory ⟨slashes, name :: outer⟩ = .ok made) ↔
      (PathName.text ⟨slashes, name :: outer⟩).utf8ByteSize ≤ pathLimit ∧
        ∃ place, fs.follow (fs.start ⟨slashes, name :: outer⟩) outer = .ok place ∧
          fs.tree.entry? place = some .directory ∧ name ≠ ".." ∧ name.utf8ByteSize ≤ nameLimit ∧
          fs.tree.entry? (name :: place) = none := by
  constructor
  · rintro ⟨made, hmade⟩
    obtain ⟨own, place, htarget, hnone⟩ := exists_target_of_makeDirectory hmade
    obtain ⟨hshort, _, hnames, houter, hnext⟩ := target_eq_ok htarget
    obtain ⟨rfl, rfl⟩ := List.cons.inj hnames
    -- The name leads to a place below, so it does not go up.
    have hname : name ≠ ".." := by
      rintro rfl
      have hstep := (nameAt_eq_ok hnext).2
      rw [step, if_pos (by simp)] at hstep
      exact absurd (congrArg List.length hstep) (by simp; omega)
    obtain ⟨hplace, hlimit, -⟩ := (nameAt_eq_ok_iff hname).mp hnext
    exact ⟨Nat.not_lt.mp hshort, place, houter, hplace, hname, hlimit, hnone⟩
  · rintro ⟨hshort, place, houter, hplace, hname, hlimit, hnone⟩
    have hnext : fs.nameAt place name = .ok (name :: place) :=
      (nameAt_eq_ok_iff hname).mpr ⟨hplace, hlimit, rfl⟩
    refine ⟨fs.put name place .directory, ?_⟩
    simp only [makeDirectory, target, if_neg (Nat.not_lt.mpr hshort), houter, hnext, bind, Except.bind,
      pure, Except.pure]
    rw [if_neg (by simpa using hname)]
    simp only [hnone]

/-- A directory is missing on the way to a path, or the last one is, so that it can be created at once. -/
theorem lacksDirectory_cons_iff {name : String} {outer : List String} :
    fs.LacksDirectory ⟨slashes, name :: outer⟩ ↔
      (∃ made, fs.makeDirectory ⟨slashes, name :: outer⟩ = .ok made) ∨
        fs.makeDirectory ⟨slashes, name :: outer⟩ = .error .missing ∧ fs.LacksDirectory ⟨slashes, outer⟩ := by
  have hstart : fs.start ⟨slashes, name :: outer⟩ = fs.start ⟨slashes, outer⟩ := rfl
  rw [exists_makeDirectory_iff]
  constructor
  · rintro ⟨hshort, own, rest, place, hsuffix, hrest⟩
    rcases List.suffix_cons_iff.mp hsuffix with heq | hsuffix
    · obtain ⟨rfl, rfl⟩ := List.cons.inj heq
      exact .inl ⟨hshort, place, hrest⟩
    · have hlacks : fs.LacksName ⟨slashes, outer⟩ := ⟨own, rest, place, hsuffix, hrest⟩
      refine .inr ⟨?_, PathName.text_parent_le hshort, hlacks⟩
      simp only [makeDirectory, target, if_neg (Nat.not_lt.mpr hshort), hstart,
        follow_eq_missing_of_lacks hlacks, bind, Except.bind]
  · rintro (⟨hshort, place, hrest⟩ | ⟨hmissing, -, own, rest, place, hsuffix, hrest⟩)
    · exact ⟨hshort, name, outer, place, List.suffix_rfl, hrest⟩
    · refine ⟨?_, own, rest, place, hsuffix.trans (List.suffix_cons name outer), hrest⟩
      -- A path that is too long is refused for another reason.
      refine Nat.not_lt.mp fun hlong => ?_
      simp [makeDirectory, target, hlong] at hmissing

/-- Where no directory is missing, or it cannot be created, nothing changes. -/
theorem haveDirectories_of_not_lacks {names : List String} (h : ¬ fs.LacksDirectory ⟨slashes, names⟩) :
    (fs.haveDirectories slashes names).1 = fs := by
  induction names with
  | nil =>
    rw [haveDirectories]
    split
    case h_1 made hmade =>
      rcases haveDirectory_eq_ok hmade with hmake | ⟨-, hkept⟩
      · -- The directory where the path starts is under no name.
        obtain ⟨name, place, htarget, -⟩ := exists_target_of_makeDirectory hmake
        obtain ⟨-, outer, hnames, -⟩ := target_eq_ok htarget
        contradiction
      · exact hkept
    case h_2 => rfl
  | cons name outer ih =>
    rw [lacksDirectory_cons_iff, not_or, not_and] at h
    -- Whenever the directory is had, it was there before.
    have hhad : ∀ made, fs.haveDirectory ⟨slashes, name :: outer⟩ = .ok made → made = fs := by
      intro made hmade
      rcases haveDirectory_eq_ok hmade with hmake | ⟨-, hkept⟩
      · exact absurd ⟨made, hmake⟩ h.1
      · exact hkept
    rcases haveDirectories_cons_cases slashes fs name outer with
      hmade | ⟨hmissing, hafter⟩ | ⟨-, hkept⟩
    · exact hhad _ hmade
    · have houter := ih (h.2 (haveDirectory_eq_error hmissing))
      rw [houter] at hafter
      rcases hafter with hkept | hmade
      · exact hkept
      · exact hhad _ hmade
    · exact hkept

/-- Where a directory is missing that can be created, one is there in the end that was not there before. -/
theorem exists_new_of_lacks {names : List String} (h : fs.LacksDirectory ⟨slashes, names⟩) :
    ∃ place, fs.tree.entry? place = none ∧
      (fs.haveDirectories slashes names).1.tree.entry? place = some .directory := by
  induction names with
  | nil => exact absurd h.name not_lacksName_root
  | cons name outer ih =>
    rcases lacksDirectory_cons_iff.mp h with ⟨made, hmake⟩ | ⟨hmissing, houter⟩
    · have hmade : fs.haveDirectory ⟨slashes, name :: outer⟩ = .ok made := by
        simp only [haveDirectory, hmake]
      obtain ⟨-, hnone, hdirectory, -⟩ := makeDirectory_eq_ok hmake
      refine ⟨_, hnone, ?_⟩
      simpa only [haveDirectories, hmade] using hdirectory
    · -- An outer one is created first, and stays whatever becomes of this one.
      have hfirst : fs.haveDirectory ⟨slashes, name :: outer⟩ = .error .missing := by
        simp only [haveDirectory, hmissing]
      obtain ⟨place, hnone, hdirectory⟩ := ih houter
      refine ⟨place, hnone, ?_⟩
      rcases haveDirectories_cons_cases slashes fs name outer with
        hmade | ⟨-, hkept | hmade⟩ | ⟨⟨fault, hfault, hother⟩, -⟩
      · simp [hfirst] at hmade
      · rwa [hkept]
      · exact (addsDirectories_haveDirectory hmade).kept _ _ hdirectory
      · exact absurd (Except.error.inj (hfault.symm.trans hfirst)) hother

theorem same_haveDirectories_iff {names : List String} :
    fs.Same (fs.haveDirectories slashes names).1 ↔ ¬ fs.LacksDirectory ⟨slashes, names⟩ := by
  constructor
  · intro hsame hlacks
    obtain ⟨place, hnone, hdirectory⟩ := exists_new_of_lacks hlacks
    rw [hsame.entries, hnone] at hdirectory
    contradiction
  · intro hlacks
    rw [haveDirectories_of_not_lacks hlacks]
    exact ⟨rfl, fun _ => rfl⟩

/-! ## Main statement -/

/-- A source that is refused has had directories created for it, if anything. -/
theorem after_eq_of_refused {text : Text} {e : OutputError}
    (h : (writeSource fs path text).2 = .error (.error e)) :
    (writeSource fs path text).1 = (fs.haveDirectories path.parent.slashes path.parent.names).1 := by
  unfold writeSource at h ⊢
  dsimp only at h ⊢
  by_cases hparent : path.parent.hasNul
  · simp [hparent] at h
  · rw [if_neg hparent] at h ⊢
    generalize fs.haveDirectories path.parent.slashes path.parent.names = made at h ⊢
    rcases made with ⟨middle, cause | ⟨⟩⟩
    · rfl
    · dsimp only at h ⊢
      by_cases hnul : path.hasNul
      · simp [hnul] at h
      · rw [if_neg hnul] at h ⊢
        -- Only a failure to open the file is reported, and this leaves the directories.
        generalize middle.write path ((Text.Utf8.encode text).toOption.getD []) = outcome at h ⊢
        rcases outcome with cause | written
        · rfl
        · cases hencode : Text.Utf8.encode text with
          | error fault => simp [hencode] at h
          | ok bytes => simp [hencode] at h

/-- **A refused source leaves directories at most.** Everything that was there before is there as it was, and
what is new is a directory on the way to that of the output. Nothing is new exactly if no directory is missing
on this way where one can be created. -/
theorem writeSource_refused {text : Text} {e : OutputError}
    (h : (writeSource fs path text).2 = .error (.error e)) :
    fs.AddsDirectories (writeSource fs path text).1 path.parent ∧
      (fs.Same (writeSource fs path text).1 ↔ ¬ fs.LacksDirectory path.parent) := by
  rw [after_eq_of_refused h]
  exact ⟨addsDirectories_haveDirectories _ _ _, same_haveDirectories_iff⟩

/-- A file in the way is found before anything is created, whatever else is missing behind it. -/
theorem writeSource_refused_blocked :
    let tree := FileTree.empty.put "pets" [] (.file [])
    let fs : FileSystem := ⟨tree, [], rfl⟩
    let path : PathName := .ofText "pets/gen/client.ts"
    (writeSource fs path "x").2 =
        .error (.error (.directory (.ofText "pets/gen") ⟨.notDirectory, some (.ofText "pets/gen")⟩)) ∧
      fs.Same (writeSource fs path "x").1 := by
  intro tree fs path
  have hrefused : (writeSource fs path "x").2 = .error (.error (.directory (.ofText "pets/gen")
      ⟨.notDirectory, some (.ofText "pets/gen")⟩)) := rfl
  refine ⟨hrefused, (writeSource_refused hrefused).2.mpr ?_⟩
  -- A missing name on the way would be the reason given.
  intro hlacks
  have hmissing := follow_eq_missing_of_lacks hlacks.name
  have hblocked : fs.follow (fs.start path.parent) path.parent.names = .error .notDirectory := rfl
  exact absurd (Except.error.inj (hblocked.symm.trans hmissing)) (by simp)

/-- The path leads back from a directory that is missing, and so names no file: the source is refused, and
the directory is there. -/
theorem not_same_writeSource_parent :
    let fs : FileSystem := ⟨.empty, [], rfl⟩
    let path : PathName := .ofText "gen/.."
    (writeSource fs path "x").2 = .error (.error (.file path ⟨.isDirectory, some path⟩)) ∧
      ¬ fs.Same (writeSource fs path "x").1 := by
  intro fs path
  refine ⟨rfl, fun hsame => ?_⟩
  have hentry : (writeSource fs path "x").1.tree.entry? ["gen"] = some .directory := rfl
  rw [hsame.entries] at hentry
  contradiction

end FileSystem

end OpenApiClient
