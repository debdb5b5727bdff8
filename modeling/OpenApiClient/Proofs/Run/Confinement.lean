import OpenApiClient.Proofs.FileTree.Writing
import OpenApiClient.Run

/-!
# What a Run Changes

A run is all or nothing up to the writing. While it loads, binds and names, it only reads, so a failure
there leaves the file system as it was. A run that succeeds has written one file, which holds the source
made from the content that the input had before, and has created directories on the way to it.

## Layers

- **Content**: the specification depends on the content of its file alone
  (`loadSpecification_eq_ok_of_bytesOf`).
- **Main statement**: `run_confined`.
-/

namespace OpenApiClient

/-! ## Content -/

theorem mapError_eq_ok_iff {ε φ α : Type} {f : ε → φ} {x : Except ε α} {result : α} :
    x.mapError f = .ok result ↔ x = .ok result := by
  cases x with
  | error e => exact ⟨nofun, nofun⟩
  | ok own =>
    exact ⟨fun h => congrArg Except.ok (Except.ok.inj h), fun h => congrArg Except.ok (Except.ok.inj h)⟩

theorem inputBytes_eq_ok_iff {fs : FileSystem} {path : PathName} {bytes : List UInt8} :
    inputBytes fs path = .ok bytes ↔ path.hasNul = false ∧ fs.bytesOf path = .ok bytes := by
  unfold inputBytes FileSystem.isFile FileSystem.bytesOf
  by_cases hnul : path.hasNul
  · simp [hnul]
  · rcases fs.entryOf path with (_ | _ | _ | _ | _ | _) | (_ | _ | _) <;>
      simp [hnul, mapError_eq_ok_iff]

/-- The same content under the same path gives the same specification, whatever else there is. -/
theorem loadSpecification_eq_ok_of_bytesOf {fs other : FileSystem} {path : PathName}
    {specification : Specification} (h : loadSpecification fs path = .ok specification)
    (hbytes : other.bytesOf path = fs.bytesOf path) :
    loadSpecification other path = .ok specification := by
  cases hinput : inputBytes fs path with
  | error stop => simp [loadSpecification, loadDocument, hinput, bind, Except.bind] at h
  | ok bytes =>
    have hother : inputBytes other path = .ok bytes := by
      rw [inputBytes_eq_ok_iff] at hinput ⊢
      rwa [hbytes]
    rw [loadSpecification, loadDocument, hinput] at h
    rwa [loadSpecification, loadDocument, hother]

/-! ## Main statement -/

theorem loadAndGenerate_eq_ok_iff {fs : FileSystem} {input : PathName} {givenName : Option Text}
    {specification : Specification} {client : Client.GeneratedClient} :
    loadAndGenerate fs input givenName = .ok (specification, client) ↔
      loadSpecification fs input = .ok specification ∧
        Client.generate specification givenName = .ok client := by
  unfold loadAndGenerate
  constructor
  · intro h
    split at h
    case h_1 => contradiction
    case h_2 loaded hloaded =>
      split at h
      case h_1 => contradiction
      case h_2 made hmade =>
        obtain ⟨rfl, rfl⟩ := Prod.mk.inj (Except.ok.inj h)
        exact ⟨hloaded, hmade⟩
  · rintro ⟨hloaded, hmade⟩
    simp only [hloaded, hmade]

/-- **A run is confined to its output.** If it fails before the writing, nothing has changed. If it
succeeds, the output file holds the bytes of the source that the input's content makes, and besides
there are at most new directories on the way to that file. -/
theorem run_confined (fs : FileSystem) (input output : PathName) (givenName : Option Text) :
    (∀ stop, loadAndGenerate fs input givenName = .error stop →
      (run fs input output givenName).outcome = .error stop ∧
        (run fs input output givenName).after = fs) ∧
    (∀ report, (run fs input output givenName).outcome = .ok report →
      ∃ specification bytes,
        loadSpecification fs input = .ok specification ∧
        (∀ other : FileSystem, other.bytesOf input = fs.bytesOf input →
          loadSpecification other input = .ok specification) ∧
        Client.generate specification givenName = .ok report.client ∧
        Text.Utf8.encode report.client.source = .ok bytes ∧
        fs.WritesOnly (run fs input output givenName).after output bytes ∧
        report.path = fs.resolve output) := by
  unfold run
  constructor
  · intro stop hstop
    simp only [hstop, and_self]
  · intro report hreport
    cases hloaded : loadAndGenerate fs input givenName with
    | error stop => simp [hloaded] at hreport
    | ok loaded =>
      obtain ⟨specification, client⟩ := loaded
      obtain ⟨hspecification, hclient⟩ := loadAndGenerate_eq_ok_iff.mp hloaded
      simp only [hloaded] at hreport ⊢
      cases hwritten : writeSource fs output client.source with
      | mk after outcome =>
        cases outcome with
        | error stop => simp [hwritten] at hreport
        | ok place =>
          simp only [hwritten, Except.ok.injEq] at hreport ⊢
          subst hreport
          obtain ⟨bytes, hencoded, honly, hplace⟩ := FileSystem.writesOnly_of_writeSource hwritten
          exact ⟨specification, bytes, hspecification,
            fun other => loadSpecification_eq_ok_of_bytesOf hspecification, hclient, hencoded, honly,
            hplace⟩

/-- The output lies behind a missing directory that its path leaves again. A run with it keeps the
input and writes the client next to it; a run with a missing input changes nothing. -/
theorem run_confined_pets :
    let input : PathName := .ofText "pets.json"
    let output : PathName := .ofText "gen/../pets.ts"
    let content : Entry := .file "\x7b\x7d".toUTF8.toList
    let tree := FileTree.empty.put "pets.json" [] content
    let fs : FileSystem := ⟨tree, [], rfl⟩
    (∃ report bytes, (run fs input output none).outcome = .ok report ∧
      Text.Utf8.encode report.client.source = .ok bytes ∧
      (run fs input output none).after.bytesOf output = .ok bytes ∧
      (run fs input output none).after.tree.entry? ["pets.json"] = some content ∧
      report.path = .ofText "/pets.ts") ∧
    (run fs (.ofText "pets.yaml") output none).after = fs := by
  intro input output content tree fs
  constructor
  · obtain ⟨report, hreport⟩ : ∃ report, (run fs input output none).outcome = .ok report := by
      have hok : (run fs input output none).outcome.isOk := by decide +kernel
      generalize (run fs input output none).outcome = outcome at hok ⊢
      cases outcome with
      | error stop => contradiction
      | ok report => exact ⟨report, rfl⟩
    obtain ⟨specification, bytes, -, -, -, hencoded, honly, hplace⟩ :=
      (run_confined fs input output none).2 report hreport
    have hinput : ["pets.json"] ≠ fs.placeOf output := by decide
    exact ⟨report, bytes, hreport, hencoded, honly.read, honly.kept _ _ hinput rfl, hplace⟩
  · have hmissing : loadAndGenerate fs (.ofText "pets.yaml") none =
        .error (.error (.input (.notFound (.ofText "/pets.yaml")))) := rfl
    exact ((run_confined fs _ output none).1 _ hmissing).2

end OpenApiClient
