/-
# `ServerStorage.Muninn.Migration` — `domain/migration/migration.cpp`

`migrate_snapshot` and `migrate_delta` differ in the value they carry, its validation and
their texts.  The issue that a migration adds comes behind the issues of the validation; the
snapshot validation reads the clock, which decides warnings only.

A migration that is reported as reversible is undone by its rollback, unless the source
schema is one that validation refuses.
-/
import ServerStorage.Muninn.WellFormed

namespace ServerStorage.Muninn

open Lib

inductive MigrationStatus where
  | success | unsupportedPath | validationFailed
  deriving DecidableEq, Repr

inductive MigrationErrorCode where
  | unsupportedSourceVersion | unsupportedTargetVersion | noPathAvailable | validationFailed
  | nonReversible
  deriving DecidableEq, Repr

structure MigrationIssue where
  code : MigrationErrorCode
  severity : ValidationSeverity := .error
  message : String
  deriving DecidableEq, Repr

/-- `SnapshotMigrationResult` and `DeltaMigrationResult`; `added` is the issue behind those of
the validation. -/
structure MigrationResult (α : Type) where
  status : MigrationStatus := .success
  value : α
  validation : ValidationReport := []
  added : Option MigrationIssue := none
  reversible : Bool := false

def isSupportedSchema (schema : SchemaHeader) : Bool := schema.major == 1

def isReversiblePair (source target : SchemaHeader) : Bool :=
  if source.major ≠ target.major then false
  else if target.major < source.minReaderMajor then false
  else if source.major < target.minReaderMajor then false
  else true

/-- What a migration is about: where its schema is, how it is validated, and the texts. -/
structure Migratable (α : Type) where
  schema : α → SchemaHeader
  withSchema : α → SchemaHeader → α
  validate : α → ValidationReport
  sourceText : String
  targetText : String
  pathText : String
  failedText : String
  nonReversibleText : String

def migrate {α : Type} (kind : Migratable α) (value : α) (target : SchemaHeader) :
    MigrationResult α :=
  let reversible := isReversiblePair (kind.schema value) target
  let unsupported (code : MigrationErrorCode) (message : String) : MigrationResult α :=
    { status := .unsupportedPath, value := value, added := some { code := code, message := message }
      reversible := reversible }
  if !isSupportedSchema (kind.schema value) then
    unsupported .unsupportedSourceVersion kind.sourceText
  else if !isSupportedSchema target then unsupported .unsupportedTargetVersion kind.targetText
  else if target.major < (kind.schema value).minReaderMajor then
    unsupported .noPathAvailable kind.pathText
  else
    let migrated := kind.withSchema value target
    let validation := kind.validate migrated
    if validation.hasErrors then
      { status := .validationFailed, value := migrated, validation := validation
        added := some { code := .validationFailed, message := kind.failedText }
        reversible := reversible }
    else
      { value := migrated, validation := validation
        added := if reversible then none
          else some { code := .nonReversible, severity := .warning
                      message := kind.nonReversibleText }
        reversible := reversible }

def snapshotMigratable (now : UnixTimestamp) : Migratable Snapshot where
  schema := Snapshot.schema
  withSchema snapshot schema := { snapshot with schema := schema }
  validate := validateSnapshotAt now
  sourceText := "Snapshot source schema is unsupported for migration."
  targetText := "Snapshot target schema is unsupported for migration."
  pathText := "No deterministic migration path exists between source and target schema."
  failedText := "Migrated snapshot does not satisfy validation constraints."
  nonReversibleText := "Migration completed but is not guaranteed reversible."

def deltaMigratable : Migratable DeltaSnapshot where
  schema := DeltaSnapshot.schema
  withSchema delta schema := { delta with schema := schema }
  validate delta := validateDelta delta none none
  sourceText := "Delta source schema is unsupported for migration."
  targetText := "Delta target schema is unsupported for migration."
  pathText := "No deterministic migration path exists between source and target delta schema."
  failedText := "Migrated delta does not satisfy validation constraints."
  nonReversibleText := "Delta migration completed but is not guaranteed reversible."

def migrateSnapshot (now : UnixTimestamp) (snapshot : Snapshot) (targetSchema : SchemaHeader) :
    MigrationResult Snapshot :=
  migrate (snapshotMigratable now) snapshot targetSchema

def rollbackSnapshot (now : UnixTimestamp) (snapshot : Snapshot) (targetSchema : SchemaHeader) :
    MigrationResult Snapshot :=
  migrateSnapshot now snapshot targetSchema

def migrateDelta (delta : DeltaSnapshot) (targetSchema : SchemaHeader) :
    MigrationResult DeltaSnapshot :=
  migrate deltaMigratable delta targetSchema

def rollbackDelta (delta : DeltaSnapshot) (targetSchema : SchemaHeader) :
    MigrationResult DeltaSnapshot :=
  migrateDelta delta targetSchema

/-! ## One migration -/

section
variable {α : Type} {kind : Migratable α} {value : α} {target : SchemaHeader}

/-- Everything a migration that succeeds has checked. -/
theorem migrate_success :
    (migrate kind value target).status = .success ↔
      (kind.schema value).major = 1 ∧ target.major = 1 ∧ (kind.schema value).minReaderMajor ≤ 1 ∧
        (kind.validate (kind.withSchema value target)).hasErrors = false := by
  rw [migrate]
  cases hsource : isSupportedSchema (kind.schema value) with
  | false =>
      have h : (kind.schema value).major ≠ 1 := by simpa [isSupportedSchema] using hsource
      simp [h]
  | true =>
      have h : (kind.schema value).major = 1 := by simpa [isSupportedSchema] using hsource
      cases htarget : isSupportedSchema target with
      | false =>
          have h : target.major ≠ 1 := by simpa [isSupportedSchema] using htarget
          simp [h]
      | true =>
          have h' : target.major = 1 := by simpa [isSupportedSchema] using htarget
          by_cases hpath : target.major < (kind.schema value).minReaderMajor
          · have hnot : ¬(kind.schema value).minReaderMajor ≤ 1 := by
              rw [← h']
              exact UInt16.not_le.mpr hpath
            simp [hpath, hnot]
          · have hle : (kind.schema value).minReaderMajor ≤ 1 := by
              rw [← h']
              exact UInt16.not_lt.mp hpath
            cases herrors : (kind.validate (kind.withSchema value target)).hasErrors with
            | false => simp [h, h', hle, UInt16.not_lt.mpr hle, herrors]
            | true => simp [h', UInt16.not_lt.mpr hle, herrors]

theorem migrate_reversible :
    (migrate kind value target).reversible = isReversiblePair (kind.schema value) target := by
  simp only [migrate, apply_ite MigrationResult.reversible, ite_self]

theorem migrate_value (h : (migrate kind value target).status = .success) :
    (migrate kind value target).value = kind.withSchema value target := by
  obtain ⟨hsource, htarget, hreader, herrors⟩ := migrate_success.mp h
  rw [migrate, if_neg (by simp [isSupportedSchema, hsource]),
    if_neg (by simp [isSupportedSchema, htarget]),
    if_neg (by rw [htarget]; exact UInt16.not_lt.mpr hreader),
    if_neg (by rw [herrors]; exact Bool.false_ne_true)]

/-- The schema of a value can be put back. -/
structure Migratable.Lawful (kind : Migratable α) : Prop where
  schema_with : ∀ value schema, kind.schema (kind.withSchema value schema) = schema
  with_with : ∀ value schema schema',
    kind.withSchema (kind.withSchema value schema) schema' = kind.withSchema value schema'
  with_schema : ∀ value, kind.withSchema value (kind.schema value) = value

/-- The rollback of a reversible migration has only the validation of its source left to
pass. -/
theorem rollback_success {k : Migratable α} (hkind : kind.Lawful)
    (hschema : k.schema = kind.schema) (hwith : k.withSchema = kind.withSchema)
    (hstatus : (migrate kind value target).status = .success)
    (hreversible : (migrate kind value target).reversible = true) :
    let back := migrate k (migrate kind value target).value (kind.schema value)
    (back.status = .success ↔ (k.validate value).hasErrors = false) ∧
      (back.status = .success → back.value = value) := by
  obtain ⟨hsource, htarget, hreader, -⟩ := migrate_success.mp hstatus
  have hback : k.withSchema (kind.withSchema value target) (kind.schema value) = value := by
    rw [hwith, hkind.with_with, hkind.with_schema]
  have hle : target.minReaderMajor ≤ 1 := by
    rw [migrate_reversible, isReversiblePair] at hreversible
    split at hreversible
    · cases hreversible
    split at hreversible
    · cases hreversible
    split at hreversible
    · cases hreversible
    next hnot => exact hsource ▸ UInt16.not_lt.mp hnot
  intro back
  constructor
  · rw [migrate_success, migrate_value hstatus, hback, hschema, hkind.schema_with]
    exact ⟨fun h => h.2.2.2, fun h => ⟨htarget, hsource, hle, h⟩⟩
  · intro h
    rw [migrate_value h, migrate_value hstatus, hback]

end

theorem snapshotMigratable_lawful (now : UnixTimestamp) : (snapshotMigratable now).Lawful where
  schema_with _ _ := rfl
  with_with _ _ _ := rfl
  with_schema _ := rfl

theorem deltaMigratable_lawful : deltaMigratable.Lawful where
  schema_with _ _ := rfl
  with_with _ _ _ := rfl
  with_schema _ := rfl

/-! ## Snapshots -/

/-- Only the header pass looks at the schema. -/
theorem WellFormed.of_schema {s : Snapshot} {target : SchemaHeader}
    (h : WellFormed { s with schema := target }) (hvalid : isValidSchema s.schema = true)
    (hmajor : s.schema.major = 1) : WellFormed s where
  header :=
    { id := h.header.id
      schema := hvalid
      notTooNew := by rw [hmajor]; exact UInt16.le_refl _
      notTooOld := by rw [hmajor]; exact UInt16.le_refl _
      host := h.header.host
      entries := h.header.entries }
  entry := h.entry
  id_ne := h.id_ne
  ids := h.ids
  paths := h.paths
  root := h.root
  parent := h.parent
  acyclic := h.acyclic

theorem isValidSchema_iff {schema : SchemaHeader} (hmajor : schema.major = 1)
    (hreader : schema.minReaderMajor ≤ 1) :
    isValidSchema schema = true ↔ schema.minReaderMajor ≠ 0 := by
  rw [isValidSchema, hmajor]
  by_cases hzero : schema.minReaderMajor = 0
  · simp [hzero]
  · simp [hzero, hreader]

/-! ## Deltas -/

theorem renamedLoopIssues_schema (delta : DeltaSnapshot) (schema : SchemaHeader) :
    ∀ (renamed : List RenamedEntry) (oldIds newIds : List EntryId) (targets : List Str),
      renamedLoopIssues { delta with schema := schema } oldIds newIds targets renamed =
        renamedLoopIssues delta oldIds newIds targets renamed
  | [], _, _, _ => rfl
  | _ :: renamed, _, _, _ => by
      rw [renamedLoopIssues, renamedLoopIssues, renamedLoopIssues_schema delta schema renamed]

/-- The validation of a delta does not look at its schema. -/
theorem validateDelta_schema (delta : DeltaSnapshot) (schema : SchemaHeader) :
    validateDelta { delta with schema := schema } none none = validateDelta delta none none := by
  rw [validateDelta, validateDelta, renamedLoopIssues_schema]
  rfl

/-- A reversible migration of a snapshot is rolled back to the snapshot exactly where its
schema names a reader version; one of a delta always is. -/
theorem rollback_exact (snapshot : Snapshot) (delta : DeltaSnapshot) (target : SchemaHeader)
    (now now' : UnixTimestamp) :
    (let result := migrateSnapshot now snapshot target
      let back := rollbackSnapshot now' result.value snapshot.schema
      result.status = .success → result.reversible = true →
        ((back.status = .success ∧ back.value = snapshot) ↔ snapshot.schema.minReaderMajor ≠ 0)) ∧
    (let result := migrateDelta delta target
      let back := rollbackDelta result.value delta.schema
      result.status = .success → result.reversible = true →
        back.status = .success ∧ back.value = delta) := by
  constructor
  · intro result back hstatus hreversible
    obtain ⟨hmajor, -, hreader, hmigrated⟩ := migrate_success.mp hstatus
    obtain ⟨hback, hvalue⟩ := rollback_success (k := snapshotMigratable now')
      (snapshotMigratable_lawful now) rfl rfl hstatus hreversible
    have hwf : WellFormed { snapshot with schema := target } :=
      snapshotErrors_iff.mp ((hasErrors_validateSnapshotAt now _).symm.trans hmigrated)
    have hsource : back.status = .success ↔ snapshot.schema.minReaderMajor ≠ 0 := by
      refine hback.trans (Iff.trans ?_ (isValidSchema_iff hmajor hreader))
      show (validateSnapshotAt now' snapshot).hasErrors = false ↔ _
      rw [hasErrors_validateSnapshotAt, snapshotErrors_iff]
      exact ⟨fun h => h.header.schema, fun h => hwf.of_schema h hmajor⟩
    exact ⟨fun h => hsource.mp h.1, fun h => ⟨hsource.mpr h, hvalue (hsource.mpr h)⟩⟩
  · intro result back hstatus hreversible
    obtain ⟨-, -, -, hmigrated⟩ := migrate_success.mp hstatus
    obtain ⟨hback, hvalue⟩ := rollback_success (k := deltaMigratable) deltaMigratable_lawful
      rfl rfl hstatus hreversible
    have hsame := congrArg ValidationReport.hasErrors (validateDelta_schema delta target)
    have hok : back.status = .success := hback.mpr (hsame.symm.trans hmigrated)
    exact ⟨hok, hvalue hok⟩

/-- A snapshot of one directory whose schema names reader version 0. -/
theorem rollback_refused : ¬∀ (snapshot : Snapshot) (target : SchemaHeader) (now : UnixTimestamp),
    let result := migrateSnapshot now snapshot target
    result.status = .success → result.reversible = true →
      (rollbackSnapshot now result.value snapshot.schema).status = .success := by
  intro h
  exact absurd (h
    { schema := { minReaderMajor := 0 }, snapshotId := 1, createdAt := 1, hostIdentifier := str "h"
      rootEntryId := 1
      entries := [{ id := 1, normalizedPath := str "/", type := .directory }] } {} 1
    (by decide +kernel) (by decide +kernel)) (by decide +kernel)

end ServerStorage.Muninn
