/-
# `ServerStorage.Muninn.Unchanged` — a delta without changes

The engine compares ids, paths, types and metadata.  In a built snapshot these settle the
rest: the name is the file name of the path, the root is the entry whose path has the
fewest elements, and every other entry has the entry at its parent path for its parent.
-/
import ServerStorage.Lib.Normal
import ServerStorage.Muninn.BuilderSpec
import ServerStorage.Muninn.DeltaValid

namespace ServerStorage.Muninn

open Lib DeltaEngine IndexingPipeline SnapshotBuilder

/-! ## What the engine compares -/

structure Same (b t : FileEntry) : Prop where
  id : b.id = t.id
  path : b.normalizedPath = t.normalizedPath
  type : b.type = t.type
  metadata : b.metadata = t.metadata

theorem Same.symm {b t : FileEntry} (h : Same b t) : Same t b :=
  ⟨h.id.symm, h.path.symm, h.type.symm, h.metadata.symm⟩

/-- Every entry of `B` is in `T`, as far as the engine looks. -/
def Covers (B T : Snapshot) : Prop := ∀ b ∈ B.entries, ∃ t ∈ T.entries, Same b t

section
variable {B T : Snapshot}

theorem deltaHasChanges_eq_false {delta : DeltaSnapshot} :
    deltaHasChanges delta = false ↔ delta.addedEntries = [] ∧ delta.removedEntries = [] ∧
      delta.modifiedEntries = [] ∧ delta.renamedEntries = [] := by
  simp [deltaHasChanges, List.isEmpty_iff, and_assoc]

/-- Two ends of one entry that is neither renamed nor modified. -/
theorem Continues.same (hB : Keyed B) (hT : Keyed T) {b t : FileEntry} (h : Continues B T b t)
    (hmodified : (compute B T).modifiedEntries = []) (hrenamed : (compute B T).renamedEntries = []) :
    Same b t := by
  have hfixed : b.id = t.id ∧ b.normalizedPath = t.normalizedPath := by
    by_contra hmoved
    have hmem := (mem_renamedEntries hB hT).mpr ⟨b, t, ⟨h, Decidable.not_and_iff_not_or_not.mp hmoved⟩, rfl⟩
    rw [hrenamed] at hmem
    cases hmem
  have hkept : b.metadata = t.metadata ∧ b.type = t.type := by
    by_contra hchanged
    have hmem := (mem_modifiedEntries (B := B) hT).mpr
      ⟨b, h.base, t, h.target, hfixed.1, Decidable.not_and_iff_not_or_not.mp hchanged, rfl⟩
    rw [hmodified] at hmem
    cases hmem
  exact ⟨hfixed.1, hfixed.2, hkept.2, hkept.1⟩

/-- A pairing holds only entries that the other side does not have. -/
theorem Covers.continues (h : Covers B T) (hT : Keyed T) {b t : FileEntry}
    (hlink : Continues B T b t) : Same b t := by
  obtain ⟨t', ht', hsame⟩ := h b hlink.base
  rcases hlink.link with hid | hpaired
  · rwa [← hT.eq_of_id ht' hlink.target (hsame.id.symm.trans hid)]
  · exact absurd hsame.id.symm ((mem_onlyIn.mp hpaired.vanished).2 t' ht')

/-- The delta is empty exactly when each snapshot covers the other. -/
theorem compute_unchanged (hB : Keyed B) (hT : Keyed T) :
    deltaHasChanges (compute B T) = false ↔ Covers B T ∧ Covers T B := by
  rw [deltaHasChanges_eq_false]
  constructor
  · rintro ⟨hadded, hremoved, hmodified, hrenamed⟩
    constructor
    · intro b hb
      by_contra hno
      have hmem := (mem_removedEntries hB hT).mpr ⟨hb, fun t h =>
        hno ⟨t, h.target, h.same hB hT hmodified hrenamed⟩⟩
      rw [hremoved] at hmem
      cases hmem
    · intro t ht
      by_contra hno
      have hmem := (mem_addedEntries hB hT).mpr ⟨ht, fun b h =>
        hno ⟨b, h.base, (h.same hB hT hmodified hrenamed).symm⟩⟩
      rw [hadded] at hmem
      cases hmem
  · rintro ⟨hBT, hTB⟩
    refine ⟨?_, ?_, ?_, ?_⟩ <;> refine List.eq_nil_iff_forall_not_mem.mpr fun x hx => ?_
    · obtain ⟨ht, hno⟩ := (mem_addedEntries hB hT).mp hx
      obtain ⟨b, hb, hsame⟩ := hTB x ht
      exact hno b ⟨hb, ht, .inl hsame.id.symm⟩
    · obtain ⟨hb, hno⟩ := (mem_removedEntries hB hT).mp hx
      obtain ⟨t, ht, hsame⟩ := hBT x hb
      exact hno t ⟨hb, ht, .inl hsame.id⟩
    · obtain ⟨b, hb, t, ht, hid, hchanged, -⟩ := (mem_modifiedEntries hT).mp hx
      have hsame := hBT.continues hT ⟨hb, ht, .inl hid⟩
      rcases hchanged with hne | hne
      · exact hne hsame.metadata
      · exact hne hsame.type
    · obtain ⟨b, t, hmoves, -⟩ := (mem_renamedEntries hB hT).mp hx
      have hsame := hBT.continues hT hmoves.continues
      rcases hmoves.moved with hne | hne
      · exact hne hsame.id
      · exact hne hsame.path

end

/-! ## What the paths of a built snapshot settle -/

/-- The number of elements of a path behind the root directory. -/
def depth (e : FileEntry) : Nat := (Path.normalForm e.normalizedPath).parts.length

/-- A valid snapshot whose names and parents are those of its paths. -/
structure PathTree (s : Snapshot) : Prop where
  valid : WellFormed s
  named : ∀ e ∈ s.entries, e.name = filenameFromPath e.normalizedPath
  parent : ∀ e ∈ s.entries, e.id ≠ s.rootEntryId →
    ∃ p ∈ s.entries, p.normalizedPath = parentFromPath e.normalizedPath ∧ e.parentId = p.id

section
variable {s : Snapshot}

theorem PathTree.keyed (h : PathTree s) : Keyed s :=
  ⟨h.valid.ids, h.valid.paths, fun e he => (h.valid.entry e he).normal⟩

/-- The root is the entry with the root's id. -/
theorem PathTree.root (h : PathTree s) {e : FileEntry} (he : e ∈ s.entries)
    (hroot : e.id = s.rootEntryId) : e.parentId = 0 := by
  obtain ⟨r, hr, hid, -, hparent⟩ := h.valid.root
  rwa [h.keyed.eq_of_id he hr (hroot.trans hid.symm)]

/-- The parent of an entry has the shorter path: it is another entry. -/
theorem PathTree.parent_depth (h : PathTree s) {e : FileEntry} (he : e ∈ s.entries)
    (hne : e.id ≠ s.rootEntryId) : ∃ p ∈ s.entries, depth p < depth e := by
  obtain ⟨p, hp, hpath, hid⟩ := h.parent e he hne
  have hok := h.valid.entry e he
  obtain ⟨q, hq⟩ := Path.exists_spell hok.absolute hok.normal
  refine ⟨p, hp, ?_⟩
  have hnames : q.names ≠ [] := by
    intro hnil
    -- the root directory would be its own parent
    rw [parentFromPath, ← hq, Path.NormalPath.parentPath_root hnil, hq] at hpath
    obtain rfl := h.keyed.eq_of_path hp he hpath
    have hself : ParentStep s p.id p.id := ⟨p, hp, rfl, hid, h.valid.id_ne p hp⟩
    exact h.valid.acyclic p.id (.single hself)
  rw [parentFromPath, ← hq, Path.NormalPath.parentPath_spell hnames] at hpath
  rw [depth, depth, hpath, ← hq, Path.NormalPath.normalForm_spell, Path.NormalPath.normalForm_spell]
  exact Path.NormalPath.parts_parent_lt hnames

/-- The root has the shortest path. -/
theorem PathTree.root_depth (h : PathTree s) {r : FileEntry} (hr : r ∈ s.entries)
    (hroot : r.id = s.rootEntryId) :
    ∀ {n : Nat} {e : FileEntry}, e ∈ s.entries → depth e = n → e.id ≠ s.rootEntryId →
      depth r < depth e := by
  intro n
  induction n using Nat.strong_induction_on with
  | _ n ih =>
      rintro e he rfl hne
      obtain ⟨p, hp, hlt⟩ := h.parent_depth he hne
      by_cases hproot : p.id = s.rootEntryId
      · rwa [h.keyed.eq_of_id hr hp (hroot.trans hproot.symm)]
      · exact Nat.lt_trans (ih (depth p) hlt hp rfl hproot) hlt

end

section
variable {B T : Snapshot}

theorem Same.depth_eq {b t : FileEntry} (h : Same b t) : depth b = depth t := by
  rw [depth, depth, h.path]

/-- Of two snapshots that cover each other, the roots are the same. -/
theorem PathTree.root_eq (hB : PathTree B) (hT : PathTree T) (hBT : Covers B T)
    (hTB : Covers T B) : B.rootEntryId = T.rootEntryId := by
  obtain ⟨r, hr, hrid, -⟩ := hB.valid.root
  obtain ⟨r', hr', hrid', -⟩ := hT.valid.root
  obtain ⟨t, ht, hsame⟩ := hBT r hr
  obtain ⟨b, hb, hsame'⟩ := hTB r' hr'
  by_contra hne
  have hlt : depth r' < depth t := hT.root_depth hr' hrid' ht rfl fun heq =>
    hne (hrid.symm.trans (hsame.id.trans heq))
  have hlt' : depth r < depth b := hB.root_depth hr hrid hb rfl fun heq =>
    hne (heq.symm.trans (hsame'.id.symm.trans hrid'))
  have hdepth := hsame.depth_eq
  have hdepth' := hsame'.depth_eq
  omega

/-- What the engine finds the same is the same in every field. -/
theorem PathTree.eq_of_same (hB : PathTree B) (hT : PathTree T) (hBT : Covers B T)
    (hroot : B.rootEntryId = T.rootEntryId) {b t : FileEntry} (hb : b ∈ B.entries)
    (ht : t ∈ T.entries) (h : Same b t) : b = t := by
  have hname : b.name = t.name := by rw [hB.named b hb, hT.named t ht, h.path]
  have hparent : b.parentId = t.parentId := by
    by_cases hid : b.id = B.rootEntryId
    · rw [hB.root hb hid, hT.root ht (h.id.symm.trans (hid.trans hroot))]
    · obtain ⟨p, hp, hpath, hpid⟩ := hB.parent b hb hid
      obtain ⟨p', hp', hpath', hpid'⟩ := hT.parent t ht fun heq =>
        hid (h.id.trans (heq.trans hroot.symm))
      obtain ⟨x, hx, hsame⟩ := hBT p hp
      have hxp : x.normalizedPath = p'.normalizedPath := by
        rw [← hsame.path, hpath, h.path, hpath']
      rw [hpid, hpid', hsame.id, hT.keyed.eq_of_path hx hp' hxp]
  cases b
  cases t
  cases h
  simp_all

/-- A delta without changes, between snapshots that are settled by their paths. -/
theorem PathTree.unchanged (hB : PathTree B) (hT : PathTree T) :
    deltaHasChanges (compute B T) = false ↔
      B.rootEntryId = T.rootEntryId ∧ ∀ e, e ∈ B.entries ↔ e ∈ T.entries := by
  rw [compute_unchanged hB.keyed hT.keyed]
  constructor
  · rintro ⟨hBT, hTB⟩
    have hroot := hB.root_eq hT hBT hTB
    refine ⟨hroot, fun e => ⟨fun he => ?_, fun he => ?_⟩⟩
    · obtain ⟨t, ht, hsame⟩ := hBT e he
      rwa [hB.eq_of_same hT hBT hroot he ht hsame]
    · obtain ⟨b, hb, hsame⟩ := hTB e he
      rwa [hT.eq_of_same hB hTB hroot.symm he hb hsame]
  · rintro ⟨-, hentries⟩
    exact ⟨fun b hb => ⟨b, (hentries b).mp hb, rfl, rfl, rfl, rfl⟩,
      fun t ht => ⟨t, (hentries t).mpr ht, rfl, rfl, rfl, rfl⟩⟩

end

/-! ## Built snapshots -/

/-- The name of each entry of a scan is the file name of its path. -/
def NamedByPath (scan : RawScanResult) : Prop :=
  ∀ raw ∈ scan.entries, raw.name = filenameFromPath (normalizePathLexical raw.normalizedPath)

/-- A built snapshot that is valid is settled by its paths. -/
theorem pathTree_of_build {scan : RawScanResult} {options : BuildOptions} {result : BuildResult}
    (h : build scan options = some result) (hnamed : NamedByPath scan)
    (hvalid : WellFormed result.snapshot) : PathTree result.snapshot where
  valid := hvalid
  named e he := by
    obtain ⟨raw, hraw, id, heq⟩ := build_made h he
    have hname := congrArg FileEntry.name heq
    have hpath := congrArg FileEntry.normalizedPath heq
    change e.name = _ at hname
    change e.normalizedPath = normalizePathLexical raw.normalizedPath at hpath
    rw [hname, hpath, toEntry]
    show (if _ then _ else _) = _
    split
    · rfl
    · exact hnamed raw hraw
  parent e he hne := by
    rcases (build_sound h).parent e he hne with hparent | ⟨-, hzero, -⟩
    · exact hparent
    · exact absurd hzero (hvalid.parent e he hne).1

/-- What an update does with a target that differs from its base in nothing the engine lists. -/
theorem withBase_done {B : Snapshot} {result : PipelineResult} {enqueueTransport : Bool}
    (hB : snapshotErrors B = false) (hT : snapshotErrors result.snapshotBuild.snapshot = false) :
    (∃ done, withBase result B enqueueTransport = .done done ∧ done.snapshotBuild.snapshot = B) ↔
      deltaHasChanges (compute B result.snapshotBuild.snapshot) = false := by
  have hdelta : (validateDelta (compute B result.snapshotBuild.snapshot) (some B)
      (some result.snapshotBuild.snapshot)).ok = true :=
    (Bool.not_eq_true' _).mpr (validateDelta_compute hB hT)
  rw [withBase]
  dsimp only
  rw [hdelta, if_neg (show ¬ (!true) = true from Bool.false_ne_true)]
  cases hchanges : deltaHasChanges (compute B result.snapshotBuild.snapshot) with
  | false =>
      rw [if_pos (show (!false) = true from rfl)]
      exact iff_of_true ⟨_, rfl, rfl⟩ rfl
  | true =>
      rw [if_neg (show ¬ (!true) = true from Bool.false_ne_true)]
      refine iff_of_false ?_ Bool.noConfusion
      rintro ⟨_, h, -⟩
      cases h

/-- Between built snapshots that are valid, a delta lists no change exactly when they have the same
root and the same entries; that is when an update keeps its base. -/
theorem noop_exact {scan scan' : RawScanResult} {options options' : BuildOptions}
    {base target : BuildResult} {now now' : UnixTimestamp}
    (hbase : build scan options = some base) (htarget : build scan' options' = some target)
    (hnamed : NamedByPath scan) (hnamed' : NamedByPath scan')
    (hvalid : (validateSnapshotAt now base.snapshot).hasErrors = false)
    (hvalid' : (validateSnapshotAt now' target.snapshot).hasErrors = false) :
    (deltaHasChanges (compute base.snapshot target.snapshot) = false ↔
      base.snapshot.rootEntryId = target.snapshot.rootEntryId ∧
        ∀ e, e ∈ base.snapshot.entries ↔ e ∈ target.snapshot.entries) ∧
    ∀ (result : PipelineResult) (enqueueTransport : Bool), result.snapshotBuild = target →
      ((∃ done, withBase result base.snapshot enqueueTransport = .done done ∧
          done.snapshotBuild.snapshot = base.snapshot) ↔
        base.snapshot.rootEntryId = target.snapshot.rootEntryId ∧
          ∀ e, e ∈ base.snapshot.entries ↔ e ∈ target.snapshot.entries) := by
  rw [hasErrors_validateSnapshotAt] at hvalid hvalid'
  have hB := pathTree_of_build hbase hnamed (snapshotErrors_iff.mp hvalid)
  have hT := pathTree_of_build htarget hnamed' (snapshotErrors_iff.mp hvalid')
  refine ⟨hB.unchanged hT, ?_⟩
  rintro result enqueueTransport rfl
  rw [withBase_done hvalid hvalid']
  exact hB.unchanged hT

/-- A root and one file of this size. -/
def fileScan (size : UInt64) : RawScanResult :=
  { rootPath := str "/", hostIdentifier := str "h", scannedAt := 1
    entries :=
      [{ normalizedPath := str "/", type := .directory },
        { normalizedPath := str "/a", name := str "a", metadata := { sizeBytes := size } }] }

def fileBuild (size : UInt64) : BuildResult :=
  (build (fileScan size) { snapshotId := 1 }).getD {}

theorem noop_exact_file :
    deltaHasChanges (compute (fileBuild 1).snapshot (fileBuild 2).snapshot) = false ↔
      (fileBuild 1).snapshot.rootEntryId = (fileBuild 2).snapshot.rootEntryId ∧
        ∀ e, e ∈ (fileBuild 1).snapshot.entries ↔ e ∈ (fileBuild 2).snapshot.entries :=
  (@noop_exact (fileScan 1) (fileScan 2) { snapshotId := 1 } { snapshotId := 1 } (fileBuild 1)
    (fileBuild 2) 1 1 (by decide +kernel) (by decide +kernel)
    (by unfold NamedByPath; decide +kernel) (by unfold NamedByPath; decide +kernel)
    (by decide +kernel) (by decide +kernel)).1

end ServerStorage.Muninn
