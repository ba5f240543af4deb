/-
# `ServerStorage.Muninn.SnapshotKey` — the text behind a snapshot id

`compute_snapshot_id` hashes the fields of a snapshot with a bar behind each.  The bar is
not escaped: the text tells snapshots apart as long as no host, path or name contains it.
-/
import ServerStorage.Lib.Fields
import ServerStorage.Muninn.Builder
import ServerStorage.Muninn.WellFormed

namespace ServerStorage.Muninn.SnapshotBuilder

open Lib

/-- The text that is hashed. -/
def snapshotKey (snapshot : Snapshot) : Str :=
  decimal snapshot.schema.major.toNat ++ bar ++ decimal snapshot.schema.minor.toNat ++ bar ++
  decimal snapshot.schema.patch.toNat ++ bar ++
  decimal snapshot.schema.minReaderMajor.toNat ++ bar ++ snapshot.hostIdentifier ++ bar ++
  decimalInt snapshot.createdAt.toInt ++ bar ++ decimal snapshot.rootEntryId.toNat ++ bar ++
  decimal snapshot.entries.length ++ bar ++ snapshot.entries.flatMap entryKey

theorem computeSnapshotId_eq (snapshot : Snapshot) :
    computeSnapshotId snapshot = candidateId (snapshotKey snapshot) := rfl

/-- Everything but the id. -/
def content (snapshot : Snapshot) : Snapshot := { snapshot with snapshotId := 0 }

def barByte : UInt8 := 124

/-! ## Reading the text back -/

theorem bar_decimal (n : Nat) : barByte ∉ decimal n := not_mem_decimal (by decide) n

theorem bar_decimalInt (i : Int) : barByte ∉ decimalInt i :=
  not_mem_decimalInt (by decide) (by decide) i

theorem decimal_field {m n : Nat} {rest rest' : Str}
    (h : decimal m ++ (bar ++ rest) = decimal n ++ (bar ++ rest')) : m = n ∧ rest = rest' := by
  obtain ⟨hfield, hrest⟩ := field_inj (bar_decimal m) (bar_decimal n) h
  exact ⟨decimal_inj.mp hfield, hrest⟩

theorem decimalInt_field {i j : Int} {rest rest' : Str}
    (h : decimalInt i ++ (bar ++ rest) = decimalInt j ++ (bar ++ rest')) : i = j ∧ rest = rest' := by
  obtain ⟨hfield, hrest⟩ := field_inj (bar_decimalInt i) (bar_decimalInt j) h
  exact ⟨decimalInt_inj.mp hfield, hrest⟩

/-- The last field of an entry. -/
def hashText (hash : Option UInt64) : Str :=
  match hash with
  | some h => decimal h.toNat
  | none => str "null"

theorem hashText_inj {hash hash' : Option UInt64} (h : hashText hash = hashText hash') :
    hash = hash' := by
  have hnull : ∀ n : Nat, decimal n ≠ str "null" := fun n hn =>
    not_mem_decimal (show isDigit 110 = false by decide) n (hn ▸ List.mem_cons_self)
  cases hash with
  | none =>
      cases hash' with
      | none => rfl
      | some h' => exact absurd h.symm (hnull _)
  | some h₁ =>
      cases hash' with
      | none => exact absurd h (hnull _)
      | some h₂ => rw [UInt64.toNat_inj.mp (decimal_inj.mp h)]

theorem semicolon_hashText (hash : Option UInt64) : (59 : UInt8) ∉ hashText hash := by
  cases hash with
  | none => decide
  | some h => exact not_mem_decimal (by decide) _

/-- No bar in the texts of an entry. -/
def EntryBarless (e : FileEntry) : Prop := barByte ∉ e.normalizedPath ∧ barByte ∉ e.name

theorem entryKey_eq (e : FileEntry) :
    entryKey e =
      decimal e.id.toNat ++ bar ++ decimal e.parentId.toNat ++ bar ++
      decimal e.type.value.toNat ++ bar ++ e.normalizedPath ++ bar ++ e.name ++ bar ++
      decimal e.metadata.sizeBytes.toNat ++ bar ++
      decimalInt e.metadata.createdAt.toInt ++ bar ++
      decimalInt e.metadata.modifiedAt.toInt ++ bar ++
      decimalInt e.metadata.accessedAt.toInt ++ bar ++
      decimal e.metadata.permissions.toNat ++ bar ++ decimal e.metadata.fileId.toNat ++ bar ++
      decimal e.metadata.deviceId.toNat ++ bar ++
      hashText e.metadata.contentHash ++ [59] := rfl

theorem entryKey_inj {e e' : FileEntry} {rest rest' : Str} (h : EntryBarless e)
    (h' : EntryBarless e') (heq : entryKey e ++ rest = entryKey e' ++ rest') :
    e = e' ∧ rest = rest' := by
  rw [entryKey_eq, entryKey_eq] at heq
  simp only [List.append_assoc] at heq
  obtain ⟨hid, heq⟩ := decimal_field heq
  obtain ⟨hparent, heq⟩ := decimal_field heq
  obtain ⟨htype, heq⟩ := decimal_field heq
  obtain ⟨hpath, heq⟩ := field_inj h.1 h'.1 heq
  obtain ⟨hname, heq⟩ := field_inj h.2 h'.2 heq
  obtain ⟨hsize, heq⟩ := decimal_field heq
  obtain ⟨hcreated, heq⟩ := decimalInt_field heq
  obtain ⟨hmodified, heq⟩ := decimalInt_field heq
  obtain ⟨haccessed, heq⟩ := decimalInt_field heq
  obtain ⟨hpermissions, heq⟩ := decimal_field heq
  obtain ⟨hfile, heq⟩ := decimal_field heq
  obtain ⟨hdevice, heq⟩ := decimal_field heq
  obtain ⟨hhash, hrest⟩ := field_inj (semicolon_hashText e.metadata.contentHash)
    (semicolon_hashText e'.metadata.contentHash) heq
  refine ⟨?_, hrest⟩
  obtain ⟨_, _, _, _, ⟨_⟩, ⟨_, _, _, _, _, _, _, _⟩⟩ := e
  obtain ⟨_, _, _, _, ⟨_⟩, ⟨_, _, _, _, _, _, _, _⟩⟩ := e'
  obtain rfl := UInt64.toNat_inj.mp hid
  obtain rfl := UInt64.toNat_inj.mp hparent
  obtain rfl := UInt8.toNat_inj.mp htype
  obtain rfl := UInt64.toNat_inj.mp hsize
  obtain rfl := Int64.toInt_inj.mp hcreated
  obtain rfl := Int64.toInt_inj.mp hmodified
  obtain rfl := Int64.toInt_inj.mp haccessed
  obtain rfl := UInt32.toNat_inj.mp hpermissions
  obtain rfl := UInt64.toNat_inj.mp hfile
  obtain rfl := UInt64.toNat_inj.mp hdevice
  obtain rfl := hashText_inj hhash
  cases hpath
  cases hname
  rfl

/-- No bar in any text. -/
def Barless (s : Snapshot) : Prop :=
  barByte ∉ s.hostIdentifier ∧ ∀ e ∈ s.entries, EntryBarless e

theorem snapshotKey_inj {s s' : Snapshot} (h : Barless s) (h' : Barless s')
    (heq : snapshotKey s = snapshotKey s') : content s = content s' := by
  simp only [snapshotKey, List.append_assoc] at heq
  obtain ⟨hmajor, heq⟩ := decimal_field heq
  obtain ⟨hminor, heq⟩ := decimal_field heq
  obtain ⟨hpatch, heq⟩ := decimal_field heq
  obtain ⟨hreader, heq⟩ := decimal_field heq
  obtain ⟨hhost, heq⟩ := field_inj h.1 h'.1 heq
  obtain ⟨hcreated, heq⟩ := decimalInt_field heq
  obtain ⟨hroot, heq⟩ := decimal_field heq
  obtain ⟨hlength, heq⟩ := decimal_field heq
  have hentries := records_inj (fun _ _ _ _ => entryKey_inj) h.2 h'.2 hlength heq
  obtain ⟨⟨_, _, _, _⟩, _, _, _, _, _⟩ := s
  obtain ⟨⟨_, _, _, _⟩, _, _, _, _, _⟩ := s'
  obtain rfl := UInt16.toNat_inj.mp hmajor
  obtain rfl := UInt16.toNat_inj.mp hminor
  obtain rfl := UInt16.toNat_inj.mp hpatch
  obtain rfl := UInt16.toNat_inj.mp hreader
  obtain rfl := Int64.toInt_inj.mp hcreated
  obtain rfl := UInt64.toNat_inj.mp hroot
  cases hhost
  cases hentries
  rfl

/-! ## Exactness -/

/-- The host, the paths and the names are written in the alphabet. -/
def Over (alphabet : UInt8 → Prop) (s : Snapshot) : Prop :=
  (∀ c ∈ s.hostIdentifier, alphabet c) ∧
    ∀ e ∈ s.entries, (∀ c ∈ e.normalizedPath, alphabet c) ∧ ∀ c ∈ e.name, alphabet c

/-- A root and one entry in it. -/
def pairSnapshot (path name : Str) : Snapshot :=
  { hostIdentifier := [Path.sep], snapshotId := 1, rootEntryId := 1
    entries :=
      [{ id := 1, normalizedPath := [Path.sep], type := .directory },
        { id := 2, parentId := 1, normalizedPath := path, name := name }] }

theorem pairSnapshot_over {alphabet : UInt8 → Prop} {path name : Str} (hslash : alphabet Path.sep)
    (hpath : ∀ c ∈ path, alphabet c) (hname : ∀ c ∈ name, alphabet c) :
    Over alphabet (pairSnapshot path name) := by
  refine ⟨fun c hc => (List.mem_singleton.mp hc) ▸ hslash, fun e he => ?_⟩
  rcases List.mem_cons.mp he with rfl | he
  · exact ⟨fun c hc => (List.mem_singleton.mp hc) ▸ hslash, nofun⟩
  · obtain rfl := List.mem_singleton.mp he
    exact ⟨hpath, hname⟩

/-- The texts of error-free snapshots written in an alphabet differ wherever their contents
do, exactly if the alphabet does not have the slash of a path and the bar. -/
theorem snapshotKey_exact (alphabet : UInt8 → Prop) :
    (∀ s s' : Snapshot, snapshotErrors s = false → snapshotErrors s' = false →
      Over alphabet s → Over alphabet s' → content s ≠ content s' →
        snapshotKey s ≠ snapshotKey s') ↔
      (alphabet Path.sep → ¬alphabet barByte) := by
  constructor
  · intro h hslash hbar
    have hone : Over alphabet (pairSnapshot [Path.sep, barByte] [barByte]) :=
      pairSnapshot_over hslash (by simp [hslash, hbar]) (by simp [hbar])
    have hother : Over alphabet (pairSnapshot [Path.sep, barByte, barByte] []) :=
      pairSnapshot_over hslash (by simp [hslash, hbar]) nofun
    -- the bar that ends the path in one of them belongs to the path in the other
    exact h _ _ (by decide +kernel) (by decide +kernel) hone hother (by decide) (by rfl)
  · intro h s s' hs hs' hover hover' hne heq
    have hslash : alphabet Path.sep := by
      have hwf := snapshotErrors_iff.mp hs
      obtain ⟨r, hr, -⟩ := hwf.root
      have habsolute := (hwf.entry r hr).absolute
      have hpath := (hover.2 r hr).1
      cases hpr : r.normalizedPath with
      | nil => exact absurd hpr (hwf.entry r hr).nonempty
      | cons c rest =>
          rw [hpr] at habsolute hpath
          have hc : c = Path.sep := by simpa [Path.isAbsolute] using habsolute
          exact hc ▸ hpath c List.mem_cons_self
    have hbarless : ∀ {s : Snapshot}, Over alphabet s → Barless s := fun hover =>
      ⟨fun hc => h hslash (hover.1 _ hc), fun e he =>
        ⟨fun hc => h hslash ((hover.2 e he).1 _ hc), fun hc => h hslash ((hover.2 e he).2 _ hc)⟩⟩
    exact hne (snapshotKey_inj (hbarless hover) (hbarless hover') heq)

/-- The path `/a` with the name `|b`, and the path `/a|` with the name `b`. -/
theorem snapshotKey_collides : ¬∀ s s' : Snapshot, snapshotErrors s = false →
    snapshotErrors s' = false → content s ≠ content s' → snapshotKey s ≠ snapshotKey s' := by
  intro h
  exact h (pairSnapshot (str "/a") (str "|b")) (pairSnapshot (str "/a|") (str "b"))
    (by decide +kernel) (by decide +kernel) (by decide) (by rfl)

end ServerStorage.Muninn.SnapshotBuilder
