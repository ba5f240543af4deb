/-
# `ServerStorage.Muninn.StableIds` — ids from one scan to the next

The id of an entry is hashed from its type and its device and file number.  Of the hard links
to one file only the first in path order gets that key; the others get one that names their
path too.  So an id is kept exactly where an entry is the first link in both scans or in
neither.
-/
import ServerStorage.Muninn.BuilderSpec
import ServerStorage.Muninn.SnapshotKey

namespace ServerStorage.Muninn.SnapshotBuilder

open Lib

/-! ## Keys -/

def pathOf (raw : RawEntry) : Str := normalizePathLexical raw.normalizedPath

def baseKey (raw : RawEntry) : Str := makeBaseStableKey raw (pathOf raw)

/-- The key after one collision. -/
def linkKey (raw : RawEntry) : Str := saltedKey (baseKey raw) (pathOf raw) 1

def HasFileId (raw : RawEntry) : Prop := raw.metadata.deviceId ≠ 0 ∧ raw.metadata.fileId ≠ 0

/-- Two hard links to one file. -/
def SameFile (raw raw' : RawEntry) : Prop :=
  raw.type = raw'.type ∧ raw.metadata.deviceId = raw'.metadata.deviceId ∧
    raw.metadata.fileId = raw'.metadata.fileId ∧ HasFileId raw

/-- As the scanner makes paths. -/
def Absolute (raw : RawEntry) : Prop := Path.isAbsolute (pathOf raw) = true

theorem baseKey_file {raw : RawEntry} (h : HasFileId raw) :
    baseKey raw = decimal raw.type.value.toNat ++ (bar ++
      (decimal raw.metadata.deviceId.toNat ++ (bar ++ decimal raw.metadata.fileId.toNat))) := by
  have hkey : baseKey raw = decimal raw.type.value.toNat ++ bar ++
      (decimal raw.metadata.deviceId.toNat ++ bar ++ decimal raw.metadata.fileId.toNat) :=
    congrArg (decimal raw.type.value.toNat ++ bar ++ ·) (if_pos h)
  rw [hkey]
  simp only [List.append_assoc]

theorem baseKey_path {raw : RawEntry} (h : ¬HasFileId raw) :
    baseKey raw = decimal raw.type.value.toNat ++ (bar ++ pathOf raw) := by
  have hkey : baseKey raw = decimal raw.type.value.toNat ++ bar ++ pathOf raw :=
    congrArg (decimal raw.type.value.toNat ++ bar ++ ·) (if_neg h)
  rw [hkey, List.append_assoc]

theorem linkKey_file {raw : RawEntry} (h : HasFileId raw) :
    linkKey raw = decimal raw.type.value.toNat ++ (bar ++
      (decimal raw.metadata.deviceId.toNat ++ (bar ++ (decimal raw.metadata.fileId.toNat ++ (bar ++
      (str "path=" ++ (pathOf raw ++ str "|salt=1"))))))) := by
  have hpath : str "|path=" = bar ++ str "path=" := rfl
  have hsalt : str "|salt=" ++ decimal (1 : UInt32).toNat = str "|salt=1" := rfl
  rw [linkKey, saltedKey, baseKey_file h, List.append_assoc, hsalt, hpath]
  simp only [List.append_assoc]

/-- No number starts like an absolute path. -/
theorem number_ne_path {raw : RawEntry} (h : Absolute raw) (n : Nat) (rest : Str) :
    decimal n ++ rest ≠ pathOf raw := by
  intro heq
  obtain ⟨c, cs, hc⟩ := List.exists_cons_of_ne_nil (decimal_ne_nil n)
  have hhead : (pathOf raw).head? = some Path.sep := by simpa [Absolute, Path.isAbsolute] using h
  rw [← heq, hc] at hhead
  obtain rfl : c = Path.sep := Option.some.inj hhead
  exact not_mem_decimal (show isDigit Path.sep = false by decide) n (hc ▸ List.mem_cons_self)

/-- Entries of different paths share their base key exactly where they are links to one
file. -/
theorem baseKey_eq_iff {raw raw' : RawEntry} (h : Absolute raw) (h' : Absolute raw')
    (hpath : pathOf raw ≠ pathOf raw') : baseKey raw = baseKey raw' ↔ SameFile raw raw' := by
  constructor
  · intro heq
    by_cases hfile : HasFileId raw
    · by_cases hfile' : HasFileId raw'
      · rw [baseKey_file hfile, baseKey_file hfile'] at heq
        obtain ⟨htype, heq⟩ := decimal_field heq
        obtain ⟨hdevice, heq⟩ := decimal_field heq
        have hid := decimal_inj.mp heq
        refine ⟨?_, UInt64.toNat_inj.mp hdevice, UInt64.toNat_inj.mp hid, hfile⟩
        have hvalue := UInt8.toNat_inj.mp htype
        cases hraw : raw.type
        cases hraw' : raw'.type
        rw [hraw, hraw'] at hvalue
        exact congrArg EntryType.mk hvalue
      · rw [baseKey_file hfile, baseKey_path hfile'] at heq
        exact absurd (decimal_field heq).2 (number_ne_path h' _ _)
    · by_cases hfile' : HasFileId raw'
      · rw [baseKey_path hfile, baseKey_file hfile'] at heq
        exact absurd (decimal_field heq).2.symm (number_ne_path h _ _)
      · rw [baseKey_path hfile, baseKey_path hfile'] at heq
        exact absurd (decimal_field heq).2 hpath
  · rintro ⟨htype, hdevice, hid, hfile⟩
    have hfile' : HasFileId raw' := ⟨hdevice ▸ hfile.1, hid ▸ hfile.2⟩
    rw [baseKey_file hfile, baseKey_file hfile', htype, hdevice, hid]

/-- A key that names a path is no base key. -/
theorem linkKey_ne_baseKey {raw raw' : RawEntry} (hfile : HasFileId raw) (h' : Absolute raw') :
    linkKey raw ≠ baseKey raw' := by
  intro heq
  rw [linkKey_file hfile] at heq
  by_cases hfile' : HasFileId raw'
  · rw [baseKey_file hfile'] at heq
    have hlast := (decimal_field (decimal_field heq).2).2
    exact bar_decimal _ (hlast ▸ List.mem_append_right _ List.mem_cons_self)
  · rw [baseKey_path hfile'] at heq
    exact number_ne_path h' _ _ (decimal_field heq).2

theorem linkKey_inj {raw raw' : RawEntry} (hfile : HasFileId raw) (hfile' : HasFileId raw')
    (heq : linkKey raw = linkKey raw') : pathOf raw = pathOf raw' := by
  rw [linkKey_file hfile, linkKey_file hfile'] at heq
  have hlast := (decimal_field (decimal_field (decimal_field heq).2).2).2
  exact List.append_cancel_right (List.append_cancel_left hlast)

/-! ## The keys that are assigned -/

/-- The key of an entry behind those kept before it. -/
def assignedKey (kept : List RawEntry) (raw : RawEntry) : Str :=
  if kept.any fun r => baseKey r = baseKey raw then linkKey raw else baseKey raw

/-- The entries made of a part of the scan: what was looked at, what was kept of it and the
entries, the last of each first. -/
inductive Assigned : List RawEntry → List RawEntry → List FileEntry → Prop
  | nil : Assigned [] [] []
  | duplicate {seen kept : List RawEntry} {done : List FileEntry} {raw : RawEntry} :
      pathOf raw ∈ kept.map pathOf → Assigned seen kept done → Assigned (raw :: seen) kept done
  | entry {seen kept : List RawEntry} {done : List FileEntry} {raw : RawEntry} :
      pathOf raw ∉ kept.map pathOf → Assigned seen kept done →
      Assigned (raw :: seen) (raw :: kept)
        (toEntry raw (candidateId (assignedKey kept raw)) :: done)

/-- The keys an entry may get. -/
def keysOf (raw : RawEntry) : List Str := [baseKey raw, linkKey raw]

/-- Distinct keys of these entries have distinct ids. -/
def HashDistinct (raws : List RawEntry) : Prop :=
  ∀ raw ∈ raws, ∀ raw' ∈ raws, ∀ key ∈ keysOf raw, ∀ key' ∈ keysOf raw',
    candidateId key = candidateId key' → key = key'

theorem any_baseKey {kept : List RawEntry} {raw : RawEntry} :
    (kept.any fun r => baseKey r = baseKey raw) = true ↔ ∃ r ∈ kept, baseKey r = baseKey raw := by
  simp only [List.any_eq_true, decide_eq_true_eq]

namespace Assigned

variable {seen kept : List RawEntry} {done : List FileEntry}

theorem sublist (h : Assigned seen kept done) : kept.Sublist seen := by
  induction h with
  | nil => exact List.Sublist.refl []
  | duplicate _ _ ih => exact ih.cons _
  | entry _ _ ih => exact ih.cons_cons _

theorem paths (h : Assigned seen kept done) :
    done.map FileEntry.normalizedPath = kept.map pathOf := by
  induction h with
  | nil => rfl
  | duplicate _ _ ih => exact ih
  | entry _ _ ih => rw [List.map_cons, List.map_cons, ih]; rfl

theorem nodup (h : Assigned seen kept done) : (kept.map pathOf).Nodup := by
  induction h with
  | nil => exact List.nodup_nil
  | duplicate _ _ ih => exact ih
  | entry hpath _ ih => exact List.nodup_cons.mpr ⟨hpath, ih⟩

/-- Each entry comes from a raw entry, by the key it gets behind those before it. -/
theorem mem (h : Assigned seen kept done) {e : FileEntry} (he : e ∈ done) :
    ∃ later raw earlier, kept = later ++ raw :: earlier ∧
      e = toEntry raw (candidateId (assignedKey earlier raw)) := by
  induction h with
  | nil => cases he
  | duplicate _ _ ih => exact ih he
  | @entry seen kept done raw _ _ ih =>
      rcases List.mem_cons.mp he with rfl | he
      · exact ⟨[], raw, kept, rfl, rfl⟩
      · obtain ⟨later, raw', earlier, rfl, rfl⟩ := ih he
        exact ⟨raw :: later, raw', earlier, rfl, rfl⟩

/-- The base key of every entry that was kept is in use. -/
theorem base_used (h : Assigned seen kept done) {raw : RawEntry} (hraw : raw ∈ kept) :
    candidateId (baseKey raw) ∈ done.map FileEntry.id := by
  induction h generalizing raw with
  | nil => cases hraw
  | duplicate _ _ ih => exact ih hraw
  | @entry seen kept done first _ _ ih =>
      rw [List.map_cons]
      rcases List.mem_cons.mp hraw with rfl | hraw
      · by_cases hany : (kept.any fun r => baseKey r = baseKey raw) = true
        · obtain ⟨r, hr, hkey⟩ := any_baseKey.mp hany
          exact List.mem_cons_of_mem _ (hkey ▸ ih hr)
        · have hkey : assignedKey kept raw = baseKey raw := if_neg hany
          rw [hkey]
          exact List.mem_cons_self
      · exact List.mem_cons_of_mem _ (ih hraw)

/-- A key in use is the base key of an entry, or the key of a further link. -/
theorem key_cases (h : Assigned seen kept done) (habsolute : ∀ r ∈ kept, Absolute r) {id : EntryId}
    (hid : id ∈ done.map FileEntry.id) :
    ∃ r ∈ kept, id = candidateId (baseKey r) ∨ (HasFileId r ∧ id = candidateId (linkKey r)) := by
  obtain ⟨e, he, rfl⟩ := List.mem_map.mp hid
  obtain ⟨later, r, earlier, rfl, rfl⟩ := h.mem he
  have hr : r ∈ later ++ r :: earlier := List.mem_append_right _ List.mem_cons_self
  refine ⟨r, hr, ?_⟩
  by_cases hany : (earlier.any fun r' => baseKey r' = baseKey r) = true
  · obtain ⟨r', hr', hkey⟩ := any_baseKey.mp hany
    have hr'' : r' ∈ later ++ r :: earlier :=
      List.mem_append_right _ (List.mem_cons_of_mem _ hr')
    have hnodup := h.nodup
    rw [List.map_append, List.map_cons] at hnodup
    have hne : pathOf r' ≠ pathOf r := fun heq =>
      (List.nodup_cons.mp (List.nodup_append.mp hnodup).2.1).1 (heq ▸ List.mem_map_of_mem hr')
    obtain ⟨-, hdevice, hfileId, hfile⟩ :=
      (baseKey_eq_iff (habsolute r' hr'') (habsolute r hr) hne).mp hkey
    have hassigned : assignedKey earlier r = linkKey r := if_pos hany
    exact Or.inr ⟨⟨hdevice ▸ hfile.1, hfileId ▸ hfile.2⟩, by rw [hassigned]; rfl⟩
  · have hassigned : assignedKey earlier r = baseKey r := if_neg hany
    exact Or.inl (by rw [hassigned]; rfl)

end Assigned

/-! ## One entry -/

/-- The id that is found: of the first key, or of the second where the first is in use. -/
theorem stableIdLoop_cases {base path : Str} {usedIds : List EntryId} {fuel : Nat} {salt : UInt32}
    {key : Str} {id : EntryId} {collisions : Nat}
    (h : stableIdLoop base path usedIds fuel salt key = some (id, collisions)) :
    (candidateId key ∉ usedIds ∧ id = candidateId key) ∨
      (candidateId key ∈ usedIds ∧ ∃ fuel' collisions', stableIdLoop base path usedIds fuel'
        (salt + 1) (saltedKey base path (salt + 1)) = some (id, collisions')) := by
  cases fuel with
  | zero => cases h
  | succ fuel =>
      rw [stableIdLoop] at h
      split at h
      next hused =>
        obtain ⟨⟨id', collisions'⟩, hloop, heq⟩ := Option.map_eq_some_iff.mp h
        cases heq
        exact Or.inr ⟨by simpa using hused, fuel, collisions', hloop⟩
      next hfree =>
        cases h
        exact Or.inl ⟨by simpa using hfree, rfl⟩

theorem HashDistinct.eq {raws : List RawEntry} (h : HashDistinct raws) {raw raw' : RawEntry}
    (hraw : raw ∈ raws) (hraw' : raw' ∈ raws) {key key' : Str} (hkey : key ∈ keysOf raw)
    (hkey' : key' ∈ keysOf raw') (heq : candidateId key = candidateId key') : key = key' :=
  h raw hraw raw' hraw' key hkey key' hkey' heq

theorem baseKey_mem (raw : RawEntry) : baseKey raw ∈ keysOf raw := List.mem_cons_self

theorem linkKey_mem (raw : RawEntry) : linkKey raw ∈ keysOf raw :=
  List.mem_cons_of_mem _ List.mem_cons_self

section
variable {raws seen kept : List RawEntry} {done : List FileEntry} {raw : RawEntry}

/-- The base key of a new path is in use exactly where a link before it has it. -/
theorem base_used_iff (hdistinct : HashDistinct raws) (habsolute : ∀ r ∈ raws, Absolute r)
    (hkept : ∀ r ∈ kept, r ∈ raws) (hraw : raw ∈ raws) (h : Assigned seen kept done) :
    candidateId (baseKey raw) ∈ done.map FileEntry.id ↔ ∃ r ∈ kept, baseKey r = baseKey raw := by
  constructor
  · intro hid
    obtain ⟨r, hr, hbase | ⟨hfile, hlink⟩⟩ :=
      h.key_cases (fun r hr => habsolute r (hkept r hr)) hid
    · exact ⟨r, hr, hdistinct.eq (hkept r hr) hraw (baseKey_mem r) (baseKey_mem raw) hbase.symm⟩
    · exact absurd (hdistinct.eq (hkept r hr) hraw (linkKey_mem r) (baseKey_mem raw) hlink.symm)
        (linkKey_ne_baseKey hfile (habsolute raw hraw))
  · rintro ⟨r, hr, hkey⟩
    exact hkey ▸ h.base_used hr

/-- The key of a further link to a file is free. -/
theorem link_fresh (hdistinct : HashDistinct raws) (habsolute : ∀ r ∈ raws, Absolute r)
    (hkept : ∀ r ∈ kept, r ∈ raws) (hraw : raw ∈ raws) (h : Assigned seen kept done)
    (hpath : pathOf raw ∉ kept.map pathOf) (hfile : HasFileId raw) :
    candidateId (linkKey raw) ∉ done.map FileEntry.id := by
  intro hid
  obtain ⟨r, hr, hbase | ⟨hfile', hlink⟩⟩ := h.key_cases (fun r hr => habsolute r (hkept r hr)) hid
  · exact linkKey_ne_baseKey hfile (habsolute r (hkept r hr))
      (hdistinct.eq hraw (hkept r hr) (linkKey_mem raw) (baseKey_mem r) hbase)
  · have heq := hdistinct.eq hraw (hkept r hr) (linkKey_mem raw) (linkKey_mem r) hlink
    exact hpath (linkKey_inj hfile hfile' heq ▸ List.mem_map_of_mem hr)

/-- What one entry gets. -/
theorem generateStableId_assigned (hdistinct : HashDistinct raws)
    (habsolute : ∀ r ∈ raws, Absolute r) (hkept : ∀ r ∈ kept, r ∈ raws) (hraw : raw ∈ raws)
    (h : Assigned seen kept done) (hpath : pathOf raw ∉ kept.map pathOf) {id : EntryId}
    {collisions : List BuildDiagnostic}
    (hid : generateStableId raw (pathOf raw) (done.map FileEntry.id) = some (id, collisions)) :
    id = candidateId (assignedKey kept raw) := by
  obtain ⟨⟨id', n⟩, hloop, heq⟩ := Option.map_eq_some_iff.mp hid
  cases heq
  have hused := base_used_iff hdistinct habsolute hkept hraw h
  rcases stableIdLoop_cases hloop with ⟨hfree, rfl⟩ | ⟨hbase, fuel', n', hloop'⟩
  · have hnone : ¬(kept.any fun r => baseKey r = baseKey raw) = true := fun hany =>
      hfree (hused.mpr (any_baseKey.mp hany))
    have hkey : assignedKey kept raw = baseKey raw := if_neg hnone
    rw [hkey]
    rfl
  · obtain ⟨r, hr, hkey⟩ := hused.mp hbase
    have hkey' : assignedKey kept raw = linkKey raw := if_pos (any_baseKey.mpr ⟨r, hr, hkey⟩)
    have hne : pathOf r ≠ pathOf raw := fun heq => hpath (heq ▸ List.mem_map_of_mem hr)
    obtain ⟨-, hdevice, hfileId, hfile⟩ :=
      (baseKey_eq_iff (habsolute r (hkept r hr)) (habsolute raw hraw) hne).mp hkey
    have hfresh := link_fresh hdistinct habsolute hkept hraw h hpath
      ⟨hdevice ▸ hfile.1, hfileId ▸ hfile.2⟩
    rcases stableIdLoop_cases hloop' with ⟨-, rfl⟩ | ⟨hlink, -⟩
    · rw [hkey']
      rfl
    · exact absurd hlink hfresh

/-- The whole first pass. -/
theorem Adds.assigned {l : List RawEntry} {added : List FileEntry} (hadds : Adds done l added)
    (hdistinct : HashDistinct raws) (habsolute : ∀ r ∈ raws, Absolute r)
    (hseen : ∀ r ∈ seen, r ∈ raws) (hl : ∀ r ∈ l, r ∈ raws) (h : Assigned seen kept done) :
    ∃ kept', Assigned (l.reverse ++ seen) kept' (added.reverse ++ done) := by
  induction hadds generalizing seen kept with
  | nil => exact ⟨kept, h⟩
  | @duplicate done raw rest added hpath _ ih =>
      rw [h.paths] at hpath
      rw [List.reverse_cons, List.append_assoc]
      exact ih (fun r hr => (List.mem_cons.mp hr).elim (fun heq => heq ▸ hl raw List.mem_cons_self)
        (hseen r)) (fun r hr => hl r (List.mem_cons_of_mem _ hr)) (.duplicate hpath h)
  | @entry done raw rest added id collisions hpath hid _ ih =>
      rw [h.paths] at hpath
      obtain rfl := generateStableId_assigned hdistinct habsolute
        (fun r hr => hseen r (h.sublist.subset hr)) (hl raw List.mem_cons_self) h hpath hid
      rw [List.reverse_cons, List.append_assoc, List.reverse_cons, List.append_assoc]
      exact ih (fun r hr => (List.mem_cons.mp hr).elim (fun heq => heq ▸ hl raw List.mem_cons_self)
        (hseen r)) (fun r hr => hl r (List.mem_cons_of_mem _ hr)) (.entry hpath h)

end

/-! ## Two scans -/

/-- The scan in path order. -/
def inOrder (scan : RawScanResult) : List RawEntry :=
  sortBy (fun lhs rhs : RawEntry => decide (lhs.normalizedPath < rhs.normalizedPath)) scan.entries

/-- The raw entry that stands for a path: the first of them, in path order. -/
def standing (scan : RawScanResult) (path : Str) : Option RawEntry :=
  (inOrder scan).find? fun raw => pathOf raw = path

/-- Another link to the file of this path comes first. -/
def EarlierLink (scan : RawScanResult) (path : Str) : Prop :=
  ∃ raw other, standing scan path = some raw ∧ standing scan (pathOf other) = some other ∧
    other.normalizedPath < raw.normalizedPath ∧ SameFile other raw

/-- The raw entries that were kept are the ones that stand for their paths. -/
theorem Assigned.find_iff {seen kept : List RawEntry} {done : List FileEntry}
    (h : Assigned seen kept done) {path : Str} {r : RawEntry} :
    (seen.reverse.find? fun raw => pathOf raw = path) = some r ↔ r ∈ kept ∧ pathOf r = path := by
  induction h generalizing r with
  | nil => simp
  | @duplicate seen kept done raw hpath h ih =>
      rw [List.reverse_cons, List.find?_append, ← ih]
      cases hfind : seen.reverse.find? fun raw => pathOf raw = path with
      | some r' => simp
      | none =>
          have hne : pathOf raw ≠ path := by
            rintro rfl
            obtain ⟨r', hr', heq⟩ := List.mem_map.mp hpath
            have hsome := ih.mpr ⟨hr', heq⟩
            rw [hfind] at hsome
            cases hsome
          simp [hne]
  | @entry seen kept done raw hpath h ih =>
      rw [List.reverse_cons, List.find?_append, List.mem_cons]
      cases hfind : seen.reverse.find? fun raw => pathOf raw = path with
      | some r' =>
          obtain ⟨hr', hpath'⟩ := ih.mp hfind
          rw [Option.some_or, ← hfind, ih]
          constructor
          · rintro ⟨hr, heq⟩
            exact ⟨Or.inr hr, heq⟩
          · rintro ⟨rfl | hr, heq⟩
            · exact absurd (List.mem_map.mpr ⟨r', hr', hpath'.trans heq.symm⟩) hpath
            · exact ⟨hr, heq⟩
      | none =>
          have hnone : ¬(r ∈ kept ∧ pathOf r = path) := by
            intro hr
            have hsome := ih.mpr hr
            rw [hfind] at hsome
            cases hsome
          rw [Option.none_or]
          constructor
          · intro hsome
            obtain rfl : r = raw := by simpa using List.mem_of_find?_eq_some hsome
            exact ⟨Or.inl rfl, by simpa using List.find?_some hsome⟩
          · rintro ⟨rfl | hr, heq⟩
            · simp [heq]
            · exact absurd ⟨hr, heq⟩ hnone

theorem inOrder_pairwise (scan : RawScanResult) :
    (inOrder scan).Pairwise fun a b => a.normalizedPath ≤ b.normalizedPath :=
  sortBy_pairwise RawEntry.normalizedPath (fun _ _ h => le_of_lt (of_decide_eq_true h))
    (fun _ _ h => not_lt.mp (of_decide_eq_false h)) _

/-- Of the entries kept, those before an entry are those of a smaller path. -/
theorem Assigned.earlier_iff {scan : RawScanResult} {kept : List RawEntry} {done : List FileEntry}
    (h : Assigned (inOrder scan).reverse kept done) {later earlier : List RawEntry}
    {raw other : RawEntry} (hkept : kept = later ++ raw :: earlier) :
    other ∈ earlier ↔ other ∈ kept ∧ other.normalizedPath < raw.normalizedPath := by
  have hsorted : kept.Pairwise fun a b => b.normalizedPath ≤ a.normalizedPath :=
    (List.pairwise_reverse.mpr (inOrder_pairwise scan)).sublist h.sublist
  have hnodup := h.nodup
  rw [hkept] at hsorted
  rw [hkept, List.map_append, List.map_cons] at hnodup
  obtain ⟨-, hsorted', hcross⟩ := List.pairwise_append.mp hsorted
  have hle := (List.pairwise_cons.mp hsorted').1
  constructor
  · intro hother
    have hne : pathOf other ≠ pathOf raw := fun heq =>
      (List.nodup_cons.mp (List.nodup_append.mp hnodup).2.1).1 (heq ▸ List.mem_map_of_mem hother)
    refine ⟨hkept ▸ List.mem_append_right _ (List.mem_cons_of_mem _ hother),
      lt_of_le_of_ne (hle other hother) fun heq => hne ?_⟩
    rw [pathOf, pathOf, heq]
  · rintro ⟨hother, hlt⟩
    rw [hkept] at hother
    rcases List.mem_append.mp hother with hlater | hother
    · exact absurd (hcross other hlater raw List.mem_cons_self) (not_le.mpr hlt)
    · rcases List.mem_cons.mp hother with rfl | hother
      · exact absurd hlt (lt_irrefl _)
      · exact hother

/-- The id of an entry of a built snapshot. -/
theorem build_id {scan : RawScanResult} {options : BuildOptions} {result : BuildResult}
    {raws : List RawEntry} (hbuild : build scan options = some result)
    (habsolute : ∀ r ∈ raws, Absolute r) (hdistinct : HashDistinct raws)
    (hscan : ∀ r ∈ scan.entries, r ∈ raws) {e : FileEntry} (he : e ∈ result.snapshot.entries) :
    ∃ raw ∈ raws, pathOf raw = e.normalizedPath ∧ raw.type = e.type ∧ raw.metadata = e.metadata ∧
      ((EarlierLink scan e.normalizedPath ∧ HasFileId raw ∧ e.id = candidateId (linkKey raw)) ∨
        (¬EarlierLink scan e.normalizedPath ∧ e.id = candidateId (baseKey raw))) := by
  obtain ⟨entries, hadds, hroot, -⟩ := build_some hbuild
  have hinOrder : ∀ r ∈ inOrder scan, r ∈ raws := fun r hr => hscan r (mem_sortBy.mp hr)
  obtain ⟨kept, hassigned⟩ := @Adds.assigned raws [] _ _ (inOrder scan) _ hadds hdistinct
    habsolute nofun hinOrder .nil
  rw [List.append_nil, List.append_nil] at hassigned
  -- linking and the choice of the root keep what an entry was made of
  obtain ⟨x, hx, hsame⟩ : ∃ x ∈ entries, (x.id, x.normalizedPath, x.type, x.metadata) =
      (e.id, e.normalizedPath, e.type, e.metadata) := by
    have hmap := (hroot.map_eq (f := fun e => (e.id, e.normalizedPath, e.type, e.metadata))
      fun _ _ => rfl).trans (link_map fun _ _ => rfl)
    exact List.mem_map.mp (hmap ▸ List.mem_map_of_mem he)
  simp only [Prod.mk.injEq] at hsame
  obtain ⟨hid, hpath, htype, hmetadata⟩ := hsame
  obtain ⟨later, raw, earlier, hkept, rfl⟩ := hassigned.mem (List.mem_reverse.mpr hx)
  have hmem : ∀ {r : RawEntry}, r ∈ kept → r ∈ raws := fun hr =>
    hinOrder _ (List.mem_reverse.mp (hassigned.sublist.subset hr))
  have hraw : raw ∈ kept := hkept ▸ List.mem_append_right _ List.mem_cons_self
  have hstanding : ∀ {path : Str} {r : RawEntry},
      standing scan path = some r ↔ r ∈ kept ∧ pathOf r = path := by
    intro path r
    rw [← hassigned.find_iff, List.reverse_reverse, standing]
  have hlink : EarlierLink scan e.normalizedPath ↔ ∃ r ∈ earlier, baseKey r = baseKey raw := by
    constructor
    · rintro ⟨raw', other, hraw', hother, hlt, hsame⟩
      obtain ⟨hraw', hpath'⟩ := hstanding.mp hraw'
      obtain rfl : raw' = raw :=
        List.inj_on_of_nodup_map hassigned.nodup hraw' hraw (hpath'.trans hpath.symm)
      have hother' := (hassigned.earlier_iff hkept).mpr ⟨(hstanding.mp hother).1, hlt⟩
      have hne : pathOf other ≠ pathOf raw' := by
        intro heq
        obtain rfl := List.inj_on_of_nodup_map hassigned.nodup (hstanding.mp hother).1 hraw heq
        exact lt_irrefl _ hlt
      exact ⟨other, hother', (baseKey_eq_iff (habsolute _ (hmem (hstanding.mp hother).1))
        (habsolute _ (hmem hraw)) hne).mpr hsame⟩
    · rintro ⟨r, hr, hkey⟩
      obtain ⟨hr', hlt⟩ := (hassigned.earlier_iff hkept).mp hr
      have hne : pathOf r ≠ pathOf raw := by
        intro heq
        obtain rfl := List.inj_on_of_nodup_map hassigned.nodup hr' hraw heq
        exact lt_irrefl _ hlt
      exact ⟨raw, r, hstanding.mpr ⟨hraw, hpath⟩, hstanding.mpr ⟨hr', rfl⟩, hlt,
        (baseKey_eq_iff (habsolute _ (hmem hr')) (habsolute _ (hmem hraw)) hne).mp hkey⟩
  refine ⟨raw, hmem hraw, hpath, htype, hmetadata, ?_⟩
  by_cases hearlier : EarlierLink scan e.normalizedPath
  · have hkey : assignedKey earlier raw = linkKey raw :=
      if_pos (any_baseKey.mpr (hlink.mp hearlier))
    have hfile : HasFileId raw := by
      obtain ⟨raw', other, hraw', -, -, -, hdevice, hfileId, hother⟩ := hearlier
      obtain ⟨hraw', hpath'⟩ := hstanding.mp hraw'
      obtain rfl : raw' = raw :=
        List.inj_on_of_nodup_map hassigned.nodup hraw' hraw (hpath'.trans hpath.symm)
      exact ⟨hdevice ▸ hother.1, hfileId ▸ hother.2⟩
    refine Or.inl ⟨hearlier, hfile, ?_⟩
    rw [← hid, ← hkey]
    rfl
  · have hkey : assignedKey earlier raw = baseKey raw :=
      if_neg fun hany => hearlier (hlink.mpr (any_baseKey.mp hany))
    refine Or.inr ⟨hearlier, ?_⟩
    rw [← hid, ← hkey]
    rfl

/-- The same file at the same path keeps its id from one scan to another exactly where it
follows another link to the file in both or in neither. -/
theorem build_stable {scan scan' : RawScanResult} {options options' : BuildOptions}
    {result result' : BuildResult} {e e' : FileEntry}
    (hbuild : build scan options = some result) (hbuild' : build scan' options' = some result')
    (habsolute : ∀ r ∈ scan.entries ++ scan'.entries, Absolute r)
    (hdistinct : HashDistinct (scan.entries ++ scan'.entries))
    (he : e ∈ result.snapshot.entries) (he' : e' ∈ result'.snapshot.entries)
    (hpath : e.normalizedPath = e'.normalizedPath) (htype : e.type = e'.type)
    (hdevice : e.metadata.deviceId = e'.metadata.deviceId)
    (hfile : e.metadata.fileId = e'.metadata.fileId) :
    e.id = e'.id ↔ (EarlierLink scan e.normalizedPath ↔ EarlierLink scan' e.normalizedPath) := by
  obtain ⟨raw, hraw, hrawPath, hrawType, hrawMetadata, hid⟩ := build_id hbuild habsolute hdistinct
    (fun r hr => List.mem_append_left _ hr) he
  obtain ⟨raw', hraw', hrawPath', hrawType', hrawMetadata', hid'⟩ := build_id hbuild' habsolute
    hdistinct (fun r hr => List.mem_append_right _ hr) he'
  have hbase : baseKey raw' = baseKey raw := by
    rw [baseKey, baseKey, makeBaseStableKey, makeBaseStableKey, hrawPath', hrawPath, hrawType',
      hrawType, hrawMetadata', hrawMetadata, hpath, htype, hdevice, hfile]
  have hlink : linkKey raw' = linkKey raw := by
    rw [linkKey, linkKey, hbase, hrawPath', hrawPath, hpath]
  rw [hbase, hlink, ← hpath] at hid'
  have hapart : HasFileId raw → candidateId (linkKey raw) ≠ candidateId (baseKey raw) :=
    fun hfileId heq => linkKey_ne_baseKey hfileId (habsolute raw hraw)
      (hdistinct.eq hraw hraw (linkKey_mem raw) (baseKey_mem raw) heq)
  have hfileId : HasFileId raw' → HasFileId raw := by
    rw [HasFileId, HasFileId, hrawMetadata', hrawMetadata, hdevice, hfile]
    exact id
  rcases hid with ⟨hearlier, hfirst, hid⟩ | ⟨hnot, hid⟩
  · rcases hid' with ⟨hearlier', -, hid'⟩ | ⟨hnot', hid'⟩
    · exact iff_of_true (hid.trans hid'.symm) (iff_of_true hearlier hearlier')
    · rw [hid, hid']
      exact iff_of_false (hapart hfirst) fun h => hnot' (h.mp hearlier)
  · rcases hid' with ⟨hearlier', hfirst', hid'⟩ | ⟨hnot', hid'⟩
    · rw [hid, hid']
      exact iff_of_false (hapart (hfileId hfirst')).symm fun h => hnot (h.mpr hearlier')
    · exact iff_of_true (hid.trans hid'.symm) (iff_of_false hnot hnot')

/-! ## A link that comes first -/

/-- A root, and links of these names to one file. -/
def linkScan (names : List Str) : RawScanResult :=
  { rootPath := str "/"
    entries := { normalizedPath := str "/", type := .directory } :: names.map fun name =>
      { normalizedPath := Path.sep :: name, name := name
        metadata := { fileId := 5, deviceId := 1 } } }

def linkBuild (names : List Str) : BuildResult :=
  (build (linkScan names) { snapshotId := 1 }).getD {}

def linkEntry (names : List Str) (index : Nat) : FileEntry :=
  (linkBuild names).snapshot.entries.getD index {}

theorem build_stable_links :
    (linkEntry [str "b"] 1).id = (linkEntry [str "a", str "b"] 2).id ↔
      (EarlierLink (linkScan [str "b"]) (linkEntry [str "b"] 1).normalizedPath ↔
        EarlierLink (linkScan [str "a", str "b"]) (linkEntry [str "b"] 1).normalizedPath) :=
  @build_stable _ _ { snapshotId := 1 } { snapshotId := 1 } (linkBuild [str "b"])
    (linkBuild [str "a", str "b"]) _ _
    (by decide +kernel) (by decide +kernel) (by unfold Absolute; decide +kernel)
    (by unfold HashDistinct; decide +kernel) (by decide +kernel) (by decide +kernel)
    (by decide +kernel) (by decide +kernel) (by decide +kernel) (by decide +kernel)

/-- The file at `/b` gets another id once there is a link to it at `/a`. -/
theorem build_unstable : ¬∀ (scan scan' : RawScanResult) (options options' : BuildOptions)
    (result result' : BuildResult) (e e' : FileEntry), build scan options = some result →
    build scan' options' = some result' → HashDistinct (scan.entries ++ scan'.entries) →
    e ∈ result.snapshot.entries → e' ∈ result'.snapshot.entries →
    e.normalizedPath = e'.normalizedPath → e.type = e'.type →
    e.metadata.deviceId = e'.metadata.deviceId → e.metadata.fileId = e'.metadata.fileId →
    e.id = e'.id := by
  intro h
  have hsame := h (linkScan [str "b"]) (linkScan [str "a", str "b"]) { snapshotId := 1 }
    { snapshotId := 1 } (linkBuild [str "b"]) (linkBuild [str "a", str "b"])
    (linkEntry [str "b"] 1) (linkEntry [str "a", str "b"] 2) (by decide +kernel)
    (by decide +kernel) (by unfold HashDistinct; decide +kernel) (by decide +kernel)
    (by decide +kernel) (by decide +kernel) (by decide +kernel) (by decide +kernel)
    (by decide +kernel)
  exact absurd hsame (by decide +kernel)

end ServerStorage.Muninn.SnapshotBuilder
