/-
# `ServerStorage.Muninn.ScanValid` — the scans whose snapshots are valid

A traversal yields an entry behind the directory it is listed in.  Wherever a scan stops,
what it has collected is a tree then, with the same chance of being valid as the whole tree:
the snapshot is refused for the host, for the root and for entries that hang below a link,
and never for the entries that were not reached.
-/
import ServerStorage.Muninn.ScanTree
import ServerStorage.Muninn.Unchanged
import ServerStorage.Muninn.CaptureSpec

namespace ServerStorage.Muninn

open Lib Lib.Path SnapshotBuilder LocalFilesystemScanner Relation

section
variable {base : NormalPath} {options : ScanOptions}

/-! ## The order of the visits -/

/-- Each visit is listed in the directory itself or in one that was visited before. -/
def ParentFirst (base : NormalPath) (options : ScanOptions) (names : List FileName)
    (viaLink : Bool) (vs : List Visit) : Prop :=
  ∀ pre v post, vs = pre ++ v :: post → ListedIn base options names viaLink pre v

theorem ParentFirst.nil {names : List FileName} {viaLink : Bool} :
    ParentFirst base options names viaLink [] := by
  intro pre v post h
  cases List.append_eq_nil_iff.mp h.symm |>.2

theorem ParentFirst.take {names : List FileName} {viaLink : Bool} {vs ws : List Visit}
    (h : ParentFirst base options names viaLink (vs ++ ws)) :
    ParentFirst base options names viaLink vs := by
  intro pre v post hvs
  refine h pre v (post ++ ws) ?_
  rw [hvs, List.append_assoc, List.cons_append]

theorem ParentFirst.listedIn {names : List FileName} {viaLink : Bool} {vs : List Visit}
    (h : ParentFirst base options names viaLink vs) {v : Visit} (hv : v ∈ vs) :
    ListedIn base options names viaLink vs v := by
  obtain ⟨pre, post, hvs⟩ := List.append_of_mem hv
  refine (h pre v post hvs).mono ?_
  intro u hu
  rw [hvs]
  exact List.mem_append_left _ hu

/-- The visits inside an entry that was entered, seen from the directory the entry is in. -/
theorem ListedIn.inside {names : List FileName} {viaLink : Bool} {vs : List Visit}
    {directory : Str} {name : FileName} {inode : Inode} {v : Visit}
    (hentered : (visitOf directory names viaLink name inode).entered base options = true)
    (h : ListedIn base options (names ++ [name]) (isLink inode) vs v) :
    ListedIn base options names viaLink (visitOf directory names viaLink name inode :: vs) v := by
  cases h with
  | top hnames hlink => exact .deeper List.mem_cons_self hentered hnames hlink
  | deeper hu hentered hnames hlink =>
      exact .deeper (List.mem_cons_of_mem _ hu) hentered hnames hlink

theorem visits_parentFirst (listing : Listing) :
    ∀ (directory : Str) (names : List FileName) (viaLink : Bool),
      ParentFirst base options names viaLink
        (visits base options directory names viaLink listing).1 := by
  induction listing with
  | nil => exact fun _ _ _ => .nil
  | fails => exact fun _ _ _ => .nil
  | entry name inode inside after ihinside ihafter =>
      intro directory names viaLink
      obtain ⟨deeper, rest, hvisits, hdeeper, hrest⟩ :=
        @visits_entry base options directory names viaLink name inode inside after
      rw [hvisits]
      intro pre v post hsplit
      cases pre with
      | nil =>
          obtain rfl := (List.cons.inj hsplit).1
          exact .top rfl rfl
      | cons u pre =>
          obtain ⟨hu, htail⟩ := List.cons.inj hsplit
          subst hu
          -- the visit is one of those inside, or comes behind all of them
          rcases List.append_eq_append_iff.mp htail with ⟨mid, rfl, hmid⟩ | ⟨mid, rfl, hmid⟩
          · have hafter : ListedIn base options names viaLink mid v := by
              rcases hrest with rfl | rfl
              · cases List.append_eq_nil_iff.mp hmid.symm |>.2
              · exact ihafter directory names viaLink mid v post hmid
            refine hafter.mono ?_
            intro w hw
            exact List.mem_cons_of_mem _ (List.mem_append_right _ hw)
          · cases mid with
            | nil =>
                have hafter : ListedIn base options names viaLink [] v := by
                  rcases hrest with rfl | rfl
                  · cases hmid
                  · exact ihafter directory names viaLink [] v post hmid.symm
                refine hafter.mono ?_
                intro w hw
                cases hw
            | cons w mid =>
                obtain ⟨rfl, -⟩ := List.cons.inj hmid
                rcases hdeeper with hnil | ⟨hentered, hdeeper⟩
                · cases List.append_eq_nil_iff.mp hnil |>.2
                · exact (ihinside _ _ _ pre v mid hdeeper.symm).inside hentered

theorem rootVisits_parentFirst {rootPath : Str} {root : ScanRoot} :
    ParentFirst base options [] false (rootVisits base options rootPath root).1 := by
  rw [rootVisits]
  cases root.inode.opening with
  | denied => exact .nil
  | failed => exact .nil
  | listed => exact visits_parentFirst root.listing rootPath [] false

/-! ## What a scan holds -/

/-- The scan holds the root and what the policy permits of the visits. -/
structure Holds (base : NormalPath) (options : ScanOptions) (status : FileStatus) (inode : Inode)
    (vs : List Visit) (raw : RawScanResult) : Prop where
  rootPath : raw.rootPath = base.spell
  entries : ∀ entry, entry ∈ raw.entries ↔ entry = rawEntry base.spell true status inode ∨
    ∃ v ∈ permittedOf base options vs, v.raw base = entry
  names : (vs.map Visit.names).Nodup
  parentFirst : ParentFirst base options [] false vs

/-- What is asked of the host, the root and the visits. -/
structure Storable (base : NormalPath) (options : ScanOptions) (host : Str) (status : FileStatus)
    (vs : List Visit) : Prop where
  host : host ≠ []
  root : status.type = .directory
  /-- The normal form of a root that was given with a separator at its end keeps it, so it is
  nobody's parent. -/
  unslashed : base.slash = true → permittedOf base options vs = []
  unlinked : ∀ v ∈ permittedOf base options vs, v.viaLink = false

theorem Storable.take {host : Str} {status : FileStatus} {vs ws : List Visit}
    (h : Storable base options host status (vs ++ ws)) :
    Storable base options host status vs := by
  have hsplit : permittedOf base options (vs ++ ws) =
      permittedOf base options vs ++ permittedOf base options ws := List.filter_append ..
  refine ⟨h.host, h.root, ?_, ?_⟩
  · intro hslash
    have hnil := h.unslashed hslash
    rw [hsplit] at hnil
    exact (List.append_eq_nil_iff.mp hnil).1
  · intro v hv
    refine h.unlinked v ?_
    rw [hsplit]
    exact List.mem_append_left _ hv

/-! ## The paths of the entries -/

theorem normalizePathLexical_spell (p : NormalPath) : normalizePathLexical p.spell = p.spell := by
  rw [normalizePathLexical, lexicallyNormal_eq p.isAbsolute_spell, NormalPath.normalForm_spell]

theorem below_inj {names names' : List FileName} :
    (below base names).spell = (below base names').spell ↔ names = names' := by
  rw [NormalPath.spell_inj]
  constructor
  · intro h
    exact List.append_cancel_left (congrArg NormalPath.names h)
  · intro h
    rw [h]

theorem below_ne_base {names : List FileName} (hne : names ≠ []) :
    (below base names).spell ≠ base.spell := by
  intro h
  have hnames : base.names ++ names = base.names :=
    congrArg NormalPath.names (NormalPath.spell_inj.mp h)
  exact hne (List.append_right_eq_self.mp hnames)

/-- Where the directory is listed that a path leads into. -/
theorem parentFromPath_below (names : List FileName) (name : FileName) :
    parentFromPath (below base (names ++ [name])).spell = (below base names).spell := by
  have hne : (below base (names ++ [name])).names ≠ [] := by
    show base.names ++ (names ++ [name]) ≠ []
    simp
  rw [parentFromPath, NormalPath.parentPath_spell hne]
  refine congrArg NormalPath.spell (NormalPath.ext ?_ rfl)
  show (base.names ++ (names ++ [name])).dropLast = base.names ++ names
  rw [← List.append_assoc, List.dropLast_concat]

/-- The directory of the root is the root, if its path has no separator at its end. -/
theorem below_nil : (below base []).spell = base.spell ↔ base.slash = false := by
  rw [NormalPath.spell_inj]
  constructor
  · intro h
    exact (congrArg NormalPath.slash h).symm
  · intro h
    exact NormalPath.ext (List.append_nil _) h.symm

/-! ## The entries of the snapshot -/

theorem mapEntryType_directory {status : FileStatus} :
    mapEntryType status = .directory ↔ status.type = .directory := by
  rw [mapEntryType]
  cases status.type <;> decide

variable {status : FileStatus} {inode : Inode} {vs : List Visit} {raw : RawScanResult}
  {buildOptions : BuildOptions} {result : BuildResult}

/-- A visit whose entry is in the snapshot. -/
structure EntryOf (base : NormalPath) (v : Visit) (e : FileEntry) : Prop where
  path : e.normalizedPath = (below base v.names).spell
  type : e.type = mapEntryType v.status

structure RootEntry (base : NormalPath) (status : FileStatus) (e : FileEntry) : Prop where
  path : e.normalizedPath = base.spell
  type : e.type = mapEntryType status

/-- No visit stands at the root. -/
theorem ParentFirst.names_ne (h : ParentFirst base options [] false vs) {v : Visit} (hv : v ∈ vs) :
    v.names ≠ [] := by
  cases h.listedIn hv with
  | top hnames _ =>
      rw [hnames]
      exact List.cons_ne_nil _ _
  | deeper _ _ hnames _ =>
      rw [hnames]
      exact List.append_ne_nil_of_right_ne_nil _ (List.cons_ne_nil _ _)

/-- Each entry of the snapshot is the root's or that of a visit. -/
theorem Holds.entry_cases (h : Holds base options status inode vs raw)
    (hbuild : build raw buildOptions = some result) {e : FileEntry}
    (he : e ∈ result.snapshot.entries) :
    RootEntry base status e ∨ ∃ v ∈ permittedOf base options vs, EntryOf base v e := by
  obtain ⟨entry, hentry, id, heq⟩ := build_made hbuild he
  have hpath : e.normalizedPath = normalizePathLexical entry.normalizedPath :=
    congrArg FileEntry.normalizedPath heq
  have htype : e.type = entry.type := congrArg FileEntry.type heq
  rcases (h.entries entry).mp hentry with rfl | ⟨v, hv, rfl⟩
  · exact .inl ⟨hpath.trans (normalizePathLexical_spell base), htype⟩
  · exact .inr ⟨v, hv, hpath.trans (normalizePathLexical_spell _), htype⟩

/-- A visit that the policy permits has its entry in the snapshot. -/
theorem Holds.exists_entry (h : Holds base options status inode vs raw)
    (hbuild : build raw buildOptions = some result) {v : Visit}
    (hv : v ∈ permittedOf base options vs) :
    ∃ e ∈ result.snapshot.entries, EntryOf base v e := by
  have hpath : normalizePathLexical (v.raw base).normalizedPath = (below base v.names).spell :=
    normalizePathLexical_spell _
  have hmem := ((build_sound hbuild).paths _).mpr
    ⟨v.raw base, (h.entries _).mpr (.inr ⟨v, hv, rfl⟩), hpath⟩
  obtain ⟨e, he, hspell⟩ := List.mem_map.mp hmem
  refine ⟨e, he, hspell, ?_⟩
  have hvs : v ∈ vs := List.mem_of_mem_filter hv
  rcases h.entry_cases hbuild he with hroot | ⟨u, hu, hentry⟩
  · exact absurd (hspell.symm.trans hroot.path) (below_ne_base (h.parentFirst.names_ne hvs))
  · have hnames : u.names = v.names := below_inj.mp (hentry.path.symm.trans hspell)
    rw [hentry.type, List.inj_on_of_nodup_map h.names (List.mem_of_mem_filter hu) hvs hnames]

theorem Holds.exists_root (h : Holds base options status inode vs raw)
    (hbuild : build raw buildOptions = some result) :
    ∃ r ∈ result.snapshot.entries, r.id = result.snapshot.rootEntryId ∧ r.parentId = 0 ∧
      RootEntry base status r := by
  have hnormal : normalizePathLexical raw.rootPath = base.spell := by
    rw [h.rootPath, normalizePathLexical_spell]
  obtain ⟨r, hr, hid, hpath, hparent⟩ :=
    build_root hbuild ((h.entries (rawEntry base.spell true status inode)).mpr (.inl rfl))
      ((normalizePathLexical_spell base).trans hnormal.symm)
  refine ⟨r, hr, hid, hparent, hpath.trans hnormal, ?_⟩
  rcases h.entry_cases hbuild hr with hroot | ⟨v, hv, hentry⟩
  · exact hroot.type
  · have hne := h.parentFirst.names_ne (List.mem_of_mem_filter hv)
    exact absurd (hentry.path.symm.trans (hpath.trans hnormal)) (below_ne_base hne)

/-- An entry of a visit is not the root. -/
theorem Holds.ne_root (h : Holds base options status inode vs raw)
    (hbuild : build raw buildOptions = some result) {v : Visit}
    (hv : v ∈ permittedOf base options vs) {e : FileEntry} (he : e ∈ result.snapshot.entries)
    (hentry : EntryOf base v e) : e.id ≠ result.snapshot.rootEntryId := by
  intro hid
  obtain ⟨r, hr, hrid, -, hroot⟩ := h.exists_root hbuild
  obtain rfl := List.inj_on_of_nodup_map (build_sound hbuild).distinct.ids he hr (hid.trans hrid.symm)
  have hsame : (below base v.names).spell = base.spell := hentry.path.symm.trans hroot.path
  exact below_ne_base (h.parentFirst.names_ne (List.mem_of_mem_filter hv)) hsame

/-! ## What a valid snapshot says of the scan -/

/-- The entry of a directory is found at the path its entries have for their parent. -/
theorem Holds.parent_entry (h : Holds base options status inode vs raw)
    (hbuild : build raw buildOptions = some result) (hvalid : WellFormed result.snapshot)
    {v : Visit} (hv : v ∈ permittedOf base options vs) {names : List FileName} {name : FileName}
    (hnames : v.names = names ++ [name]) :
    ∃ p ∈ result.snapshot.entries, p.normalizedPath = (below base names).spell ∧
      p.type = .directory := by
  obtain ⟨e, he, hentry⟩ := h.exists_entry hbuild hv
  have hne := h.ne_root hbuild hv he hentry
  obtain ⟨hparent, q, hq, hid, htype⟩ := hvalid.parent e he hne
  rcases (build_sound hbuild).parent e he hne with ⟨p, hp, hpath, hpid⟩ | ⟨-, hzero, -⟩
  · obtain rfl := List.inj_on_of_nodup_map hvalid.ids hq hp (hid.trans hpid)
    refine ⟨q, hq, ?_, htype⟩
    rw [hpath, hentry.path, hnames, parentFromPath_below]
  · exact absurd hzero hparent

/-- Below a root with a separator at its end, every way up ends where no entry is. -/
theorem Holds.unslashed (h : Holds base options status inode vs raw)
    (hbuild : build raw buildOptions = some result) (hvalid : WellFormed result.snapshot)
    (hslash : base.slash = true) :
    ∀ (n : Nat) (v : Visit), v.names.length = n → v ∉ permittedOf base options vs := by
  intro n
  induction n with
  | zero =>
      intro v hlength hv
      exact h.parentFirst.names_ne (List.mem_of_mem_filter hv) (List.length_eq_zero_iff.mp hlength)
  | succ n ih =>
      intro v hlength hv
      obtain ⟨names, name, hnames⟩ :=
        (List.eq_nil_or_concat' v.names).resolve_left (h.parentFirst.names_ne (List.mem_of_mem_filter hv))
      obtain ⟨p, hp, hpath, -⟩ := h.parent_entry hbuild hvalid hv hnames
      rcases h.entry_cases hbuild hp with hroot | ⟨u, hu, hentry⟩
      · have hsame : below base names = base :=
          NormalPath.spell_inj.mp (hpath.symm.trans hroot.path)
        have hbare : false = base.slash := congrArg NormalPath.slash hsame
        rw [hslash] at hbare
        cases hbare
      · have hsame : u.names = names := below_inj.mp (hentry.path.symm.trans hpath)
        refine ih u ?_ hu
        rw [hnames, List.length_append] at hlength
        rw [hsame]
        exact Nat.succ.inj hlength

/-- What hangs below a link has no directory for its parent. -/
theorem Holds.unlinked (h : Holds base options status inode vs raw)
    (hbuild : build raw buildOptions = some result) (hvalid : WellFormed result.snapshot)
    {v : Visit} (hv : v ∈ permittedOf base options vs) : v.viaLink = false := by
  cases h.parentFirst.listedIn (List.mem_of_mem_filter hv) with
  | top _ hlink => exact hlink
  | @deeper u name hu hentered hnames hlink =>
      obtain ⟨p, hp, hpath, htype⟩ := h.parent_entry hbuild hvalid hv hnames
      rw [hlink]
      rcases h.entry_cases hbuild hp with hroot | ⟨w, hw, hentry⟩
      · exact absurd (hpath.symm.trans hroot.path) (below_ne_base (h.parentFirst.names_ne hu))
      · have hsame : w.names = u.names := below_inj.mp (hentry.path.symm.trans hpath)
        obtain rfl := List.inj_on_of_nodup_map h.names (List.mem_of_mem_filter hw) hu hsame
        have hdirectory : mapEntryType w.status = .directory := hentry.type.symm.trans htype
        rw [isLink]
        rw [Visit.status] at hdirectory
        cases hstatus : w.inode.status with
        | none => rfl
        | some found =>
            rw [hstatus] at hdirectory
            have htype : found.type = .directory := mapEntryType_directory.mp hdirectory
            refine decide_eq_false ?_
            rw [htype]
            exact FileType.noConfusion

/-! ## What the scan says of the snapshot -/

theorem entryOk_spell {e : FileEntry} {p : NormalPath} {status : FileStatus}
    (hpath : e.normalizedPath = p.spell) (htype : e.type = mapEntryType status) : EntryOk e where
  nonempty := by
    rw [hpath]
    exact p.spell_ne_nil
  absolute := by
    rw [hpath]
    exact p.isAbsolute_spell
  normal := by
    rw [hpath]
    exact normalizePathLexical_spell p
  noTraversal := by
    rw [hpath, hasPathTraversal, NormalPath.elements_spell, List.any_eq_false]
    intro part hpart
    have hne : part ≠ dotDot := by
      rcases List.mem_cons.mp hpart with rfl | hpart
      · decide
      · rcases p.mem_parts hpart with ⟨n, -, rfl⟩ | rfl
        · exact n.ne_dotDot
        · decide
    simpa using hne
  type := by
    rw [htype, mapEntryType]
    cases status.type <;> decide

/-- A directory that the traversal went into by itself is there, as a directory. -/
theorem entered_directory {u : Visit} (hentered : u.entered base options = true)
    (hlink : isLink u.inode = false) :
    u.permitted base options = true ∧ mapEntryType u.status = .directory := by
  obtain ⟨hrecurse, hpermitted⟩ := (Bool.and_eq_true _ _).mp hentered
  refine ⟨?_, ?_⟩
  · rw [hlink, Bool.false_or] at hpermitted
    exact hpermitted
  · rw [shouldRecurse] at hrecurse
    rw [isLink] at hlink
    rw [Visit.status]
    cases hstatus : u.inode.status with
    | none =>
        rw [hstatus] at hrecurse
        cases hrecurse
    | some found =>
        rw [hstatus] at hrecurse hlink
        have hsymlink : found.type ≠ .symlink := of_decide_eq_false hlink
        have hdirectory : found.type = .directory := by simpa [hsymlink] using hrecurse
        rw [Option.getD_some, mapEntryType, hdirectory]

/-- The parent of an entry is a directory of the snapshot, one step up. -/
theorem Holds.parent_of_storable (h : Holds base options status inode vs raw)
    (hbuild : build raw buildOptions = some result)
    (hstorable : Storable base options raw.hostIdentifier status vs) {v : Visit}
    (hv : v ∈ permittedOf base options vs) {e : FileEntry} (he : e ∈ result.snapshot.entries)
    (hentry : EntryOf base v e) :
    ∃ p ∈ result.snapshot.entries, e.parentId = p.id ∧ p.type = .directory ∧
      p.normalizedPath = parentFromPath e.normalizedPath := by
  have hfound : ∃ p ∈ result.snapshot.entries, p.type = .directory ∧
      p.normalizedPath = parentFromPath e.normalizedPath := by
    have hvs : v ∈ vs := List.mem_of_mem_filter hv
    cases h.parentFirst.listedIn hvs with
    | @top name hnames _ =>
        obtain ⟨r, hr, -, -, hroot⟩ := h.exists_root hbuild
        have hslash : base.slash = false := by
          refine Bool.eq_false_iff.mpr ?_
          intro hslash
          rw [hstorable.unslashed hslash] at hv
          cases hv
        refine ⟨r, hr, ?_, ?_⟩
        · rw [hroot.type, mapEntryType, hstorable.root]
        · rw [hroot.path, hentry.path, hnames, parentFromPath_below, below_nil.mpr hslash]
    | @deeper u name hu hentered hnames hlink =>
        have hunlinked : isLink u.inode = false := hlink.symm.trans (hstorable.unlinked v hv)
        obtain ⟨hpermitted, hdirectory⟩ := entered_directory hentered hunlinked
        obtain ⟨p, hp, hparent⟩ :=
          h.exists_entry hbuild (List.mem_filter.mpr ⟨hu, hpermitted⟩)
        refine ⟨p, hp, hparent.type.trans hdirectory, ?_⟩
        rw [hparent.path, hentry.path, hnames, parentFromPath_below]
  obtain ⟨p, hp, htype, hpath⟩ := hfound
  rcases (build_sound hbuild).parent e he (h.ne_root hbuild hv he hentry) with
    ⟨q, hq, hqpath, hid⟩ | ⟨hnone, -, -⟩
  · obtain rfl := List.inj_on_of_nodup_map (build_sound hbuild).distinct.paths hp hq
      (hpath.trans hqpath.symm)
    exact ⟨p, hp, hid, htype, hpath⟩
  · exact absurd hpath (hnone p hp)

/-- A way up that gets shorter with each step is no circle. -/
theorem acyclic_of_depth {s : Snapshot} (hids : (s.entries.map FileEntry.id).Nodup)
    (hstep : ∀ e ∈ s.entries, e.parentId ≠ 0 →
      ∃ p ∈ s.entries, e.parentId = p.id ∧ depth p < depth e) : Acyclic s := by
  have hshorter : ∀ v w, TransGen (ParentStep s) v w →
      ∀ e ∈ s.entries, e.id = v → ∃ p ∈ s.entries, p.id = w ∧ depth p < depth e := by
    intro v w h
    induction h with
    | single h =>
        rintro e he rfl
        obtain ⟨e', he', hid, rfl, hne⟩ := h
        obtain rfl := List.inj_on_of_nodup_map hids he' he hid
        obtain ⟨p, hp, hpid, hlt⟩ := hstep e' he' hne
        exact ⟨p, hp, hpid.symm, hlt⟩
    | tail _ h ih =>
        rintro e he rfl
        obtain ⟨p, hp, rfl, hlt⟩ := ih e he rfl
        obtain ⟨p', hp', hid, rfl, hne⟩ := h
        obtain rfl := List.inj_on_of_nodup_map hids hp' hp hid
        obtain ⟨q, hq, hqid, hlt'⟩ := hstep p' hp' hne
        exact ⟨q, hq, hqid.symm, hlt'.trans hlt⟩
  intro v hcycle
  obtain ⟨e, he, rfl⟩ := List.mem_map.mp (ancestor_mem hcycle)
  obtain ⟨p, hp, hid, hlt⟩ := hshorter _ _ hcycle e he rfl
  obtain rfl := List.inj_on_of_nodup_map hids hp he hid
  exact absurd hlt (Nat.lt_irrefl _)

theorem Holds.storable (h : Holds base options status inode vs raw)
    (hbuild : build raw buildOptions = some result) (hvalid : WellFormed result.snapshot) :
    Storable base options raw.hostIdentifier status vs where
  host := by
    rw [← (build_header hbuild).2.2]
    exact hvalid.header.host
  root := by
    obtain ⟨r, hr, hrid, -, hroot⟩ := h.exists_root hbuild
    obtain ⟨r', hr', hrid', htype, -⟩ := hvalid.root
    obtain rfl := List.inj_on_of_nodup_map hvalid.ids hr hr' (hrid.trans hrid'.symm)
    exact mapEntryType_directory.mp (hroot.type.symm.trans htype)
  unslashed := by
    intro hslash
    refine List.eq_nil_iff_forall_not_mem.mpr ?_
    intro v hv
    exact h.unslashed hbuild hvalid hslash _ v rfl hv
  unlinked := by
    intro v hv
    exact h.unlinked hbuild hvalid hv

/-- An entry that is not the root is that of a visit. -/
theorem Holds.exists_visit (h : Holds base options status inode vs raw)
    (hbuild : build raw buildOptions = some result) {e : FileEntry}
    (he : e ∈ result.snapshot.entries) (hne : e.id ≠ result.snapshot.rootEntryId) :
    ∃ v ∈ permittedOf base options vs, EntryOf base v e := by
  rcases h.entry_cases hbuild he with heroot | hvisit
  · obtain ⟨r, hr, hrid, -, hroot⟩ := h.exists_root hbuild
    obtain rfl := List.inj_on_of_nodup_map (build_sound hbuild).distinct.paths he hr
      (heroot.path.trans hroot.path.symm)
    exact absurd hrid hne
  · exact hvisit

/-- The parent of an entry has the shorter path. -/
theorem Holds.parent_depth (h : Holds base options status inode vs raw)
    (hbuild : build raw buildOptions = some result)
    (hstorable : Storable base options raw.hostIdentifier status vs) {e : FileEntry}
    (he : e ∈ result.snapshot.entries) (hne : e.parentId ≠ 0) :
    ∃ p ∈ result.snapshot.entries, e.parentId = p.id ∧ depth p < depth e := by
  have hnotRoot : e.id ≠ result.snapshot.rootEntryId := by
    intro heq
    obtain ⟨r, hr, hrid, hrparent, -⟩ := h.exists_root hbuild
    obtain rfl := List.inj_on_of_nodup_map (build_sound hbuild).distinct.ids he hr
      (heq.trans hrid.symm)
    exact hne hrparent
  obtain ⟨v, hv, hentry⟩ := h.exists_visit hbuild he hnotRoot
  obtain ⟨p, hp, hpid, -, hpath⟩ := h.parent_of_storable hbuild hstorable hv he hentry
  refine ⟨p, hp, hpid, ?_⟩
  have hnames : (below base v.names).names ≠ [] :=
    List.append_ne_nil_of_right_ne_nil _ (h.parentFirst.names_ne (List.mem_of_mem_filter hv))
  rw [hentry.path, parentFromPath, NormalPath.parentPath_spell hnames] at hpath
  rw [depth, depth, hpath, hentry.path, NormalPath.normalForm_spell, NormalPath.normalForm_spell]
  exact NormalPath.parts_parent_lt hnames

theorem Holds.wellFormed (h : Holds base options status inode vs raw)
    (hbuild : build raw buildOptions = some result)
    (hstorable : Storable base options raw.hostIdentifier status vs) :
    WellFormed result.snapshot := by
  obtain ⟨hid, hschema, hhost⟩ := build_header hbuild
  obtain ⟨r, hr, hrid, hrparent, hroot⟩ := h.exists_root hbuild
  have hdistinct := (build_sound hbuild).distinct
  refine
    { header := { id := hid, schema := ?_, notTooNew := ?_, notTooOld := ?_, host := ?_
                  entries := List.ne_nil_of_mem hr }
      entry := ?_
      id_ne := hdistinct.id_ne
      ids := hdistinct.ids
      paths := hdistinct.paths
      root := ⟨r, hr, hrid, ?_, hrparent⟩
      parent := ?_
      acyclic := acyclic_of_depth hdistinct.ids fun e he hne =>
        h.parent_depth hbuild hstorable he hne }
  · rw [hschema]
    decide
  · rw [hschema]
    decide
  · rw [hschema]
    decide
  · rw [hhost]
    exact hstorable.host
  · intro e he
    rcases h.entry_cases hbuild he with heroot | ⟨v, -, hentry⟩
    · exact entryOk_spell heroot.path heroot.type
    · exact entryOk_spell hentry.path hentry.type
  · exact hroot.type.trans (mapEntryType_directory.mpr hstorable.root)
  · intro e he hne
    obtain ⟨v, hv, hentry⟩ := h.exists_visit hbuild he hne
    obtain ⟨p, hp, hpid, htype, -⟩ := h.parent_of_storable hbuild hstorable hv he hentry
    rw [hpid]
    exact ⟨hdistinct.id_ne p hp, p, hp, rfl, htype⟩

/-- **The verdict on a scan**: the snapshot built of it is valid exactly when the host has a name,
the root is a directory, and nothing hangs below a root that ends in a separator, nor below a
link. -/
theorem Holds.valid_iff (h : Holds base options status inode vs raw)
    (hbuild : build raw buildOptions = some result) (now : UnixTimestamp) :
    (validateSnapshotAt now result.snapshot).hasErrors = false ↔
      Storable base options raw.hostIdentifier status vs := by
  rw [hasErrors_validateSnapshotAt, snapshotErrors_iff]
  constructor
  · exact h.storable hbuild
  · exact h.wellFormed hbuild

/-! ## Scans -/

variable {machine : Machine} {rootPath : Str} {root : ScanRoot}

/-- A scan holds what it has taken of the visits: all of them, if it came to its end. -/
theorem Scannable.holds (h : Scannable machine rootPath root base status)
    (hlimit : options.maxEntries ≠ 0) (hdistinct : root.listing.Distinct) :
    ∃ taken left, (rootVisits base options rootPath root).1 = taken ++ left ∧
      ((scanToEnd machine rootPath root options).2 = true → left = []) ∧
      Holds base options status root.inode taken (scan machine rootPath root options) ∧
      (scan machine rootPath root options).hostIdentifier = detectHostIdentifier machine := by
  obtain ⟨taken, left, diagnostics, hvs, -, hresult, hcomplete⟩ :=
    @collectAll_cut base options (rootVisits base options rootPath root).1
      (rootResult machine rootPath root base status)
  have hnames : ((rootVisits base options rootPath root).1.map Visit.names).Nodup :=
    rootVisits_nodup hdistinct
  have hfirst : ParentFirst base options [] false (rootVisits base options rootPath root).1 :=
    rootVisits_parentFirst
  have hscan : scan machine rootPath root options =
      sorted { gathered base options (rootResult machine rootPath root base status) taken with
        diagnostics := (gathered base options (rootResult machine rootPath root base status)
          taken).diagnostics ++ diagnostics } := by
    rw [scan, scanToEnd_eq h hlimit, hresult]
  refine ⟨taken, left, hvs, ?_, ⟨?_, ?_, ?_, ?_⟩, ?_⟩
  · intro hend
    rw [scanToEnd_eq h hlimit] at hend
    exact (hcomplete ((Bool.and_eq_true _ _).mp hend).1).1
  · rw [hscan]
    rfl
  · intro entry
    rw [hscan]
    refine mem_sortBy.trans (List.mem_append.trans ?_)
    rw [List.mem_map]
    exact or_congr_left List.mem_singleton
  · rw [hvs, List.map_append] at hnames
    exact (List.nodup_append.mp hnames).1
  · rw [hvs] at hfirst
    exact hfirst.take
  · rw [hscan]
    rfl

/-- **A scan that came to its end** yields a valid snapshot exactly when the tree is storable. -/
theorem complete_scan_valid_iff (h : Scannable machine rootPath root base status)
    (hdistinct : root.listing.Distinct) (hend : (scanToEnd machine rootPath root options).2 = true)
    (hbuild : build (scan machine rootPath root options) buildOptions = some result)
    (now : UnixTimestamp) :
    (validateSnapshotAt now result.snapshot).hasErrors = false ↔
      Storable base options (detectHostIdentifier machine) status
        (rootVisits base options rootPath root).1 := by
  obtain ⟨taken, left, hvs, hleft, hholds, hhost⟩ :=
    h.holds (Scannable.maxEntries_ne hend) hdistinct
  rw [hvs, hleft hend, List.append_nil, ← hhost]
  exact hholds.valid_iff hbuild now

end

/-! ### A directory with two files -/

def namedMachine : Machine := { getHostname := some (str "h") }

theorem isFileName_a : Path.IsFileName (str "a") := by decide
theorem isFileName_b : Path.IsFileName (str "b") := by decide
theorem isFileName_data : Path.IsFileName (str "data") := by decide

def twoFiles : ScanRoot :=
  { inode := { status := some { type := .directory } }
    listing :=
      .entry ⟨str "a", isFileName_a⟩ { status := some {}, fileSize := some 1 } .nil
        (.entry ⟨str "b", isFileName_b⟩ { status := some {}, fileSize := some 2 } .nil .nil) }

def dataPath : NormalPath where
  names := [⟨str "data", isFileName_data⟩]
  slashed := fun h => absurd h Bool.false_ne_true

theorem twoFiles_scannable :
    Scannable namedMachine (str "/data") twoFiles dataPath { type := .directory } where
  isPresent := rfl
  isDirectory := rfl
  path := ⟨str "/data", rfl, NormalPath.ext (by decide) (by decide)⟩
  status := rfl

theorem complete_scan_valid_iff_twoFiles :
    ∃ result, build (scan namedMachine (str "/data") twoFiles) = some result ∧
      (validateSnapshotAt 0 result.snapshot).hasErrors = false := by
  have hbuilds : (build (scan namedMachine (str "/data") twoFiles)).isSome = true := by
    decide +kernel
  obtain ⟨result, hbuild⟩ := Option.isSome_iff_exists.mp hbuilds
  have hstorable : Storable dataPath {} (detectHostIdentifier namedMachine) { type := .directory }
      (rootVisits dataPath {} (str "/data") twoFiles).1 :=
    ⟨by decide, rfl, by decide, by decide⟩
  have hlisting : twoFiles.listing.Distinct := by
    simp [twoFiles, Listing.Distinct, Listing.names, str]
  have hend : (scanToEnd namedMachine (str "/data") twoFiles {}).2 = true := by decide +kernel
  exact ⟨result, hbuild,
    (complete_scan_valid_iff twoFiles_scannable hlisting hend hbuild 0).mpr hstorable⟩

end ServerStorage.Muninn
