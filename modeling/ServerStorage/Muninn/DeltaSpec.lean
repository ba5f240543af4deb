/-
# `ServerStorage.Muninn.DeltaSpec` — what `compute` lists, said of the two snapshots

`compute` is a loop over a table, two sorts and a greedy loop over buckets.  Its
result has a description that mentions none of them.  Write `vanished` for the
entries of the base whose id the target lacks and `appeared` for the converse.
A vanished and an appeared entry are `Paired` when they have the same
fingerprint and the same rank, by path, among the entries of that fingerprint
on their side; an entry of the base `Continues` as an entry of the target when
the ids agree or the two are paired.  Then, on snapshots whose ids and paths are
distinct (`Keyed`):

  * the removed entries are the vanished ones that continue as nothing;
  * the added entries are the appeared ones that continue nothing;
  * the modifications are the pairs of one id with other metadata or type;
  * the renames are the continuations with another id or another path.
-/
import ServerStorage.Muninn.DeltaEngine
import ServerStorage.Muninn.WellFormed

namespace ServerStorage.Muninn

open Lib DeltaEngine

/-! ## Keyed snapshots -/

/-- Distinct ids, distinct paths, every path in normal form. -/
structure Keyed (s : Snapshot) : Prop where
  ids : (s.entries.map FileEntry.id).Nodup
  paths : (s.entries.map FileEntry.normalizedPath).Nodup
  normal : ∀ e ∈ s.entries, Path.lexicallyNormal e.normalizedPath = e.normalizedPath

theorem eq_of_nodup_map {α κ : Type} {f : α → κ} {l : List α} (h : (l.map f).Nodup) {a b : α}
    (ha : a ∈ l) (hb : b ∈ l) (hab : f a = f b) : a = b :=
  List.inj_on_of_nodup_map h ha hb hab

theorem Keyed.eq_of_id {s : Snapshot} (h : Keyed s) {a b : FileEntry} (ha : a ∈ s.entries)
    (hb : b ∈ s.entries) (hab : a.id = b.id) : a = b :=
  eq_of_nodup_map h.ids ha hb hab

theorem Keyed.eq_of_path {s : Snapshot} (h : Keyed s) {a b : FileEntry} (ha : a ∈ s.entries)
    (hb : b ∈ s.entries) (hab : a.normalizedPath = b.normalizedPath) : a = b :=
  eq_of_nodup_map h.paths ha hb hab

section
variable {s : Snapshot}

theorem keyed_of_snapshotErrors (h : snapshotErrors s = false) : Keyed s := by
  have hwf := snapshotErrors_iff.mp h
  exact ⟨hwf.ids, hwf.paths, fun e he => (hwf.entry e he).normal⟩

theorem host_ne_of_snapshotErrors (h : snapshotErrors s = false) : s.hostIdentifier ≠ [] :=
  (snapshotErrors_iff.mp h).header.host

end

/-! ## Vanished and appeared entries, and their pairing -/

/-- The entries of `s` whose id occurs nowhere in `other`. -/
def onlyIn (s other : Snapshot) : List FileEntry :=
  s.entries.filter fun e => ∀ x ∈ other.entries, x.id ≠ e.id

def vanished (base target : Snapshot) : List FileEntry := onlyIn base target
def appeared (base target : Snapshot) : List FileEntry := onlyIn target base

theorem mem_onlyIn {s other : Snapshot} {e : FileEntry} :
    e ∈ onlyIn s other ↔ e ∈ s.entries ∧ ∀ x ∈ other.entries, x.id ≠ e.id := by
  simp [onlyIn]

theorem indexById_isNone (s : Snapshot) (i : EntryId) :
    (indexById s i).isNone = decide (∀ x ∈ s.entries, x.id ≠ i) := by
  rw [Bool.eq_iff_iff, Option.isNone_iff_eq_none, indexById, List.find?_eq_none]
  simp

theorem unmatchedRemoved_eq (base target : Snapshot) :
    unmatchedRemoved base target = vanished base target :=
  List.filter_congr fun e _ => indexById_isNone target e.id

theorem unmatchedAdded_eq (base target : Snapshot) :
    unmatchedAdded base target = appeared base target :=
  List.filter_congr fun e _ => indexById_isNone base e.id

/-- How many entries of `e`'s fingerprint in `l` lie before `e` in path order. -/
def rank (l : List FileEntry) (e : FileEntry) : Nat :=
  l.countP fun x => makeRenameFingerprint x = makeRenameFingerprint e ∧
    x.normalizedPath < e.normalizedPath

theorem rank_perm {l l' : List FileEntry} (h : l.Perm l') (e : FileEntry) :
    rank l e = rank l' e :=
  h.countP_eq _

theorem rank_cons {x e : FileEntry} {l : List FileEntry} :
    rank (x :: l) e = rank l e + if makeRenameFingerprint x = makeRenameFingerprint e ∧
      x.normalizedPath < e.normalizedPath then 1 else 0 := by
  simp [rank, List.countP_cons]

theorem rank_lt_of_lt {l : List FileEntry} {a b : FileEntry} (ha : a ∈ l)
    (hab : makeRenameFingerprint a = makeRenameFingerprint b)
    (h : a.normalizedPath < b.normalizedPath) : rank l a < rank l b := by
  induction l with
  | nil => exact absurd ha List.not_mem_nil
  | cons x l ih =>
      rw [rank_cons, rank_cons]
      have hle : rank l a ≤ rank l b := List.countP_mono_left fun y _ hy => by
        simp only [decide_eq_true_eq] at hy ⊢
        exact ⟨hy.1.trans hab, hy.2.trans h⟩
      rcases List.mem_cons.mp ha with rfl | ha
      · simp only [lt_irrefl, and_false, if_false, hab, h, and_self, if_true]
        omega
      · have := ih ha
        have hstep : (makeRenameFingerprint x = makeRenameFingerprint a ∧
            x.normalizedPath < a.normalizedPath) →
            makeRenameFingerprint x = makeRenameFingerprint b ∧
            x.normalizedPath < b.normalizedPath := fun hx => ⟨hx.1.trans hab, hx.2.trans h⟩
        split
        next hx => rw [if_pos (hstep hx)]; omega
        next => omega

theorem eq_of_rank_eq {l : List FileEntry} (hnd : (l.map FileEntry.normalizedPath).Nodup)
    {a b : FileEntry} (ha : a ∈ l) (hb : b ∈ l)
    (hab : makeRenameFingerprint a = makeRenameFingerprint b) (h : rank l a = rank l b) :
    a = b := by
  rcases lt_trichotomy a.normalizedPath b.normalizedPath with hlt | heq | hgt
  · exact absurd h (rank_lt_of_lt ha hab hlt).ne
  · exact eq_of_nodup_map hnd ha hb heq
  · exact absurd h (rank_lt_of_lt hb hab.symm hgt).ne'

/-- Same fingerprint, same rank on its side. -/
structure Paired (base target : Snapshot) (b t : FileEntry) : Prop where
  vanished : b ∈ vanished base target
  appeared : t ∈ appeared base target
  fingerprint : makeRenameFingerprint b = makeRenameFingerprint t
  rank : rank (Muninn.vanished base target) b = rank (Muninn.appeared base target) t

/-- `b` of the base and `t` of the target are the two ends of one entry. -/
structure Continues (B T : Snapshot) (b t : FileEntry) : Prop where
  base : b ∈ B.entries
  target : t ∈ T.entries
  link : b.id = t.id ∨ Paired B T b t

theorem Paired.id_ne {B T : Snapshot} {b t : FileEntry} (h : Paired B T b t) : b.id ≠ t.id :=
  fun he => (mem_onlyIn.mp h.vanished).2 t (mem_onlyIn.mp h.appeared).1 he.symm

theorem Paired.continues {B T : Snapshot} {b t : FileEntry} (h : Paired B T b t) :
    Continues B T b t :=
  ⟨(mem_onlyIn.mp h.vanished).1, (mem_onlyIn.mp h.appeared).1, .inr h⟩

theorem nodup_onlyIn {κ : Type} {f : FileEntry → κ} {s : Snapshot} (h : (s.entries.map f).Nodup)
    (other : Snapshot) : ((onlyIn s other).map f).Nodup :=
  (List.filter_sublist.map f).nodup h

theorem Continues.left_unique {B T : Snapshot} (hT : Keyed T) {b t t' : FileEntry}
    (h : Continues B T b t) (h' : Continues B T b t') : t = t' := by
  rcases h.link with hid | hp <;> rcases h'.link with hid' | hp'
  · exact hT.eq_of_id h.target h'.target (hid.symm.trans hid')
  · exact absurd hid.symm ((mem_onlyIn.mp hp'.vanished).2 t h.target)
  · exact absurd hid'.symm ((mem_onlyIn.mp hp.vanished).2 t' h'.target)
  · exact eq_of_rank_eq (nodup_onlyIn hT.paths B) hp.appeared hp'.appeared
      (hp.fingerprint.symm.trans hp'.fingerprint) (hp.rank.symm.trans hp'.rank)

theorem Continues.right_unique {B T : Snapshot} (hB : Keyed B) {b b' t : FileEntry}
    (h : Continues B T b t) (h' : Continues B T b' t) : b = b' := by
  rcases h.link with hid | hp <;> rcases h'.link with hid' | hp'
  · exact hB.eq_of_id h.base h'.base (hid.trans hid'.symm)
  · exact absurd hid ((mem_onlyIn.mp hp'.appeared).2 b h.base)
  · exact absurd hid' ((mem_onlyIn.mp hp.appeared).2 b' h'.base)
  · exact eq_of_rank_eq (nodup_onlyIn hB.paths T) hp.vanished hp'.vanished
      (hp.fingerprint.trans hp'.fingerprint.symm) (hp.rank.trans hp'.rank.symm)

/-! ## The greedy loop -/

/-- In path order the first entry of a fingerprint has rank zero. -/
theorem rank_of_find {l : List FileEntry} {f : RenameFingerprint} {a : FileEntry}
    (hsorted : l.Pairwise fun x y => x.normalizedPath < y.normalizedPath)
    (h : l.find? (fun x => makeRenameFingerprint x = f) = some a) : rank l a = 0 := by
  induction l with
  | nil => simp at h
  | cons x l ih =>
      obtain ⟨hx, hsorted⟩ := List.pairwise_cons.mp hsorted
      by_cases hf : makeRenameFingerprint x = f
      · obtain rfl : x = a := by simpa [hf] using h
        rw [rank, List.countP_eq_zero]
        intro y hy
        rcases List.mem_cons.mp hy with rfl | hy
        · simp
        · simp [not_lt_of_gt (hx y hy)]
      · rw [List.find?_cons_of_neg (by simpa using hf)] at h
        have ha : makeRenameFingerprint a = f := by simpa using List.find?_some h
        rw [rank_cons, ih hsorted h, if_neg fun hc => hf (hc.1.trans ha)]

/-- The pairs of the loop are the entries of one fingerprint and one rank. -/
theorem pairLoop_renamed : ∀ {R L : List FileEntry} {b t : FileEntry},
    R.Pairwise (fun x y => x.normalizedPath < y.normalizedPath) →
    L.Pairwise (fun x y => x.normalizedPath < y.normalizedPath) →
      ((b, t) ∈ (pairLoop R L).renamed ↔
        b ∈ R ∧ t ∈ L ∧ makeRenameFingerprint b = makeRenameFingerprint t ∧ rank R b = rank L t)
  | [], L, b, t, _, _ => by simp [pairLoop]
  | r :: R, L, b, t, hR, hL => by
      obtain ⟨hr, hR'⟩ := List.pairwise_cons.mp hR
      have hrR : r ∉ R := fun h => lt_irrefl _ (hr r h)
      have hzero : rank (r :: R) r = 0 :=
        rank_of_find (f := makeRenameFingerprint r) hR (by simp)
      -- below the head, ranks count the head exactly for its own fingerprint
      have hrank : ∀ x ∈ R, rank (r :: R) x =
          rank R x + if makeRenameFingerprint r = makeRenameFingerprint x then 1 else 0 := by
        intro x hx
        rw [rank_cons]
        simp only [hr x hx, and_true]
      rw [pairLoop]
      cases hfind : L.find? fun a => makeRenameFingerprint a = makeRenameFingerprint r with
      | none =>
          have hno : ∀ x ∈ L, makeRenameFingerprint x ≠ makeRenameFingerprint r := by
            simpa [List.find?_eq_none] using hfind
          simp only [pairLoop_renamed hR' hL]
          constructor
          · rintro ⟨hb, ht, hf, hk⟩
            have hne : makeRenameFingerprint r ≠ makeRenameFingerprint b :=
              fun h => hno t ht (hf.symm.trans h.symm)
            exact ⟨List.mem_cons_of_mem _ hb, ht, hf, by rw [hrank b hb, if_neg hne, hk]; rfl⟩
          · rintro ⟨hb, ht, hf, hk⟩
            rcases List.mem_cons.mp hb with rfl | hb
            · exact absurd hf.symm (hno t ht)
            · have hne : makeRenameFingerprint r ≠ makeRenameFingerprint b :=
                fun h => hno t ht (hf.symm.trans h.symm)
              rw [hrank b hb, if_neg hne] at hk
              exact ⟨hb, ht, hf, hk⟩
      | some a =>
          have haL : a ∈ L := List.mem_of_find?_eq_some hfind
          have haf : makeRenameFingerprint a = makeRenameFingerprint r := by
            simpa using List.find?_some hfind
          have hazero : rank L a = 0 := rank_of_find hL hfind
          have hLnd : (L.map FileEntry.normalizedPath).Nodup :=
            List.pairwise_map.mpr (hL.imp fun h => h.ne)
          have hnd : L.Nodup := hLnd.of_map
          have hperm : L.Perm (a :: L.erase a) := List.perm_cons_erase haL
          have hmem : ∀ x, x ∈ L.erase a ↔ x ≠ a ∧ x ∈ L := fun x => hnd.mem_erase_iff
          -- in `L` every other entry of the fingerprint lies above `a`
          have habove : ∀ x ∈ L, x ≠ a → makeRenameFingerprint x = makeRenameFingerprint r →
              a.normalizedPath < x.normalizedPath := by
            intro x hx hxa hxf
            rcases lt_trichotomy a.normalizedPath x.normalizedPath with h | h | h
            · exact h
            · exact absurd (eq_of_nodup_map hLnd haL hx h).symm hxa
            · have := rank_lt_of_lt hx (hxf.trans haf.symm) h
              omega
          have hrankL : ∀ x ∈ L, x ≠ a → rank L x =
              rank (L.erase a) x +
                if makeRenameFingerprint r = makeRenameFingerprint x then 1 else 0 := by
            intro x hx hxa
            rw [rank_perm hperm, rank_cons, haf]
            by_cases hf : makeRenameFingerprint r = makeRenameFingerprint x
            · simp [hf, habove x hx hxa hf.symm]
            · simp [hf]
          simp only [List.mem_cons, Prod.mk.injEq,
            pairLoop_renamed hR' (hL.sublist List.erase_sublist)]
          constructor
          · rintro (⟨rfl, rfl⟩ | ⟨hb, ht, hf, hk⟩)
            · exact ⟨.inl rfl, haL, haf.symm, hzero.trans hazero.symm⟩
            · obtain ⟨hta, htL⟩ := (hmem t).mp ht
              exact ⟨.inr hb, htL, hf, by rw [hrank b hb, hrankL t htL hta, hk, hf]⟩
          · rintro ⟨rfl | hb, ht, hf, hk⟩
            · left
              refine ⟨rfl, eq_of_rank_eq hLnd ht haL (hf.symm.trans haf.symm) ?_⟩
              rw [hazero, ← hk, hzero]
            · right
              have hta : t ≠ a := by
                rintro rfl
                rw [hrank b hb, hazero, if_pos (haf.symm.trans hf.symm)] at hk
                omega
              refine ⟨hb, (hmem t).mpr ⟨hta, ht⟩, hf, ?_⟩
              rw [hrank b hb, hrankL t ht hta, hf] at hk
              omega

/-- The entries the loop leaves are those in no pair. -/
theorem pairLoop_perm : ∀ {R L : List FileEntry},
    (((pairLoop R L).renamed.map Prod.fst) ++ (pairLoop R L).removed).Perm R ∧
      (((pairLoop R L).renamed.map Prod.snd) ++ (pairLoop R L).added).Perm L
  | [], L => by simp [pairLoop]
  | r :: R, L => by
      rw [pairLoop]
      cases hfind : L.find? fun a => makeRenameFingerprint a = makeRenameFingerprint r with
      | none =>
          obtain ⟨hfst, hsnd⟩ := pairLoop_perm (R := R) (L := L)
          exact ⟨List.perm_middle.trans (hfst.cons r), hsnd⟩
      | some a =>
          obtain ⟨hfst, hsnd⟩ := pairLoop_perm (R := R) (L := L.erase a)
          have ha : a ∈ L := List.mem_of_find?_eq_some hfind
          exact ⟨hfst.cons r, (hsnd.cons a).trans (List.perm_cons_erase ha).symm⟩

/-! ## The lists of `compute` -/

/-- The pairs of one id and two paths, in the order of the base. -/
def movedCommon (B T : Snapshot) : List (FileEntry × FileEntry) :=
  B.entries.filterMap fun b =>
    match indexById T b.id with
    | none => none
    | some t => if b.normalizedPath ≠ t.normalizedPath then some (b, t) else none

theorem renamedCommon_eq (B T : Snapshot) :
    renamedCommon B T = (movedCommon B T).map toRenamed := by
  rw [renamedCommon, movedCommon, List.map_filterMap]
  refine List.filterMap_congr fun b _ => ?_
  cases indexById T b.id with
  | none => rfl
  | some t => dsimp only; split <;> rfl

/-- The moved continuations: the renames of `compute`, before they are sorted. -/
def moves (B T : Snapshot) : List (FileEntry × FileEntry) :=
  movedCommon B T ++ (pairing B T {}).renamed

/-- `b` continues as `t` under another id or another path. -/
structure Moves (B T : Snapshot) (b t : FileEntry) : Prop where
  continues : Continues B T b t
  moved : b.id ≠ t.id ∨ b.normalizedPath ≠ t.normalizedPath

section
variable {B T : Snapshot} {b t : FileEntry}

theorem indexById_eq_some (hT : Keyed T) {i : EntryId} :
    indexById T i = some t ↔ t ∈ T.entries ∧ t.id = i := by
  constructor
  · exact fun h => ⟨List.mem_of_find?_eq_some h, by simpa using List.find?_some h⟩
  · rintro ⟨ht, rfl⟩
    cases h : indexById T t.id with
    | none =>
        rw [← Option.isNone_iff_eq_none, indexById_isNone] at h
        exact absurd rfl (of_decide_eq_true h t ht)
    | some x =>
        have hx : x.id = t.id := by simpa using List.find?_some h
        rw [hT.eq_of_id (List.mem_of_find?_eq_some h) ht hx]

theorem mem_movedCommon (hT : Keyed T) : (b, t) ∈ movedCommon B T ↔
    b ∈ B.entries ∧ t ∈ T.entries ∧ b.id = t.id ∧ b.normalizedPath ≠ t.normalizedPath := by
  rw [movedCommon, List.mem_filterMap]
  constructor
  · rintro ⟨x, hx, hmatch⟩
    cases hi : indexById T x.id with
    | none => simp [hi] at hmatch
    | some y =>
        obtain ⟨hy, hid⟩ := (indexById_eq_some hT).mp hi
        simp only [hi, Option.ite_none_right_eq_some, Option.some.injEq, Prod.mk.injEq] at hmatch
        obtain ⟨hne, rfl, rfl⟩ := hmatch
        exact ⟨hx, hy, hid.symm, hne⟩
  · rintro ⟨hb, ht, hid, hne⟩
    refine ⟨b, hb, ?_⟩
    simp [(indexById_eq_some hT).mpr ⟨ht, hid.symm⟩, hne]

theorem sorted_byPath {l : List FileEntry} (hnd : (l.map FileEntry.normalizedPath).Nodup) :
    (sortBy byPath l).Pairwise fun x y => x.normalizedPath < y.normalizedPath := by
  have hle : (sortBy byPath l).Pairwise fun x y => x.normalizedPath ≤ y.normalizedPath :=
    sortBy_pairwise FileEntry.normalizedPath (fun _ _ h => (of_decide_eq_true h).le)
      (fun _ _ h => not_lt.mp (of_decide_eq_false h)) l
  have hnd' : (sortBy byPath l).Pairwise fun x y => x.normalizedPath ≠ y.normalizedPath :=
    List.pairwise_map.mp (((sortBy_perm byPath l).map _).nodup_iff.mpr hnd)
  exact hle.imp₂ (fun _ _ hab hne => lt_of_le_of_ne hab hne) hnd'

theorem mem_pairing (hB : Keyed B) (hT : Keyed T) :
    (b, t) ∈ (pairing B T {}).renamed ↔ Paired B T b t := by
  have hR := sorted_byPath (nodup_onlyIn hB.paths T)
  have hL := sorted_byPath (nodup_onlyIn hT.paths B)
  simp only [pairing, if_true, unmatchedRemoved_eq, unmatchedAdded_eq]
  rw [vanished, appeared, pairLoop_renamed hR hL, mem_sortBy, mem_sortBy,
    rank_perm (sortBy_perm _ _), rank_perm (sortBy_perm _ _)]
  exact ⟨fun ⟨hb, ht, hf, hk⟩ => ⟨hb, ht, hf, hk⟩,
    fun h => ⟨h.vanished, h.appeared, h.fingerprint, h.rank⟩⟩

theorem mem_moves (hB : Keyed B) (hT : Keyed T) : (b, t) ∈ moves B T ↔ Moves B T b t := by
  rw [moves, List.mem_append, mem_movedCommon hT, mem_pairing hB hT]
  constructor
  · rintro (⟨hb, ht, hid, hne⟩ | h)
    · exact ⟨⟨hb, ht, .inl hid⟩, .inr hne⟩
    · exact ⟨h.continues, .inl h.id_ne⟩
  · rintro ⟨⟨hb, ht, hid | hp⟩, hmoved⟩
    · exact .inl ⟨hb, ht, hid, hmoved.resolve_left fun h => h hid⟩
    · exact .inr hp

/-- The two perms of the greedy loop, on the sets `compute` runs it on. -/
theorem pairing_perm (B T : Snapshot) :
    ((pairing B T {}).renamed.map Prod.fst ++ (pairing B T {}).removed).Perm (vanished B T) ∧
      ((pairing B T {}).renamed.map Prod.snd ++ (pairing B T {}).added).Perm
        (appeared B T) := by
  simp only [pairing, if_true, unmatchedRemoved_eq, unmatchedAdded_eq]
  exact ⟨pairLoop_perm.1.trans (sortBy_perm _ _), pairLoop_perm.2.trans (sortBy_perm _ _)⟩

theorem moves_nodup (hB : Keyed B) (hT : Keyed T) : (moves B T).Nodup := by
  refine List.Nodup.append ?_ ?_ ?_
  · have hfst : ((movedCommon B T).map fun p => p.1.id).Nodup := by
      refine nodup_map_filterMap (fun b p hp => ?_) hB.ids
      cases hi : indexById T b.id with
      | none => simp [hi] at hp
      | some t =>
          simp only [hi, Option.ite_none_right_eq_some, Option.some.injEq] at hp
          rw [← hp.2]
    exact hfst.of_map
  · have hnd : ((pairing B T {}).renamed.map Prod.fst ++ (pairing B T {}).removed).Nodup :=
      (pairing_perm B T).1.nodup_iff.mpr (nodup_onlyIn hB.ids T).of_map
    exact (List.nodup_append.mp hnd).1.of_map
  · rintro ⟨x, y⟩ hcommon hpair
    exact ((mem_pairing hB hT).mp hpair).id_ne ((mem_movedCommon hT).mp hcommon).2.2.1

/-! ### Their members -/

theorem mem_removedEntries (hB : Keyed B) (hT : Keyed T) :
    b ∈ (compute B T).removedEntries ↔
      b ∈ B.entries ∧ ∀ t, ¬ Continues B T b t := by
  have hperm := (pairing_perm B T).1
  have hnd := hperm.nodup_iff.mpr (nodup_onlyIn hB.ids T).of_map
  have hmem : b ∈ vanished B T ↔
      (∃ t, Paired B T b t) ∨ b ∈ (pairing B T {}).removed := by
    rw [← hperm.mem_iff, List.mem_append, List.mem_map]
    simp only [Prod.exists, exists_and_right, exists_eq_right, mem_pairing hB hT]
  simp only [compute, sortDelta, mem_sortBy]
  constructor
  · intro hb
    obtain ⟨hbB, hid⟩ := mem_onlyIn.mp (hmem.mpr (.inr hb))
    refine ⟨hbB, fun t h => ?_⟩
    rcases h.link with hbt | hp
    · exact hid t h.target hbt.symm
    · exact (List.nodup_append.mp hnd).2.2 b
        (List.mem_map.mpr ⟨(b, t), (mem_pairing hB hT).mpr hp, rfl⟩) b hb rfl
  · rintro ⟨hbB, hno⟩
    have hv : b ∈ vanished B T :=
      mem_onlyIn.mpr ⟨hbB, fun x hx hxb => hno x ⟨hbB, hx, .inl hxb.symm⟩⟩
    exact (hmem.mp hv).resolve_left fun ⟨t, hp⟩ => hno t hp.continues

theorem mem_addedEntries (hB : Keyed B) (hT : Keyed T) :
    t ∈ (compute B T).addedEntries ↔
      t ∈ T.entries ∧ ∀ b, ¬ Continues B T b t := by
  have hperm := (pairing_perm B T).2
  have hnd := hperm.nodup_iff.mpr (nodup_onlyIn hT.ids B).of_map
  have hmem : t ∈ appeared B T ↔
      (∃ b, Paired B T b t) ∨ t ∈ (pairing B T {}).added := by
    rw [← hperm.mem_iff, List.mem_append, List.mem_map]
    simp only [Prod.exists, exists_eq_right, mem_pairing hB hT]
  simp only [compute, sortDelta, mem_sortBy]
  constructor
  · intro ht
    obtain ⟨htT, hid⟩ := mem_onlyIn.mp (hmem.mpr (.inr ht))
    refine ⟨htT, fun b h => ?_⟩
    rcases h.link with hbt | hp
    · exact hid b h.base hbt
    · exact (List.nodup_append.mp hnd).2.2 t
        (List.mem_map.mpr ⟨(b, t), (mem_pairing hB hT).mpr hp, rfl⟩) t ht rfl
  · rintro ⟨htT, hno⟩
    have hv : t ∈ appeared B T :=
      mem_onlyIn.mpr ⟨htT, fun x hx hxt => hno x ⟨hx, htT, .inl hxt⟩⟩
    exact (hmem.mp hv).resolve_left fun ⟨b, hp⟩ => hno b hp.continues

theorem mem_modifiedEntries (hT : Keyed T) {m : ModifiedEntry} :
    m ∈ (compute B T).modifiedEntries ↔
      ∃ b ∈ B.entries, ∃ t ∈ T.entries, b.id = t.id ∧
        (b.metadata ≠ t.metadata ∨ b.type ≠ t.type) ∧
        m = { entryId := t.id, before := b.metadata, after := t.metadata } := by
  simp only [compute, sortDelta, mem_sortBy, modifiedCommon, List.mem_filterMap]
  refine exists_congr fun b => and_congr_right fun _ => ?_
  have hmeta : ∀ t : FileEntry, ((!metadataEquals b.metadata t.metadata || b.type != t.type) = true)
      ↔ (b.metadata ≠ t.metadata ∨ b.type ≠ t.type) := fun t => by
    rw [Bool.or_eq_true, Bool.not_eq_true', ← Bool.not_eq_true, metadataEquals_iff, bne_iff_ne]
  cases hi : indexById T b.id with
  | none =>
      simp only [reduceCtorEq, false_iff, not_exists, not_and]
      exact fun t ht hid => absurd ((indexById_eq_some hT).mpr ⟨ht, hid.symm⟩) (by simp [hi])
  | some t =>
      obtain ⟨ht, hid⟩ := (indexById_eq_some hT).mp hi
      simp only [hmeta, Option.ite_none_right_eq_some, Option.some.injEq]
      constructor
      · rintro ⟨hne, rfl⟩
        exact ⟨t, ht, hid.symm, hne, rfl⟩
      · rintro ⟨t', ht', hid', hne, rfl⟩
        obtain rfl := hT.eq_of_id ht ht' (hid.trans hid')
        exact ⟨hne, rfl⟩

theorem mem_renamedEntries (hB : Keyed B) (hT : Keyed T) {r : RenamedEntry} :
    r ∈ (compute B T).renamedEntries ↔ ∃ b t, Moves B T b t ∧ r = toRenamed (b, t) := by
  simp only [compute, sortDelta, mem_sortBy, renamedCommon_eq, ← List.map_append, List.mem_map]
  rw [← moves]
  constructor
  · rintro ⟨⟨b, t⟩, h, rfl⟩
    exact ⟨b, t, (mem_moves hB hT).mp h, rfl⟩
  · rintro ⟨b, t, h, rfl⟩
    exact ⟨(b, t), (mem_moves hB hT).mpr h, rfl⟩

/-! ### Nothing is listed twice -/

theorem addedEntries_nodup {κ : Type} {f : FileEntry → κ}
    (hf : (T.entries.map f).Nodup) : ((compute B T).addedEntries.map f).Nodup := by
  simp only [compute, sortDelta]
  rw [((sortBy_perm _ _).map f).nodup_iff]
  have hperm := ((pairing_perm B T).2.map f).nodup_iff.mpr (nodup_onlyIn hf B)
  rw [List.map_append] at hperm
  exact (List.nodup_append.mp hperm).2.1

theorem modifiedEntries_nodup (hB : Keyed B) (hT : Keyed T) :
    ((compute B T).modifiedEntries.map ModifiedEntry.entryId).Nodup := by
  simp only [compute, sortDelta]
  rw [((sortBy_perm _ _).map _).nodup_iff]
  refine nodup_map_filterMap (fun b m hm => ?_) hB.ids
  cases hi : indexById T b.id with
  | none => simp [hi] at hm
  | some t =>
      simp only [hi, Option.ite_none_right_eq_some, Option.some.injEq] at hm
      rw [← hm.2]
      exact ((indexById_eq_some hT).mp hi).2

theorem renamedEntries_nodup (hB : Keyed B) (hT : Keyed T) {κ : Type} {f : RenamedEntry → κ}
    (hf : ∀ b t b' t', Moves B T b t → Moves B T b' t' →
      f (toRenamed (b, t)) = f (toRenamed (b', t')) → b = b' ∧ t = t') :
    ((compute B T).renamedEntries.map f).Nodup := by
  simp only [compute, sortDelta, renamedCommon_eq, ← List.map_append]
  rw [((sortBy_perm _ _).map f).nodup_iff, ← moves, List.map_map]
  refine (moves_nodup hB hT).map_on ?_
  rintro ⟨b, t⟩ h ⟨b', t'⟩ h' hfeq
  obtain ⟨rfl, rfl⟩ := hf b t b' t' ((mem_moves hB hT).mp h) ((mem_moves hB hT).mp h') hfeq
  rfl

end

end ServerStorage.Muninn
