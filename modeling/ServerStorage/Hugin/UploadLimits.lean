/-
# `ServerStorage.Hugin.UploadLimits` — admitted uploads stay within their limits

The estimate of a file is an upper bound of what it decodes to, and the loop admits files
as long as their estimates stay below the limits.  A worker adds what it has decoded to the
total it shares with the others.  What they have added, and the estimates of the files that
are still under way, stay together within the estimates of the files that have been taken.
-/
import ServerStorage.Hugin.Uploads
import ServerStorage.Shared.Base64

namespace ServerStorage.Hugin

open Lib Lmdb Crud

/-! ## Sizes -/

theorem toNat_toUInt64_of_lt {n : Nat} (h : n < 2 ^ 64) : n.toUInt64.toNat = n :=
  Nat.mod_eq_of_lt h

theorem toNat_add_of_lt {a b : UInt64} (h : a.toNat + b.toNat < 2 ^ 64) :
    (a + b).toNat = a.toNat + b.toNat := by
  rw [UInt64.toNat_add, Nat.mod_eq_of_lt h]

theorem reserve_ok {element count : Nat} {u : Unit} (h : reserve element count = .ok u) :
    count ≤ maxSize element := by
  rw [reserve] at h
  split at h
  next hle => exact hle
  · cases h

/-- The sum of the two marks is the padding at the end. -/
theorem toNat_padding {p q : Prop} [Decidable p] [Decidable q] :
    ((if p then 1 else 0) + (if q then 1 else 0) : UInt64).toNat =
      (if p then 1 else 0) + (if q then 1 else 0) := by
  split <;> split <;> rfl

/-- The estimate of a text that is not empty: three bytes for each group, less the padding. -/
theorem estimate_eq {encoded : Str} (hsize : encoded.length < 2 ^ 63) (hne : encoded ≠ [])
    (hmod : encoded.length % 4 = 0) :
    ∃ estimated, estimateBase64DecodedSize encoded = some estimated ∧
      estimated.toNat + endPadding encoded = encoded.length / 4 * 3 := by
  have hpos := List.length_pos_iff.mpr hne
  have hlen : encoded.length.toUInt64.toNat = encoded.length := toNat_toUInt64_of_lt (by omega)
  have hgroups : ¬ encoded.length.toUInt64 % 4 ≠ 0 := by
    intro h
    refine h (UInt64.toNat_inj.mp ?_)
    rw [UInt64.toNat_mod, hlen]
    exact hmod
  have hge : ∀ k : UInt64, k.toNat ≤ 2 →
      encoded.length.toUInt64 ≥ k ∧
        (encoded.length.toUInt64 - k).toNat = encoded.length - k.toNat := fun k hk => by
    have hle : k ≤ encoded.length.toUInt64 := by
      rw [UInt64.le_iff_toNat_le, hlen]
      omega
    exact ⟨hle, by rw [UInt64.toNat_sub_of_le _ _ hle, hlen]⟩
  obtain ⟨hge₁, hsub₁⟩ := hge 1 (by decide)
  obtain ⟨hge₂, hsub₂⟩ := hge 2 (by decide)
  refine ⟨_, by rw [estimateBase64DecodedSize, if_neg hne, if_neg hgroups], ?_⟩
  have hpadding : (((if encoded.length.toUInt64 ≥ 1 ∧
        encoded[(encoded.length.toUInt64 - 1).toNat]? = some base64Pad then 1 else 0) +
      (if encoded.length.toUInt64 ≥ 2 ∧
        encoded[(encoded.length.toUInt64 - 2).toNat]? = some base64Pad then 1 else 0) :
          UInt64)).toNat = endPadding encoded := by
    rw [toNat_padding, hsub₁, hsub₂]
    simp only [hge₁, hge₂, true_and]
    rfl
  have hpad := endPadding_le encoded
  have hthree : (encoded.length.toUInt64 / 4 * 3).toNat = encoded.length / 4 * 3 := by
    rw [UInt64.toNat_mul, UInt64.toNat_div, hlen]
    show encoded.length / 4 * 3 % 2 ^ 64 = _
    rw [Nat.mod_eq_of_lt (by omega)]
  rw [UInt64.toNat_sub_of_le, hpadding, hthree]
  · omega
  · rw [UInt64.le_iff_toNat_le, hpadding, hthree]
    omega

/-- A text that decodes has an estimate, and decodes to no more. -/
theorem decoded_le_estimate {encoded bytes : Str} (hsize : encoded.length < 2 ^ 63)
    (h : base64Decode encoded = some bytes) :
    ∃ estimated, estimateBase64DecodedSize encoded = some estimated ∧
      bytes.length ≤ estimated.toNat := by
  obtain ⟨hmod, hlength⟩ := base64Decode_length h
  rcases eq_or_ne encoded [] with rfl | hne
  · obtain rfl := Option.some.inj h
    exact ⟨0, rfl, Nat.le_refl 0⟩
  · obtain ⟨estimated, hestimated, heq⟩ := estimate_eq hsize hne hmod
    have hle := hlength hne
    exact ⟨estimated, hestimated, by omega⟩

/-! ## The admission loop -/

section
variable {options : FrontendUploadOptions}

/-- What the limits of a running server keep. -/
structure Limits (options : FrontendUploadOptions) : Prop where
  file_le_total : options.maxUploadFileBytes ≤ options.maxUploadTotalDecodedBytes

theorem limits_of_start {platform : Platform}
    (h : (FrontendApiServer.start platform { options := options }).1.ok = true) :
    Limits options := by
  have hchecked : (checkOptions platform options).ok = true := by
    cases hok : (checkOptions platform options).ok with
    | true => rfl
    | false =>
        simp only [FrontendApiServer.start, hok, Bool.false_eq_true, if_false, Bool.not_false,
          if_true] at h
  rw [checkOptions] at hchecked
  split at hchecked
  · cases hchecked
  · split at hchecked
    · cases hchecked
    · split at hchecked
      · cases hchecked
      · split at hchecked
        · cases hchecked
        · split at hchecked
          · cases hchecked
          next hle => exact ⟨UInt64.not_lt.mp hle⟩

/-- What a round of the loop has found out when it comes to the subtraction. -/
theorem estimateFile_ok {file : Json} {item : UploadItem} {estimated : UInt64}
    (h : estimateFile options file = .ok (item, estimated)) :
    item.contentB64.length < 2 ^ 63 ∧
      estimateBase64DecodedSize item.contentB64 = some estimated ∧
      estimated ≤ options.maxUploadFileBytes := by
  rw [estimateFile] at h
  cases htexts : uploadTexts file with
  | none =>
      rw [htexts] at h
      cases h
  | some texts =>
      rw [htexts] at h
      obtain ⟨_, -, h⟩ := except_bind_ok.mp h
      split at h
      · cases h
      · obtain ⟨_, hreserve, h⟩ := except_bind_ok.mp h
        cases hestimate : estimateBase64DecodedSize texts.2 with
        | none =>
            rw [hestimate] at h
            cases h
        | some found =>
            simp only [hestimate] at h
            split at h
            · cases h
            next hle =>
              obtain ⟨rfl, rfl⟩ := Prod.mk.inj (Except.ok.inj h)
              exact ⟨Nat.lt_of_le_of_lt (reserve_ok hreserve) (maxSize_lt 1), hestimate,
                UInt64.not_lt.mp hle⟩

/-- The estimate of an item. -/
def cost (item : UploadItem) : Nat :=
  ((estimateBase64DecodedSize item.contentB64).map UInt64.toNat).getD 0

theorem cost_eq {item : UploadItem} {estimated : UInt64}
    (h : estimateBase64DecodedSize item.contentB64 = some estimated) :
    cost item = estimated.toNat := by
  rw [cost, h]
  rfl

/-- What the loop has admitted: each item is within the limit of a file, and the total is the sum
of the estimates, within its own limit. -/
structure Admitted (options : FrontendUploadOptions) (total : UInt64) (items : List UploadItem) :
    Prop where
  sized : ∀ item ∈ items, item.contentB64.length < 2 ^ 63
  cost_le : ∀ item ∈ items, cost item ≤ options.maxUploadFileBytes.toNat
  total_eq : total.toNat = (items.map cost).sum
  total_le : total ≤ options.maxUploadTotalDecodedBytes

theorem Admitted.nil : Admitted options 0 [] where
  sized := fun _ h => nomatch h
  cost_le := fun _ h => nomatch h
  total_eq := rfl
  total_le := UInt64.le_iff_toNat_le.mpr (Nat.zero_le _)

/-- What remains beside a file is within the limit, so the subtraction does not wrap. -/
theorem Limits.toNat_sub (hlimits : Limits options) {estimated : UInt64}
    (h : estimated ≤ options.maxUploadFileBytes) :
    (options.maxUploadTotalDecodedBytes - estimated).toNat =
      options.maxUploadTotalDecodedBytes.toNat - estimated.toNat :=
  UInt64.toNat_sub_of_le _ _ (UInt64.le_trans h hlimits.file_le_total)

/-- One round keeps it. -/
theorem Admitted.admitFile (hlimits : Limits options) {total total' : UInt64}
    {items : List UploadItem} {file : Json} {item : UploadItem}
    (h : Admitted options total items)
    (hfile : Hugin.admitFile options total file = .ok (total', item)) :
    Admitted options total' (items ++ [item]) := by
  rw [Hugin.admitFile] at hfile
  obtain ⟨⟨item', estimated⟩, hestimate, hfile⟩ := except_bind_ok.mp hfile
  obtain ⟨hsize, hestimated, hle⟩ := estimateFile_ok hestimate
  dsimp only at hfile
  split at hfile
  · cases hfile
  next hfits =>
    obtain ⟨rfl, rfl⟩ := Prod.mk.inj (Except.ok.inj hfile)
    have hcost := cost_eq hestimated
    have hfits : total.toNat + estimated.toNat ≤ options.maxUploadTotalDecodedBytes.toNat := by
      have hle_total := UInt64.le_iff_toNat_le.mp (UInt64.le_trans hle hlimits.file_le_total)
      have hremains := UInt64.le_iff_toNat_le.mp (UInt64.not_lt.mp hfits)
      rw [hlimits.toNat_sub hle] at hremains
      omega
    have hlt := options.maxUploadTotalDecodedBytes.toNat_lt
    have hadd := toNat_add_of_lt (Nat.lt_of_le_of_lt hfits hlt)
    have hmem : ∀ {P : UploadItem → Prop}, (∀ i ∈ items, P i) → P item' →
        ∀ i ∈ items ++ [item'], P i := fun hitems hitem i hi => by
      rcases List.mem_append.mp hi with hi | hi
      · exact hitems i hi
      · rwa [List.mem_singleton.mp hi]
    constructor
    case sized => exact hmem h.sized hsize
    case cost_le => exact hmem h.cost_le (hcost ▸ UInt64.le_iff_toNat_le.mp hle)
    case total_eq =>
      rw [hadd, h.total_eq, List.map_append, List.sum_append, ← hcost]
      rfl
    case total_le =>
      rw [UInt64.le_iff_toNat_le, hadd]
      exact hfits

/-- So does the whole loop. -/
theorem Admitted.admitFiles (hlimits : Limits options) {total' : UInt64}
    {items' : List UploadItem} :
    ∀ {files : List Json} {total : UInt64} {items : List UploadItem},
      Admitted options total items →
        Hugin.admitFiles options total items files = .ok (total', items') →
          Admitted options total' items' ∧ items'.length = items.length + files.length
  | [], total, items, h, hfiles => by
      obtain ⟨rfl, rfl⟩ := Prod.mk.inj (Except.ok.inj hfiles)
      exact ⟨h, rfl⟩
  | file :: files, total, items, h, hfiles => by
      rw [Hugin.admitFiles] at hfiles
      obtain ⟨⟨next, item⟩, hfile, hrest⟩ := except_bind_ok.mp hfiles
      obtain ⟨hadmitted, hlength⟩ := Admitted.admitFiles hlimits (h.admitFile hlimits hfile) hrest
      refine ⟨hadmitted, ?_⟩
      rw [hlength, List.length_append, List.length_singleton, List.length_cons]
      omega

/-- What an admitted item decodes to is within its estimate. -/
theorem Admitted.decoded {total : UInt64} {items : List UploadItem} {item : UploadItem}
    {bytes : Str} (h : Admitted options total items) (hitem : item ∈ items)
    (hdecode : base64Decode item.contentB64 = some bytes) :
    bytes.length ≤ cost item ∧ bytes.length.toUInt64.toNat = bytes.length := by
  obtain ⟨estimated, hestimated, hle⟩ := decoded_le_estimate (h.sized item hitem) hdecode
  have hlt := estimated.toNat_lt
  exact ⟨cost_eq hestimated ▸ hle, toNat_toUInt64_of_lt (by omega)⟩

/-! ## The request -/

/-- What a job is started with. -/
structure Started (options : FrontendUploadOptions) (job : UploadJob) : Prop where
  admitted : ∃ total, Admitted options total job.items
  items_lt : job.items.length < 2 ^ 63
  workers_pos : 0 < job.workerCount.toNat
  workers_lt : job.workerCount.toNat < 2 ^ 63

theorem uploadWorkers_pos {body : Json} {workers : UInt64}
    (h : uploadWorkers options body = .ok workers) : 0 < workers.toNat := by
  have hconfigured : 0 < (max 1 options.directoryUploadThreads).toNat := by
    show 0 < (if 1 ≤ options.directoryUploadThreads then options.directoryUploadThreads else 1).toNat
    split
    next hle => exact UInt64.le_iff_toNat_le.mp hle
    · decide
  rw [uploadWorkers] at h
  cases hfind : body.find (str "threads") with
  | none =>
      rw [hfind] at h
      obtain rfl := Except.ok.inj h
      exact hconfigured
  | some threads =>
      simp only [hfind] at h
      split at h
      · cases h
      · split at h
        · cases h
        next hpos =>
          obtain rfl := Except.ok.inj h
          have hlt : (0 : Int64) < Int64.ofInt threads.integer := Int64.not_le.mp hpos
          have hint : (0 : Int) < (Int64.ofInt threads.integer).toInt := Int64.lt_iff_toInt_lt.mp hlt
          show 0 < (if _ then _ else _ : UInt64).toNat
          split
          · rw [Int64.toNat_toUInt64_of_le (Int64.le_of_lt hlt)]
            exact Int.pos_iff_toNat_pos.mp hint
          · exact hconfigured

theorem directoryUpload_ok {platform : Platform} {body : Json} {job : UploadJob}
    (hlimits : Limits options) (h : directoryUpload platform options body = .ok job) :
    Started options job := by
  rw [directoryUpload] at h
  split at h
  next destination files _ _ =>
    obtain ⟨_, hcount, h⟩ := except_bind_ok.mp h
    split at h
    · cases h
    · obtain ⟨⟨total, items⟩, hadmit, h⟩ := except_bind_ok.mp h
      obtain ⟨_, -, h⟩ := except_bind_ok.mp h
      obtain ⟨root, -, h⟩ := except_bind_ok.mp h
      obtain ⟨workers, hworkers, h⟩ := except_bind_ok.mp h
      obtain ⟨_, hthreads, h⟩ := except_bind_ok.mp h
      obtain rfl := Except.ok.inj h
      obtain ⟨hadmitted, hlength⟩ := Admitted.nil.admitFiles hlimits hadmit
      constructor
      case admitted => exact ⟨total, hadmitted⟩
      case items_lt =>
        rw [hlength, List.length_nil, Nat.zero_add]
        exact Nat.lt_of_le_of_lt (reserve_ok hcount) (maxSize_lt _)
      case workers_pos => exact uploadWorkers_pos hworkers
      case workers_lt => exact Nat.lt_of_le_of_lt (reserve_ok hthreads) (maxSize_lt _)
  · cases h

/-! ## What has been taken -/

/-- The estimates of the first items. -/
def budget (items : List UploadItem) (taken : Nat) : Nat := ((items.take taken).map cost).sum

theorem budget_le (items : List UploadItem) (taken : Nat) :
    budget items taken ≤ (items.map cost).sum := by
  have hsplit : items.map cost = (items.take taken).map cost ++ (items.drop taken).map cost := by
    rw [← List.map_append, List.take_append_drop]
  rw [budget, hsplit, List.sum_append]
  exact Nat.le_add_right _ _

theorem budget_succ {items : List UploadItem} {taken : Nat} {item : UploadItem}
    (h : items[taken]? = some item) : budget items (taken + 1) = budget items taken + cost item := by
  rw [budget, List.take_add_one, h, List.map_append, List.sum_append, budget]
  rfl

theorem budget_end {items : List UploadItem} {taken : Nat} (h : items[taken]? = none) :
    budget items (taken + 1) = budget items taken := by
  rw [budget, List.take_add_one, h, Option.toList_none, List.append_nil, budget]

/-- An item under way, before its bytes are added to the total. -/
def pending : UploadPlace → Nat
  | .claimed item | .decoded item _ | .counting item _ => cost item
  | _ => 0

/-- An item under way. -/
def inFlight : UploadPlace → Nat
  | .claiming | .returned => 0
  | _ => 1

def hasReturned : UploadPlace → Nat
  | .returned => 1
  | _ => 0

theorem hasReturned_le (place : UploadPlace) : hasReturned place ≤ 1 := by
  cases place with
  | returned => exact Nat.le_refl 1
  | claiming | claimed | decoded | counting | counted | writing | written | failing =>
      exact Nat.zero_le 1

/-- What a worker knows of the item it is at. -/
def PlaceOk (options : FrontendUploadOptions) (job : UploadJob) : UploadPlace → Prop
  | .claimed item => item ∈ job.items
  | .decoded item bytes | .counting item bytes =>
      item ∈ job.items ∧ base64Decode item.contentB64 = some bytes
  | .counted _ bytes previous =>
      previous ≤ options.maxUploadTotalDecodedBytes ∧
        bytes.length.toUInt64 ≤ options.maxUploadTotalDecodedBytes - previous
  | .failing _ reason => reason ≠ .fileLimit ∧ reason ≠ .totalLimit
  | .claiming | .writing .. | .written | .returned => True

variable {job : UploadJob}

/-- What every run of the workers keeps. -/
structure Kept (options : FrontendUploadOptions) (job : UploadJob)
    (s : Workers job.workerCount.toNat UploadShared UploadPlace) : Prop where
  places : ∀ w, PlaceOk options job (s.place w)
  failures : ∀ f ∈ s.shared.failures, f.reason ≠ .fileLimit ∧ f.reason ≠ .totalLimit
  -- what has been added and what is still to be added
  spent : s.shared.totalDecodedBytes.toNat + s.total pending ≤
    budget job.items s.shared.nextIndex.toNat
  -- an index behind the items ends the worker that took it
  taken : s.shared.nextIndex.toNat ≤ job.items.length + s.total hasReturned
  returned : 0 < s.total hasReturned → job.items.length ≤ s.shared.nextIndex.toNat
  -- every item taken is under way, uploaded or noted as failed
  settled : s.shared.successCount.toNat + s.shared.failures.length + s.total inFlight =
    min s.shared.nextIndex.toNat job.items.length

theorem total_start {weight : UploadPlace → Nat} (h : weight .claiming = 0) :
    job.start.total weight = 0 :=
  Workers.total_start h

theorem kept_start : Kept options job job.start where
  places := fun _ => trivial
  failures := fun _ h => nomatch h
  spent := by
    rw [@total_start job pending rfl]
    exact Nat.zero_le _
  taken := Nat.zero_le _
  returned := fun h => by
    rw [@total_start job hasReturned rfl] at h
    exact absurd h (Nat.lt_irrefl 0)
  settled := by
    rw [@total_start job inFlight rfl]
    show 0 = min 0 _
    rw [Nat.zero_min]

variable {s : Workers job.workerCount.toNat UploadShared UploadPlace}
  {w : Fin job.workerCount.toNat} {place : UploadPlace}

/-- A worker goes on with its item, and leaves what is shared alone. -/
theorem Kept.advance (h : Kept options job s) (hok : PlaceOk options job place)
    (hpending : pending place ≤ pending (s.place w))
    (hflight : inFlight place = inFlight (s.place w))
    (hreturned : hasReturned place = hasReturned (s.place w)) :
    Kept options job (s.moved w s.shared place) := by
  have hp := s.total_moved pending w s.shared place
  have hf := s.total_moved inFlight w s.shared place
  have hr := s.total_moved hasReturned w s.shared place
  have hspent := h.spent
  have htaken := h.taken
  have hsettled := h.settled
  constructor
  case places => exact Workers.forall_moved h.places hok
  case failures => exact h.failures
  case spent =>
    show s.shared.totalDecodedBytes.toNat + _ ≤ budget job.items s.shared.nextIndex.toNat
    omega
  case taken =>
    show s.shared.nextIndex.toNat ≤ _
    omega
  case returned =>
    intro hpos
    exact h.returned (by omega)
  case settled =>
    show s.shared.successCount.toNat + s.shared.failures.length + _ =
      min s.shared.nextIndex.toNat _
    omega

/-- An item is taken, or a worker finds that there is none. -/
theorem Kept.claim (hjob : Started options job) (h : Kept options job s)
    (hplace : s.place w = .claiming) :
    Kept options job (s.moved w { s.shared with nextIndex := s.shared.nextIndex + 1 }
      (claimItem job.items s.shared.nextIndex)) := by
  have hreturned_le := s.total_le hasReturned_le
  have htaken := h.taken
  have hspent := h.spent
  have hsettled := h.settled
  have hitems := hjob.items_lt
  have hworkers := hjob.workers_lt
  have hnext : (s.shared.nextIndex + 1).toNat = s.shared.nextIndex.toNat + 1 :=
    toNat_add_of_lt (by show s.shared.nextIndex.toNat + 1 < _; omega)
  have hmoved : ∀ {weight : UploadPlace → Nat} {shared : UploadShared} {place : UploadPlace},
      weight .claiming = 0 →
        (s.moved w shared place).total weight = s.total weight + weight place :=
    fun {weight shared place} hzero => by
      have hsum := s.total_moved weight w shared place
      rwa [hplace, hzero, Nat.add_zero] at hsum
  cases hget : job.items[s.shared.nextIndex.toNat]? with
  | none =>
      have hend : job.items.length ≤ s.shared.nextIndex.toNat := List.getElem?_eq_none_iff.mp hget
      have hclaim : claimItem job.items s.shared.nextIndex = .returned := by rw [claimItem, hget]
      rw [hclaim]
      constructor
      case places => exact Workers.forall_moved h.places trivial
      case failures => exact h.failures
      case spent =>
        show s.shared.totalDecodedBytes.toNat + _ ≤ budget job.items (s.shared.nextIndex + 1).toNat
        rw [hmoved rfl, hnext, budget_end hget]
        exact hspent
      case taken =>
        show (s.shared.nextIndex + 1).toNat ≤ _
        rw [hmoved rfl, hnext]
        show _ ≤ _ + (_ + 1)
        omega
      case returned =>
        intro _
        show _ ≤ (s.shared.nextIndex + 1).toNat
        omega
      case settled =>
        show s.shared.successCount.toNat + s.shared.failures.length + _ =
          min (s.shared.nextIndex + 1).toNat _
        rw [hmoved rfl, hnext]
        show _ + (_ + 0) = _
        omega
  | some item =>
      obtain ⟨hlt, hitem⟩ := List.getElem?_eq_some_iff.mp hget
      have hclaim : claimItem job.items s.shared.nextIndex = .claimed item := by
        rw [claimItem, hget]
      have hnone : s.total hasReturned = 0 := by
        rcases Nat.eq_zero_or_pos (s.total hasReturned) with hzero | hpos
        · exact hzero
        · exact absurd (h.returned hpos) (by omega)
      rw [hclaim]
      constructor
      case places => exact Workers.forall_moved h.places (hitem ▸ List.getElem_mem hlt)
      case failures => exact h.failures
      case spent =>
        show s.shared.totalDecodedBytes.toNat + _ ≤ budget job.items (s.shared.nextIndex + 1).toNat
        rw [hmoved rfl, hnext, budget_succ hget]
        show _ + (_ + cost item) ≤ _
        omega
      case taken =>
        show (s.shared.nextIndex + 1).toNat ≤ _
        omega
      case returned =>
        intro hpos
        rw [hmoved rfl, hnone] at hpos
        exact absurd hpos (Nat.lt_irrefl 0)
      case settled =>
        show s.shared.successCount.toNat + s.shared.failures.length + _ =
          min (s.shared.nextIndex + 1).toNat _
        rw [hmoved rfl, hnext]
        show _ + (_ + 1) = _
        omega

/-- The size of an item is added; it is no more than the estimate that was waiting for it. -/
theorem Kept.count (hjob : Started options job) (h : Kept options job s) {item : UploadItem}
    {bytes : Str} (hplace : s.place w = .counting item bytes) :
    Kept options job (s.moved w
      { s.shared with
        totalDecodedBytes := s.shared.totalDecodedBytes + bytes.length.toUInt64 }
      (.counted item bytes s.shared.totalDecodedBytes)) := by
  obtain ⟨total, hadmitted⟩ := hjob.admitted
  have hok := h.places w
  rw [hplace] at hok
  obtain ⟨hitem, hdecode⟩ := hok
  obtain ⟨hsize, hnat⟩ := hadmitted.decoded hitem hdecode
  have hp := s.total_moved pending w { s.shared with
    totalDecodedBytes := s.shared.totalDecodedBytes + bytes.length.toUInt64 }
    (.counted item bytes s.shared.totalDecodedBytes)
  have hf := s.total_moved inFlight w { s.shared with
    totalDecodedBytes := s.shared.totalDecodedBytes + bytes.length.toUInt64 }
    (.counted item bytes s.shared.totalDecodedBytes)
  have hr := s.total_moved hasReturned w { s.shared with
    totalDecodedBytes := s.shared.totalDecodedBytes + bytes.length.toUInt64 }
    (.counted item bytes s.shared.totalDecodedBytes)
  rw [hplace] at hp hf hr
  change _ + cost item = _ + 0 at hp
  change _ + 1 = _ + 1 at hf
  change _ + 0 = _ + 0 at hr
  have hspent := h.spent
  have htaken := h.taken
  have hsettled := h.settled
  have hbudget := budget_le job.items s.shared.nextIndex.toNat
  rw [← hadmitted.total_eq] at hbudget
  have hmax := UInt64.le_iff_toNat_le.mp hadmitted.total_le
  have hmax_lt := options.maxUploadTotalDecodedBytes.toNat_lt
  have hadd : (s.shared.totalDecodedBytes + bytes.length.toUInt64).toNat =
      s.shared.totalDecodedBytes.toNat + bytes.length := by
    rw [toNat_add_of_lt (by omega), hnat]
  have hprevious : s.shared.totalDecodedBytes ≤ options.maxUploadTotalDecodedBytes :=
    UInt64.le_iff_toNat_le.mpr (by omega)
  have hremains : bytes.length.toUInt64 ≤
      options.maxUploadTotalDecodedBytes - s.shared.totalDecodedBytes := by
    rw [UInt64.le_iff_toNat_le, UInt64.toNat_sub_of_le _ _ hprevious, hnat]
    omega
  constructor
  case places => exact Workers.forall_moved h.places ⟨hprevious, hremains⟩
  case failures => exact h.failures
  case spent =>
    show (s.shared.totalDecodedBytes + bytes.length.toUInt64).toNat + _ ≤
      budget job.items s.shared.nextIndex.toNat
    omega
  case taken =>
    show s.shared.nextIndex.toNat ≤ _
    omega
  case returned =>
    intro hpos
    exact h.returned (by omega)
  case settled =>
    show s.shared.successCount.toNat + s.shared.failures.length + _ =
      min s.shared.nextIndex.toNat _
    omega

/-- An item is settled: the counters and the notes take it up, and the worker asks for the next. -/
theorem Kept.settle (h : Kept options job s) {shared : UploadShared}
    (hnext : shared.nextIndex = s.shared.nextIndex)
    (htotal : shared.totalDecodedBytes = s.shared.totalDecodedBytes)
    (hnotes : ∀ f ∈ shared.failures, f.reason ≠ .fileLimit ∧ f.reason ≠ .totalLimit)
    (hcount : shared.successCount.toNat + shared.failures.length =
      s.shared.successCount.toNat + s.shared.failures.length + 1)
    (hpending : pending (s.place w) = 0) (hflight : inFlight (s.place w) = 1)
    (hreturned : hasReturned (s.place w) = 0) :
    Kept options job (s.moved w shared .claiming) := by
  have hp := s.total_moved pending w shared .claiming
  have hf := s.total_moved inFlight w shared .claiming
  have hr := s.total_moved hasReturned w shared .claiming
  rw [hpending] at hp
  rw [hflight] at hf
  rw [hreturned] at hr
  change _ = _ + 0 at hp
  change _ = _ + 0 at hf
  change _ = _ + 0 at hr
  have hspent := h.spent
  have htaken := h.taken
  have hsettled := h.settled
  constructor
  case places => exact Workers.forall_moved h.places trivial
  case failures => exact hnotes
  case spent =>
    show shared.totalDecodedBytes.toNat + _ ≤ budget job.items shared.nextIndex.toNat
    rw [htotal, hnext]
    omega
  case taken =>
    show shared.nextIndex.toNat ≤ _
    rw [hnext]
    omega
  case returned =>
    intro hpos
    show _ ≤ shared.nextIndex.toNat
    rw [hnext]
    exact h.returned (by omega)
  case settled =>
    show shared.successCount.toNat + shared.failures.length + _ = min shared.nextIndex.toNat _
    rw [hnext]
    omega

/-! ## What the checks find -/

theorem checkFileLimit_admitted {total : UInt64} {item : UploadItem} {bytes : Str}
    (h : Admitted options total job.items) (hitem : item ∈ job.items)
    (hdecode : base64Decode item.contentB64 = some bytes) :
    checkFileLimit options item bytes = .counting item bytes := by
  obtain ⟨hsize, hnat⟩ := h.decoded hitem hdecode
  refine if_neg (UInt64.not_lt.mpr (UInt64.le_iff_toNat_le.mpr ?_))
  rw [hnat]
  exact Nat.le_trans hsize (h.cost_le item hitem)

theorem checkTotalLimit_fits {item : UploadItem} {bytes : Str} {previous : UInt64}
    (h : PlaceOk options job (.counted item bytes previous)) :
    checkTotalLimit options item bytes previous = .writing item bytes :=
  if_neg (not_or.mpr ⟨UInt64.not_lt.mpr h.1, UInt64.not_lt.mpr h.2⟩)

/-- Every move keeps it. -/
theorem Kept.moved (hjob : Started options job) {shared : UploadShared} (h : Kept options job s)
    (hmove : UploadMove options job s.shared (s.place w) shared place) :
    Kept options job (s.moved w shared place) := by
  have hok := h.places w
  generalize hplace : s.place w = old at hmove hok
  generalize hshared : s.shared = before at hmove
  cases hmove with
  | claim =>
      subst hshared
      exact h.claim hjob hplace
  | @decode item =>
      subst hshared
      cases hdecode : base64Decode item.contentB64 with
      | none =>
          rw [decodeItem, hdecode]
          refine h.advance ⟨nofun, nofun⟩ (Nat.zero_le _) ?_ ?_ <;> rw [hplace] <;> rfl
      | some bytes =>
          rw [decodeItem, hdecode]
          refine h.advance ⟨hok, hdecode⟩ (Nat.le_of_eq ?_) ?_ ?_ <;> rw [hplace] <;> rfl
  | checkFile =>
      subst hshared
      obtain ⟨total, hadmitted⟩ := hjob.admitted
      rw [checkFileLimit_admitted hadmitted hok.1 hok.2]
      refine h.advance hok (Nat.le_of_eq ?_) ?_ ?_ <;> rw [hplace] <;> rfl
  | count =>
      subst hshared
      exact h.count hjob hplace
  | checkTotal =>
      subst hshared
      rw [checkTotalLimit_fits hok]
      refine h.advance trivial (Nat.zero_le _) ?_ ?_ <;> rw [hplace] <;> rfl
  | @write item bytes outcome houtcome =>
      subst hshared
      have hafter : PlaceOk options job (afterWrite item outcome) ∧
          pending (afterWrite item outcome) = 0 ∧ inFlight (afterWrite item outcome) = 1 ∧
          hasReturned (afterWrite item outcome) = 0 := by
        cases houtcome with
        | success => exact ⟨trivial, rfl, rfl, rfl⟩
        | outsideRoot | createDirectory | createFile | writeFile =>
            exact ⟨⟨nofun, nofun⟩, rfl, rfl, rfl⟩
      obtain ⟨hafter, hpending, hflight, hreturned⟩ := hafter
      refine h.advance hafter (hpending ▸ Nat.zero_le _) ?_ ?_
      · rw [hplace, hflight]
        rfl
      · rw [hplace, hreturned]
        rfl
  | succeed =>
      subst hshared
      have hflight : inFlight (s.place w) = 1 := by rw [hplace]; rfl
      have hweight := s.total_moved inFlight w s.shared .claiming
      have hsettled := h.settled
      have hitems := hjob.items_lt
      have hone : s.shared.successCount.toNat + 1 < 2 ^ 64 := by omega
      refine h.settle rfl rfl h.failures ?_ ?_ hflight ?_
      · show (s.shared.successCount + 1).toNat + s.shared.failures.length = _
        rw [toNat_add_of_lt hone]
        show _ + 1 + _ = _
        omega
      · rw [hplace]
        rfl
      · rw [hplace]
        rfl
  | @fail item reason =>
      subst hshared
      refine h.settle rfl rfl ?_ ?_ ?_ ?_ ?_
      · intro f hf
        rcases List.mem_append.mp hf with hf | hf
        · exact h.failures f hf
        · rw [List.mem_singleton.mp hf]
          exact hok
      · show s.shared.successCount.toNat + (s.shared.failures ++ [_]).length = _
        rw [List.length_append, List.length_singleton]
        omega
      · rw [hplace]
        rfl
      · rw [hplace]
        rfl
      · rw [hplace]
        rfl

theorem kept_of_reaches (hjob : Started options job) (h : job.Reaches options s) :
    Kept options job s :=
  h.keeps (fun hkept hmove => hkept.moved hjob hmove) kept_start

/-- When the workers have returned, every item has been uploaded or is noted as failed. -/
theorem uploads_settled (hjob : Started options job) (h : job.Reaches options s)
    (hreturned : ∀ w, s.place w = .returned) :
    s.shared.successCount.toNat + s.shared.failures.length = job.items.length := by
  have hkept := kept_of_reaches hjob h
  have hflight : s.total inFlight = 0 :=
    Finset.sum_eq_zero fun w _ => by rw [hreturned w]; rfl
  have hone : hasReturned (s.place ⟨0, hjob.workers_pos⟩) ≤ s.total hasReturned :=
    Finset.single_le_sum (f := fun w => hasReturned (s.place w)) (fun _ _ => Nat.zero_le _)
      (Finset.mem_univ (⟨0, hjob.workers_pos⟩ : Fin _))
  rw [hreturned] at hone
  have hend := hkept.returned hone
  have hsettled := hkept.settled
  omega

/-! ## The limits -/

/-- The loop over the files comes to the subtraction, with this total so far and this estimate. -/
def Subtracts (options : FrontendUploadOptions) (files : List Json) (total estimated : UInt64) :
    Prop :=
  ∃ before file after items item, files = before ++ file :: after ∧
    admitFiles options 0 [] before = .ok (total, items) ∧
    estimateFile options file = .ok (item, estimated)

end

/-- On a server that has started: the estimate of a text is no less than what it decodes to, the
loop subtracts from the limit no more than the limit and admits no more than it, and no worker
finds an admitted file over a limit, in whatever order the workers move. -/
theorem uploads_within_limits {platform : Platform} {options : FrontendUploadOptions}
    (h : (FrontendApiServer.start platform { options := options }).1.ok = true) :
    (∀ encoded bytes : Str, encoded.length ≤ maxSize 1 → base64Decode encoded = some bytes →
      ∃ estimated, estimateBase64DecodedSize encoded = some estimated ∧
        bytes.length ≤ estimated.toNat) ∧
    (∀ files total estimated, Subtracts options files total estimated →
      estimated ≤ options.maxUploadTotalDecodedBytes) ∧
    (∀ files total items, admitFiles options 0 [] files = .ok (total, items) →
      total.toNat = (items.map cost).sum ∧ total ≤ options.maxUploadTotalDecodedBytes) ∧
    ∀ platform' body job, directoryUpload platform' options body = .ok job →
      ∀ s, job.Reaches options s →
        s.shared.totalDecodedBytes ≤ options.maxUploadTotalDecodedBytes ∧
        (∀ f ∈ s.shared.failures, f.reason ≠ .fileLimit ∧ f.reason ≠ .totalLimit) ∧
        ∀ w, (∀ item bytes, s.place w = .decoded item bytes →
            checkFileLimit options item bytes = .counting item bytes) ∧
          ∀ item bytes previous, s.place w = .counted item bytes previous →
            previous ≤ options.maxUploadTotalDecodedBytes ∧
              checkTotalLimit options item bytes previous = .writing item bytes := by
  have hlimits := limits_of_start h
  refine ⟨?_, ?_, ?_, ?_⟩
  · intro encoded bytes hsize hdecode
    exact decoded_le_estimate (Nat.lt_of_le_of_lt hsize (maxSize_lt 1)) hdecode
  · rintro files total estimated ⟨before, file, after, items, item, -, -, hestimate⟩
    exact UInt64.le_trans (estimateFile_ok hestimate).2.2 hlimits.file_le_total
  · intro files total items hadmit
    obtain ⟨hadmitted, -⟩ := Admitted.nil.admitFiles hlimits hadmit
    exact ⟨hadmitted.total_eq, hadmitted.total_le⟩
  · intro platform' body job hupload s hreaches
    have hjob := directoryUpload_ok hlimits hupload
    have hkept := kept_of_reaches hjob hreaches
    obtain ⟨total, hadmitted⟩ := hjob.admitted
    refine ⟨?_, hkept.failures, fun w => ⟨?_, ?_⟩⟩
    · have hspent := hkept.spent
      have hbudget := budget_le job.items s.shared.nextIndex.toNat
      have hmax := UInt64.le_iff_toNat_le.mp hadmitted.total_le
      rw [← hadmitted.total_eq] at hbudget
      exact UInt64.le_iff_toNat_le.mpr (by omega)
    · intro item bytes hplace
      have hok := hkept.places w
      rw [hplace] at hok
      exact checkFileLimit_admitted hadmitted hok.1 hok.2
    · intro item bytes previous hplace
      have hok := hkept.places w
      rw [hplace] at hok
      exact ⟨hok.1, checkTotalLimit_fits hok⟩

/-- A file of three bytes. -/
def abcFile : Json :=
  jsonObject [("relative_path", .string (str "a")), ("content_b64", .string (str "QUJD"))]

def abcItem : UploadItem := { relativePath := str "a", contentB64 := str "QUJD" }

/-- Another one. -/
def defFile : Json :=
  jsonObject [("relative_path", .string (str "b")), ("content_b64", .string (str "REVG"))]

def defItem : UploadItem := { relativePath := str "b", contentB64 := str "REVG" }

/-- The limits that the two just fill. -/
def tightOptions : FrontendUploadOptions :=
  { maxUploadFileBytes := 3, maxUploadTotalDecodedBytes := 6, requireJwt := false }

def barePlatform : Platform where
  isDirectory _ := true
  canonical := some
  listen _ := .success

def abcDefBody : Json :=
  jsonObject [("destination_dir", .string (str "d")), ("files", .array [abcFile, defFile])]

def abcDefJob : UploadJob where
  destinationDir := str "d"
  allowedWriteRoot := none
  items := [abcItem, defItem]
  workerCount := 4

/-- Both files are admitted, and of four workers two take one file each and count it; the one
that comes second to the total finds three bytes there and may still write. -/
theorem uploads_within_limits_counted :
    directoryUpload barePlatform tightOptions abcDefBody = .ok abcDefJob ∧
    (6 : UInt64).toNat = ([abcItem, defItem].map cost).sum ∧
    ∃ s, abcDefJob.Reaches tightOptions s ∧
      s.place (0 : Fin 4) = .counted abcItem (str "ABC") 0 ∧
      s.place (1 : Fin 4) = .counted defItem (str "DEF") 3 ∧
      s.shared.totalDecodedBytes ≤ tightOptions.maxUploadTotalDecodedBytes ∧
      checkTotalLimit tightOptions defItem (str "DEF") 3 = .writing defItem (str "DEF") := by
  have hlimits := @uploads_within_limits barePlatform tightOptions rfl
  have hupload : directoryUpload barePlatform tightOptions abcDefBody = .ok abcDefJob := by rfl
  refine ⟨hupload, (hlimits.2.2.1 [abcFile, defFile] 6 [abcItem, defItem] rfl).1, ?_⟩
  let first : Fin abcDefJob.workerCount.toNat := (0 : Fin 4)
  let second : Fin abcDefJob.workerCount.toNat := (1 : Fin 4)
  have hstart : abcDefJob.Reaches tightOptions abcDefJob.start := .refl
  have hclaimed := (hstart.step first rfl .claim).step second rfl .claim
  have hdecoded := (hclaimed.step first rfl .decode).step second rfl .decode
  have hchecked := (hdecoded.step first rfl .checkFile).step second rfl .checkFile
  have hcounted := (hchecked.step first rfl .count).step second rfl .count
  obtain ⟨htotal, -, hplaces⟩ :=
    hlimits.2.2.2 barePlatform abcDefBody abcDefJob hupload _ hcounted
  exact ⟨_, hcounted, by rfl, by rfl, htotal, ((hplaces second).2 defItem (str "DEF") 3 rfl).2⟩

end ServerStorage.Hugin
