/-
# `ServerStorage.Hugin.RoutingKey` — which routing keys of a delta are accepted

The key Muninn writes is always accepted.  `std::stoull` reads other spellings of the two
ids too, and these are accepted as well; the check is exact for the keys in which both
halves that read as the ids are printed plainly.
-/
import ServerStorage.Hugin.Agreement

namespace ServerStorage.Hugin

open Lib ServerStorage.Muninn

/-- The payload decodes to a delta that is valid on its own. -/
structure CarriesDelta (frame : MuninnFrame) (delta : DeltaSnapshot) : Prop where
  type : frame.type = .delta
  decoded : Serialization.deserializeDeltaBinary frame.payload = .ok delta
  valid : (validateDelta delta none none).hasErrors = false

/-- Halves of the key that are read as the two ids are numbers as they are printed. -/
def ReadPlainly (routingKey : Str) (delta : DeltaSnapshot) : Prop :=
  ∀ base target, splitArrow routingKey = some (base, target) →
    stoull base = some delta.baseSnapshotId → stoull target = some delta.targetSnapshotId →
      Plain base ∧ Plain target

section
variable {frame : MuninnFrame} {delta : DeltaSnapshot} {routingKey : Str}

theorem splitArrow_eq : ∀ {text base target : Str}, splitArrow text = some (base, target) →
    text = base ++ 45 :: 62 :: target := by
  intro text
  induction text using splitArrow.induct with
  | case1 rest =>
      intro base target h
      rw [splitArrow] at h
      cases h
      rfl
  | case2 c rest hno ih =>
      intro base target h
      rw [splitArrow] at h
      · obtain ⟨⟨base', target'⟩, hsplit, heq⟩ := Option.map_eq_some_iff.mp h
        cases heq
        rw [List.cons_append, ← ih hsplit]
      · exact hno
  | case3 =>
      intro base target h
      cases h

/-- A key is accepted when both halves read as the ids. -/
theorem validateDeltaRoutingKey_ok :
    (validateDeltaRoutingKey routingKey delta).ok = true ↔
      ∃ base target, splitArrow routingKey = some (base, target) ∧
        stoull base = some delta.baseSnapshotId ∧ stoull target = some delta.targetSnapshotId := by
  rw [validateDeltaRoutingKey]
  cases hsplit : splitArrow routingKey with
  | none =>
      refine iff_of_false Bool.false_ne_true ?_
      rintro ⟨_, _, h, -⟩
      cases h
  | some halves =>
      obtain ⟨base, target⟩ := halves
      dsimp only
      cases hbase : stoull base with
      | none =>
          refine iff_of_false Bool.false_ne_true ?_
          rintro ⟨_, _, h, hread, -⟩
          cases h
          rw [hbase] at hread
          cases hread
      | some n =>
          cases htarget : stoull target with
          | none =>
              refine iff_of_false Bool.false_ne_true ?_
              rintro ⟨_, _, h, -, hread⟩
              cases h
              rw [htarget] at hread
              cases hread
          | some m =>
              dsimp only
              split
              next hne =>
                refine iff_of_false Bool.false_ne_true ?_
                rintro ⟨_, _, h, hread, hread'⟩
                cases h
                rw [hbase] at hread
                rw [htarget] at hread'
                rcases hne with hne | hne
                · exact hne (Option.some.inj hread)
                · exact hne (Option.some.inj hread')
              next heq =>
                rw [not_or, not_not, not_not] at heq
                exact iff_of_true rfl ⟨base, target, rfl, by rw [hbase, heq.1], by
                  rw [htarget, heq.2]⟩

theorem validateAndDecode_delta (h : CarriesDelta frame delta) (expectedHostId : Str) :
    (validateAndDecode frame expectedHostId).isOk = true ↔
      (validateDeltaRoutingKey frame.routingKey delta).ok = true := by
  have hvalid : ¬ (validateDelta delta none none).hasErrors = true := Bool.eq_false_iff.mp h.valid
  rw [validateAndDecode, h.type]
  dsimp only
  rw [validateDeltaFrame, h.decoded]
  dsimp only
  rw [if_neg hvalid]
  cases hok : (validateDeltaRoutingKey frame.routingKey delta).ok with
  | true => exact iff_of_true rfl rfl
  | false => exact iff_of_false Bool.false_ne_true Bool.false_ne_true

/-- A frame with a valid delta is accepted under the key of its delta and no other, exactly where the
key it has does not read as that key in another spelling. -/
theorem routing_key_exact (h : CarriesDelta frame delta) (expectedHostId : Str) :
    ((validateAndDecode frame expectedHostId).isOk = true ↔
        frame.routingKey = LmdbStore.deltaRoute delta) ↔
      ReadPlainly frame.routingKey delta := by
  rw [validateAndDecode_delta h, validateDeltaRoutingKey_ok]
  constructor
  · intro hexact base target hsplit hbase htarget
    have hkey := hexact.mp ⟨base, target, hsplit, hbase, htarget⟩
    rw [hkey, splitArrow_route] at hsplit
    cases hsplit
    exact ⟨plain_decimal _, plain_decimal _⟩
  · intro hplain
    constructor
    · rintro ⟨base, target, hsplit, hbase, htarget⟩
      obtain ⟨hbase', htarget'⟩ := hplain base target hsplit hbase htarget
      rw [splitArrow_eq hsplit, hbase'.eq_decimal hbase, htarget'.eq_decimal htarget,
        LmdbStore.deltaRoute, arrow_bytes, List.append_assoc]
      rfl
    · intro hkey
      exact ⟨_, _, hkey ▸ splitArrow_route delta, stoull_decimal_eq _, stoull_decimal_eq _⟩

end

/-! ## A sign, a blank, a zero -/

/-- The delta from snapshot 1 to snapshot 2, under some key. -/
def routedFrame (routingKey : Str) : MuninnFrame :=
  { type := .delta
    routingKey := routingKey
    payload :=
      match Serialization.serializeDeltaBinary { baseSnapshotId := 1, targetSnapshotId := 2 } with
      | .ok payload => payload
      | .error _ => [] }

theorem routedFrame_carriesDelta (routingKey : Str) :
    CarriesDelta (routedFrame routingKey) { baseSnapshotId := 1, targetSnapshotId := 2 } where
  type := rfl
  decoded := by
    show Serialization.deserializeDeltaBinary (routedFrame []).payload = _
    decide +kernel
  valid := by decide +kernel

/-- A key that Muninn never writes is accepted. -/
theorem routing_key_respelled :
    CarriesDelta (routedFrame (str "+1-> 02x")) { baseSnapshotId := 1, targetSnapshotId := 2 } ∧
      (validateAndDecode (routedFrame (str "+1-> 02x")) []).isOk = true ∧
      str "+1-> 02x" ≠
        LmdbStore.deltaRoute { baseSnapshotId := 1, targetSnapshotId := 2 } :=
  ⟨routedFrame_carriesDelta _, by decide +kernel, by decide +kernel⟩

theorem routing_key_exact_plain :
    ((validateAndDecode (routedFrame (str "1->2")) []).isOk = true ↔
        str "1->2" = LmdbStore.deltaRoute { baseSnapshotId := 1, targetSnapshotId := 2 }) ↔
      ReadPlainly (str "1->2") { baseSnapshotId := 1, targetSnapshotId := 2 } :=
  routing_key_exact (routedFrame_carriesDelta (str "1->2")) []

end ServerStorage.Hugin
