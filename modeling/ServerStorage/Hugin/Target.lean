/-
# `ServerStorage.Hugin.Target` — `parse_target` of `api/frontend_api_server.cpp`

The access token is looked for as a text anywhere in the query, so the parameter it is read
from is the first one that holds `access_token=`: one whose name ends that way, or whose
value holds it, comes before the token's own parameter.
-/
import ServerStorage.Lib.Search

namespace ServerStorage.Hugin

open Lib

def questionMark : UInt8 := 63
def ampersand : UInt8 := 38
def equalsSign : UInt8 := 61

structure ParsedTarget where
  path : Str := []
  query : Str := []
  accessToken : Option Str := none
  deriving DecidableEq, Repr

def accessTokenKey : Str := str "access_token="

def parseTarget (target : Str) : ParsedTarget :=
  match target.findIdx? (· == questionMark) with
  | none => { path := target }
  | some q =>
      let parsed : ParsedTarget := { path := target.take q, query := target.drop (q + 1) }
      match find accessTokenKey parsed.query with
      | none => parsed
      | some keyPos =>
          let valueStart := keyPos + accessTokenKey.length
          let valueEnd := valueStart + (parsed.query.drop valueStart).findIdx (· == ampersand)
          if valueStart < valueEnd then
            { parsed with
              accessToken := some ((parsed.query.drop valueStart).take (valueEnd - valueStart)) }
          else parsed

/-! ## Targets with parameters -/

/-- A pair `key=value`. -/
structure Parameter where
  key : Str
  value : Str
  bare : equalsSign ∉ key ∧ ampersand ∉ key := by decide
  whole : ampersand ∉ value := by decide

def Parameter.text (p : Parameter) : Str := p.key ++ equalsSign :: p.value

/-- A path and, behind a question mark, a list of parameters. -/
structure RequestTarget where
  path : Str
  query : Option (List Parameter)
  noMark : questionMark ∉ path := by decide

namespace RequestTarget

def parameters (target : RequestTarget) : List Parameter := target.query.getD []

def queryText (parameters : List Parameter) : Str :=
  [ampersand].intercalate (parameters.map Parameter.text)

def text (target : RequestTarget) : Str :=
  match target.query with
  | none => target.path
  | some parameters => target.path ++ questionMark :: queryText parameters

end RequestTarget

def nonempty (value : Str) : Option Str := if value = [] then none else some value

/-- The token that is meant: the value of the first parameter with this very name. -/
def tokenOf (parameters : List Parameter) : Option Str :=
  (parameters.find? fun p => p.key = str "access_token").bind fun p => nonempty p.value

/-! ## What the search finds -/

/-- What stands in a parameter behind `access_token=`. -/
def Parameter.behindKey (p : Parameter) : Option Str := behind accessTokenKey p.text

/-- The first parameter that holds `access_token=` is the token's own, or what stands behind the
text there happens to be the token. -/
def ReadFromItsOwn (parameters : List Parameter) : Prop :=
  ∀ p, parameters.find? (fun p => p.behindKey.isSome) = some p →
    p.key = str "access_token" ∨ p.behindKey.bind nonempty = tokenOf parameters

theorem accessTokenKey_eq : accessTokenKey = str "access_token" ++ [equalsSign] := by decide

theorem accessTokenKey_ne_nil : accessTokenKey ≠ [] := by decide

theorem ampersand_not_mem_accessTokenKey : ampersand ∉ accessTokenKey := by decide

/-- In its own parameter the text stands in front of the value. -/
theorem Parameter.behindKey_own {p : Parameter} (h : p.key = str "access_token") :
    p.behindKey = some p.value := by
  have htext : p.text = accessTokenKey ++ p.value := by
    rw [Parameter.text, h, accessTokenKey_eq, List.append_assoc]
    rfl
  rw [Parameter.behindKey, htext, behind_append accessTokenKey_ne_nil]

theorem Parameter.ampersand_not_mem (p : Parameter) : ampersand ∉ p.text := by
  intro hmem
  rcases List.mem_append.mp hmem with hkey | hrest
  · exact p.bare.2 hkey
  · rcases List.mem_cons.mp hrest with heq | hvalue
    · exact absurd heq (by decide)
    · exact p.whole hvalue

/-- The value up to the next ampersand. -/
theorem take_findIdx (text : Str) :
    text.take (text.findIdx (· == ampersand)) = text.takeWhile (· ≠ ampersand) := by
  rw [List.takeWhile_eq_take_findIdx_not]
  refine congrArg (fun p => text.take (text.findIdx p)) (funext fun c => ?_)
  rw [decide_not, Bool.not_not]
  rfl

theorem parseTarget_query {path query : Str} (h : questionMark ∉ path) :
    parseTarget (path ++ questionMark :: query) =
      { path := path
        query := query
        accessToken := ((behind accessTokenKey query).map
          (List.takeWhile (· ≠ ampersand))).bind nonempty } := by
  have hpath : (path ++ questionMark :: query).findIdx? (· == questionMark) = some path.length := by
    have hnone : path.findIdx? (· == questionMark) = none :=
      List.findIdx?_eq_none_iff.mpr fun c hc =>
        beq_eq_false_iff_ne.mpr fun heq => h (heq ▸ hc)
    rw [List.findIdx?_append, hnone, List.findIdx?_cons]
    simp
  have htake : (path ++ questionMark :: query).take path.length = path := List.take_left
  have hdrop : (path ++ questionMark :: query).drop (path.length + 1) = query := by
    rw [List.drop_append, Nat.add_sub_cancel_left, List.drop_eq_nil_of_le (Nat.le_succ _)]
    rfl
  simp only [parseTarget, hpath, htake, hdrop, behind]
  cases hfind : find accessTokenKey query with
  | none => rfl
  | some keyPos =>
      dsimp only [Option.map_some, Option.bind_some]
      rw [← take_findIdx, nonempty, Nat.add_sub_cancel_left]
      generalize query.drop (keyPos + accessTokenKey.length) = rest
      have hlength : rest.findIdx (· == ampersand) ≤ rest.length := List.findIdx_le_length
      by_cases hempty : rest.findIdx (· == ampersand) = 0
      · rw [hempty, List.take_zero, Nat.add_zero, if_neg (Nat.lt_irrefl _), if_pos rfl]
      · have hne : rest.take (rest.findIdx (· == ampersand)) ≠ [] := by
          intro hnil
          have hzero := congrArg List.length hnil
          rw [List.length_take, List.length_nil] at hzero
          omega
        rw [if_pos (Nat.lt_add_of_pos_right (Nat.pos_of_ne_zero hempty)), if_neg hne]

/-- The token is read from the first parameter in which the text stands. -/
theorem parseTarget_text (target : RequestTarget) :
    (parseTarget target.text).path = target.path ∧
      (parseTarget target.text).accessToken =
        (target.parameters.findSome? Parameter.behindKey).bind nonempty := by
  rw [RequestTarget.text, RequestTarget.parameters]
  cases target.query with
  | none =>
      have hnone : target.path.findIdx? (· == questionMark) = none :=
        List.findIdx?_eq_none_iff.mpr fun c hc =>
          beq_eq_false_iff_ne.mpr fun heq => target.noMark (heq ▸ hc)
      rw [parseTarget, hnone]
      exact ⟨rfl, rfl⟩
  | some parameters =>
      have hfields : ∀ field ∈ parameters.map Parameter.text, ampersand ∉ field := by
        intro field hfield
        obtain ⟨p, -, rfl⟩ := List.mem_map.mp hfield
        exact p.ampersand_not_mem
      have hfound := behind_intercalate accessTokenKey_ne_nil ampersand_not_mem_accessTokenKey hfields
      dsimp only [Option.getD_some]
      rw [parseTarget_query target.noMark]
      refine ⟨rfl, congrArg (fun o => Option.bind o nonempty) ?_⟩
      rw [RequestTarget.queryText, hfound, List.findSome?_map]
      rfl

/-! ## The token and its own parameter -/

theorem findSome?_behindKey : ∀ parameters : List Parameter,
    parameters.findSome? Parameter.behindKey =
      (parameters.find? fun p => p.behindKey.isSome).bind Parameter.behindKey
  | [] => rfl
  | p :: rest => by
      rw [List.findSome?_cons, List.find?_cons]
      cases hbehind : p.behindKey with
      | none => exact findSome?_behindKey rest
      | some value => exact hbehind.symm

/-- A parameter with the token's name holds the text, so none comes before the first that does. -/
theorem tokenOf_of_first {p : Parameter} : ∀ {parameters : List Parameter},
    parameters.find? (fun p => p.behindKey.isSome) = some p → p.key = str "access_token" →
      tokenOf parameters = nonempty p.value
  | [], h, _ => nomatch h
  | q :: rest, h, hkey => by
      rw [List.find?_cons] at h
      rw [tokenOf, List.find?_cons]
      cases hq : q.behindKey.isSome with
      | true =>
          rw [hq] at h
          obtain rfl := Option.some.inj h
          rw [hkey]
          rfl
      | false =>
          rw [hq] at h
          have hne : q.key ≠ str "access_token" := by
            intro heq
            rw [Parameter.behindKey_own heq] at hq
            cases hq
          rw [decide_eq_false hne]
          exact tokenOf_of_first h hkey

theorem tokenOf_none : ∀ {parameters : List Parameter},
    parameters.find? (fun p => p.behindKey.isSome) = none → tokenOf parameters = none := by
  intro parameters h
  have hnone : parameters.find? (fun p => p.key = str "access_token") = none := by
    refine List.find?_eq_none.mpr fun p hp => ?_
    have hbehind := List.find?_eq_none.mp h p hp
    rw [decide_eq_true_eq]
    intro hkey
    rw [Parameter.behindKey_own hkey] at hbehind
    exact hbehind rfl
  rw [tokenOf, hnone]
  rfl

/-- The path is always the part before the question mark; the token is the one that is meant exactly
when the first parameter that holds `access_token=` gives it. -/
theorem parseTarget_exact (target : RequestTarget) :
    ((parseTarget target.text).path = target.path ∧
      (parseTarget target.text).accessToken = tokenOf target.parameters) ↔
      ReadFromItsOwn target.parameters := by
  obtain ⟨hpath, htoken⟩ := parseTarget_text target
  rw [hpath, htoken, findSome?_behindKey, ReadFromItsOwn]
  cases hfirst : target.parameters.find? fun p => p.behindKey.isSome with
  | none =>
      rw [tokenOf_none hfirst]
      exact iff_of_true ⟨rfl, rfl⟩ fun p hp => nomatch hp
  | some p =>
      constructor
      · rintro ⟨-, htoken⟩ q hq
        obtain rfl := Option.some.inj hq
        exact .inr htoken
      · intro h
        refine ⟨rfl, ?_⟩
        rcases h p rfl with hkey | htoken
        · rw [tokenOf_of_first hfirst hkey, Option.bind_some, Parameter.behindKey_own hkey]
          rfl
        · exact htoken

/-- A parameter whose name ends in `access_token` before the token's own. -/
def shadowedTarget : RequestTarget :=
  { path := str "/ws"
    query := some
      [{ key := str "old_access_token", value := str "a" },
        { key := str "access_token", value := str "b" }] }

theorem parseTarget_shadowed :
    (parseTarget shadowedTarget.text).accessToken = some (str "a") ∧
      tokenOf shadowedTarget.parameters = some (str "b") := by
  decide

end ServerStorage.Hugin
