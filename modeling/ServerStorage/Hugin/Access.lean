/-
# `ServerStorage.Hugin.Access` — who may call what in `api/frontend_api_server.cpp`

A request is told apart by its method and path, and whoever wants more than one of the public
pages has to be let in.  The token of an `Authorization` header counts everywhere; the one in
the query counts for the stream only, where a browser cannot set the header.  Before all that a
body beyond the limit is refused.

    a handler and the stream are reached by exactly those who bear an accepted token
    two requests that are not let in are answered alike, if their method, path and kind are
    the same and so is whether the body is within the limit
    two requests that are let in are answered alike, whichever tokens they bear
                                                                        (`access_exact`)
-/
import ServerStorage.Hugin.Target
import ServerStorage.Lib.Json

namespace ServerStorage.Hugin

open Lib

/-! ## The tokens -/

/-- The options that say who is let in, and how large a body is read. -/
structure AccessOptions where
  requireJwt : Bool := true
  localAccessToken : Str := []
  maxHttpRequestBodyBytes : UInt64 := 8 * 1024 * 1024

def bearerPrefix : Str := str "Bearer "

def extractBearerToken (authorizationHeader : Str) : Option Str :=
  if authorizationHeader.length ≤ bearerPrefix.length then none
  else if authorizationHeader.take bearerPrefix.length ≠ bearerPrefix then none
  else some (authorizationHeader.drop bearerPrefix.length)

section
variable (validateJwtToken : Str → Bool) (options : AccessOptions)

/-- The token that counts: the header's, and only without one the query's. -/
def tokenPresented (authorizationHeader : Str) (queryToken : Option Str) : Option Str :=
  let token := if authorizationHeader.isEmpty then none
    else extractBearerToken authorizationHeader
  token.or queryToken

/-- `authorize_request`, as far as who is let in; what the claims say is not read. -/
def authorizeRequest (authorizationHeader : Str) (queryToken : Option Str) : Bool :=
  if !options.requireJwt then true
  else
    match tokenPresented authorizationHeader queryToken with
    | none => false
    | some token =>
        if !options.localAccessToken.isEmpty && decide (token = options.localAccessToken) then true
        else validateJwtToken token

end

/-! ## The requests -/

inductive HttpMethod where
  | get | post | other
  deriving DecidableEq, Repr

structure HttpRequest where
  method : HttpMethod
  target : Str
  /-- An upgrade to a websocket is asked for. -/
  isUpgrade : Bool := false
  authorization : Str := []
  body : Str := []
  deriving DecidableEq, Repr

structure FrontendPaths where
  healthPath : Str := str "/api/v1/health"
  commandPath : Str := str "/api/v1/commands"
  streamPath : Str := str "/api/v1/stream"
  openapiPath : Str := str "/api/v1/openapi.json"
  docsPath : Str := str "/api/v1/docs"
  realtimeTreePath : Str := str "/api/v1/realtime/tree"
  realtimeSnapshotPath : Str := str "/api/v1/realtime/snapshot"
  fileDownloadPath : Str := str "/api/v1/files/download"
  fileUploadPath : Str := str "/api/v1/files/upload"
  directoryUploadPath : Str := str "/api/v1/files/upload-directory"
  deriving DecidableEq, Repr

inductive PublicPage where
  | health | openapi | docs
  deriving DecidableEq, Repr

/-- The handlers behind the check. -/
inductive Endpoint where
  | command | realtimeTree | realtimeSnapshot | fileDownload | fileUpload | directoryUpload
  deriving DecidableEq, Repr

def FrontendPaths.of (paths : FrontendPaths) : Endpoint → Str
  | .command => paths.commandPath
  | .realtimeTree => paths.realtimeTreePath
  | .realtimeSnapshot => paths.realtimeSnapshotPath
  | .fileDownload => paths.fileDownloadPath
  | .fileUpload => paths.fileUploadPath
  | .directoryUpload => paths.directoryUploadPath

/-- What becomes of a request. -/
inductive Dispatch where
  | page (page : PublicPage)
  | unauthorized
  | invalidJson
  | notFound
  | payloadTooLarge
  /-- The session goes on as a websocket that is sent every result. -/
  | stream
  /-- The handler goes on with the body. -/
  | call (endpoint : Endpoint) (body : Json)

section
variable (parse : Str → Option Json) (validateJwtToken : Str → Bool) (options : AccessOptions)
  (paths : FrontendPaths)

def parseJsonObjectBody (body : Str) : Option Json := (parse body).filter Json.isObject

/-- A handler behind the check. -/
def guardedDispatch (request : HttpRequest) (endpoint : Endpoint) : Dispatch :=
  if !authorizeRequest validateJwtToken options request.authorization none then .unauthorized
  else
    match parseJsonObjectBody parse request.body with
    | none => .invalidJson
    | some body => .call endpoint body

/-- The endpoints in the order in which their paths are compared. -/
def endpoints : List Endpoint :=
  [.command, .realtimeTree, .realtimeSnapshot, .fileDownload, .fileUpload, .directoryUpload]

def handleHttpRequest (request : HttpRequest) (path : Str) : Dispatch :=
  match request.method with
  | .get =>
      if path = paths.healthPath then .page .health
      else if path = paths.openapiPath then .page .openapi
      else if path = paths.docsPath then .page .docs
      else .notFound
  | .post =>
      match endpoints.find? fun endpoint => decide (path = paths.of endpoint) with
      | none => .notFound
      | some endpoint => guardedDispatch parse validateJwtToken options request endpoint
  | .other => .notFound

/-- `on_read` of `HttpSession`, where the connection brings a whole request or one whose body
is beyond the parser's limit. -/
def onRead (request : HttpRequest) : Dispatch :=
  if options.maxHttpRequestBodyBytes.toNat < request.body.length then .payloadTooLarge
  else
    let target := parseTarget request.target
    if request.isUpgrade && decide (target.path = paths.streamPath) then
      if authorizeRequest validateJwtToken options request.authorization target.accessToken then
        .stream
      else .unauthorized
    else handleHttpRequest parse validateJwtToken options paths request target.path

end

/-! ## Who is let in -/

/-- The header is `Bearer`, a space and the token. -/
def Bears (authorizationHeader token : Str) : Prop :=
  token ≠ [] ∧ authorizationHeader = bearerPrefix ++ token

/-- The token is the local one or a valid JWT. -/
def Accepts (validateJwtToken : Str → Bool) (options : AccessOptions) (token : Str) : Prop :=
  options.localAccessToken ≠ [] ∧ token = options.localAccessToken ∨ validateJwtToken token = true

/-- No token is asked for, or an accepted one is presented: by the header, or in the query by
one whose header bears none. -/
inductive LetIn (validateJwtToken : Str → Bool) (options : AccessOptions)
    (authorizationHeader : Str) (queryToken : Option Str) : Prop where
  | unasked (h : options.requireJwt = false)
  | header (token : Str) (hbears : Bears authorizationHeader token)
      (haccepts : Accepts validateJwtToken options token)
  | query (token : Str) (hnone : ∀ other, ¬ Bears authorizationHeader other)
      (htoken : queryToken = some token) (haccepts : Accepts validateJwtToken options token)

/-- The path is the endpoint's and of none that is asked for it before. -/
def FirstAt (paths : FrontendPaths) (path : Str) (endpoint : Endpoint) : Prop :=
  paths.of endpoint = path ∧ ∀ earlier, endpoints.idxOf earlier < endpoints.idxOf endpoint →
    paths.of earlier ≠ path

theorem mem_endpoints (endpoint : Endpoint) : endpoint ∈ endpoints := by
  cases endpoint <;> decide

/-- The first element that passes a test. -/
theorem find?_eq_first {α : Type} [DecidableEq α] {p : α → Bool} {a : α} : ∀ {l : List α},
    l.find? p = some a ↔
      a ∈ l ∧ p a = true ∧ ∀ b ∈ l, l.idxOf b < l.idxOf a → p b = false := by
  intro l
  induction l with
  | nil => simp
  | cons x l ih =>
      cases hx : p x with
      | true =>
          rw [List.find?_cons_of_pos hx]
          constructor
          · intro h
            obtain rfl := Option.some.inj h
            refine ⟨List.mem_cons_self, hx, fun b _ hb => ?_⟩
            rw [List.idxOf_cons_self] at hb
            exact absurd hb (Nat.not_lt_zero _)
          · rintro ⟨-, -, hfirst⟩
            by_contra hne
            have hne : x ≠ a := fun heq => hne (congrArg some heq)
            have hbefore := hfirst x List.mem_cons_self
              (by rw [List.idxOf_cons_self, List.idxOf_cons_ne _ hne]; exact Nat.succ_pos _)
            rw [hx] at hbefore
            cases hbefore
      | false =>
          rw [List.find?_cons_of_neg (by rw [hx]; exact Bool.false_ne_true), ih]
          constructor
          · rintro ⟨hmem, ha, hfirst⟩
            refine ⟨List.mem_cons_of_mem _ hmem, ha, fun b hb hlt => ?_⟩
            rcases List.mem_cons.mp hb with rfl | hb
            · exact hx
            by_cases heq : x = b
            · rw [← heq, hx]
            have hne : x ≠ a := by
              rintro rfl
              rw [hx] at ha
              cases ha
            rw [List.idxOf_cons_ne _ heq, List.idxOf_cons_ne _ hne] at hlt
            exact hfirst b hb (Nat.lt_of_succ_lt_succ hlt)
          · rintro ⟨hmem, ha, hfirst⟩
            have hne : x ≠ a := by
              rintro rfl
              rw [hx] at ha
              cases ha
            refine ⟨(List.mem_cons.mp hmem).resolve_left hne.symm, ha, fun b hb hlt => ?_⟩
            by_cases heq : x = b
            · rw [← heq, hx]
            refine hfirst b (List.mem_cons_of_mem _ hb) ?_
            rw [List.idxOf_cons_ne _ heq, List.idxOf_cons_ne _ hne]
            exact Nat.succ_lt_succ hlt

theorem firstAt_iff {paths : FrontendPaths} {path : Str} {endpoint : Endpoint} :
    (endpoints.find? fun endpoint => decide (path = paths.of endpoint)) = some endpoint ↔
      FirstAt paths path endpoint := by
  rw [find?_eq_first, FirstAt, and_iff_right (mem_endpoints endpoint), decide_eq_true_eq]
  refine and_congr eq_comm (forall_congr' fun earlier => ?_)
  rw [forall_prop_of_true (mem_endpoints earlier), decide_eq_false_iff_not, eq_comm]

theorem extractBearerToken_iff {header token : Str} :
    extractBearerToken header = some token ↔ Bears header token := by
  rw [extractBearerToken, Bears]
  constructor
  · intro h
    split at h
    · cases h
    next hlong =>
    split at h
    · cases h
    next hprefix =>
    obtain rfl := Option.some.inj h
    refine ⟨fun hnil => ?_, ?_⟩
    · exact hlong (List.drop_eq_nil_iff.mp hnil)
    · have htake : header.take bearerPrefix.length = bearerPrefix := not_not.mp hprefix
      calc header = header.take bearerPrefix.length ++ header.drop bearerPrefix.length :=
            (List.take_append_drop _ _).symm
        _ = bearerPrefix ++ header.drop bearerPrefix.length := by rw [htake]
  · rintro ⟨hne, rfl⟩
    have hlong : ¬ (bearerPrefix ++ token).length ≤ bearerPrefix.length := by
      have hpos := List.length_pos_iff.mpr hne
      rw [List.length_append]
      omega
    rw [if_neg hlong, List.take_left, if_neg (not_not.mpr rfl), List.drop_left]

theorem tokenPresented_eq (header : Str) (queryToken : Option Str) :
    tokenPresented header queryToken = (extractBearerToken header).or queryToken := by
  rw [tokenPresented]
  cases header with
  | nil => rfl
  | cons first rest => rfl

section
variable {parse : Str → Option Json} {validateJwtToken : Str → Bool} {options : AccessOptions}
  {paths : FrontendPaths} {request request' : HttpRequest} {endpoint : Endpoint} {body : Json}

theorem accepts_iff {token : Str} :
    (if !options.localAccessToken.isEmpty && decide (token = options.localAccessToken) then true
      else validateJwtToken token) = true ↔ Accepts validateJwtToken options token := by
  rw [Accepts]
  by_cases hlocal : options.localAccessToken ≠ [] ∧ token = options.localAccessToken
  · simp [hlocal]
  · have hnot : (!options.localAccessToken.isEmpty &&
        decide (token = options.localAccessToken)) = false := by
      simpa using hlocal
    rw [hnot, if_neg Bool.false_ne_true, or_iff_right hlocal]

theorem authorizeRequest_iff {header : Str} {queryToken : Option Str} :
    authorizeRequest validateJwtToken options header queryToken = true ↔
      LetIn validateJwtToken options header queryToken := by
  rw [authorizeRequest, tokenPresented_eq]
  cases hrequire : options.requireJwt with
  | false => exact iff_of_true rfl (.unasked hrequire)
  | true =>
      have hasked : options.requireJwt ≠ false := by
        rw [hrequire]
        exact Bool.true_eq_false_eq_False
      cases hheader : extractBearerToken header with
      | some token =>
          have hbears := extractBearerToken_iff.mp hheader
          refine accepts_iff.trans ⟨.header token hbears, fun h => ?_⟩
          cases h with
          | unasked h => exact absurd h hasked
          | header other hother haccepts =>
              obtain rfl := Option.some.inj (hheader.symm.trans (extractBearerToken_iff.mpr hother))
              exact haccepts
          | query _ hnone _ _ => exact absurd hbears (hnone token)
      | none =>
          have hnone : ∀ other, ¬ Bears header other := fun other hother => by
            rw [extractBearerToken_iff.mpr hother] at hheader
            cases hheader
          cases hquery : queryToken with
          | none =>
              refine iff_of_false (fun h => ?_) fun h => ?_
              · cases h
              · cases h with
                | unasked h => exact hasked h
                | header other hother _ => exact hnone other hother
                | query _ _ htoken _ => cases htoken
          | some token =>
              refine accepts_iff.trans ⟨.query token hnone rfl, fun h => ?_⟩
              cases h with
              | unasked h => exact absurd h hasked
              | header other hother _ => exact absurd hother (hnone other)
              | query other _ htoken haccepts =>
                  rw [Option.some.inj htoken]
                  exact haccepts

theorem guardedDispatch_call_iff {wanted : Endpoint} :
    guardedDispatch parse validateJwtToken options request wanted = .call endpoint body ↔
      wanted = endpoint ∧ LetIn validateJwtToken options request.authorization none ∧
        parse request.body = some body ∧ body.isObject = true := by
  rw [guardedDispatch, ← authorizeRequest_iff]
  cases hauthorized : authorizeRequest validateJwtToken options request.authorization none with
  | false => simp
  | true =>
      have hbody : parseJsonObjectBody parse request.body = some body ↔
          parse request.body = some body ∧ body.isObject = true := Option.filter_eq_some_iff
      cases hparsed : parseJsonObjectBody parse request.body with
      | none =>
          rw [hparsed] at hbody
          simp only [reduceCtorEq, false_iff] at hbody
          simp [hbody]
      | some parsed =>
          rw [hparsed] at hbody
          simp [← hbody]

/-- A `GET` is answered with a page, or with that there is none. -/
theorem handleHttpRequest_get {path : Str} (hmethod : request.method = .get) :
    (∃ page, handleHttpRequest parse validateJwtToken options paths request path = .page page) ∨
      handleHttpRequest parse validateJwtToken options paths request path = .notFound := by
  simp only [handleHttpRequest, hmethod]
  split
  · exact .inl ⟨.health, rfl⟩
  · split
    · exact .inl ⟨.openapi, rfl⟩
    · split
      · exact .inl ⟨.docs, rfl⟩
      · exact .inr rfl

theorem handleHttpRequest_call_iff {path : Str} :
    handleHttpRequest parse validateJwtToken options paths request path = .call endpoint body ↔
      request.method = .post ∧ FirstAt paths path endpoint ∧
      LetIn validateJwtToken options request.authorization none ∧
      parse request.body = some body ∧ body.isObject = true := by
  rw [← firstAt_iff]
  cases hmethod : request.method with
  | get =>
      rcases @handleHttpRequest_get parse validateJwtToken options paths request path hmethod with
        ⟨page, hpage⟩ | hnone
      · simp [hpage]
      · simp [hnone]
  | other => simp [handleHttpRequest, hmethod]
  | post =>
      simp only [handleHttpRequest, hmethod]
      cases hfind : endpoints.find? fun endpoint => decide (path = paths.of endpoint) with
      | none => simp
      | some wanted => simp [guardedDispatch_call_iff]

theorem handleHttpRequest_ne_stream {path : Str} :
    handleHttpRequest parse validateJwtToken options paths request path ≠ .stream := by
  cases hmethod : request.method with
  | get =>
      rcases @handleHttpRequest_get parse validateJwtToken options paths request path hmethod with
        ⟨page, hpage⟩ | hnone
      · simp [hpage]
      · simp [hnone]
  | other => simp [handleHttpRequest, hmethod]
  | post =>
      simp only [handleHttpRequest, hmethod]
      cases hfind : endpoints.find? fun endpoint => decide (path = paths.of endpoint) with
      | none => simp
      | some wanted =>
          dsimp only
          rw [guardedDispatch]
          split
          · simp
          · cases parseJsonObjectBody parse request.body with
            | none => simp
            | some body => simp

/-- The handlers tell requests apart by nothing but what is compared here. -/
theorem handleHttpRequest_congr (hmethod : request.method = request'.method)
    (hauthorized : authorizeRequest validateJwtToken options request.authorization none =
      authorizeRequest validateJwtToken options request'.authorization none)
    (hbody : authorizeRequest validateJwtToken options request.authorization none = true →
      request.body = request'.body) (path : Str) :
    handleHttpRequest parse validateJwtToken options paths request path =
      handleHttpRequest parse validateJwtToken options paths request' path := by
  rw [handleHttpRequest, handleHttpRequest, hmethod]
  cases request'.method with
  | get => rfl
  | other => rfl
  | post =>
      cases hfind : endpoints.find? fun endpoint => decide (path = paths.of endpoint) with
      | none => rfl
      | some wanted =>
          dsimp only
          rw [guardedDispatch, guardedDispatch, ← hauthorized]
          cases hin : authorizeRequest validateJwtToken options request.authorization none with
          | false => rfl
          | true => rw [hbody hin]

/-! ## The connection -/

/-- The request asks for the stream. -/
def AsksStream (paths : FrontendPaths) (request : HttpRequest) : Prop :=
  request.isUpgrade = true ∧ (parseTarget request.target).path = paths.streamPath

/-- Whoever sends the request is let in to what it asks for. -/
def Entitled (validateJwtToken : Str → Bool) (options : AccessOptions) (paths : FrontendPaths)
    (request : HttpRequest) : Prop :=
  LetIn validateJwtToken options request.authorization none ∨
    AsksStream paths request ∧
      LetIn validateJwtToken options request.authorization (parseTarget request.target).accessToken

/-- The body is one that the connection's parser reads to its end. -/
def WithinLimit (options : AccessOptions) (request : HttpRequest) : Prop :=
  request.body.length ≤ options.maxHttpRequestBodyBytes.toNat

/-- What anyone can tell the requests apart by, who need not be let in for it. -/
structure LooksLike (options : AccessOptions) (request request' : HttpRequest) : Prop where
  method : request.method = request'.method
  path : (parseTarget request.target).path = (parseTarget request'.target).path
  upgrade : request.isUpgrade = request'.isUpgrade
  limit : WithinLimit options request ↔ WithinLimit options request'

/-- The token of the header lets in wherever the one of the query is asked for too. -/
theorem LetIn.queried {header : Str} {queryToken : Option Str}
    (h : LetIn validateJwtToken options header none) :
    LetIn validateJwtToken options header queryToken := by
  cases h with
  | unasked h => exact .unasked h
  | header token hbears haccepts => exact .header token hbears haccepts
  | query _ _ htoken _ => cases htoken

theorem onRead_large (h : ¬ WithinLimit options request) :
    onRead parse validateJwtToken options paths request = .payloadTooLarge :=
  if_pos (not_le.mp h)

theorem onRead_stream (hlimit : WithinLimit options request) (h : AsksStream paths request) :
    onRead parse validateJwtToken options paths request =
      if authorizeRequest validateJwtToken options request.authorization
        (parseTarget request.target).accessToken then .stream else .unauthorized := by
  rw [onRead, if_neg (not_lt.mpr hlimit)]
  dsimp only
  rw [if_pos]
  rw [h.1, h.2, Bool.true_and, decide_eq_true_eq]

theorem onRead_http (hlimit : WithinLimit options request) (h : ¬ AsksStream paths request) :
    onRead parse validateJwtToken options paths request =
      handleHttpRequest parse validateJwtToken options paths request
        (parseTarget request.target).path := by
  rw [onRead, if_neg (not_lt.mpr hlimit)]
  dsimp only
  rw [if_neg]
  rw [Bool.and_eq_true, decide_eq_true_eq]
  exact h

theorem LooksLike.asks (h : LooksLike options request request') :
    AsksStream paths request ↔ AsksStream paths request' := by
  rw [AsksStream, AsksStream, h.upgrade, h.path]

/-- Two requests that look alike, whoever may send them. -/
theorem LooksLike.answered (h : LooksLike options request request')
    (hheader : LetIn validateJwtToken options request.authorization none ↔
      LetIn validateJwtToken options request'.authorization none)
    (hstream : AsksStream paths request →
      (LetIn validateJwtToken options request.authorization
          (parseTarget request.target).accessToken ↔
        LetIn validateJwtToken options request'.authorization
          (parseTarget request'.target).accessToken))
    (hbody : LetIn validateJwtToken options request.authorization none →
      request.body = request'.body) :
    onRead parse validateJwtToken options paths request =
      onRead parse validateJwtToken options paths request' := by
  by_cases hlimit : WithinLimit options request
  · have hlimit' := h.limit.mp hlimit
    by_cases hasks : AsksStream paths request
    · have hsame := hstream hasks
      rw [← authorizeRequest_iff, ← authorizeRequest_iff, ← Bool.eq_iff_iff] at hsame
      rw [onRead_stream hlimit hasks, onRead_stream hlimit' (h.asks.mp hasks), hsame]
    · rw [← authorizeRequest_iff, ← authorizeRequest_iff, ← Bool.eq_iff_iff] at hheader
      rw [onRead_http hlimit hasks, onRead_http hlimit' (mt h.asks.mpr hasks), h.path]
      exact handleHttpRequest_congr h.method hheader
        (fun hin => hbody (authorizeRequest_iff.mp hin)) _
  · rw [onRead_large hlimit, onRead_large (mt h.limit.mpr hlimit)]

end

/-- **Nobody gets past the check**: a handler, and the stream, is reached by exactly those whose
token is accepted; two requests that look alike are answered alike where neither is let in, and
also where both are let in by their headers and bring the same body. -/
theorem access_exact (parse : Str → Option Json) (validateJwtToken : Str → Bool)
    (options : AccessOptions) (paths : FrontendPaths) (request : HttpRequest) :
    (∀ endpoint body,
      onRead parse validateJwtToken options paths request = .call endpoint body ↔
        WithinLimit options request ∧ ¬ AsksStream paths request ∧ request.method = .post ∧
        FirstAt paths (parseTarget request.target).path endpoint ∧
        LetIn validateJwtToken options request.authorization none ∧
        parse request.body = some body ∧ body.isObject = true) ∧
    (onRead parse validateJwtToken options paths request = .stream ↔
      WithinLimit options request ∧ AsksStream paths request ∧
      LetIn validateJwtToken options request.authorization
        (parseTarget request.target).accessToken) ∧
    (∀ request', LooksLike options request request' →
      ¬ Entitled validateJwtToken options paths request →
      ¬ Entitled validateJwtToken options paths request' →
      onRead parse validateJwtToken options paths request =
        onRead parse validateJwtToken options paths request') ∧
    ∀ request', LooksLike options request request' → request.body = request'.body →
      LetIn validateJwtToken options request.authorization none →
      LetIn validateJwtToken options request'.authorization none →
      onRead parse validateJwtToken options paths request =
        onRead parse validateJwtToken options paths request' := by
  refine ⟨fun endpoint body => ?_, ?_, fun request' h hout hout' => ?_,
    fun request' h hbody hin hin' => ?_⟩
  · by_cases hlimit : WithinLimit options request
    · by_cases hasks : AsksStream paths request
      · rw [onRead_stream hlimit hasks, ite_eq_iff]
        simp [hasks]
      · rw [onRead_http hlimit hasks, handleHttpRequest_call_iff, and_iff_right hlimit,
          and_iff_right hasks]
    · rw [onRead_large hlimit]
      simp [hlimit]
  · by_cases hlimit : WithinLimit options request
    · by_cases hasks : AsksStream paths request
      · rw [onRead_stream hlimit hasks, ← authorizeRequest_iff, and_iff_right hlimit,
          and_iff_right hasks]
        simp
      · rw [onRead_http hlimit hasks]
        exact iff_of_false handleHttpRequest_ne_stream fun h => hasks h.2.1
    · rw [onRead_large hlimit]
      simp [hlimit]
  · rw [Entitled, not_or, not_and] at hout hout'
    refine h.answered (iff_of_false hout.1 hout'.1) (fun hasks => ?_) fun hin => absurd hin hout.1
    exact iff_of_false (hout.2 hasks) (hout'.2 (h.asks.mp hasks))
  · exact h.answered (iff_of_true hin hin') (fun _ => iff_of_true hin.queried hin'.queried)
      fun _ => hbody

/-! ### A command with the local token, and two without -/

def localAccess : AccessOptions := { localAccessToken := str "t" }

/-- A body that is an object. -/
def parseEmptyObject (text : Str) : Option Json := if text = str "o" then some (.object []) else none

def commandWith (authorization body : Str) : HttpRequest :=
  { method := .post, target := str "/api/v1/commands", authorization := authorization, body := body }

theorem access_exact_command :
    onRead parseEmptyObject (fun _ => false) localAccess {}
        (commandWith (str "Bearer t") (str "o")) = .call .command (.object []) ∧
      onRead parseEmptyObject (fun _ => false) localAccess {}
          (commandWith (str "Bearer u") (str "o")) =
        onRead parseEmptyObject (fun _ => false) localAccess {} (commandWith [] (str "x")) := by
  have hout : ∀ header body, authorizeRequest (fun _ => false) localAccess header none = false →
      ¬ Entitled (fun _ => false) localAccess {} (commandWith header body) := by
    rintro header body hrefused (hin | ⟨⟨hupgrade, -⟩, -⟩)
    · exact absurd (hrefused.symm.trans (authorizeRequest_iff.mpr hin)) Bool.false_ne_true
    · cases hupgrade
  obtain ⟨hcall, -, -, -⟩ := access_exact parseEmptyObject (fun _ => false) localAccess {}
    (commandWith (str "Bearer t") (str "o"))
  obtain ⟨-, -, halike, -⟩ := access_exact parseEmptyObject (fun _ => false) localAccess {}
    (commandWith (str "Bearer u") (str "o"))
  constructor
  · refine (hcall .command (.object [])).mpr ⟨?_, ?_, rfl, ?_, ?_, rfl, rfl⟩
    · exact (by decide +kernel : (commandWith (str "Bearer t") (str "o")).body.length ≤
        localAccess.maxHttpRequestBodyBytes.toNat)
    · rintro ⟨hupgrade, -⟩
      cases hupgrade
    · exact firstAt_iff.mp (by decide +kernel)
    · exact authorizeRequest_iff.mp (by decide +kernel)
  · refine halike _ ⟨rfl, rfl, rfl, ?_⟩ (hout _ _ (by decide +kernel)) (hout _ _ (by decide +kernel))
    exact Iff.rfl

end ServerStorage.Hugin
