import BatMarkets.Commands.Call
import BatMarkets.Text.FormUrlencoded

/-!
# Signed requests

How the runtime signs what it sends (`runtime.rs`).  Binance gets the signature as the last pair of
the query, over the pairs before it; Bybit and MEXC get it in a header, over the time, the key and
the query or the body.  A query is written pair by pair, for MEXC in the order of the keys.

The signer is outside: all that is known is that its signature is a text of hexadecimal digits.

## Main results

* `signed_request_verifies` : the text that has been signed can be put together again from the
  request, whose query is read as the pairs that were to be sent; and no other content that is sent
  in this way at this time has the same signed text.
-/

namespace BatMarkets

open Ordered Std Text Wire

/-! ### Credentials -/

/-- The digits of a percent-encoded byte and of a signature. -/
def hexDigits : List Char :=
  ['0', '1', '2', '3', '4', '5', '6', '7', '8', '9', 'a', 'b', 'c', 'd', 'e', 'f']

/-- What signs requests. -/
structure Signer where
  signHex : String → Except MarketError String
  hex : ∀ payload signature, signHex payload = .ok signature → ∀ c ∈ signature.toList, c ∈ hexDigits

/-- The configuration that signed requests are sent with. -/
structure SignedContext where
  venue : Venue
  product : Product
  restBase : String
  apiKey : Option String
  signer : Option Signer

/-- The key and the signer of a client that may send signed requests. -/
def requireCredentials (context : SignedContext) : Except MarketError (String × Signer) :=
  let authError (message : String) : MarketError :=
    MarketError.withVenue { kind := .authError, message } context.venue context.product
  match context.apiKey, context.signer with
  | none, _ => .error (authError "missing API key in configured environment variables")
  | some _, none => .error (authError "missing signer for configured private API flow")
  | some apiKey, some signer => .ok (apiKey, signer)

/-! ### Requests -/

/-- A request over HTTP as it is sent. -/
structure HttpRequest where
  method : HttpMethod
  url : String
  headers : List (String × String)
  body : Option String := none

/-- The value of a header, empty if there is none. -/
def HttpRequest.header (request : HttpRequest) (name : String) : String :=
  ((request.headers.find? (·.1 == name)).map (·.2)).getD ""

/-- The pairs of a query. -/
abbrev QueryPairs := List (String × String)

/-- A pair as bytes, which is what is encoded. -/
def pairBytes (pair : String × String) : FormPair := (utf8 pair.1, utf8 pair.2)

/-- The pairs of a query, written one after the other. -/
def queryText (pairs : QueryPairs) : String := String.ofList (formText (pairs.map pairBytes))

/-- The pairs that a reader finds in a query. -/
def queryPairs (query : String) : List FormPair := formPairs query.toList

/-- An empty query is left out. -/
def withQuery (url query : String) : String := if query.isEmpty then url else url ++ "?" ++ query

section Requests

variable (context : SignedContext) (now : TimestampMs)

/-- What Binance is sent besides the pairs of the request. -/
def binancePairs (pairs : QueryPairs) : QueryPairs :=
  pairs ++ [("timestamp", toString now), ("recvWindow", "5000")]

/-- A signed request of Binance: the signature is the last pair of the query. -/
def binanceSignedRequestText (method : HttpMethod) (path : String) (pairs : QueryPairs) :
    Except MarketError HttpRequest := do
  let (apiKey, signer) ← requireCredentials context
  let query := queryText (binancePairs now pairs)
  let signature ← signer.signHex query
  return {
    method
    url := context.restBase ++ path ++ "?" ++ query ++ "&signature=" ++ signature
    headers := [("X-MBX-APIKEY", apiKey)] }

/-- The headers of a signed request of Bybit. -/
def bybitHeaders (apiKey signature : String) : List (String × String) :=
  [("X-BAPI-API-KEY", apiKey), ("X-BAPI-SIGN", signature), ("X-BAPI-TIMESTAMP", toString now),
    ("X-BAPI-RECV-WINDOW", "5000")]

/-- What Bybit is sent a signature of. -/
def bybitPayload (apiKey content : String) : String := toString now ++ apiKey ++ "5000" ++ content

/-- A signed request of Bybit without a body. -/
def bybitSignedGetText (path : String) (query : QueryPairs) : Except MarketError HttpRequest := do
  let (apiKey, signer) ← requireCredentials context
  let query := queryText query
  let signature ← signer.signHex (bybitPayload now apiKey query)
  return {
    method := .get
    url := withQuery (context.restBase ++ path) query
    headers := bybitHeaders now apiKey signature }

/-- A signed request of Bybit with a body. -/
def bybitSignedPostText (path body : String) : Except MarketError HttpRequest := do
  let (apiKey, signer) ← requireCredentials context
  let signature ← signer.signHex (bybitPayload now apiKey body)
  return {
    method := .post
    url := context.restBase ++ path
    headers := ("content-type", "application/json") :: bybitHeaders now apiKey signature
    body := some body }

/-- The headers of a signed request of MEXC. -/
def mexcHeaders (apiKey signature : String) : List (String × String) :=
  [("ApiKey", apiKey), ("Request-Time", toString now), ("Signature", signature),
    ("Content-Type", "application/json"), ("Recv-Window", "5000")]

/-- What MEXC is sent a signature of. -/
def mexcPayload (apiKey content : String) : String := apiKey ++ toString now ++ content

/-- The pairs in the order of their keys; the last value of a key wins. -/
def sortedPairs (pairs : QueryPairs) : QueryPairs :=
  (pairs.foldl (fun sorted pair => sorted.insert pair.1 pair.2) (∅ : BTreeMap String String)).toList

/-- A signed request of MEXC without a body, whose pairs are sorted. -/
def mexcSignedGetText (path : String) (query : QueryPairs) : Except MarketError HttpRequest := do
  let (apiKey, signer) ← requireCredentials context
  let requestParam := queryText (sortedPairs query)
  let signature ← signer.signHex (mexcPayload now apiKey requestParam)
  return {
    method := .get
    url := withQuery (context.restBase ++ path) requestParam
    headers := mexcHeaders now apiKey signature }

/-- A signed request of MEXC with a body. -/
def mexcSignedPostText (path body : String) : Except MarketError HttpRequest := do
  let (apiKey, signer) ← requireCredentials context
  let signature ← signer.signHex (mexcPayload now apiKey body)
  return {
    method := .post
    url := context.restBase ++ path
    headers := mexcHeaders now apiKey signature
    body := some body }

end Requests

/-! ### A request of any venue -/

/-- A request that is to be signed. -/
inductive SignedCall
  | binance (method : HttpMethod) (path : String) (pairs : QueryPairs)
  | bybitGet (path : String) (query : QueryPairs)
  | bybitPost (path body : String)
  | mexcGet (path : String) (query : QueryPairs)
  | mexcPost (path body : String)

namespace SignedCall

/-- The request that the call sends. -/
def send (context : SignedContext) (now : TimestampMs) :
    SignedCall → Except MarketError HttpRequest
  | binance method path pairs => binanceSignedRequestText context now method path pairs
  | bybitGet path query => bybitSignedGetText context now path query
  | bybitPost path body => bybitSignedPostText context now path body
  | mexcGet path query => mexcSignedGetText context now path query
  | mexcPost path body => mexcSignedPostText context now path body

/-- The method of the call. -/
def method : SignedCall → HttpMethod
  | binance method _ _ => method
  | bybitGet _ _ | mexcGet _ _ => .get
  | bybitPost _ _ | mexcPost _ _ => .post

/-- The path of the call. -/
def path : SignedCall → String
  | binance _ path _ | bybitGet path _ | bybitPost path _ | mexcGet path _ | mexcPost path _ => path

/-- The pairs of its query, as they are to be sent. -/
def pairs : SignedCall → QueryPairs
  | binance _ _ pairs => pairs
  | bybitGet _ query => query
  | mexcGet _ query => sortedPairs query
  | bybitPost _ _ | mexcPost _ _ => []

/-- The body of the call, if it has one. -/
def body : SignedCall → Option String
  | bybitPost _ body | mexcPost _ body => some body
  | binance _ _ _ | bybitGet _ _ | mexcGet _ _ => none

/-- The two calls go through the same function. -/
def sameSender : SignedCall → SignedCall → Bool
  | binance _ _ _, binance _ _ _ | bybitGet _ _, bybitGet _ _ | bybitPost _ _, bybitPost _ _
  | mexcGet _ _, mexcGet _ _ | mexcPost _ _, mexcPost _ _ => true
  | _, _ => false

/-- The text that is signed. -/
def payload (now : TimestampMs) (apiKey : String) : SignedCall → String
  | binance _ _ pairs => queryText (binancePairs now pairs)
  | bybitGet _ query => bybitPayload now apiKey (queryText query)
  | bybitPost _ body => bybitPayload now apiKey body
  | mexcGet _ query => mexcPayload now apiKey (queryText (sortedPairs query))
  | mexcPost _ body => mexcPayload now apiKey body

end SignedCall

/-! ### What a reader finds in a request -/

/-- What a reader of the venue finds in a request. -/
structure Shown where
  key : String
  signature : Bytes
  /-- The text that the signature is of. -/
  signed : String
  /-- The pairs of the query, without those that the sender has added. -/
  pairs : List FormPair

/-- What is found in a request with this query. -/
def SignedCall.shown (query : String) (request : HttpRequest) : SignedCall → Shown
  | .binance _ _ _ =>
    let found := queryPairs query
    { key := request.header "X-MBX-APIKEY"
      signature := (found.getLast?.map (·.2)).getD []
      signed := String.ofList (formText found.dropLast)
      pairs := found.take (found.length - 3) }
  | .bybitGet _ _ | .bybitPost _ _ =>
    { key := request.header "X-BAPI-API-KEY"
      signature := utf8 (request.header "X-BAPI-SIGN")
      signed := request.header "X-BAPI-TIMESTAMP" ++ request.header "X-BAPI-API-KEY" ++
        request.header "X-BAPI-RECV-WINDOW" ++ request.body.getD query
      pairs := queryPairs query }
  | .mexcGet _ _ | .mexcPost _ _ =>
    { key := request.header "ApiKey"
      signature := utf8 (request.header "Signature")
      signed := request.header "ApiKey" ++ request.header "Request-Time" ++
        request.body.getD query
      pairs := queryPairs query }

/-- The request carries the signature of what it is to send. -/
structure SignedCall.Verifies (call : SignedCall) (context : SignedContext) (now : TimestampMs)
    (apiKey : String) (signature query : String) (request : HttpRequest) : Prop where
  method : request.method = call.method
  url : request.url = withQuery (context.restBase ++ call.path) query
  body : request.body = call.body
  shown : call.shown query request =
    ⟨apiKey, utf8 signature, call.payload now apiKey, call.pairs.map pairBytes⟩

section Verify

variable {context : SignedContext} {now : TimestampMs} {request : HttpRequest} {apiKey : String}
  {signer : Signer}

theorem requireCredentials_eq_ok {credentials : String × Signer}
    (h : requireCredentials context = .ok credentials) :
    context.apiKey = some credentials.1 ∧ context.signer = some credentials.2 := by
  unfold requireCredentials at h
  cases hkey : context.apiKey with
  | none =>
    rw [hkey] at h
    cases h
  | some key =>
    cases hsigner : context.signer with
    | none =>
      rw [hkey, hsigner] at h
      cases h
    | some signer =>
      rw [hkey, hsigner] at h
      cases h
      exact ⟨rfl, rfl⟩

theorem pairBytes_injective : Function.Injective pairBytes := by
  intro p q h
  exact Prod.ext (utf8_injective (congrArg Prod.fst h)) (utf8_injective (congrArg Prod.snd h))

@[simp] theorem queryPairs_queryText (pairs : QueryPairs) :
    queryPairs (queryText pairs) = pairs.map pairBytes := by
  rw [queryPairs, queryText, String.toList_ofList, formPairs_formText]

theorem queryText_injective : Function.Injective queryText := by
  intro ps qs h
  have hpairs := congrArg queryPairs h
  rw [queryPairs_queryText, queryPairs_queryText] at hpairs
  exact List.map_injective_iff.2 pairBytes_injective hpairs

/-- A signature is written into a query as it is. -/
theorem encodeBytes_signature {payload signature : String}
    (h : signer.signHex payload = .ok signature) :
    encodeBytes (utf8 signature) = signature.toList := by
  have hdigits : (hexDigits.all fun c => encodeBytes (String.utf8EncodeChar c) == [c]) = true := rfl
  refine encodeBytes_utf8 fun c hc => ?_
  exact beq_iff_eq.1 (List.all_eq_true.1 hdigits c (signer.hex payload signature h c hc))

/-- The query of Binance with its signature is a query again. -/
theorem queryText_signature (pairs : QueryPairs) (hpairs : pairs ≠ [])
    {payload signature : String} (h : signer.signHex payload = .ok signature) :
    queryText pairs ++ "&signature=" ++ signature =
      queryText (pairs ++ [("signature", signature)]) := by
  have hname : encodeBytes (utf8 "signature") = "signature".toList := by decide
  have hmap : pairs.map pairBytes ≠ [] := by simpa using hpairs
  refine String.toList_injective ?_
  rw [queryText, queryText, List.map_append, List.map_singleton, formText_append hmap]
  simp [encodePair, pairBytes, hname, encodeBytes_signature h]

theorem verifies_binance {method : HttpMethod} {path : String} {pairs : QueryPairs}
    {signature : String}
    (hsign : signer.signHex (queryText (binancePairs now pairs)) = .ok signature) :
    (SignedCall.binance method path pairs).Verifies context now apiKey signature
      (queryText (binancePairs now pairs ++ [("signature", signature)]))
      { method
        url := context.restBase ++ path ++ "?" ++ queryText (binancePairs now pairs) ++
          "&signature=" ++ signature
        headers := [("X-MBX-APIKEY", apiKey)] } where
  method := rfl
  url := by
    have hquery := queryText_signature (binancePairs now pairs)
      (by simp [binancePairs]) hsign
    have hnonempty : (queryText (binancePairs now pairs ++ [("signature", signature)])).isEmpty =
        false := by
      rw [← hquery]
      simp
    rw [withQuery, hnonempty, ← hquery]
    simp only [SignedCall.path, Bool.false_eq_true, if_false, String.append_assoc]
  body := rfl
  shown := by
    simp only [SignedCall.shown, queryPairs_queryText, SignedCall.payload, SignedCall.pairs]
    refine Shown.mk.injEq .. ▸ ⟨rfl, ?_, ?_, ?_⟩
    · simp [pairBytes]
    · rw [List.map_append, List.map_singleton, List.dropLast_concat]
      rfl
    · simp [binancePairs]

theorem verifies_bybitGet {path signature : String} {query : QueryPairs} :
    (SignedCall.bybitGet path query).Verifies context now apiKey signature (queryText query)
      { method := .get
        url := withQuery (context.restBase ++ path) (queryText query)
        headers := bybitHeaders now apiKey signature } where
  method := rfl
  url := rfl
  body := rfl
  shown := by
    simp only [SignedCall.shown, queryPairs_queryText]
    rfl

theorem verifies_bybitPost {path body signature : String} :
    (SignedCall.bybitPost path body).Verifies context now apiKey signature ""
      { method := .post
        url := context.restBase ++ path
        headers := ("content-type", "application/json") :: bybitHeaders now apiKey signature
        body := some body } where
  method := rfl
  url := rfl
  body := rfl
  shown := rfl

theorem verifies_mexcGet {path signature : String} {query : QueryPairs} :
    (SignedCall.mexcGet path query).Verifies context now apiKey signature
      (queryText (sortedPairs query))
      { method := .get
        url := withQuery (context.restBase ++ path) (queryText (sortedPairs query))
        headers := mexcHeaders now apiKey signature } where
  method := rfl
  url := rfl
  body := rfl
  shown := by
    simp only [SignedCall.shown, queryPairs_queryText]
    rfl

theorem verifies_mexcPost {path body signature : String} :
    (SignedCall.mexcPost path body).Verifies context now apiKey signature ""
      { method := .post
        url := context.restBase ++ path
        headers := mexcHeaders now apiKey signature
        body := some body } where
  method := rfl
  url := rfl
  body := rfl
  shown := rfl

/-- A request is sent with the signature of its text. -/
theorem verifies_of_send {call : SignedCall} (h : call.send context now = .ok request) :
    ∃ apiKey signer signature query, context.apiKey = some apiKey ∧ context.signer = some signer ∧
      signer.signHex (call.payload now apiKey) = .ok signature ∧
        call.Verifies context now apiKey signature query request := by
  cases call with
  | binance method path pairs =>
    unfold SignedCall.send binanceSignedRequestText at h
    obtain ⟨⟨apiKey, signer⟩, hcredentials, h⟩ := except_bind_eq_ok.1 h
    obtain ⟨signature, hsign, h⟩ := except_bind_eq_ok.1 h
    obtain ⟨hkey, hsigner⟩ := requireCredentials_eq_ok hcredentials
    cases h
    exact ⟨apiKey, signer, signature, _, hkey, hsigner, hsign, verifies_binance hsign⟩
  | bybitGet path query =>
    unfold SignedCall.send bybitSignedGetText at h
    obtain ⟨⟨apiKey, signer⟩, hcredentials, h⟩ := except_bind_eq_ok.1 h
    obtain ⟨signature, hsign, h⟩ := except_bind_eq_ok.1 h
    obtain ⟨hkey, hsigner⟩ := requireCredentials_eq_ok hcredentials
    cases h
    exact ⟨apiKey, signer, signature, _, hkey, hsigner, hsign, verifies_bybitGet⟩
  | bybitPost path body =>
    unfold SignedCall.send bybitSignedPostText at h
    obtain ⟨⟨apiKey, signer⟩, hcredentials, h⟩ := except_bind_eq_ok.1 h
    obtain ⟨signature, hsign, h⟩ := except_bind_eq_ok.1 h
    obtain ⟨hkey, hsigner⟩ := requireCredentials_eq_ok hcredentials
    cases h
    exact ⟨apiKey, signer, signature, _, hkey, hsigner, hsign, verifies_bybitPost⟩
  | mexcGet path query =>
    unfold SignedCall.send mexcSignedGetText at h
    obtain ⟨⟨apiKey, signer⟩, hcredentials, h⟩ := except_bind_eq_ok.1 h
    obtain ⟨signature, hsign, h⟩ := except_bind_eq_ok.1 h
    obtain ⟨hkey, hsigner⟩ := requireCredentials_eq_ok hcredentials
    cases h
    exact ⟨apiKey, signer, signature, _, hkey, hsigner, hsign, verifies_mexcGet⟩
  | mexcPost path body =>
    unfold SignedCall.send mexcSignedPostText at h
    obtain ⟨⟨apiKey, signer⟩, hcredentials, h⟩ := except_bind_eq_ok.1 h
    obtain ⟨signature, hsign, h⟩ := except_bind_eq_ok.1 h
    obtain ⟨hkey, hsigner⟩ := requireCredentials_eq_ok hcredentials
    cases h
    exact ⟨apiKey, signer, signature, _, hkey, hsigner, hsign, verifies_mexcPost⟩

/-- A signature is good for one content only, of the requests that are sent in the same way at the
same time with the same key. -/
theorem content_of_payload {call other : SignedCall} (hsame : other.sameSender call = true)
    (h : other.payload now apiKey = call.payload now apiKey) :
    other.pairs = call.pairs ∧ other.body = call.body := by
  have hright : ∀ {pre s t : String}, pre ++ s = pre ++ t → s = t := by
    intro pre s t hst
    have hlist := congrArg String.toList hst
    rw [String.toList_append, String.toList_append] at hlist
    exact String.toList_injective (List.append_cancel_left hlist)
  cases call with
  | binance method path pairs =>
    cases other with
    | binance method' path' pairs' =>
      exact ⟨List.append_cancel_right (queryText_injective h), rfl⟩
    | _ => cases hsame
  | bybitGet path query =>
    cases other with
    | bybitGet path' query' => exact ⟨queryText_injective (hright h), rfl⟩
    | _ => cases hsame
  | bybitPost path body =>
    cases other with
    | bybitPost path' body' => exact ⟨rfl, congrArg some (hright h)⟩
    | _ => cases hsame
  | mexcGet path query =>
    cases other with
    | mexcGet path' query' => exact ⟨queryText_injective (hright h), rfl⟩
    | _ => cases hsame
  | mexcPost path body =>
    cases other with
    | mexcPost path' body' => exact ⟨rfl, congrArg some (hright h)⟩
    | _ => cases hsame

/-- **What is signed is what is sent.**  Every request that is sent shows the key and the signature,
the text that the signature is of, and the pairs that were to be sent; and a signature is good for
one content only. -/
theorem signed_request_verifies (call : SignedCall) (h : call.send context now = .ok request) :
    ∃ apiKey signer signature query, context.apiKey = some apiKey ∧ context.signer = some signer ∧
      signer.signHex (call.payload now apiKey) = .ok signature ∧
      call.Verifies context now apiKey signature query request ∧
      ∀ other : SignedCall, other.sameSender call = true →
        other.payload now apiKey = call.payload now apiKey →
          other.pairs = call.pairs ∧ other.body = call.body := by
  obtain ⟨apiKey, signer, signature, query, hkey, hsigner, hsign, hverifies⟩ := verifies_of_send h
  exact ⟨apiKey, signer, signature, query, hkey, hsigner, hsign, hverifies,
    fun _ hsame hpayload => content_of_payload hsame hpayload⟩

end Verify

/-- A signer whose signature is always the same. -/
def constantSigner : Signer where
  signHex _ := .ok "b82f"
  hex := by
    rintro payload signature hsign
    cases hsign
    simp [hexDigits]

/-- A client of MEXC with a key. -/
def signedClient : SignedContext where
  venue := .mexc
  product := .linearUsdt
  restBase := "https://contract.mexc.com"
  apiKey := some "key"
  signer := some constantSigner

/-- A request with the same key twice, which is sent once. -/
def openOrdersCall : SignedCall :=
  .mexcGet "/api/v1/private/order/list" [("page", "1"), ("limit", "20"), ("page", "2")]

theorem signed_request_verifies_openOrders :
    ∃ request, openOrdersCall.send signedClient 1700000000000 = .ok request ∧
      ∃ apiKey signer signature query, signedClient.apiKey = some apiKey ∧
        signedClient.signer = some signer ∧
        signer.signHex (openOrdersCall.payload 1700000000000 apiKey) = .ok signature ∧
        openOrdersCall.Verifies signedClient 1700000000000 apiKey signature query request ∧
        ∀ other : SignedCall, other.sameSender openOrdersCall = true →
          other.payload 1700000000000 apiKey = openOrdersCall.payload 1700000000000 apiKey →
            other.pairs = openOrdersCall.pairs ∧ other.body = openOrdersCall.body :=
  ⟨_, rfl, signed_request_verifies openOrdersCall rfl⟩

end BatMarkets
