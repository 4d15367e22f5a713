/-
The transport of the CMP client (`client/client.go`, `client/errors.go` and the
exchanges of `client/transport.go`).

A client is a program over `ClientEffect`: the peer's replies, the clock and the
random values come from outside.

* `Client.receive`: which HTTP replies are looked at;
* `Client.verifyResponse`: the binding of a reply to its request, and its
  protection;
* `Client.exchange`: one request and its verified reply.
-/
import PkiCmp.Lib.Prog
import PkiCmp.Request

namespace PkiCmp

open Der Interact

/-! ### Configuration -/

/-- `DefaultMaxResponseBytes`. -/
def DefaultMaxResponseBytes : ℤ := 10 * 1024 * 1024

/-- `DefaultMaxPolls`. -/
def DefaultMaxPolls : ℤ := 60

/-- `DefaultMinCheckAfter`. -/
def DefaultMinCheckAfter : Duration := 1 * Time.second

/-- `DefaultMaxCheckAfter`. -/
def DefaultMaxCheckAfter : Duration := 60 * 60 * Time.second

/-- `Client`, with the defaults of `NewClient`. -/
structure Client where
  crypto : Crypto
  recipient : Name := {}
  extraCerts : List Certificate := []
  trustedCAs : Option (List Certificate) := none
  serverCerts : List Certificate := []
  responseProtection : ProtectionMechanism := .any
  maxResponseBytes : ℤ := DefaultMaxResponseBytes
  maxPolls : ℤ := DefaultMaxPolls
  minCheckAfter : Duration := DefaultMinCheckAfter
  maxCheckAfter : Duration := DefaultMaxCheckAfter
  allowSHA1Signatures : Bool := false

/-- `WithCheckAfterLimits`. -/
def Client.withCheckAfterLimits (c : Client) (minimum maximum : Duration) : Client :=
  let minimum := if minimum < 0 then 0 else minimum
  let maximum := if maximum < minimum then minimum else maximum
  { c with minCheckAfter := minimum, maxCheckAfter := maximum }

/-- `requestOptions`. -/
structure RequestOptions where
  sender : Option Name := none
  senderKID : Bytes := []
  templateSubject : Option Name := none
  templateExts : List Extension := []
  oldCertificate : Option Certificate := none

/-! ### The outside -/

/-- What comes back over HTTP; the media type is there when the value of
Content-Type parses. -/
structure HTTPReply where
  statusCode : ℕ
  contentType : GoString
  mediaType : Option GoString
  body : Bytes

/-- Where an HTTP exchange may fail. -/
inductive HTTPFailure where
  | create (err : GoError)
  | request (err : GoError)
  | read (err : GoError)

/-- `cmpHTTPResponse`. -/
structure CmpHTTPResponse where
  message : PKIMessage
  statusCode : ℕ

/-- What a reply is the answer to: the first request, a pollReq, or a certConf,
which may reject the certificate. -/
inductive Awaited where
  | first
  | poll
  | pkiConf (rejecting : Bool)
  deriving DecidableEq

/-- The operations of a client.  The clock that `Verify` reads is asked with the
reply and the options it is read for. -/
inductive ClientEffect where
  | random
  | now
  | seal (s : Seal) (data : Bytes)
  | post (der : Bytes)
  | wait (d : Duration)
  | verifyTime (awaited : Awaited) (reply : CmpHTTPResponse) (o : VerifyOptions)

/-- The answers; waiting ends with an error when the context is done. -/
abbrev ClientEffect.Res : ClientEffect → Type
  | .random => { b : Bytes // b.length = 16 }
  | .now => Time
  | .seal .. => Except GoError Bytes
  | .post .. => Except HTTPFailure HTTPReply
  | .wait .. => Option GoError
  | .verifyTime .. => Time

/-- Programs of a client. -/
abbrev ClientProg := Prog ClientEffect ClientEffect.Res

/-- Issue an operation. -/
abbrev request (o : ClientEffect) : ClientProg o.Res := Prog.call o

/-! ### Errors -/

/-- `http.StatusText`. -/
def statusText : ℕ → String
  | 100 => "Continue" | 101 => "Switching Protocols" | 102 => "Processing"
  | 103 => "Early Hints"
  | 200 => "OK" | 201 => "Created" | 202 => "Accepted"
  | 203 => "Non-Authoritative Information" | 204 => "No Content" | 205 => "Reset Content"
  | 206 => "Partial Content" | 207 => "Multi-Status" | 208 => "Already Reported"
  | 226 => "IM Used"
  | 300 => "Multiple Choices" | 301 => "Moved Permanently" | 302 => "Found"
  | 303 => "See Other" | 304 => "Not Modified" | 305 => "Use Proxy"
  | 307 => "Temporary Redirect" | 308 => "Permanent Redirect"
  | 400 => "Bad Request" | 401 => "Unauthorized" | 402 => "Payment Required"
  | 403 => "Forbidden" | 404 => "Not Found" | 405 => "Method Not Allowed"
  | 406 => "Not Acceptable" | 407 => "Proxy Authentication Required"
  | 408 => "Request Timeout" | 409 => "Conflict" | 410 => "Gone" | 411 => "Length Required"
  | 412 => "Precondition Failed" | 413 => "Request Entity Too Large"
  | 414 => "Request URI Too Long" | 415 => "Unsupported Media Type"
  | 416 => "Requested Range Not Satisfiable" | 417 => "Expectation Failed"
  | 418 => "I'm a teapot" | 421 => "Misdirected Request" | 422 => "Unprocessable Entity"
  | 423 => "Locked" | 424 => "Failed Dependency" | 425 => "Too Early"
  | 426 => "Upgrade Required" | 428 => "Precondition Required" | 429 => "Too Many Requests"
  | 431 => "Request Header Fields Too Large" | 451 => "Unavailable For Legal Reasons"
  | 500 => "Internal Server Error" | 501 => "Not Implemented" | 502 => "Bad Gateway"
  | 503 => "Service Unavailable" | 504 => "Gateway Timeout"
  | 505 => "HTTP Version Not Supported" | 506 => "Variant Also Negotiates"
  | 507 => "Insufficient Storage" | 508 => "Loop Detected" | 510 => "Not Extended"
  | 511 => "Network Authentication Required"
  | _ => ""

/-- The text of an HTTP status in an error. -/
def statusOp (statusCode : ℕ) : GoString :=
  str "HTTP " ++ decimal statusCode ++ str ": " ++ str (statusText statusCode)

/-- `newHTTPStatusError`. -/
def newHTTPStatusError (statusCode : ℕ) : GoError := .client (statusOp statusCode)

/-- `wrapError` of an error that is there. -/
def addStatus (statusCode : ℕ) (err : GoError) : GoError :=
  if statusCode = 200 then err else .clientWrapped (statusOp statusCode) err

/-- `wrapError`: with status 200 no error stays no error. -/
def wrapError (statusCode : ℕ) : Option GoError → Option GoError
  | some err => some (addStatus statusCode err)
  | none => if statusCode = 200 then none else some (.client (statusOp statusCode))

/-- `withUnverifiedStatus`. -/
def withUnverifiedStatus (msg : PKIMessage) (err : GoError) : GoError :=
  if msg.body.type ≠ BodyTypeError then err
  else match msg.body.getError with
    | .error _ => err
    | .ok content =>
      .unverifiedStatus content.pkiStatusInfo.status
        (joinStrings (str "; ") content.pkiStatusInfo.statusString) content.pkiStatusInfo.failInfo
        err

/-- `parseErrorResponse`: the error of an error body, which is nil for a status
that is none. -/
def parseErrorResponse (msg : PKIMessage) : Option GoError :=
  match msg.body.getError with
  | .error e => some (.clientWrapped (str "error parsing ErrorMsgContent") e)
  | .ok content => content.pkiStatusInfo.asError

/-! ### HTTP -/

/-- `rawHTTPResponse`. -/
structure RawHTTPResponse where
  body : Bytes
  statusCode : ℕ

/-- `rawHTTPResponse.parse`. -/
def RawHTTPResponse.parse (r : RawHTTPResponse) (op : String) : Except GoError CmpHTTPResponse :=
  match parsePKIMessage r.body with
  | .error e => .error (addStatus r.statusCode (.clientWrapped (str op) e))
  | .ok message => .ok ⟨message, r.statusCode⟩

/-- `supportsCMPResponse`. -/
def supportsCMPResponse (statusCode : ℕ) : Bool :=
  statusCode / 100 = 2 || statusCode / 100 = 4 || statusCode / 100 = 5

/-- The error of an exchange without a reply. -/
def HTTPFailure.error : HTTPFailure → GoError
  | .create e => .clientWrapped (str "create HTTP request") e
  | .request e => .clientWrapped (str "HTTP request") e
  | .read e => .clientWrapped (str "read response") e

namespace Client

variable (c : Client)

/-- What `sendHTTP` makes of a reply: a body of at most the allowed size, with a
status and a media type that CMP allows. -/
def receive (r : HTTPReply) : Except GoError RawHTTPResponse :=
  let body :=
    if 0 < c.maxResponseBytes then r.body.take (c.maxResponseBytes + 1).toNat else r.body
  if 0 < c.maxResponseBytes ∧ c.maxResponseBytes < body.length then
    .error (.client (str "response body too large: limit=" ++ decimal c.maxResponseBytes))
  else if !supportsCMPResponse r.statusCode then .error (newHTTPStatusError r.statusCode)
  else if r.mediaType ≠ some (str "application/pkixcmp") then
    if r.statusCode ≠ 200 then .error (newHTTPStatusError r.statusCode)
    else .error (.client (str "unexpected Content-Type: " ++ r.contentType))
  else if body = [] ∧ r.statusCode ≠ 200 then .error (newHTTPStatusError r.statusCode)
  else .ok ⟨body, r.statusCode⟩

/-- `sendHTTP`. -/
def sendHTTP (reqDER : Bytes) : ClientProg (Except GoError RawHTTPResponse) := do
  let r : Except HTTPFailure HTTPReply ← request (.post reqDER)
  match r with
  | .error f => pure (.error f.error)
  | .ok reply => pure (c.receive reply)

/-! ### Verification -/

/-- `SharedSecret`, of the credentials that have one. -/
def sharedSecret : Credentials → Bytes
  | .mac secret _ => secret
  | .signature .. => []

/-- `verificationHint`. -/
def verificationHint (err : GoError) (trustedCAs : Option (List Certificate)) : GoString :=
  match err.asVerificationError with
  | some .missingTrustAnchors =>
    if trustedCAs = none then
      str ("the response is signature-protected and no trusted CAs are configured, " ++
        "which a shared-secret client also needs because error messages are signed " ++
        "(RFC 9810 §5.3.21)")
    else []
  | some .noCandidateSigner =>
    if c.serverCerts = [] then
      str ("the response does not carry its protection certificate in extraCerts, " ++
        "so configure the certificate the server signs with through WithServerCerts")
    else []
  | _ => []

/-- The options a response is verified with.  Its own certificates come first. -/
def verifyOptions (resp : PKIMessage) (creds : Credentials)
    (trustedCAs : Option (List Certificate)) (knownSigner : Option Certificate) : VerifyOptions :=
  let known : List CMPCertificate := (knownSigner.toList ++ c.serverCerts).map fun k => ⟨k.raw⟩
  { requiredProtection := c.responseProtection
    sharedSecret := sharedSecret creds
    trustPool := trustedCAs
    extraCerts := resp.extraCerts ++ known
    senderKID := resp.header.senderKID
    allowSHA1Signatures := c.allowSHA1Signatures }

/-- `verifyResponse`; `alternative` is the other nonce that may be echoed. -/
def verifyResponse (awaited : Awaited) (req : PKIMessage) (reply : CmpHTTPResponse)
    (creds : Credentials) (trustedCAs : Option (List Certificate))
    (knownSigner : Option Certificate) (alternative : Option Bytes) :
    ClientProg (Except GoError VerifyResult) :=
  let resp := reply.message
  if resp.header.transactionID ≠ req.header.transactionID then
    pure (.error (.client (str "transaction ID mismatch")))
  else if resp.header.recipNonce ≠ req.header.senderNonce ∧
      alternative ≠ some resp.header.recipNonce then
    pure (.error (.client (str "recipient nonce mismatch")))
  else if resp.header.protectionAlg = none then
    pure (.error (.client (str "missing protection algorithm in response")))
  else do
    let o := c.verifyOptions resp creds trustedCAs knownSigner
    let now : Time ← request (.verifyTime awaited reply o)
    match resp.verify c.crypto o now with
    | .ok vr => pure (.ok vr)
    | .error err =>
      let hint := c.verificationHint err trustedCAs
      let err := if hint ≠ [] then .annotated err (str ": " ++ hint) else err
      pure (.error (.clientWrapped (str "verify protection") err))

/-! ### Exchanges -/

/-- A shared secret draws a fresh salt. -/
def freshSalt : Credentials → ClientProg Bytes
  | .mac .. => do
      let salt : { b : Bytes // b.length = 16 } ← request .random
      pure salt.1
  | .signature .. => pure []

/-- `Credentials.Protect`. -/
def protect (creds : Credentials) (m : PKIMessage) : ClientProg (Except GoError PKIMessage) := do
  let salt ← freshSalt creds
  match creds.prepare c.crypto salt m with
  | (_, .error e) => pure (.error e)
  | (m, .ok (s, data)) => do
      let r : Except GoError Bytes ← request (.seal s data)
      match r with
      | .error e => pure (.error e)
      | .ok p => pure (.ok { m with protection := p })

/-- The texts of an exchange, and what its reply is the answer to. -/
structure Exchange where
  awaited : Awaited
  marshalOp : String
  parseOp : String
  verifyOp : String
  sendError : GoError → GoError := id

/-- One exchange: send a protected message and verify the reply. -/
def exchange (x : Exchange) (msg : PKIMessage) (creds : Credentials)
    (trustedCAs : Option (List Certificate)) (knownSigner : Option Certificate)
    (alternative : PKIMessage → Option Bytes) :
    ClientProg (Except GoError (CmpHTTPResponse × VerifyResult)) :=
  match msg.marshalBinary with
  | .error e => pure (.error (.clientWrapped (str x.marshalOp) e))
  | .ok der => do
      let r ← c.sendHTTP der
      match r with
      | .error e => pure (.error (x.sendError e))
      | .ok raw =>
        match raw.parse x.parseOp with
        | .error e => pure (.error e)
        | .ok reply => do
            let v ← c.verifyResponse x.awaited msg reply creds trustedCAs knownSigner
              (alternative reply.message)
            match v with
            | .error e =>
              pure (.error (addStatus reply.statusCode
                (withUnverifiedStatus reply.message (.clientWrapped (str x.verifyOp) e))))
            | .ok vr => pure (.ok (reply, vr))

/-- The error for a version that is not supported. -/
def checkVersion (reply : CmpHTTPResponse) : Option GoError :=
  let pvno := reply.message.header.pvno
  if pvno < PVNO2 ∨ PVNO3 < pvno then
    some (addStatus reply.statusCode
      (.client (str "unsupported protocol version: " ++ decimal pvno)))
  else none

/-- `exchangeFirst`. -/
def exchangeFirst (msg : PKIMessage) (creds : Credentials) :
    ClientProg (Except GoError (CmpHTTPResponse × VerifyResult)) := do
  let r ← c.exchange
    { awaited := .first, marshalOp := "marshal request", parseOp := "parse response",
      verifyOp := "verify response" } msg creds c.trustedCAs none fun _ => none
  match r with
  | .error e => pure (.error e)
  | .ok (reply, vr) =>
    match checkVersion reply with
    | some e => pure (.error e)
    | none => pure (.ok (reply, vr))

/-! ### Requests -/

/-- `isEmptyName`. -/
def isEmptyName (n : Name) : Bool :=
  n.country = [] && n.organization = [] && n.organizationalUnit = [] && n.locality = [] &&
    n.province = [] && n.streetAddress = [] && n.postalCode = [] && n.serialNumber = [] &&
    n.commonName = [] && n.names = [] && n.extraNames.getD [] = []

/-- `NewPKIMessage`, drawing its random values and the time. -/
def newMessage (body : PKIBody) (sender recipient : GeneralName) (recipNonce : Bytes) :
    ClientProg PKIMessage := do
  let transactionID : { b : Bytes // b.length = 16 } ← request .random
  let senderNonce : { b : Bytes // b.length = 16 } ← request .random
  let now : Time ← request .now
  pure (newPKIMessage body sender recipient recipNonce transactionID.1 senderNonce.1 now)

/-- The sender of the first request. -/
def requestSender (creds : Credentials) (opts : RequestOptions) : GeneralName :=
  match opts.sender, creds with
  | some name, _ => newDirectoryName name
  | none, .signature _ cert _ => newDirectoryName cert.subject
  | none, .mac .. => {}

/-- `newRequest`, with credentials. -/
def newRequest (reqBody : PKIBody) (creds : Credentials) (opts : RequestOptions) :
    ClientProg (Except GoError PKIMessage) := do
  let recipient := if isEmptyName c.recipient then {} else newDirectoryName c.recipient
  let msg ← newMessage reqBody (requestSender creds opts) recipient []
  let msg : PKIMessage :=
    { msg with extraCerts := c.extraCerts.map fun k => ⟨k.raw⟩
               header := { msg.header with senderKID := opts.senderKID } }
  let r ← c.protect creds msg
  match r with
  | .error e => pure (.error (.clientWrapped (str "protect request") e))
  | .ok msg => pure (.ok msg)

/-- The error of `newRequest` without credentials. -/
def noCredentials : GoError :=
  .clientWrapped (str "protect request") (.text (str "no credentials provided"))

/-- A further message of an operation: it keeps the names, the transactionID and
the senderKID of the first one. -/
def followUp (op : String) (first : PKIHeader) (lastResp : PKIMessage) (body : PKIBody)
    (creds : Credentials) : ClientProg (Except GoError PKIMessage) := do
  let msg ← newMessage body first.sender first.recipient lastResp.header.senderNonce
  let msg : PKIMessage :=
    { msg with header := { msg.header with transactionID := first.transactionID
                                           senderKID := first.senderKID } }
  let r ← c.protect creds msg
  match r with
  | .error e => pure (.error (.clientWrapped (str op) e))
  | .ok msg => pure (.ok msg)

/-! ### What protecting keeps -/

/-- Protecting keeps what it does not set. -/
lemma protect_yields (creds : Credentials) (m : PKIMessage) :
    Prog.Yields (fun r => ∀ m', r = .ok m' → m.Protects m' ∧
      m'.header.senderKID = creds.senderKID m.header.senderKID) (c.protect creds m) := by
  have hfresh : Prog.Yields (fun _ => True) (freshSalt creds) := by
    unfold freshSalt
    split
    · exact fun _ => trivial
    · trivial
  refine hfresh.bind fun salt _ => ?_
  have hprep := Credentials.prepare_protects c.crypto salt m creds
  split
  · nofun
  · next m1 s data heq =>
    rw [heq] at hprep
    have hkid := Credentials.prepare_senderKID heq
    intro r
    cases r with
    | error e => nofun
    | ok p =>
      rintro m' ⟨⟩
      exact ⟨hprep.trans ⟨_, _, _, _, _, _, _, rfl⟩, hkid⟩

/-- What the first message of an operation is. -/
structure Begins (body : PKIBody) (creds : Credentials) (opts : RequestOptions) (m : PKIMessage) :
    Prop where
  body : m.body = body
  sender : m.header.sender = requestSender creds opts
  recipient : m.header.recipient =
    if isEmptyName c.recipient then {} else newDirectoryName c.recipient
  senderKID : m.header.senderKID = creds.senderKID opts.senderKID
  senderNonce : m.header.senderNonce.length = 16

/-- What a further message is. -/
structure Follows (first : PKIHeader) (lastResp : PKIMessage) (body : PKIBody)
    (creds : Credentials) (m : PKIMessage) : Prop where
  body : m.body = body
  transactionID : m.header.transactionID = first.transactionID
  sender : m.header.sender = first.sender
  recipient : m.header.recipient = first.recipient
  senderKID : m.header.senderKID = creds.senderKID first.senderKID
  senderNonce : m.header.senderNonce.length = 16
  recipNonce : m.header.recipNonce = lastResp.header.senderNonce

lemma newRequest_yields (body : PKIBody) (creds : Credentials) (opts : RequestOptions) :
    Prog.Yields (fun r => ∀ m, r = .ok m → c.Begins body creds opts m)
      (c.newRequest body creds opts) := by
  unfold newRequest
  refine fun _ nonce _ => (c.protect_yields creds _).bind fun r hr => ?_
  cases r with
  | error e => nofun
  | ok m =>
    rintro m' ⟨⟩
    obtain ⟨⟨_, _, _, _, _, _, _, rfl⟩, hkid⟩ := hr m rfl
    exact ⟨rfl, rfl, rfl, hkid, nonce.2⟩

lemma followUp_yields (op : String) (first : PKIHeader) (lastResp : PKIMessage) (body : PKIBody)
    (creds : Credentials) :
    Prog.Yields (fun r => ∀ m, r = .ok m → Follows first lastResp body creds m)
      (c.followUp op first lastResp body creds) := by
  unfold followUp
  refine fun _ nonce _ => (c.protect_yields creds _).bind fun r hr => ?_
  cases r with
  | error e => nofun
  | ok m =>
    rintro m' ⟨⟩
    obtain ⟨⟨_, _, _, _, _, _, _, rfl⟩, hkid⟩ := hr m rfl
    exact ⟨rfl, rfl, rfl, rfl, hkid, nonce.2, rfl⟩

end Client

end PkiCmp
