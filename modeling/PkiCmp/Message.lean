/-
Messages: header, body and envelope (`pkicmp/pkimessage.go`, `pkicmp/pkibody.go`).

A body is either received, with its type and the element it arrived in, or
constructed from decoded content.  Getters decode a received body every time;
the source decodes it once and keeps the result, which is the same value.

* `PKIHeader.marshal`, `PKIHeader.unmarshal`;
* `PKIBody.marshal`, `PKIMessage.marshalBinary`, `PKIMessage.marshalForNesting`;
* `parsePKIMessage`: the envelope; it keeps the exact header and body elements;
* `PKIMessage.protectedPart`: what a protection is computed over;
* `wireProtectedPart`: the same, read off the octets of a message.
-/
import PkiCmp.Enrollment

namespace PkiCmp

open Der

/-! ### Header -/

/-- The versions of the protocol. -/
def PVNO2 : ℤ := 2
def PVNO3 : ℤ := 3

/-- `PKIHeader`. -/
structure PKIHeader where
  pvno : ℤ
  sender : GeneralName := {}
  recipient : GeneralName := {}
  messageTime : Time := 0
  protectionAlg : Option AlgorithmIdentifier := none
  senderKID : Bytes := []
  recipKID : Bytes := []
  transactionID : Bytes := []
  senderNonce : Bytes := []
  recipNonce : Bytes := []
  freeText : PKIFreeText := []
  generalInfo : List InfoTypeAndValue := []
  messageTimePresent : Bool := false
  deriving DecidableEq, Repr

namespace PKIHeader

/-- `HasMessageTime`. -/
def hasMessageTime (h : PKIHeader) : Bool := h.messageTimePresent || !h.messageTime.isZero

/-- An optional `[n]` field that wraps an OCTET STRING. -/
def marshalOctets (n : UInt8) (b : Bytes) : Except GoError Bytes :=
  optional (b ≠ []) (addASN1 (contextConstructed n) (addASN1OctetString b))

/-- The fields after the version. -/
def marshalFields (h : PKIHeader) : Except GoError Bytes :=
  concat [h.sender.marshal, h.recipient.marshal,
    optional h.hasMessageTime
      (addASN1 (contextConstructed 0) (addASN1GeneralizedTime h.messageTime)),
    (match h.protectionAlg with
      | some a => addASN1 (contextConstructed 1) a.marshal
      | none => .ok []),
    marshalOctets 2 h.senderKID, marshalOctets 3 h.recipKID, marshalOctets 4 h.transactionID,
    marshalOctets 5 h.senderNonce, marshalOctets 6 h.recipNonce,
    optional (h.freeText ≠ []) (addASN1 (contextConstructed 7) (PKIFreeText.marshal h.freeText)),
    optional (h.generalInfo ≠ []) (addASN1 (contextConstructed 8)
      (addASN1 tagSequence (concat (h.generalInfo.map InfoTypeAndValue.marshal))))]

/-- The version, then the other fields. -/
def marshal (h : PKIHeader) : Except GoError Bytes :=
  addASN1 tagSequence (concat [addASN1Int h.pvno, h.marshalFields])

/-- `readOptionalOctetString`. -/
def readOptionalOctetString (n : UInt8) (name : String) : Reader Bytes := do
  if ← Reader.peek (contextConstructed n) then do
    let sub ← Reader.element ("invalid " ++ name ++ " tag") (contextConstructed n)
    Reader.within sub (Reader.element ("invalid " ++ name) tagOctetString)
  else pure []

/-- An error inside a name is wrapped with the field it is in. -/
def wrapField {α : Type} (detail : String) (r : Reader α) : Reader α := fun s =>
  match r.run s with
  | .ok v => .ok v
  | .error e => .error (.parseWrapped (str detail) e)

lemma wrapField_ok {α : Type} {detail : String} {r : Reader α} {s : Bytes} {x : α × Bytes} :
    wrapField detail r s = .ok x ↔ r s = .ok x := by
  unfold wrapField StateT.run
  cases r s <;> simp

/-- The fields in their order; data after the last one is ignored. -/
def unmarshal : Reader PKIHeader := do
  let seq ← Reader.element "invalid PKIHeader sequence" tagSequence
  Reader.within seq do
    let pvno ← Reader.read "invalid pvno" readASN1Int64
    let sender ← wrapField "sender" GeneralName.unmarshal
    let recipient ← wrapField "recipient" GeneralName.unmarshal
    let time ← if ← Reader.peek (contextConstructed 0) then do
        let sub ← Reader.element "invalid messageTime tag" (contextConstructed 0)
        let t ← Reader.within sub (Reader.read "invalid messageTime" readASN1GeneralizedTime)
        pure (some t)
      else pure none
    let alg ← if ← Reader.peek (contextConstructed 1) then do
        let sub ← Reader.element "invalid protectionAlg tag" (contextConstructed 1)
        let a ← Reader.within sub AlgorithmIdentifier.unmarshal
        pure (some a)
      else pure none
    let senderKID ← readOptionalOctetString 2 "senderKID"
    let recipKID ← readOptionalOctetString 3 "recipKID"
    let transactionID ← readOptionalOctetString 4 "transactionID"
    let senderNonce ← readOptionalOctetString 5 "senderNonce"
    let recipNonce ← readOptionalOctetString 6 "recipNonce"
    let freeText ← if ← Reader.peek (contextConstructed 7) then do
        let sub ← Reader.element "invalid freeText tag" (contextConstructed 7)
        Reader.within sub PKIFreeText.unmarshal
      else pure []
    let generalInfo ← if ← Reader.peek (contextConstructed 8) then do
        let sub ← Reader.element "invalid generalInfo tag" (contextConstructed 8)
        Reader.within sub do
          let gi ← Reader.element "invalid generalInfo sequence" tagSequence
          Reader.within gi (Reader.many InfoTypeAndValue.unmarshal)
      else pure []
    pure { pvno, sender, recipient, messageTime := time.getD 0, protectionAlg := alg,
           senderKID, recipKID, transactionID, senderNonce, recipNonce, freeText, generalInfo,
           messageTimePresent := time.isSome }

end PKIHeader

/-! ### Body types -/

/-- `BodyType`: the context-specific constructed tag of the choice. -/
abbrev BodyType := UInt8

/-- The choices of a body. -/
def BodyTypeIR : BodyType := contextConstructed 0
def BodyTypeIP : BodyType := contextConstructed 1
def BodyTypeCR : BodyType := contextConstructed 2
def BodyTypeCP : BodyType := contextConstructed 3
def BodyTypeP10CR : BodyType := contextConstructed 4
def BodyTypeKUR : BodyType := contextConstructed 7
def BodyTypeKUP : BodyType := contextConstructed 8
def BodyTypeRR : BodyType := contextConstructed 11
def BodyTypeRP : BodyType := contextConstructed 12
def BodyTypePKIConf : BodyType := contextConstructed 19
def BodyTypeNested : BodyType := contextConstructed 20
def BodyTypeError : BodyType := contextConstructed 23
def BodyTypeCertConf : BodyType := contextConstructed 24
def BodyTypePollReq : BodyType := contextConstructed 25
def BodyTypePollRep : BodyType := contextConstructed 26

/-- `BodyType.String`. -/
def bodyTypeName (t : BodyType) : GoString :=
  if t = BodyTypeIR then str "ir" else if t = BodyTypeIP then str "ip"
  else if t = BodyTypeCR then str "cr" else if t = BodyTypeCP then str "cp"
  else if t = BodyTypeP10CR then str "p10cr" else if t = BodyTypeKUR then str "kur"
  else if t = BodyTypeKUP then str "kup" else if t = BodyTypeRR then str "rr"
  else if t = BodyTypeRP then str "rp" else if t = BodyTypePKIConf then str "pkiconf"
  else if t = BodyTypeNested then str "nested" else if t = BodyTypeError then str "error"
  else if t = BodyTypeCertConf then str "certConf" else if t = BodyTypePollReq then str "pollReq"
  else if t = BodyTypePollRep then str "pollRep"
  else str "BodyType(" ++ decimal t.toNat ++ str ")"

/-! ### Bodies and messages -/

mutual

/-- `PKIBody`. -/
inductive PKIBody where
  /-- as received: the tag and the element -/
  | received (type : BodyType) (raw : Bytes)
  | ir (m : CertReqMessages)
  | ip (m : CertRepMessage)
  | cr (m : CertReqMessages)
  | cp (m : CertRepMessage)
  | p10cr (csr : CertificateRequest)
  | kur (m : CertReqMessages)
  | kup (m : CertRepMessage)
  | rr (c : RevReqContent)
  | rp (c : RevRepContent)
  | certConf (c : CertConfirmContent)
  | pkiConf
  | pollReq (c : PollReqContent)
  | pollRep (c : PollRepContent)
  | error (c : ErrorMsgContent)
  | nested (msgs : List PKIMessage)

/-- `PKIMessage`. -/
structure PKIMessage where
  header : PKIHeader
  body : PKIBody
  protection : Bytes := []
  extraCerts : List CMPCertificate := []
  rawHeader : Bytes := []
  rawBody : Bytes := []

end

namespace PKIBody

/-- `PKIBody.Type`. -/
def type : PKIBody → BodyType
  | .received t _ => t
  | .ir _ => BodyTypeIR
  | .ip _ => BodyTypeIP
  | .cr _ => BodyTypeCR
  | .cp _ => BodyTypeCP
  | .p10cr _ => BodyTypeP10CR
  | .kur _ => BodyTypeKUR
  | .kup _ => BodyTypeKUP
  | .rr _ => BodyTypeRR
  | .rp _ => BodyTypeRP
  | .certConf _ => BodyTypeCertConf
  | .pkiConf => BodyTypePKIConf
  | .pollReq _ => BodyTypePollReq
  | .pollRep _ => BodyTypePollRep
  | .error _ => BodyTypeError
  | .nested _ => BodyTypeNested

/-- Encoding the body requires version 3.  A received body is copied, and the
messages of a nested body have versions of their own. -/
def needsPVNO3 : PKIBody → Bool
  | .ir m | .cr m | .kur m => CertReqMessages.needsPVNO3 m
  | .ip m | .cp m | .kup m => m.needsPVNO3
  | .certConf c => CertConfirmContent.needsPVNO3 c
  | _ => false

/-- The version a message with this body gets: the one in the header or 2, if
that is larger, unless the body sets it to 3. -/
def requiredPVNO (b : PKIBody) (pvno : ℤ) : ℤ :=
  if b.needsPVNO3 then PVNO3 else if PVNO2 < pvno then pvno else PVNO2

end PKIBody

/-! ### Encoding -/

/-- `marshalTrailer`: protection and extraCerts. -/
def PKIMessage.marshalTrailer (m : PKIMessage) : Except GoError Bytes :=
  concat [
    optional (m.protection ≠ []) (addASN1 (contextConstructed 0)
      (addASN1 tagBitString (.ok (0 :: m.protection)))),
    optional (m.extraCerts ≠ []) (addASN1 (contextConstructed 1)
      (addASN1 tagSequence (concat (m.extraCerts.map CMPCertificate.marshal))))]

mutual

/-- `PKIBody.marshal`. -/
def PKIBody.marshal : PKIBody → Except GoError Bytes
  | .received _ raw => .ok raw
  | .ir m => addASN1 BodyTypeIR (CertReqMessages.marshal m)
  | .ip m => addASN1 BodyTypeIP m.marshal
  | .cr m => addASN1 BodyTypeCR (CertReqMessages.marshal m)
  | .cp m => addASN1 BodyTypeCP m.marshal
  | .p10cr csr => addASN1 BodyTypeP10CR (.ok csr.raw)
  | .kur m => addASN1 BodyTypeKUR (CertReqMessages.marshal m)
  | .kup m => addASN1 BodyTypeKUP m.marshal
  | .rr c => addASN1 BodyTypeRR (RevReqContent.marshal c)
  | .rp c => addASN1 BodyTypeRP c.marshal
  | .certConf c => addASN1 BodyTypeCertConf (CertConfirmContent.marshal c)
  | .pkiConf => addASN1 BodyTypePKIConf marshalPKIConfirm
  | .pollReq c => addASN1 BodyTypePollReq (PollReqContent.marshal c)
  | .pollRep c => addASN1 BodyTypePollRep (PollRepContent.marshal c)
  | .error c => addASN1 BodyTypeError c.marshal
  | .nested [] =>
    addASN1 BodyTypeNested
      (.error (.parse (str "nested body requires at least one message")))
  | .nested (m :: ms) => addASN1 BodyTypeNested (addASN1 tagSequence (marshalNested (m :: ms)))

/-- The messages of a nested body. -/
def marshalNested : List PKIMessage → Except GoError Bytes
  | [] => .ok []
  | m :: ms => concat [m.marshalForNesting, marshalNested ms]

/-- `marshalForNesting`: a protected message keeps the elements it was protected
over, any other is encoded from its fields. -/
def PKIMessage.marshalForNesting : PKIMessage → Except GoError Bytes
  | ⟨header, body, protection, extraCerts, rawHeader, rawBody⟩ =>
    let m : PKIMessage := ⟨header, body, protection, extraCerts, rawHeader, rawBody⟩
    if protection = [] ∨ rawHeader = [] ∨ rawBody = [] then
      match body.marshal with
      | .error e => .error e
      | .ok b =>
        addASN1 tagSequence
          (concat [{ header with pvno := body.requiredPVNO header.pvno }.marshal, .ok b,
            m.marshalTrailer])
    else addASN1 tagSequence (concat [.ok rawHeader, .ok rawBody, m.marshalTrailer])

end

namespace PKIMessage

/-- The header version is set by encoding. -/
def updatePVNO (m : PKIMessage) : PKIMessage :=
  { m with header := { m.header with pvno := m.body.requiredPVNO m.header.pvno } }

/-- `MarshalBinary`: the body is encoded first, then the header with the version
the body requires. -/
def marshalBinary (m : PKIMessage) : Except GoError Bytes := do
  let body ← m.body.marshal
  addASN1 tagSequence (concat [m.updatePVNO.header.marshal, .ok body, m.marshalTrailer])

/-- `protectedPart`: the SEQUENCE of the kept header and body elements. -/
def protectedPart (m : PKIMessage) : Except GoError Bytes :=
  if m.rawHeader = [] ∨ m.rawBody = [] then parseError "raw header or body missing"
  else addASN1 tagSequence (.ok (m.rawHeader ++ m.rawBody))

end PKIMessage

/-! ### Decoding -/

/-- `PKIBody.unmarshal` of one element. -/
def unmarshalBody (e : Element) : Except GoError PKIBody :=
  if e.tag ||| 0x80 = e.tag then .ok (.received e.tag e.raw)
  else .error (.parse (str "invalid PKIBody tag: " ++ decimal e.tag.toNat))

/-- The optional protection field. -/
def unmarshalProtection : Reader Bytes := do
  if ← Reader.peek (contextConstructed 0) then do
    let sub ← Reader.element "invalid protection tag" (contextConstructed 0)
    let bits ← Reader.within sub (Reader.element "invalid protection BIT STRING" tagBitString)
    match bits with
    | [] => throw (.parse (str "invalid protection unused bits"))
    | _ :: b => pure b
  else pure []

/-- The optional extraCerts field. -/
def unmarshalExtraCerts : Reader (List CMPCertificate) := do
  if ← Reader.peek (contextConstructed 1) then do
    let sub ← Reader.element "invalid extraCerts tag" (contextConstructed 1)
    Reader.within sub do
      let certs ← Reader.element "invalid extraCerts sequence" tagSequence
      Reader.within certs (Reader.many CMPCertificate.unmarshal)
  else pure []

/-- The fields of a message. -/
def unmarshalMessage : Reader PKIMessage := do
  let rawHeader ← Reader.anyElement "missing PKIHeader"
  let header ← Reader.within rawHeader.raw PKIHeader.unmarshal
  let rawBody ← Reader.anyElement "missing PKIBody"
  let body ← unmarshalBody rawBody
  let protection ← unmarshalProtection
  let extraCerts ← unmarshalExtraCerts
  if ← Reader.empty then
    pure { header, body, protection, extraCerts, rawHeader := rawHeader.raw,
           rawBody := rawBody.raw }
  else throw (.parse (str "trailing data inside PKIMessage sequence"))

/-- `ParsePKIMessage`. -/
def parsePKIMessage (der : Bytes) : Except GoError PKIMessage :=
  match readASN1 tagSequence der with
  | none => parseError "invalid PKIMessage sequence"
  | some (e, rest) => do
      let (m, _) ← unmarshalMessage.run e.content
      if rest.isEmpty then .ok m else parseError "trailing data after PKIMessage"

/-- `parseNestedMessages`. -/
def parseNestedMessages (raw : Bytes) : Except GoError (List PKIMessage) :=
  match readASN1 BodyTypeNested raw with
  | none => parseError "invalid nested body content"
  | some (content, _) =>
    match readASN1 tagSequence content.content with
    | some (seq, []) => do
        let (elems, _) ← (Reader.many (Reader.read "invalid message in nested body"
          (readASN1 tagSequence))).run seq.content
        let msgs ← elems.mapM fun e =>
          match parsePKIMessage e.raw with
          | .ok m => .ok m
          | .error err => .error (.parseWrapped (str "nested message") err)
        if msgs.isEmpty then parseError "nested body contains no messages" else .ok msgs
    | _ => parseError "invalid nested body content"

/-! ### Getters -/

namespace PKIBody

variable {α : Type}

/-- The error of a getter for another type. -/
def notType (b : PKIBody) (name : String) : Except GoError α :=
  .error (.parse (str ("body is not " ++ name ++ " (type ") ++ bodyTypeName b.type ++ str ")"))

/-- Decode a received body of the type. -/
def decode (b : PKIBody) (t : BodyType) (name : String) (r : Reader α) : Except GoError α :=
  if b.type ≠ t then b.notType name
  else match b with
    | .received _ raw =>
      match readASN1 t raw with
      | none => .error (.parse (str "invalid body content for type " ++ bodyTypeName t))
      | some (e, _) => do
          let (a, _) ← r.run e.content
          .ok a
    | b => b.notType name

/-- What is decoded was read off the received element. -/
lemma decode_ok {b : PKIBody} {t : BodyType} {name : String} {r : Reader α} {a : α}
    (h : b.decode t name r = .ok a) :
    ∃ raw e rest rest', b = .received t raw ∧ readASN1 t raw = some (e, rest) ∧
      r e.content = .ok (a, rest') := by
  unfold decode at h
  split_ifs at h with ht
  · cases h
  · rw [not_not] at ht
    split at h
    · next t' raw =>
      split at h
      · cases h
      · next e rest he =>
        obtain ⟨⟨a', rest'⟩, hr, h⟩ := Except.bind_eq_ok.mp h
        cases h
        exact ⟨raw, e, rest, rest', congrArg (PKIBody.received · raw) ht, he, hr⟩
    · cases h

/-- `IR`. -/
def getIR : PKIBody → Except GoError CertReqMessages
  | .ir m => .ok m
  | b => b.decode BodyTypeIR "ir" CertReqMessages.unmarshal

/-- `CR`. -/
def getCR : PKIBody → Except GoError CertReqMessages
  | .cr m => .ok m
  | b => b.decode BodyTypeCR "cr" CertReqMessages.unmarshal

/-- `KUR`. -/
def getKUR : PKIBody → Except GoError CertReqMessages
  | .kur m => .ok m
  | b => b.decode BodyTypeKUR "kur" CertReqMessages.unmarshal

/-- `IP`. -/
def getIP : PKIBody → Except GoError CertRepMessage
  | .ip m => .ok m
  | b => b.decode BodyTypeIP "ip" CertRepMessage.unmarshal

/-- `CP`. -/
def getCP : PKIBody → Except GoError CertRepMessage
  | .cp m => .ok m
  | b => b.decode BodyTypeCP "cp" CertRepMessage.unmarshal

/-- `KUP`. -/
def getKUP : PKIBody → Except GoError CertRepMessage
  | .kup m => .ok m
  | b => b.decode BodyTypeKUP "kup" CertRepMessage.unmarshal

/-- `RR`. -/
def getRR : PKIBody → Except GoError RevReqContent
  | .rr c => .ok c
  | b => b.decode BodyTypeRR "rr" RevReqContent.unmarshal

/-- `RP`. -/
def getRP : PKIBody → Except GoError RevRepContent
  | .rp c => .ok c
  | b => b.decode BodyTypeRP "rp" RevRepContent.unmarshal

/-- `CertConf`. -/
def getCertConf : PKIBody → Except GoError CertConfirmContent
  | .certConf c => .ok c
  | b => b.decode BodyTypeCertConf "certConf" CertConfirmContent.unmarshal

/-- `PKIConf`. -/
def getPKIConf : PKIBody → Except GoError Unit
  | .pkiConf => .ok ()
  | b => b.decode BodyTypePKIConf "pkiconf" unmarshalPKIConfirm

/-- `PollReq`. -/
def getPollReq : PKIBody → Except GoError PollReqContent
  | .pollReq c => .ok c
  | b => b.decode BodyTypePollReq "pollReq" PollReqContent.unmarshal

/-- `PollRep`. -/
def getPollRep : PKIBody → Except GoError PollRepContent
  | .pollRep c => .ok c
  | b => b.decode BodyTypePollRep "pollRep" PollRepContent.unmarshal

/-- `Error`. -/
def getError : PKIBody → Except GoError ErrorMsgContent
  | .error c => .ok c
  | b => b.decode BodyTypeError "error" ErrorMsgContent.unmarshal

/-- `P10CR`. -/
def getP10CR (cr : Crypto) : PKIBody → Except GoError CertificateRequest
  | .p10cr csr => .ok csr
  | b =>
    if b.type ≠ BodyTypeP10CR then b.notType "p10cr"
    else match b with
      | .received _ raw =>
        match readASN1 BodyTypeP10CR raw with
        | none => parseError "invalid p10cr body"
        | some (e, _) => cr.parseCertificateRequest e.content
      | b => b.notType "p10cr"

/-- `Nested`. -/
def getNested : PKIBody → Except GoError (List PKIMessage)
  | .nested (m :: ms) => .ok (m :: ms)
  | .nested [] => parseError "invalid nested body content"
  | b =>
    if b.type ≠ BodyTypeNested then b.notType "nested"
    else match b with
      | .received _ raw => parseNestedMessages raw
      | b => b.notType "nested"

end PKIBody

/-! ### The protected part of an encoded message -/

/-- The header element, the body element and what follows them, read off the
octets of a message. -/
def wireElements (der : Bytes) : Option (Element × Element × Bytes) := do
  let (msg, _) ← readASN1 tagSequence der
  let (header, rest) ← readAnyASN1 msg.content
  let (body, rest) ← readAnyASN1 rest
  some (header, body, rest)

/-- The SEQUENCE of the header and body elements of a message. -/
def wireProtectedPart (der : Bytes) : Option Bytes :=
  (wireElements der).map fun (header, body, _) => element tagSequence (header.raw ++ body.raw)

/-- The protection field of a message. -/
def wireProtection (der : Bytes) : Option Bytes := do
  let (_, _, rest) ← wireElements der
  let (field, _) ← readASN1 (contextConstructed 0) rest
  let (bits, _) ← readASN1 tagBitString field.content
  match bits.content with
  | [] => none
  | _ :: p => some p

/-- The body was not received, so it is encoded as an element of its type. -/
def PKIBody.Constructed (b : PKIBody) : Prop := ∀ t raw, b ≠ .received t raw

/-- A constructed body is encoded as one element. -/
lemma PKIBody.marshal_element {b : PKIBody} {bs : Bytes} (hb : b.Constructed)
    (h : b.marshal = .ok bs) : ∃ tag c, isHighTag tag = false ∧ bs = element tag c := by
  have key : ∀ {tag : UInt8} {f : Except GoError Bytes}, addASN1 tag f = .ok bs →
      ∃ tag c, isHighTag tag = false ∧ bs = element tag c := by
    intro tag f hf
    obtain ⟨ht, c, -, -, rfl⟩ := addASN1_eq_ok.mp hf
    exact ⟨tag, c, ht, rfl⟩
  cases b with
  | received t raw => exact absurd rfl (hb t raw)
  | nested msgs => cases msgs <;> (rw [PKIBody.marshal] at h; exact key h)
  | _ => rw [PKIBody.marshal] at h; exact key h

/-- Encoding twice sets the version once. -/
lemma PKIBody.requiredPVNO_idem (b : PKIBody) (p : ℤ) :
    b.requiredPVNO (b.requiredPVNO p) = b.requiredPVNO p := by
  unfold requiredPVNO PVNO2 PVNO3
  split_ifs <;> omega

/-- The version can be read off the octets of a header. -/
lemma PKIHeader.pvno_eq_of_marshal {h : PKIHeader} {p : ℤ} {b : Bytes}
    (h1 : h.marshal = .ok b) (h2 : { h with pvno := p }.marshal = .ok b) : h.pvno = p := by
  obtain ⟨ht, c, hc, -, rfl⟩ := addASN1_eq_ok.mp h1
  obtain ⟨-, c', hc', -, heq⟩ := addASN1_eq_ok.mp h2
  obtain ⟨-, rfl⟩ := element_inj heq
  obtain ⟨v, f, hv, hf, rfl⟩ := concat_cons_eq_ok.mp hc
  obtain ⟨v', f', hv', hf', hcat⟩ := concat_cons_eq_ok.mp hc'
  -- the other fields are the same, so the two INTEGERs are
  obtain rfl : f = f' := Except.ok.inj (hf.symm.trans hf')
  obtain rfl := List.append_cancel_right hcat
  obtain ⟨ht, i, hi, -, rfl⟩ := addASN1_eq_ok.mp hv
  obtain ⟨-, i', hi', -, heq⟩ := addASN1_eq_ok.mp hv'
  obtain ⟨-, rfl⟩ := element_inj heq
  exact intOctets_injective (Except.ok.inj (hi.trans hi'.symm))

namespace PKIMessage

/-- The elements a protection is computed over, once both are there. -/
lemma protectedPart_eq_ok {m : PKIMessage} {part : Bytes} (h : m.protectedPart = .ok part) :
    part = element tagSequence (m.rawHeader ++ m.rawBody) := by
  unfold protectedPart at h
  split at h
  · cases h
  · obtain ⟨-, c, hc, -, rfl⟩ := addASN1_eq_ok.mp h
    cases hc
    rfl

/-- What `MarshalBinary` writes. -/
lemma marshalBinary_eq_ok {m : PKIMessage} {der : Bytes} (h : m.marshalBinary = .ok der) :
    ∃ header body trailer, m.updatePVNO.header.marshal = .ok header ∧ m.body.marshal = .ok body ∧
      m.marshalTrailer = .ok trailer ∧ (header ++ (body ++ trailer)).length ≤ 0xfffffffe ∧
      der = element tagSequence (header ++ (body ++ trailer)) := by
  obtain ⟨body, hb, h⟩ := Except.bind_eq_ok.mp h
  obtain ⟨-, c, hc, hlen, rfl⟩ := addASN1_eq_ok.mp h
  obtain ⟨header, c1, hh, h1, rfl⟩ := concat_cons_eq_ok.mp hc
  obtain ⟨_, c2, ⟨⟩, h2, rfl⟩ := concat_cons_eq_ok.mp h1
  obtain ⟨trailer, _, ht, ⟨⟩, rfl⟩ := concat_cons_eq_ok.mp h2
  rw [List.append_nil] at hlen ⊢
  exact ⟨header, body, trailer, hh, hb, ht, hlen, rfl⟩

/-- The trailer starts with the protection field exactly when there is one. -/
lemma readASN1_trailer {m : PKIMessage} {trailer p : Bytes} {field bits : Element}
    {rest rest' : Bytes}
    {unused : UInt8} (h : m.marshalTrailer = .ok trailer) (hlen : trailer.length < 2 ^ 32)
    (hf : readASN1 (contextConstructed 0) trailer = some (field, rest))
    (hb : readASN1 tagBitString field.content = some (bits, rest'))
    (hp : bits.content = unused :: p) : m.protection = p ∧ p ≠ [] := by
  obtain ⟨t1, t2, h1, h2, rfl⟩ := concat_cons_eq_ok.mp h
  obtain ⟨t3, _, h3, ⟨⟩, rfl⟩ := concat_cons_eq_ok.mp h2
  rw [List.append_nil] at hlen hf
  rcases optional_eq_ok.mp h1 with ⟨hprot, h1⟩ | ⟨-, rfl⟩
  · obtain ⟨ht, c, hc, -, rfl⟩ := addASN1_eq_ok.mp h1
    obtain ⟨ht', c', hc', -, rfl⟩ := addASN1_eq_ok.mp hc
    cases hc'
    have hl : (element (contextConstructed 0) (element tagBitString (0 :: m.protection))).length
        < 2 ^ 32 := by
      rw [List.length_append] at hlen
      omega
    have hl' : (element tagBitString (0 :: m.protection)).length < 2 ^ 32 := by
      rw [length_element] at hl
      omega
    simp only [readASN1, readAnyASN1_element _ ht hl, if_true] at hf
    cases hf
    have hr := readAnyASN1_element [] ht' hl'
    rw [List.append_nil] at hr
    simp only [readASN1, hr, if_true] at hb
    cases hb
    cases hp
    exact ⟨rfl, of_decide_eq_true hprot⟩
  · -- without a protection the trailer is empty or starts with another tag
    rw [List.nil_append] at hf hlen
    rcases optional_eq_ok.mp h3 with ⟨-, h3⟩ | ⟨-, rfl⟩
    · obtain ⟨ht, c, -, -, rfl⟩ := addASN1_eq_ok.mp h3
      have hr := readAnyASN1_element [] ht hlen
      rw [List.append_nil] at hr
      simp only [readASN1, hr] at hf
      rw [if_neg (by decide)] at hf
      cases hf
    · simp [readASN1, readAnyASN1, readHeader] at hf

/-- **The octets of a message** show its protection and the elements it was
encoded from. -/
lemma wire_marshalBinary {m : PKIMessage} {der p : Bytes} (hm : m.body.Constructed)
    (h : m.marshalBinary = .ok der) (hp : wireProtection der = some p) :
    m.protection = p ∧ p ≠ [] ∧
      ∃ hd bd, m.updatePVNO.header.marshal = .ok hd ∧ m.body.marshal = .ok bd ∧
        (element tagSequence (hd ++ bd)).length < 2 ^ 32 ∧
        wireProtectedPart der = some (element tagSequence (hd ++ bd)) := by
  obtain ⟨hd, bd, trailer, hhd, hbd, htr, hbound, rfl⟩ := marshalBinary_eq_ok h
  obtain ⟨-, hc, -, -, rfl⟩ := addASN1_eq_ok.mp hhd
  obtain ⟨tag, bc, htag, rfl⟩ := PKIBody.marshal_element hm hbd
  -- a message that is too long for the reader shows nothing
  have hlen : (element tagSequence (element tagSequence hc ++ (element tag bc ++ trailer))).length
      < 2 ^ 32 := length_lt_of_readAnyASN1 hbound (by
    intro hnone
    simp [wireProtection, wireElements, readASN1, hnone] at hp)
  have hlen' := hlen
  rw [length_element, List.length_append, List.length_append] at hlen'
  have hmsg := readAnyASN1_element [] (by decide : isHighTag tagSequence = false) hlen
  rw [List.append_nil] at hmsg
  have hw :
      wireElements (element tagSequence (element tagSequence hc ++ (element tag bc ++ trailer)))
      = some (⟨tagSequence, element tagSequence hc, hc⟩, ⟨tag, element tag bc, bc⟩, trailer) := by
    simp only [wireElements, readASN1, hmsg, if_true, Option.bind_eq_bind, Option.bind_some]
    rw [readAnyASN1_element _ (by decide) (by omega)]
    simp only [Option.bind_some]
    rw [readAnyASN1_element _ htag (by omega)]
    rfl
  simp only [wireProtection, hw, Option.bind_eq_bind, Option.bind_some,
    Option.bind_eq_some_iff, Prod.exists] at hp
  obtain ⟨field, rest, hf, bits, rest', hb, hp⟩ := hp
  split at hp
  · cases hp
  · next hbits =>
    cases hp
    obtain ⟨hprot, hne⟩ := readASN1_trailer htr (by omega) hf hb hbits
    refine ⟨hprot, hne, _, _, hhd, hbd, lt_of_le_of_lt (length_element_mono ?_) hlen, ?_⟩
    · simp only [List.length_append]
      omega
    · simp [wireProtectedPart, hw]

end PKIMessage

end PkiCmp
