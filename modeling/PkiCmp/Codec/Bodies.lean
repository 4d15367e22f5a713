/-
Round trips of bodies: what one side puts into a body the other side gets out of it.

* `PKIBody.Delivered`: a body is encoded, parsed and asked for its content;
* `PKIBody.Delivers`: below 2^31 octets it is;
* `requests_delivered`: **request bodies** are delivered;
* `responses_delivered`: **response and confirmation bodies** are delivered;
* `requests_largeArc`, `responses_largeArc`: an object identifier whose first two numbers are
  too large together is written and not read.
-/
import PkiCmp.Codec.Responses
import PkiCmp.Codec.Sizes

namespace PkiCmp

open Der

/-! ### Transport of a body -/

/-- The body as `unmarshalMessage` finds it at the start of the octets. -/
def parseBody (raw : Bytes) : Except GoError PKIBody := do
  let (e, _) ← (Reader.anyElement "missing PKIBody").run raw
  unmarshalBody e

/-- The body is encoded, in octets of its size, and the other side gets a content with `S`. -/
def PKIBody.Delivered {α : Type} (b : PKIBody) (get : PKIBody → Except GoError α) (S : α → Prop) :
    Prop :=
  ∃ raw b' a, b.marshal = .ok raw ∧ raw.length = b.size ∧ parseBody raw = .ok b' ∧
    get b' = .ok a ∧ S a

/-- A body below 2^31 octets is delivered. -/
def PKIBody.Delivers {α : Type} (b : PKIBody) (get : PKIBody → Except GoError α) (S : α → Prop) :
    Prop :=
  b.size < 2 ^ 31 → b.Delivered get S

namespace PKIBody

variable {α : Type} {H : List (Option UInt8)} {t : BodyType} {f : Except GoError Bytes}
  {r : Reader α} {S : α → Prop} {d : String}

/-- A received element of a body type is decoded. -/
lemma decode_element {c : Bytes} {a : α} {left : Bytes} (ht : isHighTag t = false)
    (hlen : (element t c).length < 2 ^ 32) (hr : r c = .ok (a, left)) :
    (received t (element t c)).decode t d r = .ok a := by
  have hread := readAnyASN1_element (c := c) [] ht hlen
  rw [List.append_nil] at hread
  have he := readASN1_eq_some_iff.mpr ⟨hread, rfl⟩
  simp only [decode, type, ne_eq, not_true_eq_false, if_false, he, StateT.run, hr]
  rfl

/-- **A content that is conveyed** is delivered in a body. -/
lemma delivers {b : PKIBody} {get : PKIBody → Except GoError α} (ht : isHighTag t = false)
    (hcontext : t ||| 0x80 = t) (hb : b.marshal = addASN1 t f)
    (hget : ∀ raw, get (received t raw) = (received t raw).decode t d r)
    (h : Conveys (2 ^ 31) H [none] f r S) : b.Delivers get S := by
  intro hsize
  have hencodes : Encodes b.marshal := hb ▸ .addASN1 ht h.encodes
  obtain ⟨raw, hraw, hlen⟩ := hencodes.of_sized b.sized hsize
  obtain ⟨-, c, hc, -, rfl⟩ := addASN1_eq_ok.mp (hb.symm.trans hraw)
  have hshort := hlen.trans_lt hsize
  obtain ⟨a, ha, hS⟩ := h.of_ok hc (by rw [length_element] at hshort; omega) []
    (List.mem_singleton.mpr rfl)
  rw [List.append_nil] at ha
  refine ⟨element t c, received t (element t c), a, hraw, hlen, ?_, ?_, hS⟩
  · have hread := readAnyASN1_element (c := c) [] ht (lt_trans hshort (by norm_num))
    rw [List.append_nil] at hread
    have he : (Reader.anyElement "missing PKIBody").run (element t c) =
        .ok (⟨t, element t c, c⟩, []) := Reader.read_ok.mpr hread
    simp only [parseBody, he, bind, Except.bind, unmarshalBody, hcontext, if_true]
  · rw [hget]
    exact decode_element ht (lt_trans hshort (by norm_num)) ha

end PKIBody

/-! ### Requests -/

/-- **Request bodies are delivered**: certificate requests in each of the three bodies that
carry them, with the exact octets of each request, revocation requests and polling requests. -/
theorem requests_delivered :
    (∀ ms : CertReqMessages, (∀ m ∈ ms, m.Wf) →
      (PKIBody.ir ms).Delivers PKIBody.getIR (List.Forall₂ CertReqMsg.ReadAs ms) ∧
      (PKIBody.cr ms).Delivers PKIBody.getCR (List.Forall₂ CertReqMsg.ReadAs ms) ∧
      (PKIBody.kur ms).Delivers PKIBody.getKUR (List.Forall₂ CertReqMsg.ReadAs ms)) ∧
    (∀ ds : RevReqContent, (∀ d ∈ ds, d.Wf) →
      (PKIBody.rr ds).Delivers PKIBody.getRR (· = ds)) ∧
    ∀ ids : PollReqContent, (∀ id ∈ ids, IsInt64 id) →
      (PKIBody.pollReq ids).Delivers PKIBody.getPollReq (· = ids) := by
  refine ⟨fun ms h => ⟨?_, ?_, ?_⟩, fun ds h => ?_, fun ids h => ?_⟩
  · exact PKIBody.delivers (t := BodyTypeIR) (by decide) (by decide) (by rw [PKIBody.marshal])
      (fun _ => rfl) (CertReqMessages.conveys h)
  · exact PKIBody.delivers (t := BodyTypeCR) (by decide) (by decide) (by rw [PKIBody.marshal])
      (fun _ => rfl) (CertReqMessages.conveys h)
  · exact PKIBody.delivers (t := BodyTypeKUR) (by decide) (by decide) (by rw [PKIBody.marshal])
      (fun _ => rfl) (CertReqMessages.conveys h)
  · exact PKIBody.delivers (t := BodyTypeRR) (by decide) (by decide) (by rw [PKIBody.marshal])
      (fun _ => rfl) (RevReqContent.conveys h fun _ _ => .inr le_rfl)
  · exact PKIBody.delivers (t := BodyTypePollReq) (by decide) (by decide) (by rw [PKIBody.marshal])
      (fun _ => rfl) (PollReqContent.conveys h)

/-- A request with every field and a signature proof. -/
def sampleRequest : CertReqMsg where
  certReq :=
    { certReqID := -5
      certTemplate :=
        { serialNumber := some (-1)
          issuer := [0x30, 0x00]
          subject := { directoryName := [[⟨[2, 5, 4, 3], .string [0x41]⟩]] }
          publicKey := [0x30, 0x00]
          extensions := [0x30, 0x00] }
      controls := [⟨[1, 3, 6, 1], [0x05, 0x00]⟩] }
  popo := some { signature := some (
    { poposkInput := some ⟨some { rfc822Name := [0x61] }, [0x30, 0x00]⟩
      algorithm := { algorithm := [1, 2, 840, 10045, 4, 3, 2] }
      signature := [1, 2, 3] }) }

lemma oneSequence_sample : OneSequence [0x30, 0x00] := ⟨⟨0x30, [0x30, 0x00], []⟩, by decide⟩

lemma sampleRequest_wf : sampleRequest.Wf where
  certReq :=
    { certReqID := by unfold IsInt64; decide
      certTemplate :=
        { issuer := .inr oneSequence_sample
          subject := rfl
          textual := by
            intro rdn hrdn a ha
            obtain rfl := List.mem_singleton.mp hrdn
            obtain rfl := List.mem_singleton.mp ha
            exact ⟨by decide, [0x41], rfl, by decide⟩
          publicKey := .inr oneSequence_sample
          extensions := .inr oneSequence_sample }
      controls := by
        intro c hc
        obtain rfl := List.mem_singleton.mp hc
        exact ⟨by decide, ⟨0x05, [0x05, 0x00], []⟩, by decide⟩ }
  popo := by
    rintro p ⟨⟩
    refine .inr (.inl ⟨_, rfl, ?_, by decide, .inl rfl⟩)
    rintro i ⟨⟩
    refine ⟨?_, oneSequence_sample⟩
    rintro s ⟨⟩
    rw [GeneralName.Wf, if_neg (by decide)]
    intro h
    cases h

/-- The sample is written and read back. -/
theorem requests_delivered_sample :
    sampleRequest.Wf ∧
      (PKIBody.ir [sampleRequest]).Delivered PKIBody.getIR
        (List.Forall₂ CertReqMsg.ReadAs [sampleRequest]) ∧
      (PKIBody.pollReq [-1, 0]).Delivered PKIBody.getPollReq (· = [-1, 0]) := by
  refine ⟨sampleRequest_wf, (requests_delivered.1 [sampleRequest] ?_).1 ?_,
    requests_delivered.2.2 [-1, 0] ?_ ?_⟩
  · intro m hm
    rw [List.mem_singleton.mp hm]
    exact sampleRequest_wf
  · rw [PKIBody.size]
    decide +kernel
  · unfold IsInt64
    decide
  · rw [PKIBody.size]
    decide +kernel

/-- A request with a control. -/
def largeArcRequest : CertReqMsg where
  certReq := { certReqID := 0, certTemplate := {}, controls := [⟨[2, 2147483647], [0x05, 0x00]⟩] }

/-- The numbers of an object identifier are below 2^31, but the first octets on the wire carry
`80 + 2147483647`, which no reader accepts. -/
theorem requests_largeArc :
    validOID [2, 2147483647] = true ∧ (∀ n ∈ [2, 2147483647], n < 2 ^ 31) ∧
      OneElement [0x05, 0x00] ∧
      ∃ raw, (PKIBody.ir [largeArcRequest]).marshal = .ok raw ∧ raw.length < 2 ^ 31 ∧
        (parseBody raw).bind PKIBody.getIR =
          .error (.parse (str "invalid AttributeTypeAndValue OID")) := by
  refine ⟨by decide, by decide, ⟨⟨0x05, [0x05, 0x00], []⟩, by decide⟩,
    element BodyTypeIR (element tagSequence (element tagSequence (element tagSequence
      (element tagInteger [0] ++ element tagSequence [] ++ element tagSequence (element tagSequence
        (element tagObjectIdentifier [0x88, 0x80, 0x80, 0x80, 0x4f] ++ [0x05, 0x00])))))), ?_, ?_,
          ?_⟩
  · rw [PKIBody.marshal]
    decide +kernel
  · decide +kernel
  · decide +kernel

/-! ### Responses -/

/-- **Response and confirmation bodies are delivered**: certificate responses in each of the
three bodies that carry them, confirmations, polling responses, errors and answers to
revocation requests, whose issuers keep their encoding.  The bits of a failure are read back,
and their encoding ends with a bit that is set. -/
theorem responses_delivered :
    (∀ m : CertRepMessage, m.Wf →
      (PKIBody.ip m).Delivers PKIBody.getIP (· = m) ∧
      (PKIBody.cp m).Delivers PKIBody.getCP (· = m) ∧
      (PKIBody.kup m).Delivers PKIBody.getKUP (· = m)) ∧
    (∀ c : CertConfirmContent, (∀ s ∈ c, s.Wf) →
      (PKIBody.certConf c).Delivers PKIBody.getCertConf (· = c)) ∧
    (∀ c : PollRepContent, (∀ item ∈ c, IsInt64 item.certReqID ∧ IsInt64 item.checkAfter) →
      (PKIBody.pollRep c).Delivers PKIBody.getPollRep (· = c)) ∧
    (∀ e : ErrorMsgContent, IsInt64 e.pkiStatusInfo.status → IsInt64 e.errorCode →
      (PKIBody.error e).Delivers PKIBody.getError (· = e)) ∧
    (∀ c : RevRepContent, c.Wf → (PKIBody.rp c).Delivers PKIBody.getRP c.ReadAs) ∧
    ∀ f : PKIFailureInfo, f ≠ 0 →
      (∃ u b, PKIStatusInfo.failInfoOctets f = u :: b ∧ PKIStatusInfo.failInfoOf b = f) ∧
      ∃ u b l, PKIStatusInfo.failInfoOctets f = u :: (b ++ [l]) ∧ u < 8 ∧
        l.toNat.testBit u.toNat = true ∧ l.toNat % 2 ^ u.toNat = 0 := by
  refine ⟨fun m h => ⟨?_, ?_, ?_⟩, fun c h => ?_, fun c h => ?_, fun e hs hc => ?_, fun c h => ?_,
    fun f hf => ⟨PKIStatusInfo.failInfo_roundTrip f hf, PKIStatusInfo.failInfo_minimal f hf⟩⟩
  · exact PKIBody.delivers (t := BodyTypeIP) (by decide) (by decide) (by rw [PKIBody.marshal])
      (fun _ => rfl) (CertRepMessage.conveys h)
  · exact PKIBody.delivers (t := BodyTypeCP) (by decide) (by decide) (by rw [PKIBody.marshal])
      (fun _ => rfl) (CertRepMessage.conveys h)
  · exact PKIBody.delivers (t := BodyTypeKUP) (by decide) (by decide) (by rw [PKIBody.marshal])
      (fun _ => rfl) (CertRepMessage.conveys h)
  · exact PKIBody.delivers (t := BodyTypeCertConf) (by decide) (by decide) (by rw [PKIBody.marshal])
      (fun _ => rfl) (CertConfirmContent.conveys h)
  · exact PKIBody.delivers (t := BodyTypePollRep) (by decide) (by decide) (by rw [PKIBody.marshal])
      (fun _ => rfl) (PollRepContent.conveys h)
  · exact PKIBody.delivers (t := BodyTypeError) (by decide) (by decide) (by rw [PKIBody.marshal])
      (fun _ => rfl) (ErrorMsgContent.conveys hs hc)
  · exact PKIBody.delivers (t := BodyTypeRP) (by decide) (by decide) (by rw [PKIBody.marshal])
      (fun _ => rfl) (RevRepContent.conveys h)

/-- A response with every field. -/
def sampleResponse : CertRepMessage where
  caPubs := [⟨[0x30, 0x00]⟩]
  response := [
    { certReqID := 7
      status := { status := 1, statusString := [[0x61]], failInfo := FailBadPOP }
      certifiedKeyPair := some ⟨.encryptedCert (.envelopedData [0x30, 0x00]),
        some (.encryptedValue [0x30, 0x00])⟩
      rspInfo := [1] }]

lemma sampleResponse_wf : sampleResponse.Wf where
  caPubs := by
    intro c hc
    obtain rfl := List.mem_singleton.mp hc
    exact oneSequence_sample.oneElement
  response := by
    intro r hr
    obtain rfl := List.mem_singleton.mp hr
    refine ⟨by unfold IsInt64; decide, by unfold IsInt64; decide, ?_⟩
    rintro ckp ⟨⟩
    refine ⟨oneSequence_sample, ?_⟩
    rintro k ⟨⟩
    exact oneSequence_sample

/-- The sample is written and read back. -/
theorem responses_delivered_sample :
    sampleResponse.Wf ∧ (PKIBody.cp sampleResponse).Delivered PKIBody.getCP (· = sampleResponse) ∧
      ∃ u b, PKIStatusInfo.failInfoOctets FailBadPOP = u :: b ∧
        PKIStatusInfo.failInfoOf b = FailBadPOP := by
  refine ⟨sampleResponse_wf, (responses_delivered.1 sampleResponse sampleResponse_wf).2.1 ?_,
    (responses_delivered.2.2.2.2.2 FailBadPOP (by decide)).1⟩
  rw [PKIBody.size]
  decide +kernel

/-- A confirmation with a hash algorithm. -/
def largeArcStatus : CertStatus where
  certHash := []
  certReqID := 0
  hashAlg := some { algorithm := [2, 2147483647] }

/-- A confirmation whose hash algorithm has an identifier that is written and not read. -/
theorem responses_largeArc :
    validOID [2, 2147483647] = true ∧
      ∃ raw, (PKIBody.certConf [largeArcStatus]).marshal = .ok raw ∧ raw.length < 2 ^ 31 ∧
        (parseBody raw).bind PKIBody.getCertConf =
          .error (.parse (str "invalid AlgorithmIdentifier OID")) := by
  refine ⟨by decide, element BodyTypeCertConf (element tagSequence (element tagSequence
    (element tagOctetString [] ++ element tagInteger [0] ++ element (contextConstructed 0)
      (element tagSequence (element tagObjectIdentifier [0x88, 0x80, 0x80, 0x80, 0x4f]))))),
    ?_, ?_, ?_⟩
  · rw [PKIBody.marshal]
    decide +kernel
  · decide +kernel
  · decide +kernel

end PkiCmp
