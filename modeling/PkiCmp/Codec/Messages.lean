/-
Round trips of messages: the header, the envelope around header and body, and messages inside
messages.

* `PKIHeader.conveys`: **headers**, with nine optional fields;
* `message_delivered`: **messages** are read back, with the version their body requires;
* `nested_delivered`: **a protected message that is forwarded** arrives as it was received.
-/
import PkiCmp.Algorithms
import PkiCmp.Codec.Bodies
import PkiCmp.Codec.Times
import PkiCmp.Envelope

namespace PkiCmp

open Der

variable {F : List (Option UInt8)}

/-! ### Headers -/

namespace PKIHeader

/-- The names, the time and the identifiers of a header can be written. -/
structure Wf (h : PKIHeader) : Prop where
  sender : h.sender.Wf
  recipient : h.recipient.Wf
  messageTime : h.hasMessageTime = true → h.messageTime.Writable
  protectionAlg : ∀ a ∈ h.protectionAlg, a.Wf
  generalInfo : ∀ itv ∈ h.generalInfo, smallOID itv.infoType = true

/-- What a header is read as: names keep their encoding, the rest is the same. -/
structure ReadAs (h h' : PKIHeader) : Prop where
  pvno : h'.pvno = h.pvno
  sender : h.sender.ReadAs h'.sender
  recipient : h.recipient.ReadAs h'.recipient
  messageTime : h'.messageTime = h.messageTime
  hasMessageTime : h'.hasMessageTime = h.hasMessageTime
  protectionAlg : h'.protectionAlg = h.protectionAlg
  senderKID : h'.senderKID = h.senderKID
  recipKID : h'.recipKID = h.recipKID
  transactionID : h'.transactionID = h.transactionID
  senderNonce : h'.senderNonce = h.senderNonce
  recipNonce : h'.recipNonce = h.recipNonce
  freeText : h'.freeText = h.freeText
  generalInfo : h'.generalInfo = h.generalInfo

/-- The fields after the names. -/
def readFields (pvno : ℤ) (sender recipient : GeneralName) : Reader PKIHeader := do
  let time ← Reader.explicit "invalid messageTime tag" (contextConstructed 0)
    (Reader.read "invalid messageTime" readASN1GeneralizedTime)
  let alg ← Reader.explicit "invalid protectionAlg tag" (contextConstructed 1)
    AlgorithmIdentifier.unmarshal
  let senderKID ← readOptionalOctetString 2 "senderKID"
  let recipKID ← readOptionalOctetString 3 "recipKID"
  let transactionID ← readOptionalOctetString 4 "transactionID"
  let senderNonce ← readOptionalOctetString 5 "senderNonce"
  let recipNonce ← readOptionalOctetString 6 "recipNonce"
  let freeText ← Reader.optional (contextConstructed 7) (do
    let sub ← Reader.element "invalid freeText tag" (contextConstructed 7)
    Reader.within sub PKIFreeText.unmarshal) []
  let generalInfo ← Reader.optional (contextConstructed 8) (do
    let sub ← Reader.element "invalid generalInfo tag" (contextConstructed 8)
    Reader.within sub do
      let gi ← Reader.element "invalid generalInfo sequence" tagSequence
      Reader.within gi (Reader.many InfoTypeAndValue.unmarshal)) []
  pure { pvno, sender, recipient, messageTime := time.getD 0, protectionAlg := alg,
         senderKID, recipKID, transactionID, senderNonce, recipNonce, freeText, generalInfo,
         messageTimePresent := time.isSome }

lemma unmarshal_eq : unmarshal = (do
    let seq ← Reader.element "invalid PKIHeader sequence" tagSequence
    Reader.within seq do
      let pvno ← Reader.read "invalid pvno" readASN1Int64
      let sender ← wrapField "sender" GeneralName.unmarshal
      let recipient ← wrapField "recipient" GeneralName.unmarshal
      readFields pvno sender recipient) := by
  simp only [unmarshal, readFields, Reader.explicit, Reader.optional, bind_assoc, Reader.ite_bind,
    pure_bind]

/-- A name of a header. -/
lemma conveys_wrapField {d : String} {gn : GeneralName} (h : gn.Wf) :
    ∃ t, ∀ F, Conveys (2 ^ 31) [some t] F gn.marshal (wrapField d GeneralName.unmarshal)
      gn.ReadAs := by
  obtain ⟨t, ht⟩ := GeneralName.conveys h
  refine ⟨t, fun F => ?_⟩
  obtain hlong | ⟨b, hok, hb, hS, hread⟩ := ht F
  · exact .inl hlong
  · refine .inr ⟨b, hok, hb, hS, fun hlen rest hrest => ?_⟩
    obtain ⟨g, hg, hSg⟩ := hread hlen rest hrest
    exact ⟨g, wrapField_ok.mpr hg, hSg⟩

/-- An optional octet string. -/
lemma conveys_octets {n : UInt8} {d : String} {b : Bytes}
    (ht : isHighTag (contextConstructed n) = false)
    (hF : some (contextConstructed n) ∉ F) :
    Conveys (2 ^ 31) [some (contextConstructed n), none] F (marshalOctets n b)
      (readOptionalOctetString n d) (· = b) :=
  Conveys.unlessDefault hF fun _ => Conveys.within ht (Conveys.element (by decide))

/-- First octets of the fields from the `n`-th on, and of nothing. -/
def fieldHeads (n : ℕ) : List (Option UInt8) :=
  (List.range' n (9 - n)).map (fun k => some (contextConstructed (UInt8.ofNat k))) ++ [none]

/-- The time of a header, if it has one. -/
def time? (h : PKIHeader) : Option Time := if h.hasMessageTime then some h.messageTime else none

lemma time?_getD (h : PKIHeader) : h.time?.getD 0 = h.messageTime := by
  unfold time?
  split_ifs with hp
  · rfl
  · have hzero : h.messageTime.isZero = true := by
      simp only [hasMessageTime, Bool.or_eq_true, Bool.not_eq_true', not_or, Bool.not_eq_false]
        at hp
      exact hp.2
    exact (eq_of_beq hzero).symm

variable {h : PKIHeader}

lemma time?_eq_some {t : Time} (ht : h.time? = some t) :
    h.hasMessageTime = true ∧ h.messageTime = t := by
  unfold time? at ht
  split_ifs at ht with hp
  exact ⟨hp, Option.some.inj ht⟩

lemma time?_isSome (h : PKIHeader) : h.time?.isSome = h.hasMessageTime := by
  unfold time?
  cases h.hasMessageTime <;> rfl

/-- The optional fields of a header, in the order of their tags. -/
lemma conveys_fields (hwf : h.Wf) (p : ℤ) (s r : GeneralName) :
    Conveys (2 ^ 31) (fieldHeads 0) [none]
      (concat [Der.optional h.hasMessageTime
          (addASN1 (contextConstructed 0) (addASN1GeneralizedTime h.messageTime)),
        (match h.protectionAlg with
          | some a => addASN1 (contextConstructed 1) a.marshal
          | none => .ok []),
        marshalOctets 2 h.senderKID, marshalOctets 3 h.recipKID, marshalOctets 4 h.transactionID,
        marshalOctets 5 h.senderNonce, marshalOctets 6 h.recipNonce,
        Der.optional (h.freeText ≠ [])
          (addASN1 (contextConstructed 7) (PKIFreeText.marshal h.freeText)),
        Der.optional (h.generalInfo ≠ []) (addASN1 (contextConstructed 8)
          (addASN1 tagSequence (concat (h.generalInfo.map InfoTypeAndValue.marshal))))])
      (readFields p s r)
      (· = { h with pvno := p, sender := s, recipient := r,
                    messageTimePresent := h.hasMessageTime })
      := by
  refine Conveys.cons (H := [some (contextConstructed 0), none]) (K := fieldHeads 1)
    (Conveys.explicit_eq (o := h.time?) (by decide) (by decide) (fun hnone => ?_) fun t ht => ?_) ?_
  · rw [← time?_isSome, hnone]
    rfl
  · obtain ⟨hp, rfl⟩ := time?_eq_some ht
    exact ⟨_, _, by rw [hp]; rfl, Conveys.generalizedTime (hwf.messageTime hp)⟩
  rintro _ rfl
  refine Conveys.cons (H := [some (contextConstructed 1), none]) (K := fieldHeads 2)
    (Conveys.explicit_eq (o := h.protectionAlg) (by decide) (by decide) (fun ha => by rw [ha])
      fun a ha => ⟨_, _, by rw [ha], AlgorithmIdentifier.conveys (hwf.protectionAlg a ha)⟩) ?_
  rintro _ rfl
  refine Conveys.cons (H := [some (contextConstructed 2), none]) (K := fieldHeads 3)
    (conveys_octets (by decide) (by decide)) ?_
  rintro _ rfl
  refine Conveys.cons (H := [some (contextConstructed 3), none]) (K := fieldHeads 4)
    (conveys_octets (by decide) (by decide)) ?_
  rintro _ rfl
  refine Conveys.cons (H := [some (contextConstructed 4), none]) (K := fieldHeads 5)
    (conveys_octets (by decide) (by decide)) ?_
  rintro _ rfl
  refine Conveys.cons (H := [some (contextConstructed 5), none]) (K := fieldHeads 6)
    (conveys_octets (by decide) (by decide)) ?_
  rintro _ rfl
  refine Conveys.cons (H := [some (contextConstructed 6), none]) (K := fieldHeads 7)
    (conveys_octets (by decide) (by decide)) ?_
  rintro _ rfl
  refine Conveys.cons (H := [some (contextConstructed 7), none]) (K := fieldHeads 8)
    (Conveys.unlessDefault (by decide) fun hne =>
      Conveys.within (by decide) (PKIFreeText.conveys hne)) ?_
  rintro _ rfl
  refine Conveys.cons (H := [some (contextConstructed 8), none]) (K := [none])
    (Conveys.unlessDefault (by decide) fun _ =>
      Conveys.within (by decide) (Conveys.within (by decide)
      (Conveys.many_eq (H := [some tagSequence]) (by decide) fun itv hitv =>
        InfoTypeAndValue.conveys (hwf.generalInfo itv hitv)))) ?_
  rintro _ rfl
  refine Conveys.pure ?_
  rw [time?_getD, time?_isSome]

/-- The fields after the version. -/
lemma conveys_marshalFields (hwf : h.Wf) (p : ℤ) :
    ∃ t, Conveys (2 ^ 31) [some t] [none] h.marshalFields
      (do
        let sender ← wrapField "sender" GeneralName.unmarshal
        let recipient ← wrapField "recipient" GeneralName.unmarshal
        readFields p sender recipient) { h with pvno := p }.ReadAs := by
  obtain ⟨t, ht⟩ := conveys_wrapField (d := "sender") hwf.sender
  obtain ⟨t', ht'⟩ := conveys_wrapField (d := "recipient") hwf.recipient
  refine ⟨t, Conveys.cons (H := [some t]) (K := [some t']) (ht _) fun s hs => ?_⟩
  refine Conveys.cons (H := [some t']) (K := fieldHeads 0) (ht' _) fun r hr => ?_
  refine (conveys_fields hwf p s r).mono ?_
  rintro _ rfl
  exact
    { pvno := rfl, sender := hs, recipient := hr, messageTime := rfl
      hasMessageTime := by simp [hasMessageTime]
      protectionAlg := rfl, senderKID := rfl, recipKID := rfl, transactionID := rfl
      senderNonce := rfl, recipNonce := rfl, freeText := rfl, generalInfo := rfl }

/-- **A header** is read back. -/
lemma conveys (hwf : h.Wf) {p : ℤ} (hp : IsInt64 p) :
    Conveys (2 ^ 31) [some tagSequence] F { h with pvno := p }.marshal unmarshal
      { h with pvno := p }.ReadAs := by
  obtain ⟨t, ht⟩ := conveys_marshalFields hwf p
  rw [unmarshal_eq]
  refine Conveys.within (H := [some tagInteger]) (by decide)
    (Conveys.cons (K := [some t]) (Conveys.int64 hp.1 hp.2) ?_)
  rintro _ rfl
  exact Conveys.last ht

/-- A header can be written with every version. -/
lemma Wf.encodes (hwf : h.Wf) (p : ℤ) : Encodes { h with pvno := p }.marshal := by
  obtain ⟨t, ht⟩ := conveys_marshalFields hwf p
  refine .addASN1 (by decide) (.concat fun f hf => ?_)
  obtain rfl | rfl := List.mem_pair.mp hf
  · exact .addASN1 (by decide) (.ok _)
  · exact ht.encodes

end PKIHeader

/-! ### Bodies that can be written -/

/-- The elements the protection was computed over are kept, so nesting copies them. -/
def PKIMessage.Kept (m : PKIMessage) : Prop :=
  ¬ (m.protection = [] ∨ m.rawHeader = [] ∨ m.rawBody = [])

/-- Bodies made from contents that can be written.  A message in a nested body is copied, or
has a header and a body that can be written. -/
inductive PKIBody.Wf : PKIBody → Prop
  | ir {ms : CertReqMessages} (h : ∀ m ∈ ms, m.Wf) : Wf (.ir ms)
  | cr {ms : CertReqMessages} (h : ∀ m ∈ ms, m.Wf) : Wf (.cr ms)
  | kur {ms : CertReqMessages} (h : ∀ m ∈ ms, m.Wf) : Wf (.kur ms)
  | ip {m : CertRepMessage} (h : m.Wf) : Wf (.ip m)
  | cp {m : CertRepMessage} (h : m.Wf) : Wf (.cp m)
  | kup {m : CertRepMessage} (h : m.Wf) : Wf (.kup m)
  | p10cr (csr : CertificateRequest) : Wf (.p10cr csr)
  | rr {ds : RevReqContent} (h : ∀ d ∈ ds, d.Wf) : Wf (.rr ds)
  | rp {c : RevRepContent} (h : c.Wf) : Wf (.rp c)
  | certConf {c : CertConfirmContent} (h : ∀ s ∈ c, s.Wf) : Wf (.certConf c)
  | pkiConf : Wf .pkiConf
  | pollReq {ids : PollReqContent} (h : ∀ id ∈ ids, IsInt64 id) : Wf (.pollReq ids)
  | pollRep {c : PollRepContent}
      (h : ∀ item ∈ c, IsInt64 item.certReqID ∧ IsInt64 item.checkAfter) : Wf (.pollRep c)
  | error {e : ErrorMsgContent} (hs : IsInt64 e.pkiStatusInfo.status) (hc : IsInt64 e.errorCode) :
      Wf (.error e)
  | nested {msgs : List PKIMessage} (hne : msgs ≠ [])
      (hheader : ∀ m ∈ msgs, ¬ m.Kept → m.header.Wf) (hbody : ∀ m ∈ msgs, ¬ m.Kept → Wf m.body) :
      Wf (.nested msgs)

/-- What follows the body can be written. -/
lemma PKIMessage.marshalTrailer_encodes (m : PKIMessage) : Encodes m.marshalTrailer := by
  refine .concat fun f hf => ?_
  obtain rfl | rfl := List.mem_pair.mp hf
  · exact .optional (.addASN1 (by decide) (.addASN1 (by decide) (.ok _)))
  · refine .optional (.addASN1 (by decide) (.addASN1 (by decide) (.concat fun g hg => ?_)))
    obtain ⟨c, -, rfl⟩ := List.mem_map.mp hg
    exact .ok _

/-- A message is written for nesting if its body can be. -/
lemma PKIMessage.marshalForNesting_encodes {m : PKIMessage} (hheader : ¬ m.Kept → m.header.Wf)
    (hbody : ¬ m.Kept → Encodes m.body.marshal) : Encodes m.marshalForNesting := by
  have htrailer := m.marshalTrailer_encodes
  obtain ⟨header, body, protection, extraCerts, rawHeader, rawBody⟩ := m
  rw [PKIMessage.marshalForNesting]
  by_cases hkept : protection = [] ∨ rawHeader = [] ∨ rawBody = []
  · have hnot : ¬ PKIMessage.Kept ⟨header, body, protection, extraCerts, rawHeader, rawBody⟩ :=
      not_not.mpr hkept
    rw [if_pos hkept]
    obtain hb | ⟨b, hb⟩ := hbody hnot
    · refine .inl ?_
      simp only at hb
      rw [hb]
    · simp only at hb
      rw [hb]
      refine .addASN1 (by decide) (.concat fun f hf => ?_)
      simp only [List.mem_cons, List.not_mem_nil, or_false] at hf
      obtain rfl | rfl | rfl := hf
      · exact (hheader hnot).encodes _
      · exact .ok b
      · exact htrailer
  · rw [if_neg hkept]
    refine .addASN1 (by decide) (.concat fun f hf => ?_)
    simp only [List.mem_cons, List.not_mem_nil, or_false] at hf
    obtain rfl | rfl | rfl := hf
    · exact .ok _
    · exact .ok _
    · exact htrailer

lemma marshalNested_encodes {msgs : List PKIMessage}
    (h : ∀ m ∈ msgs, Encodes m.marshalForNesting) : Encodes (marshalNested msgs) := by
  induction msgs with
  | nil => exact .ok []
  | cons m msgs ih =>
    rw [marshalNested]
    refine .concat fun f hf => ?_
    obtain rfl | rfl := List.mem_pair.mp hf
    · exact h m List.mem_cons_self
    · exact ih fun x hx => h x (List.mem_cons_of_mem _ hx)

/-- The type of a body is a context-specific tag. -/
lemma PKIBody.Wf.type {b : PKIBody} (h : b.Wf) :
    isHighTag b.type = false ∧ b.type ||| 0x80 = b.type := by
  cases h <;> simp only [PKIBody.type] <;> decide

/-- **A body** is written as one element of its type. -/
lemma PKIBody.Wf.marshal {b : PKIBody} (h : b.Wf) :
    ∃ f, Encodes f ∧ b.marshal = addASN1 b.type f := by
  induction h with
  | ir h => exact ⟨_, (CertReqMessages.conveys (F := []) h).encodes, by rw [PKIBody.marshal]; rfl⟩
  | cr h => exact ⟨_, (CertReqMessages.conveys (F := []) h).encodes, by rw [PKIBody.marshal]; rfl⟩
  | kur h => exact ⟨_, (CertReqMessages.conveys (F := []) h).encodes, by rw [PKIBody.marshal]; rfl⟩
  | ip h => exact ⟨_, (CertRepMessage.conveys (F := []) h).encodes, by rw [PKIBody.marshal]; rfl⟩
  | cp h => exact ⟨_, (CertRepMessage.conveys (F := []) h).encodes, by rw [PKIBody.marshal]; rfl⟩
  | kup h => exact ⟨_, (CertRepMessage.conveys (F := []) h).encodes, by rw [PKIBody.marshal]; rfl⟩
  | p10cr csr => exact ⟨_, .ok _, by rw [PKIBody.marshal]; rfl⟩
  | rr h =>
    exact ⟨_, (RevReqContent.conveys (F := []) h fun _ _ => .inr le_rfl).encodes,
      by rw [PKIBody.marshal]; rfl⟩
  | rp h => exact ⟨_, (RevRepContent.conveys (F := []) h).encodes, by rw [PKIBody.marshal]; rfl⟩
  | certConf h =>
    exact ⟨_, (CertConfirmContent.conveys (F := []) h).encodes, by rw [PKIBody.marshal]; rfl⟩
  | pkiConf =>
    exact ⟨marshalPKIConfirm, .addASN1 (by decide) (.ok []), by rw [PKIBody.marshal]; rfl⟩
  | pollReq h =>
    exact ⟨_, (PollReqContent.conveys (F := []) h).encodes, by rw [PKIBody.marshal]; rfl⟩
  | pollRep h =>
    exact ⟨_, (PollRepContent.conveys (F := []) h).encodes, by rw [PKIBody.marshal]; rfl⟩
  | error hs hc =>
    exact ⟨_, (ErrorMsgContent.conveys (F := []) hs hc).encodes, by rw [PKIBody.marshal]; rfl⟩
  | nested hne hheader hbody ih =>
    next msgs =>
    obtain ⟨m, ms, rfl⟩ := List.exists_cons_of_ne_nil hne
    refine ⟨addASN1 tagSequence (marshalNested (m :: ms)), .addASN1 (by decide)
      (marshalNested_encodes fun x hx => PKIMessage.marshalForNesting_encodes (hheader x hx)
        fun hk => ?_), by rw [PKIBody.marshal]; rfl⟩
    obtain ⟨f, hf, hmarshal⟩ := ih x hx hk
    rw [hmarshal]
    exact .addASN1 (hbody x hx hk).type.1 hf

/-! ### The version -/

/-- The body itself contains a construct of version 3: an enveloped key or certificate, or the
hash algorithm of a confirmation. -/
def PKIBody.HasVersion3 : PKIBody → Prop
  | .ir ms | .cr ms | .kur ms => ∃ m ∈ ms, ∃ p ∈ m.popo, ∃ k : PopoPrivKey,
      (p.keyEncipherment = some k ∨ p.keyAgreement = some k) ∧ k.encryptedKey.isSome = true
  | .ip m | .cp m | .kup m => ∃ r ∈ m.response, ∃ ckp ∈ r.certifiedKeyPair, ∃ raw,
      ckp.certOrEncCert = .encryptedCert (.envelopedData raw) ∨
        ckp.privateKey = some (.envelopedData raw)
  | .certConf c => ∃ s ∈ c, s.hashAlg.isSome = true
  | _ => False

lemma ProofOfPossession.Wf.needsPVNO3 {p : ProofOfPossession} (h : p.Wf) :
    p.needsPVNO3 = true ↔ ∃ k : PopoPrivKey,
      (p.keyEncipherment = some k ∨ p.keyAgreement = some k) ∧ k.encryptedKey.isSome = true := by
  have hkey : ∀ {k : PopoPrivKey}, k.Wf → (k.needsPVNO3 = true ↔ k.encryptedKey.isSome = true) := by
    intro k hk
    obtain ⟨v, rfl, -⟩ | ⟨raw, rfl, -⟩ := hk <;> simp [PopoPrivKey.needsPVNO3]
  obtain rfl | ⟨k, rfl, hk⟩ | ⟨k, rfl, hk⟩ | ⟨k, rfl, hk⟩ := h
  · simp [ProofOfPossession.needsPVNO3]
  · simp [ProofOfPossession.needsPVNO3]
  · simp [ProofOfPossession.needsPVNO3, hkey hk]
  · simp [ProofOfPossession.needsPVNO3, hkey hk]

lemma CertReqMessages.needsPVNO3_iff {ms : CertReqMessages} (h : ∀ m ∈ ms, m.Wf) :
    CertReqMessages.needsPVNO3 ms = true ↔ ∃ m ∈ ms, ∃ p ∈ m.popo, ∃ k : PopoPrivKey,
      (p.keyEncipherment = some k ∨ p.keyAgreement = some k) ∧ k.encryptedKey.isSome = true := by
  rw [CertReqMessages.needsPVNO3, List.any_eq_true]
  refine exists_congr fun m => and_congr_right fun hm => ?_
  rw [CertReqMsg.needsPVNO3, Option.any_eq_true]
  exact exists_congr fun p => and_congr_right fun hp => ((h m hm).popo p hp).needsPVNO3

lemma CertifiedKeyPair.needsPVNO3_iff (ckp : CertifiedKeyPair) :
    ckp.needsPVNO3 = true ↔ ∃ raw, ckp.certOrEncCert = .encryptedCert (.envelopedData raw) ∨
      ckp.privateKey = some (.envelopedData raw) := by
  obtain ⟨_ | ⟨_ | _⟩, _ | ⟨_ | _⟩⟩ := ckp <;>
    simp [CertifiedKeyPair.needsPVNO3, CertOrEncCert.needsPVNO3, EncryptedKey.needsPVNO3]

lemma CertRepMessage.needsPVNO3_iff (m : CertRepMessage) :
    m.needsPVNO3 = true ↔ ∃ r ∈ m.response, ∃ ckp ∈ r.certifiedKeyPair, ∃ raw,
      ckp.certOrEncCert = .encryptedCert (.envelopedData raw) ∨
        ckp.privateKey = some (.envelopedData raw) := by
  rw [CertRepMessage.needsPVNO3, List.any_eq_true]
  refine exists_congr fun r => and_congr_right fun _ => ?_
  rw [CertResponse.needsPVNO3, Option.any_eq_true]
  exact exists_congr fun ckp => and_congr_right fun _ => ckp.needsPVNO3_iff

/-- Encoding a body finds out whether it contains a construct of version 3. -/
lemma PKIBody.Wf.needsPVNO3 {b : PKIBody} (h : b.Wf) : b.needsPVNO3 = true ↔ b.HasVersion3 := by
  cases h with
  | ir h => exact CertReqMessages.needsPVNO3_iff h
  | cr h => exact CertReqMessages.needsPVNO3_iff h
  | kur h => exact CertReqMessages.needsPVNO3_iff h
  | ip h => exact CertRepMessage.needsPVNO3_iff _
  | cp h => exact CertRepMessage.needsPVNO3_iff _
  | kup h => exact CertRepMessage.needsPVNO3_iff _
  | certConf h =>
    show CertConfirmContent.needsPVNO3 _ = true ↔ _
    rw [CertConfirmContent.needsPVNO3, List.any_eq_true]
    rfl
  | _ => exact ⟨fun h => (Bool.false_ne_true h).elim, False.elim⟩

/-! ### Messages -/

namespace PKIMessage

variable {m : PKIMessage}

/-- What follows the body is read back. -/
lemma conveys_trailer {N : ℕ} [Fact (N ≤ 2 ^ 32)] (h : ∀ c ∈ m.extraCerts, OneElement c.raw) :
    Conveys N [some (contextConstructed 0), some (contextConstructed 1), none] [none]
      m.marshalTrailer (do
        let protection ← unmarshalProtection
        let extraCerts ← unmarshalExtraCerts
        pure (protection, extraCerts)) (· = (m.protection, m.extraCerts)) := by
  refine Conveys.cons (H := [some (contextConstructed 0), none])
    (K := [some (contextConstructed 1), none])
    (Conveys.unlessDefault (by decide) fun _ => ?_) ?_
  · rw [← bind_assoc]
    refine (Conveys.within (by decide) (Conveys.element (t := tagBitString) (by decide))).andThen ?_
    rintro _ rfl
    exact ⟨_, rfl, rfl⟩
  rintro _ rfl
  refine Conveys.cons (H := [some (contextConstructed 1), none]) (K := [none])
    (Conveys.unlessDefault (by decide) fun _ => Conveys.within (by decide)
      (Conveys.within (by decide) (CMPCertificate.conveys_many h))) ?_
  rintro _ rfl
  exact Conveys.pure rfl

/-- What follows the body, once it is written. -/
lemma read_trailer {tr : Bytes} (h : ∀ c ∈ m.extraCerts, OneElement c.raw)
    (htr : m.marshalTrailer = .ok tr) (hlen : tr.length < 2 ^ 32) :
    ∃ tail, unmarshalProtection tr = .ok (m.protection, tail) ∧
      unmarshalExtraCerts tail = .ok (m.extraCerts, []) := by
  obtain ⟨_, hread, rfl⟩ := (conveys_trailer (N := 2 ^ 32) h).of_ok htr hlen
    [] (List.mem_singleton.mpr rfl)
  rw [List.append_nil] at hread
  obtain ⟨p, tail, hp, hread⟩ := Reader.bind_ok.mp hread
  obtain ⟨cs, tail', hcs, hread⟩ := Reader.bind_ok.mp hread
  cases hread
  exact ⟨tail, hp, hcs⟩

/-- The fields a message is made from can be written, and it has no later version than 3. -/
structure Wf (m : PKIMessage) : Prop where
  pvno : m.header.pvno ≤ 3
  header : m.header.Wf
  body : m.body.Wf
  extraCerts : ∀ c ∈ m.extraCerts, OneElement c.raw

/-- What a message is read as. -/
structure ReadAs (m m' : PKIMessage) : Prop where
  header : m.updatePVNO.header.ReadAs m'.header
  body : m'.body = .received m.body.type m'.rawBody
  type : m'.body.type = m.body.type
  protection : m'.protection = m.protection
  extraCerts : m'.extraCerts = m.extraCerts
  rawHeader : m.updatePVNO.header.marshal = .ok m'.rawHeader
  rawBody : m.body.marshal = .ok m'.rawBody

/-- The version on the wire is 2 or 3. -/
lemma Wf.requiredPVNO (h : m.Wf) :
    IsInt64 (m.body.requiredPVNO m.header.pvno) := by
  have hle := h.pvno
  unfold PKIBody.requiredPVNO PVNO2 PVNO3 IsInt64
  split_ifs <;> omega

lemma Wf.encodes (h : m.Wf) : Encodes m.marshalBinary := by
  obtain ⟨f, hf, hb⟩ := h.body.marshal
  have hbody : Encodes m.body.marshal := hb ▸ .addASN1 h.body.type.1 hf
  obtain hlong | ⟨b, hb⟩ := hbody
  · refine .inl ?_
    simp [marshalBinary, hlong, bind, Except.bind]
  · simp only [marshalBinary, hb, bind, Except.bind]
    refine .addASN1 (by decide) (.concat fun f hf => ?_)
    simp only [List.mem_cons, List.not_mem_nil, or_false] at hf
    obtain rfl | rfl | rfl := hf
    · exact h.header.encodes _
    · exact .ok b
    · exact m.marshalTrailer_encodes

/-- The parts of a message are found again. -/
lemma Wf.read (h : m.Wf) {hd bd tr : Bytes} (hhd : m.updatePVNO.header.marshal = .ok hd)
    (hbd : m.body.marshal = .ok bd) (htr : m.marshalTrailer = .ok tr)
    (hlen : (element tagSequence (hd ++ (bd ++ tr))).length < 2 ^ 31) :
    ∃ m', parsePKIMessage (element tagSequence (hd ++ (bd ++ tr))) = .ok m' ∧ m.ReadAs m' := by
  have hparts := hlen
  rw [length_element, List.length_append, List.length_append] at hparts
  obtain ⟨h', hheader, hread⟩ := (PKIHeader.conveys h.header h.requiredPVNO).of_ok hhd (by omega)
    [] (List.mem_singleton.mpr rfl)
  rw [List.append_nil] at hheader
  obtain ⟨tail, hprotection, hcerts⟩ := read_trailer h.extraCerts htr (by omega)
  obtain ⟨-, hc, -, -, rfl⟩ := addASN1_eq_ok.mp hhd
  obtain ⟨f, -, hb⟩ := h.body.marshal
  rw [hb] at hbd
  obtain ⟨ht, bc, -, -, rfl⟩ := addASN1_eq_ok.mp hbd
  have henv : Enveloped (element tagSequence hc ++ (element m.body.type bc ++ tr))
      ⟨h', .received m.body.type (element m.body.type bc), m.protection, m.extraCerts,
        element tagSequence hc, element m.body.type bc⟩
      ⟨tagSequence, element tagSequence hc, hc⟩ ⟨m.body.type, element m.body.type bc, bc⟩ tr tail :=
    { header := readAnyASN1_element _ (by decide) (by omega)
      body := readAnyASN1_element _ ht (by omega)
      rawHeader := rfl
      rawBody := rfl
      decodedHeader := ⟨_, hheader⟩
      decodedBody := by rw [unmarshalBody, if_pos h.body.type.2]
      protection := hprotection
      extraCerts := hcerts }
  exact ⟨_, henv.parsePKIMessage (by omega),
    { header := hread, body := rfl, type := rfl, protection := rfl, extraCerts := rfl
      rawHeader := hhd, rawBody := hb.trans hbd }⟩

/-- **A message below 2^31 octets** is written and read back. -/
lemma Wf.delivered (h : m.Wf) (hsize : m.size < 2 ^ 31) :
    ∃ der m', m.marshalBinary = .ok der ∧ der.length = m.size ∧ parsePKIMessage der = .ok m' ∧
      m.ReadAs m' := by
  obtain ⟨der, hder, hlen⟩ := h.encodes.of_sized m.sized hsize
  obtain ⟨hd, bd, tr, hhd, hbd, htr, -, rfl⟩ := PKIMessage.marshalBinary_eq_ok hder
  obtain ⟨m', hparse, hread⟩ := h.read hhd hbd htr (hlen.trans_lt hsize)
  exact ⟨_, m', hder, hlen, hparse, hread⟩

end PKIMessage

/-- **Messages are read back**, with the version 3 if the body itself requires it and else the
one they were given, or 2. -/
theorem message_delivered (m : PKIMessage) (h : m.Wf) (hsize : m.size < 2 ^ 31) :
    ∃ der m', m.marshalBinary = .ok der ∧ der.length = m.size ∧ parsePKIMessage der = .ok m' ∧
      m.ReadAs m' ∧ (m.body.HasVersion3 → m'.header.pvno = 3) ∧
      (¬ m.body.HasVersion3 → m'.header.pvno = max 2 m.header.pvno) := by
  obtain ⟨der, m', hder, hlen, hparse, hread⟩ := h.delivered hsize
  have hpvno : m'.header.pvno = m.body.requiredPVNO m.header.pvno := hread.header.pvno
  refine ⟨der, m', hder, hlen, hparse, hread, fun hv => ?_, fun hv => ?_⟩
  · rw [hpvno, PKIBody.requiredPVNO, if_pos (h.body.needsPVNO3.mpr hv)]
    rfl
  · rw [hpvno, PKIBody.requiredPVNO, if_neg fun hn => hv (h.body.needsPVNO3.mp hn), PVNO2]
    split_ifs <;> omega

/-- A confirmation with a time, an algorithm, a nonce and a free text. -/
def sampleMessage : PKIMessage where
  header :=
    { pvno := 2
      sender := { rfc822Name := [0x61] }
      recipient := { directoryName := [[⟨[2, 5, 4, 3], .string [0x41]⟩]] }
      messageTime := 63844806896000000000
      protectionAlg := some { algorithm := [1, 2, 840, 10045, 4, 3, 2] }
      senderNonce := [1]
      freeText := [[0x61]]
      generalInfo := [{ infoType := [1, 3, 6, 1] }] }
  body := .certConf
    [{ certHash := [1], certReqID := 0, hashAlg := some { algorithm := oidSHA512 } }]
  protection := [1, 2, 3]
  extraCerts := [⟨[0x30, 0x00]⟩]

lemma sampleMessage_wf : sampleMessage.Wf where
  pvno := by decide
  header :=
    { sender := by
        rw [GeneralName.Wf, if_neg (by decide)]
        intro h
        cases h
      recipient := by
        rw [GeneralName.Wf, if_neg (by decide)]
        intro _ rdn hrdn a ha
        obtain rfl := List.mem_singleton.mp hrdn
        obtain rfl := List.mem_singleton.mp ha
        exact ⟨by decide, [0x41], rfl, by decide⟩
      messageTime := by
        intro _
        unfold Time.Writable
        decide
      protectionAlg := by
        rintro a ⟨⟩
        exact ⟨by decide, .inl rfl⟩
      generalInfo := by
        intro itv hitv
        obtain rfl := List.mem_singleton.mp hitv
        decide }
  body := by
    refine .certConf fun s hs => ?_
    obtain rfl := List.mem_singleton.mp hs
    refine ⟨by unfold IsInt64; decide, by rintro si ⟨⟩, ?_⟩
    rintro a ⟨⟩
    exact ⟨by decide, .inl rfl⟩
  extraCerts := by
    intro c hc
    obtain rfl := List.mem_singleton.mp hc
    exact oneSequence_sample.oneElement

/-- The sample is read back with version 3. -/
theorem message_delivered_sample :
    sampleMessage.Wf ∧ ∃ der m', sampleMessage.marshalBinary = .ok der ∧
      parsePKIMessage der = .ok m' ∧ sampleMessage.ReadAs m' ∧ m'.header.pvno = 3 := by
  obtain ⟨der, m', hder, -, hparse, hread, hpvno, -⟩ :=
    message_delivered sampleMessage sampleMessage_wf (by decide +kernel)
  exact ⟨sampleMessage_wf, der, m', hder, hparse, hread,
    hpvno ⟨_, List.mem_singleton.mpr rfl, rfl⟩⟩

/-- A confirmation with an algorithm. -/
def largeArcMessage : PKIMessage where
  header := { pvno := 2, protectionAlg := some { algorithm := [2, 2147483647] } }
  body := .pkiConf

/-- An algorithm whose identifier is valid, with numbers below 2^31: the message is written, and
the parser refuses it. -/
theorem message_largeArc :
    validOID [2, 2147483647] = true ∧ (∀ n ∈ [2, 2147483647], n < 2 ^ 31) ∧
      ∃ der, largeArcMessage.marshalBinary = .ok der ∧ der.length < 2 ^ 31 ∧
        (parsePKIMessage der).map (fun _ => ()) =
          .error (.parse (str "invalid AlgorithmIdentifier OID")) := by
  refine ⟨by decide, by decide, element tagSequence (element tagSequence (element tagInteger [2] ++
    element (contextConstructed 4) (element tagSequence []) ++
    element (contextConstructed 4) (element tagSequence []) ++
    element (contextConstructed 1) (element tagSequence
      (element tagObjectIdentifier [0x88, 0x80, 0x80, 0x80, 0x4f]))) ++
    element BodyTypePKIConf [0x05, 0x00]), ?_, ?_, ?_⟩
  · simp only [PKIMessage.marshalBinary, largeArcMessage, PKIBody.marshal]
    decide +kernel
  · decide +kernel
  · decide +kernel

/-! ### Forwarded messages -/

/-- The messages of a nested body, one after the other. -/
lemma marshalNested_eq (msgs : List PKIMessage) :
    marshalNested msgs = concat (msgs.map PKIMessage.marshalForNesting) := by
  induction msgs with
  | nil => rw [marshalNested]; rfl
  | cons m msgs ih =>
    rw [marshalNested, ih, List.map_cons]
    cases hm : m.marshalForNesting <;>
      cases hms : concat (msgs.map PKIMessage.marshalForNesting) <;>
      simp [concat, hms, bind, Except.bind, pure, Except.pure]

/-- The parts of what was written were written, and none is longer than the whole. -/
lemma ok_of_concat {fs : List (Except GoError Bytes)} {b : Bytes} (h : concat fs = .ok b)
    {f : Except GoError Bytes} (hf : f ∈ fs) : ∃ c, f = .ok c ∧ c.length ≤ b.length := by
  induction fs generalizing b with
  | nil => cases hf
  | cons g fs ih =>
    obtain ⟨b1, b2, hg, hfs, rfl⟩ := concat_cons_eq_ok.mp h
    rw [List.length_append]
    obtain rfl | hf := List.mem_cons.mp hf
    · exact ⟨b1, hg, by omega⟩
    · obtain ⟨c, hc, hle⟩ := ih hfs hf
      exact ⟨c, hc, by omega⟩

/-- A message is written for nesting as one SEQUENCE. -/
lemma PKIMessage.marshalForNesting_element {m : PKIMessage} {b : Bytes}
    (h : m.marshalForNesting = .ok b) : ∃ c, b = element tagSequence c := by
  obtain ⟨header, body, protection, extraCerts, rawHeader, rawBody⟩ := m
  rw [marshalForNesting] at h
  split_ifs at h
  · split at h
    · cases h
    · obtain ⟨-, c, -, -, rfl⟩ := addASN1_eq_ok.mp h
      exact ⟨c, rfl⟩
  · obtain ⟨-, c, -, -, rfl⟩ := addASN1_eq_ok.mp h
    exact ⟨c, rfl⟩

/-- The certificates of a message that was read are one element each. -/
lemma oneElement_of_unmarshalExtraCerts {s s' : Bytes} {cs : List CMPCertificate}
    (h : unmarshalExtraCerts s = .ok (cs, s')) : ∀ c ∈ cs, OneElement c.raw := by
  obtain ⟨peeked, s1, -, h⟩ := Reader.bind_ok.mp h
  cases peeked with
  | false =>
    cases h
    simp
  | true =>
    obtain ⟨sub, s2, -, h⟩ := Reader.bind_ok.mp h
    obtain ⟨-, left, h⟩ := Reader.within_ok h
    obtain ⟨certs, s3, -, h⟩ := Reader.bind_ok.mp h
    obtain ⟨-, left', h⟩ := Reader.within_ok h
    intro c hc
    obtain ⟨s4, s5, hread⟩ := Reader.many_mem h hc
    obtain ⟨e, s6, he, hread⟩ := Reader.bind_ok.mp hread
    cases hread
    have hraw := readAnyASN1_raw (Reader.read_ok.mp he) []
    rw [List.append_nil] at hraw
    exact ⟨e, hraw⟩

/-- A parsed message with other header fields. -/
def PKIMessage.Forwards (m c : PKIMessage) : Prop := ∃ header, c = { m with header }

/-- A message that was received with a protection keeps what it was computed over. -/
lemma parsed_kept {d : Bytes} {m : PKIMessage} (hparse : parsePKIMessage d = .ok m)
    (hprotected : m.protection ≠ []) : m.Kept := by
  obtain ⟨s, hd, bd, tail, tail', -, -, henv⟩ := parsePKIMessage_eq_ok hparse
  rw [PKIMessage.Kept, henv.rawHeader, henv.rawBody, (readAnyASN1_eq_some_iff.mp henv.header).2.1,
    (readAnyASN1_eq_some_iff.mp henv.body).2.1]
  simp [element, hprotected]

/-- **A message that is forwarded** is read as it was, whatever became of its header fields. -/
lemma parse_forwarded {d b : Bytes} {m c : PKIMessage} (hparse : parsePKIMessage d = .ok m)
    (hprotected : m.protection ≠ []) (hc : m.Forwards c) (hb : c.marshalForNesting = .ok b)
    (hlen : b.length < 2 ^ 32) : parsePKIMessage b = .ok m := by
  obtain ⟨s, hd, bd, tail, tail', -, -, henv⟩ := parsePKIMessage_eq_ok hparse
  obtain ⟨header, rfl⟩ := hc
  have hcerts := oneElement_of_unmarshalExtraCerts henv.extraCerts
  rw [PKIMessage.marshalForNesting, if_neg (parsed_kept hparse hprotected)] at hb
  obtain ⟨-, c, hc, -, rfl⟩ := addASN1_eq_ok.mp hb
  obtain ⟨_, c1, ⟨⟩, h1, rfl⟩ := concat_cons_eq_ok.mp hc
  obtain ⟨_, c2, ⟨⟩, h2, rfl⟩ := concat_cons_eq_ok.mp h1
  obtain ⟨tr, _, htr, ⟨⟩, rfl⟩ := concat_cons_eq_ok.mp h2
  rw [List.append_nil] at hlen ⊢
  have hparts := hlen
  rw [length_element, List.length_append, List.length_append] at hparts
  obtain ⟨tail'', hprotection, hextra⟩ := PKIMessage.read_trailer
    (m := { m with header }) hcerts htr (by omega)
  rw [henv.rawHeader, henv.rawBody] at hlen ⊢
  exact Enveloped.parsePKIMessage
    { header := readAnyASN1_raw henv.header _
      body := readAnyASN1_raw henv.body tr
      rawHeader := henv.rawHeader
      rawBody := henv.rawBody
      decodedHeader := henv.decodedHeader
      decodedBody := henv.decodedBody
      protection := hprotection
      extraCerts := hextra } hlen

/-- The elements of a nested body. -/
lemma read_nested {cs : List PKIMessage} {inner : Bytes} {d : String}
    (h : marshalNested cs = .ok inner) (hlen : inner.length < 2 ^ 32) :
    ∃ es, Reader.many (Reader.read d (readASN1 tagSequence)) inner = .ok (es, []) ∧
      List.Forall₂ (fun (c : PKIMessage) (e : Element) =>
        c.marshalForNesting = .ok e.raw ∧ e.raw.length < 2 ^ 32) cs es := by
  rw [marshalNested_eq] at h
  have hone : ∀ c ∈ cs, Conveys (2 ^ 32) [some tagSequence] [none, some tagSequence]
      c.marshalForNesting (Reader.read d (readASN1 tagSequence))
      (fun e => c.marshalForNesting = .ok e.raw ∧ e.raw.length < 2 ^ 32) := by
    intro c hc
    obtain ⟨b, hb, hle⟩ := ok_of_concat h (List.mem_map_of_mem hc)
    obtain ⟨content, rfl⟩ := PKIMessage.marshalForNesting_element hb
    have hshort : (element tagSequence content).length < 2 ^ 32 := by omega
    rw [hb]
    refine (Conveys.raw (a := ⟨tagSequence, element tagSequence content, content⟩)
      (List.mem_singleton.mpr rfl) fun rest _ => Reader.read_ok.mpr
        (readASN1_eq_some_iff.mpr ⟨readAnyASN1_element rest (by decide) hshort, rfl⟩)).mono ?_
    rintro _ rfl
    exact ⟨rfl, hshort⟩
  obtain ⟨es, hes, hrel⟩ := (Conveys.many (R := fun (c : PKIMessage) (e : Element) =>
    c.marshalForNesting = .ok e.raw ∧ e.raw.length < 2 ^ 32) (by decide) hone).of_ok h hlen
    [] (List.mem_singleton.mpr rfl)
  rw [List.append_nil] at hes
  exact ⟨es, hes, hrel⟩

/-- The messages of a nested body that is received are those that were forwarded. -/
lemma parseNestedMessages_forwarded {ms cs : List PKIMessage} {raw : Bytes}
    (hparse : ∀ m ∈ ms, m.protection ≠ [] ∧ ∃ d, parsePKIMessage d = .ok m)
    (hcs : List.Forall₂ PKIMessage.Forwards ms cs) (hne : ms ≠ [])
    (hraw : (PKIBody.nested cs).marshal = .ok raw) (hlen : raw.length < 2 ^ 32) :
    parseNestedMessages raw = .ok ms := by
  obtain ⟨c, cs', rfl⟩ : ∃ c cs', cs = c :: cs' := by
    cases hcs with
    | nil => exact absurd rfl hne
    | cons _ _ => exact ⟨_, _, rfl⟩
  rw [PKIBody.marshal] at hraw
  obtain ⟨ht, content, hcontent, -, rfl⟩ := addASN1_eq_ok.mp hraw
  obtain ⟨ht', inner, hinner, -, rfl⟩ := addASN1_eq_ok.mp hcontent
  have hparts := hlen
  rw [length_element, length_element] at hparts
  have hbody := readAnyASN1_element [] ht hlen
  have hseq := readAnyASN1_element (c := inner) [] ht' (by rw [length_element]; omega)
  rw [List.append_nil] at hbody hseq
  obtain ⟨es, hes, hrel⟩ := read_nested (d := "invalid message in nested body") hinner (by omega)
  simp only [parseNestedMessages, readASN1_eq_some_iff.mpr ⟨hbody, rfl⟩,
    readASN1_eq_some_iff.mpr ⟨hseq, rfl⟩, StateT.run, hes]
  refine Except.bind_eq_ok.mpr ⟨_, rfl, Except.bind_eq_ok.mpr
    ⟨ms, Fallible.mapM_eq_ok_iff.mpr ?_, ?_⟩⟩
  · refine ((List.forall₂_and_left _ _).mpr
      ⟨hparse, Fallible.forall₂_comp hcs hrel⟩).flip.imp ?_
    rintro e m ⟨⟨hprotected, d, hd⟩, c, hc, hb, hshort⟩
    rw [parse_forwarded hd hprotected hc hb hshort]
  · rw [if_neg (by simpa using hne)]

/-- The body that is found in a message is the one that was written. -/
lemma body_of_parsed {m o : PKIMessage} (h : m.body.Wf) {hd bd tr : Bytes}
    (hhd : m.updatePVNO.header.marshal = .ok hd) (hbd : m.body.marshal = .ok bd)
    (ho : parsePKIMessage (element tagSequence (hd ++ (bd ++ tr))) = .ok o) :
    o.body = .received m.body.type bd ∧ bd.length < 2 ^ 32 := by
  obtain ⟨s, hd', bd', tail, tail', hs, hlen, henv⟩ := parsePKIMessage_eq_ok ho
  obtain ⟨-, rfl⟩ := element_inj hs
  have hparts := hlen
  rw [length_element, List.length_append, List.length_append] at hparts
  obtain ⟨-, hc, -, -, rfl⟩ := addASN1_eq_ok.mp hhd
  obtain ⟨f, -, hb⟩ := h.marshal
  rw [hb] at hbd
  obtain ⟨ht, bc, -, -, rfl⟩ := addASN1_eq_ok.mp hbd
  -- the reader finds the two elements that were written
  have hheader := henv.header
  rw [readAnyASN1_element _ (by decide) (by omega)] at hheader
  obtain ⟨rfl, hrest⟩ := Prod.mk.inj (Option.some.inj hheader)
  have hbody := henv.body
  rw [← hrest, readAnyASN1_element _ ht (by omega)] at hbody
  obtain ⟨rfl, -⟩ := Prod.mk.inj (Option.some.inj hbody)
  have hdecoded := henv.decodedBody
  rw [unmarshalBody, if_pos h.type.2] at hdecoded
  exact ⟨(Except.ok.inj hdecoded).symm, by omega⟩

/-- **Forwarding keeps protection.**  Messages that were received with a protection are put into
a nested body, whatever became of their header fields.  The message around them is written and
accepted below 2^31 octets, and whenever it is accepted the messages in it are the ones that were
received, in the same order: with the same protected part, the same protection and the same
certificates. -/
theorem nested_delivered (ms cs : List PKIMessage) (outer : PKIMessage) (hne : ms ≠ [])
    (hparse : ∀ m ∈ ms, m.protection ≠ [] ∧ ∃ d, parsePKIMessage d = .ok m)
    (hcs : List.Forall₂ PKIMessage.Forwards ms cs) (hbody : outer.body = .nested cs)
    (hpvno : outer.header.pvno ≤ 3) (hheader : outer.header.Wf)
    (hcerts : ∀ c ∈ outer.extraCerts, OneElement c.raw) :
    (outer.size < 2 ^ 31 → ∃ der o, outer.marshalBinary = .ok der ∧ der.length = outer.size ∧
      parsePKIMessage der = .ok o) ∧
    ∀ der o, outer.marshalBinary = .ok der → parsePKIMessage der = .ok o →
      o.body.getNested = .ok ms := by
  have hcs_ne : cs ≠ [] := by
    rintro rfl
    cases hcs
    exact hne rfl
  have hkept : ∀ c ∈ cs, c.Kept := by
    intro c hc
    obtain ⟨m, hm, header, rfl⟩ := Fallible.exists_of_forall₂ hcs hc
    obtain ⟨hprotected, d, hd⟩ := hparse m hm
    have hm : m.Kept := parsed_kept hd hprotected
    exact hm
  have hwf : outer.Wf :=
    { pvno := hpvno
      header := hheader
      body := hbody ▸ .nested hcs_ne (fun c hc hnot => absurd (hkept c hc) hnot)
        fun c hc hnot => absurd (hkept c hc) hnot
      extraCerts := hcerts }
  refine ⟨fun hsize => ?_, fun der o hder ho => ?_⟩
  · obtain ⟨der, o, hder, hlen, ho, -⟩ := hwf.delivered hsize
    exact ⟨der, o, hder, hlen, ho⟩
  · obtain ⟨hd, bd, tr, hhd, hbd, htr, -, rfl⟩ := PKIMessage.marshalBinary_eq_ok hder
    obtain ⟨hraw, hlen⟩ := body_of_parsed hwf.body hhd hbd ho
    rw [hraw, hbody]
    rw [hbody] at hbd
    exact parseNestedMessages_forwarded hparse hcs hne hbd hlen

/-- A message around others. -/
def sampleOuter (cs : List PKIMessage) : PKIMessage where
  header := { pvno := 2 }
  body := .nested cs

lemma sampleOuter_header (cs : List PKIMessage) : (sampleOuter cs).header.Wf := by
  have hname : GeneralName.Wf {} := by
    rw [GeneralName.Wf, if_neg (by decide)]
    intro _ rdn hrdn
    cases hrdn
  refine ⟨hname, hname, fun h => ?_, ?_, ?_⟩
  · cases h
  · intro a ha
    cases ha
  · intro itv hitv
    cases hitv

/-- A confirmation that was received with a protection, forwarded with another nonce in its
decoded header. -/
def sampleForwarded (m : PKIMessage) : PKIMessage :=
  sampleOuter [{ m with header := { m.header with senderNonce := [1] } }]

/-- It is written, read and found in the message around it. -/
theorem nested_delivered_sample :
    ∃ m der o, m.protection ≠ [] ∧
      parsePKIMessage (sampleConfirmationDER [0xa0, 0x04, 0x03, 0x02, 0x00, 0x01]) = .ok m ∧
      (sampleForwarded m).marshalBinary = .ok der ∧ parsePKIMessage der = .ok o ∧
      o.body.getNested = .ok [m] := by
  have hparsed : (match parsePKIMessage (sampleConfirmationDER
      [0xa0, 0x04, 0x03, 0x02, 0x00, 0x01]) with
    | .ok m => decide (m.protection ≠ [] ∧ (sampleForwarded m).size < 2 ^ 31)
    | _ => false) = true := by decide +kernel
  split at hparsed
  · next m hm =>
    obtain ⟨hprotected, hsize⟩ := of_decide_eq_true hparsed
    obtain ⟨hwritten, hnested⟩ := nested_delivered [m] _ (sampleForwarded m) (by simp)
      (fun x hx => by rw [List.mem_singleton.mp hx]; exact ⟨hprotected, _, hm⟩)
      (.cons ⟨_, rfl⟩ .nil) rfl (show (2 : ℤ) ≤ 3 by decide) (sampleOuter_header _)
      (fun c hc => by cases hc)
    obtain ⟨der, o, hder, -, ho⟩ := hwritten hsize
    exact ⟨m, der, o, hprotected, hm, hder, ho, hnested der o hder ho⟩
  · cases hparsed

/-- A nested body without messages cannot be written. -/
theorem nested_empty :
    (sampleOuter []).marshalBinary =
      .error (.parse (str "nested body requires at least one message")) := by
  simp only [PKIMessage.marshalBinary, sampleOuter, PKIBody.marshal]
  decide +kernel

end PkiCmp
