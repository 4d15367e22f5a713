/-
The names in the header of a request.

A client names itself by the subject of its certificate and the server by the name it was
configured with; both go through `pkix.Name`, which brings them into canonical form.  The
verifier compares the sender with the subject of the certificate as it is, the server brings
both names into canonical form before it compares them.

* `default_sender_iff`: **the default sender** is accepted for the client's own certificate
  when the subject is in canonical form already;
* `recipient_recognised`: **the server's own name** is always accepted.
-/
import PkiCmp.Client.Transport
import PkiCmp.Codec.Messages
import PkiCmp.Codec.Naming
import PkiCmp.Server.Process

namespace PkiCmp

open Der Interact PKIMessage

lemma GeneralName.ReadAs.directoryName {n : Name} {g : GeneralName}
    (h : (newDirectoryName n).ReadAs g) : g.directoryName = n.toFullRDNSequence :=
  (h.names rfl).2 rfl

/-! ### The sender -/

variable {rdns : RDNSequence}

/-- The verifier accepts the canonical form of a name for a certificate whose subject it is,
or when nothing is left of it. -/
lemma senderMatchesCertificate_canonical {cert : Certificate} {left : Bytes}
    (hsubject : unmarshalRDNSequence cert.rawSubject = some (rdns, left)) (htext : Textual rdns)
    {g : GeneralName} (hg : g.directoryName = canonical rdns) :
    senderMatchesCertificate g cert = true ↔ canonical rdns = [] ∨ canonical rdns = rdns := by
  rw [senderMatchesCertificate, hg, hsubject]
  by_cases hnil : canonical rdns = []
  · simp [hnil]
  · rw [if_neg hnil, beq_iff_eq, or_iff_right hnil]
    constructor
    · exact RDNSequence.string_inj htext.canonical htext hnil fun _ => ne_nil_of_mem_canonical
    · intro h
      rw [h]

/-- **The default sender** of a client with a certificate is accepted for this certificate when
the subject is in canonical form, or is NULL in canonical form. -/
theorem default_sender_iff (key : Signer) (cert : Certificate) (chain : List Certificate)
    (opts : RequestOptions) (hopts : opts.sender = none) (rdns : RDNSequence) (left : Bytes)
    (hsubject : unmarshalRDNSequence cert.rawSubject = some (rdns, left)) (htext : Textual rdns)
    (hfill : cert.subject = Name.fillFromRDNSequence rdns) :
    (∀ (c : Client) body tr m,
      Prog.Steps (c.newRequest body (.signature key cert chain) opts) tr (.ret (.ok m)) →
      m.header.sender = newDirectoryName cert.subject) ∧
    ∀ m : PKIMessage, m.header.sender = newDirectoryName cert.subject → m.Wf → m.size < 2 ^ 31 →
      ∃ der m', m.marshalBinary = .ok der ∧ parsePKIMessage der = .ok m' ∧
        (senderMatchesCertificate m'.header.sender cert = true ↔
          canonical rdns = [] ∨ canonical rdns = rdns) := by
  refine ⟨fun c body tr m hrun => ?_, fun m hsender hwf hsize => ?_⟩
  · rw [((c.newRequest_yields body (.signature key cert chain) opts).steps hrun m rfl).sender]
    simp only [Client.requestSender, hopts]
  · obtain ⟨der, m', hder, -, hparse, hm⟩ := hwf.delivered hsize
    have hread : m.header.sender.ReadAs m'.header.sender := hm.header.sender
    rw [hsender] at hread
    refine ⟨der, m', hder, hparse, senderMatchesCertificate_canonical hsubject htext ?_⟩
    rw [hread.directoryName, hfill, toFullRDNSequence_fill]

/-- The subject `C=A, O=C, ST=B`. -/
def sampleSubject : RDNSequence :=
  [[typedValue 6 [65]], [typedValue 10 [67]], [typedValue 8 [66]]]

lemma sampleSubject_textual : Textual sampleSubject := by
  intro rdn hrdn a ha
  simp only [sampleSubject, List.mem_cons, List.not_mem_nil, or_false] at hrdn
  obtain rfl | rfl | rfl := hrdn <;> rw [List.mem_singleton.mp ha] <;>
    exact ⟨by decide, _, rfl, by decide⟩

/-- A certificate with a given subject. -/
def namedCertificate (rdns : RDNSequence) : Certificate where
  raw := []
  rawSubject := nameOctets rdns
  subject := Name.fillFromRDNSequence rdns

/-- A confirmation between two names. -/
def addressedMessage (sender recipient : GeneralName) : PKIMessage where
  header := { pvno := 2, sender, recipient }
  body := .pkiConf

lemma addressedMessage_wf {sender recipient : GeneralName} (hs : sender.Wf) (hr : recipient.Wf) :
    (addressedMessage sender recipient).Wf where
  pvno := show PVNO2 ≤ 3 by decide
  header :=
    { sender := hs
      recipient := hr
      messageTime := nofun
      protectionAlg := nofun
      generalInfo := nofun }
  body := .pkiConf
  extraCerts := nofun

/-- The name of a certificate can be written. -/
lemma newDirectoryName_wf (h : Textual rdns) :
    (newDirectoryName (Name.fillFromRDNSequence rdns)).Wf := by
  rw [newDirectoryName, toFullRDNSequence_fill, GeneralName.Wf, if_neg (not_not.mpr rfl)]
  exact fun _ => h.canonical

lemma nullName_wf : GeneralName.Wf {} := by
  rw [GeneralName.Wf, if_neg (not_not.mpr rfl)]
  intro _ rdn hrdn
  cases hrdn

/-- A common name is in canonical form. -/
theorem default_sender_commonName :
    let cert := namedCertificate [[typedValue 3 [65]]]
    ∃ der m', (addressedMessage (newDirectoryName cert.subject) {}).marshalBinary = .ok der ∧
      parsePKIMessage der = .ok m' ∧ senderMatchesCertificate m'.header.sender cert = true := by
  have htext : Textual [[typedValue 3 [65]]] := by
    intro rdn hrdn a ha
    rw [List.mem_singleton.mp hrdn] at ha
    rw [List.mem_singleton.mp ha]
    exact ⟨by decide, _, rfl, by decide⟩
  obtain ⟨-, h⟩ := default_sender_iff ⟨⟨.ed25519, []⟩, fun _ _ => .ok []⟩
    (namedCertificate [[typedValue 3 [65]]]) [] {} rfl [[typedValue 3 [65]]] [] (by decide +kernel)
    htext rfl
  obtain ⟨der, m', hder, hparse, hiff⟩ := h _ rfl
    (addressedMessage_wf (newDirectoryName_wf htext) nullName_wf) (by decide +kernel)
  exact ⟨der, m', hder, hparse, hiff.mpr (.inr (by decide))⟩

/-- A province after the organization: the sender is not recognised. -/
theorem default_sender_reordered :
    let cert := namedCertificate sampleSubject
    unmarshalRDNSequence cert.rawSubject = some (sampleSubject, []) ∧ Textual sampleSubject ∧
      cert.subject = Name.fillFromRDNSequence sampleSubject ∧
      ∃ der m', (addressedMessage (newDirectoryName cert.subject) {}).marshalBinary = .ok der ∧
        der.length < 2 ^ 31 ∧ parsePKIMessage der = .ok m' ∧
        senderMatchesCertificate m'.header.sender cert = false := by
  have hsubject : unmarshalRDNSequence (namedCertificate sampleSubject).rawSubject =
      some (sampleSubject, []) := by decide +kernel
  have hsize : (addressedMessage (newDirectoryName
      (namedCertificate sampleSubject).subject) {}).size < 2 ^ 31 := by decide +kernel
  obtain ⟨der, m', hder, hlen, hparse, hm⟩ := (addressedMessage_wf
    (newDirectoryName_wf sampleSubject_textual) nullName_wf).delivered hsize
  have hread := hm.header.sender
  refine ⟨hsubject, sampleSubject_textual, rfl, der, m', hder, hlen ▸ hsize, hparse, ?_⟩
  refine eq_false_of_ne_true fun hmatch => ?_
  have hcanonical := (senderMatchesCertificate_canonical hsubject sampleSubject_textual
    (hread.directoryName.trans (toFullRDNSequence_fill _))).mp hmatch
  exact absurd hcanonical (by decide)

/-! ### The recipient -/

/-- The recipient of a header was read as a name. -/
lemma PKIHeader.recipient_of_unmarshal {s s' : Bytes} {h : PKIHeader}
    (hread : PKIHeader.unmarshal s = .ok (h, s')) :
    ∃ t t', GeneralName.unmarshal t = .ok (h.recipient, t') := by
  rw [PKIHeader.unmarshal_eq] at hread
  obtain ⟨seq, s1, -, hread⟩ := Reader.bind_ok.mp hread
  obtain ⟨-, left, hread⟩ := Reader.within_ok hread
  obtain ⟨pvno, s2, -, hread⟩ := Reader.bind_ok.mp hread
  obtain ⟨sender, s3, -, hread⟩ := Reader.bind_ok.mp hread
  obtain ⟨recipient, s4, hrecipient, hread⟩ := Reader.bind_ok.mp hread
  simp only [PKIHeader.readFields, Reader.bind_ok] at hread
  obtain ⟨_, _, -, _, _, -, _, _, -, _, _, -, _, _, -, _, _, -, _, _, -, _, _, -, _, _, -,
    hlast⟩ := hread
  cases hlast
  exact ⟨s3, s4, PKIHeader.wrapField_ok.mp hrecipient⟩

/-- A name that was given by its octets is read from them. -/
lemma GeneralName.directoryName_of_raw {b : Bytes} {left t t' : Bytes} {g : GeneralName}
    (hone : OneElement b) (hb : unmarshalRDNSequence b = some (rdns, left))
    (hread : GeneralName.unmarshal t = .ok (g, t'))
    (hraw : g.raw = element (contextConstructed 4) b) :
    g.directoryName = rdns := by
  obtain ⟨e, he, hgraw, -⟩ := GeneralName.unmarshal_eq_ok hread
  obtain ⟨-, helem, -, -⟩ := readAnyASN1_eq_some_iff.mp he
  obtain ⟨htag, hcontent⟩ := element_inj (helem.symm.trans (hgraw.symm.trans hraw))
  obtain ⟨e', s1, he', hread⟩ := Reader.bind_ok.mp hread
  obtain ⟨rfl, rfl⟩ := Prod.mk.inj (Option.some.inj (he.symm.trans (Reader.read_ok.mp he')))
  rw [if_pos htag] at hread
  obtain ⟨rdns', s2, hparse, hread⟩ := Reader.bind_ok.mp hread
  cases hread
  obtain ⟨-, left', hparse⟩ := Reader.within_ok hparse
  obtain ⟨n, s3, hn, hparse⟩ := Reader.bind_ok.mp hparse
  obtain ⟨o, ho⟩ := hone
  rw [hcontent] at hn
  obtain ⟨rfl, rfl⟩ := Prod.mk.inj (Option.some.inj (ho.symm.trans (Reader.read_ok.mp hn)))
  obtain ⟨-, -, -, happ⟩ := readAnyASN1_eq_some_iff.mp ho
  rw [List.append_nil] at happ
  rw [← happ, hb] at hparse
  cases hparse
  rfl

/-- A server without a name of its own goes by the subject of its certificate: it accepts the
names with the same canonical form. -/
lemma Server.verifyRecipient_of_canonical {srv : Server} {cert : Certificate}
    (hsigner : srv.cfg.signerCert = some cert) (hname : srv.hasSenderName = false)
    (hfill : cert.subject = Name.fillFromRDNSequence rdns) {m : PKIMessage}
    (hm : m.header.recipient.directoryName = [] ∨
      canonical m.header.recipient.directoryName = canonical rdns) :
    srv.verifyRecipient m = .ok () := by
  have hid : srv.identityName = some cert.subject := by
    rw [Server.identityName, hname, hsigner]
    rfl
  obtain hnull | hm := hm
  · simp only [Server.verifyRecipient, hid, hnull, if_true]
  have hstring : (Name.fillFromRDNSequence m.header.recipient.directoryName).string =
      cert.subject.string := by
    rw [hfill, Name.string, Name.string, toFullRDNSequence_fill, toFullRDNSequence_fill, hm]
  simp only [Server.verifyRecipient, hid, hstring, ne_eq, not_true_eq_false, if_false, ite_self]

/-- A client without a name of the server writes a NULL-DN, as it would for an empty one. -/
lemma newDirectoryName_of_isEmptyName {n : Name} (h : Client.isEmptyName n = true) :
    newDirectoryName n = {} := by
  simp only [Client.isEmptyName, Bool.and_eq_true, decide_eq_true_eq] at h
  obtain ⟨⟨⟨⟨⟨⟨⟨⟨⟨⟨hc, ho⟩, hu⟩, hl⟩, hp⟩, hs⟩, hz⟩, hser⟩, hcn⟩, hnames⟩, hextra⟩ := h
  simp [newDirectoryName, Name.toFullRDNSequence, Name.toRDNSequence, Name.appendRDNs, hc, ho, hu,
    hl, hp, hs, hz, hser, hcn, hnames, hextra]

/-- **The server's own name**, as a client writes it that is configured with the subject of the
server's certificate or copies the octets of it, is always accepted. -/
theorem recipient_recognised (srv : Server) (cert : Certificate)
    (hsigner : srv.cfg.signerCert = some cert) (hname : srv.hasSenderName = false)
    (rdns : RDNSequence) (hone : OneElement cert.rawSubject)
    (hsubject : unmarshalRDNSequence cert.rawSubject = some (rdns, []))
    (hfill : cert.subject = Name.fillFromRDNSequence rdns) :
    (∀ (c : Client) body creds opts tr m, c.recipient = cert.subject →
      Prog.Steps (c.newRequest body creds opts) tr (.ret (.ok m)) →
      m.header.recipient = newDirectoryName cert.subject) ∧
    ∀ m : PKIMessage, m.header.recipient = newDirectoryName cert.subject ∨
        m.header.recipient = newDirectoryNameFromRawDER cert.rawSubject →
      m.Wf → m.size < 2 ^ 31 → ∃ der m', m.marshalBinary = .ok der ∧
        parsePKIMessage der = .ok m' ∧ srv.verifyRecipient m' = .ok () := by
  refine ⟨fun c body creds opts tr m hc hrun => ?_, fun m hrec hwf hsize => ?_⟩
  · rw [((c.newRequest_yields body creds opts).steps hrun m rfl).recipient, hc]
    split_ifs with hempty
    · exact (newDirectoryName_of_isEmptyName hempty).symm
    · rfl
  · obtain ⟨der, m', hder, -, hparse, hm⟩ := hwf.delivered hsize
    have hread : m.header.recipient.ReadAs m'.header.recipient := hm.header.recipient
    refine ⟨der, m', hder, hparse, srv.verifyRecipient_of_canonical hsigner hname hfill ?_⟩
    obtain hrec | hrec := hrec
    · rw [hrec] at hread
      right
      rw [hread.directoryName, hfill, toFullRDNSequence_fill, canonical_idem]
    · rw [hrec, newDirectoryNameFromRawDER] at hread
      split at hread
      · next raw hraw =>
        right
        obtain ⟨-, c, hc, -, rfl⟩ := addASN1_eq_ok.mp hraw
        cases hc
        have hgraw : m'.header.recipient.raw = element (contextConstructed 4) cert.rawSubject := by
          have h := hread.raw
          rw [GeneralName.marshal_of_raw (by simp [element])] at h
          exact (Except.ok.inj h).symm
        obtain ⟨_, _, _, _, _, -, -, henv⟩ := parsePKIMessage_eq_ok hparse
        obtain ⟨left, hheader⟩ := henv.decodedHeader
        obtain ⟨t, t', hg⟩ := PKIHeader.recipient_of_unmarshal hheader
        rw [GeneralName.directoryName_of_raw hone hsubject hg hgraw]
      · left
        exact (hread.names rfl).2 rfl

/-- A server with the subject `C=A, O=C, ST=B` takes a message to it for its own. -/
theorem recipient_recognised_sample :
    ∃ der m', (addressedMessage {} (newDirectoryName
        (namedCertificate sampleSubject).subject)).marshalBinary = .ok der ∧
      parsePKIMessage der = .ok m' ∧
      (Server.new .sample 0 .external
        { signerCert := some (namedCertificate sampleSubject) }).verifyRecipient m' = .ok () := by
  have hone : OneElement (namedCertificate sampleSubject).rawSubject := by
    have h := readAnyASN1_element [] (by decide : isHighTag tagSequence = false)
      (by decide +kernel : (nameOctets sampleSubject).length < 2 ^ 32)
    rw [List.append_nil] at h
    exact ⟨_, h⟩
  obtain ⟨-, h⟩ := recipient_recognised
    (Server.new .sample 0 .external { signerCert := some (namedCertificate sampleSubject) })
    (namedCertificate sampleSubject) rfl rfl sampleSubject hone (by decide +kernel) rfl
  exact h _ (.inl rfl)
    (addressedMessage_wf nullName_wf (newDirectoryName_wf sampleSubject_textual)) (by decide +kernel)

end PkiCmp
