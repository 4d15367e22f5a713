/-
Round trips of request bodies: certificate requests, revocation requests and polling.

* `CertTemplate.conveys`: the fields of a template are read back in any combination;
* `CertRequest.conveys`: a request is read back with its own octets;
* `ProofOfPossession.conveys`, `CertReqMessages.conveys`, `RevReqContent.conveys`,
  `PollReqContent.conveys`.
-/
import PkiCmp.Codec.Types
import PkiCmp.Message

namespace PkiCmp

open Der

variable {F : List (Option UInt8)}

/-! ### Controls -/

/-- A control with one element as value. -/
def Control.Wf (c : Control) : Prop := smallOID c.type = true ∧ OneElement c.value

lemma Control.conveys {c : Control} (h : c.Wf) :
    Conveys (2 ^ 31) [some tagSequence] F c.marshal unmarshal (· = c) := by
  obtain ⟨oid, v⟩ := c
  obtain ⟨hoid, hv⟩ := h
  obtain ⟨e, he⟩ := id hv
  have happ := readAnyASN1_append he
  rw [List.append_nil] at happ
  refine Conveys.within (H := [some tagObjectIdentifier]) (by decide)
    (Conveys.cons (K := [some e.tag]) (Conveys.objectIdentifier hoid) ?_)
  rintro _ rfl
  rw [if_neg hv.ne_nil]
  refine Conveys.cons (H := [some e.tag]) (K := [none]) (Conveys.anyElement he) ?_
  rintro _ rfl
  refine Conveys.atEnd (Conveys.pure ?_)
  rw [← happ]

/-! ### Templates -/

/-- Elements one after the other. -/
def fieldOctets (l : List (UInt8 × Bytes)) : Bytes := l.flatMap fun (t, c) => element t c

/-- The elements as they are read. -/
def fieldElements (l : List (UInt8 × Bytes)) : List Element :=
  l.map fun (t, c) => ⟨t, element t c, c⟩

lemma length_le_fieldOctets {l : List (UInt8 × Bytes)} {t : UInt8} {c : Bytes}
    (h : (t, c) ∈ l) : c.length ≤ (fieldOctets l).length := by
  obtain ⟨l1, l2, rfl⟩ := List.append_of_mem h
  simp only [fieldOctets, List.flatMap_append, List.flatMap_cons, List.length_append,
    length_element]
  omega

lemma many_fieldOctets {d : String} {l : List (UInt8 × Bytes)}
    (hl : ∀ p ∈ l, isHighTag p.1 = false) (hlen : (fieldOctets l).length < 2 ^ 32) :
    Reader.many (Reader.anyElement d) (fieldOctets l) = .ok (fieldElements l, []) := by
  suffices hfuel : ∀ fuel, (fieldOctets l).length ≤ fuel →
      Reader.manyAux (Reader.anyElement d) fuel (fieldOctets l) = .ok (fieldElements l, []) from
    hfuel _ le_rfl
  induction l with
  | nil => intro fuel _; cases fuel <;> rfl
  | cons p l ih =>
    obtain ⟨t, c⟩ := p
    intro fuel hfuel
    have hcons : fieldOctets ((t, c) :: l) = element t c ++ fieldOctets l := rfl
    rw [hcons, List.length_append] at hlen hfuel
    have hlow : isHighTag t = false := hl (t, c) List.mem_cons_self
    have hread : Reader.anyElement d (element t c ++ fieldOctets l) =
        .ok (⟨t, element t c, c⟩, fieldOctets l) :=
      Reader.read_ok.mpr (readAnyASN1_element _ hlow (by omega))
    have hpos := length_element t c
    obtain ⟨fuel, rfl⟩ : ∃ n, fuel = n + 1 := ⟨fuel - 1, by omega⟩
    rw [hcons]
    exact Reader.manyAux_cons (by simp [element]) hread
      (ih (fun p hp => hl p (List.mem_cons_of_mem _ hp)) (by omega) fuel (by omega))

namespace CertTemplate

/-- The raw fields are absent or one SEQUENCE, and the subject is a directory name of UTF-8
strings. -/
structure Wf (t : CertTemplate) : Prop where
  issuer : t.issuer = [] ∨ OneSequence t.issuer
  subject : t.subject = { directoryName := t.subject.directoryName }
  textual : Textual t.subject.directoryName
  publicKey : t.publicKey = [] ∨ OneSequence t.publicKey
  extensions : t.extensions = [] ∨ OneSequence t.extensions

/-- The content of a field that is a SEQUENCE. -/
def sequenceContent (b : Bytes) : Bytes :=
  match stripSequence b with
  | .ok c => c
  | .error _ => []

/-- A field that is there when its octets are. -/
def rawField (t : UInt8) (b c : Bytes) : List (UInt8 × Bytes) := if b = [] then [] else [(t, c)]

/-- The fields that are written, in their order. -/
def fields (t : CertTemplate) : List (UInt8 × Bytes) :=
  (t.serialNumber.toList.map fun n => (context 1, intOctets n)) ++
  (rawField (contextConstructed 3) t.issuer t.issuer ++
  ((if t.subject.directoryName = [] then []
    else [(contextConstructed 5, nameOctets t.subject.directoryName)]) ++
  (rawField (contextConstructed 6) t.publicKey (sequenceContent t.publicKey) ++
  rawField (contextConstructed 9) t.extensions (sequenceContent t.extensions))))

lemma fields_low {t : CertTemplate} : ∀ p ∈ t.fields, isHighTag p.1 = false := by
  intro p hp
  have hraw : ∀ {u b c}, p ∈ rawField u b c → p.1 = u := by
    intro u b c h
    unfold rawField at h
    split_ifs at h
    · cases h
    · rw [List.mem_singleton.mp h]
  simp only [fields, List.mem_append, List.mem_map] at hp
  obtain ⟨n, -, rfl⟩ | hp | hp | hp | hp := hp
  · exact (by decide : isHighTag (context 1) = false)
  · rw [hraw hp]
    decide
  · split_ifs at hp
    · cases hp
    · rw [List.mem_singleton.mp hp]
      exact (by decide : isHighTag (contextConstructed 5) = false)
  · rw [hraw hp]
    decide
  · rw [hraw hp]
    decide

lemma marshalStripped_writes {t : UInt8} {what : String} {b : Bytes} (ht : isHighTag t = false)
    (h : b = [] ∨ OneSequence b) :
    Writes (marshalStripped t what b) (fieldOctets (rawField t b (sequenceContent b))) := by
  unfold marshalStripped rawField
  split_ifs with hb
  · exact .inr rfl
  · obtain ⟨c, rfl, hstrip, -⟩ := (h.resolve_left hb).eq_element
    simp only [sequenceContent, hstrip]
    rw [show fieldOctets [(t, c)] = element t c from List.append_nil _]
    exact .addASN1 ht (.inr rfl)

/-- The octets that are written for a template. -/
lemma marshal_writes {t : CertTemplate} (h : t.Wf) :
    Writes t.marshal (element tagSequence (fieldOctets t.fields)) := by
  have happ : ∀ l l', fieldOctets (l ++ l') = fieldOctets l ++ fieldOctets l' :=
    fun _ _ => List.flatMap_append
  have hone : ∀ t c, fieldOctets [(t, c)] = element t c := fun _ _ => List.append_nil _
  refine .addASN1 (by decide) ?_
  rw [fields, happ, happ, happ, happ]
  refine .cons ?_ (.cons ?_ (.cons ?_ (.cons (marshalStripped_writes (by decide) h.publicKey) ?_)))
  · cases t.serialNumber with
    | none => exact .inr rfl
    | some n =>
      rw [Option.toList_some, List.map_singleton, hone]
      exact .addASN1 (by decide) (.inr rfl)
  · unfold rawField
    split_ifs with hnil hsingle
    · exact .inr rfl
    · rw [hone]
      exact .addASN1 (by decide) (.inr rfl)
    · obtain ⟨e, he⟩ := h.issuer.resolve_left hnil
      simp [isSingleElement, he] at hsingle
  · rw [Der.optional]
    split_ifs with hc hnil hnil
    · simp [hnil] at hc
    · rw [hone]
      exact .addASN1 (by decide) (marshalRDNSequence_writes h.textual)
    · exact .inr rfl
    · simp [hnil] at hc
  · rw [← List.append_nil (fieldOctets _)]
    exact .cons (marshalStripped_writes (by decide) h.extensions) (.inr rfl)

/-! Each field is taken into the template it belongs to. -/

section Fields

variable {u : CertTemplate} {raw : Bytes}

lemma field_serialNumber (n : ℤ) :
    field u ⟨context 1, raw, intOctets n⟩ = .ok { u with serialNumber := some n } := by
  rw [field, if_pos rfl, unmarshalImplicitBigInt, if_pos (checkASN1Integer_intOctets n),
    intValue_intOctets]
  rfl

lemma field_issuer {b : Bytes} (h : OneSequence b) :
    field u ⟨contextConstructed 3, raw, b⟩ = .ok { u with issuer := b } := by
  obtain ⟨e, he⟩ := h
  have happ := readAnyASN1_append (readASN1_eq_some_iff.mp he).1
  rw [List.append_nil] at happ
  rw [field, if_neg (by decide : contextConstructed 3 ≠ context 1), if_pos rfl]
  simp only [he, ← happ]

lemma field_subject {rdns : RDNSequence} (h : Textual rdns)
    (hlen : (nameOctets rdns).length < 2 ^ 31) :
    field u ⟨contextConstructed 5, raw, nameOctets rdns⟩ =
      .ok { u with subject := { u.subject with directoryName := rdns } } := by
  have hread := parseRDNSequence_nameOctets h [] hlen
  rw [List.append_nil] at hread
  rw [field, if_neg (by decide : contextConstructed 5 ≠ context 1),
    if_neg (by decide : contextConstructed 5 ≠ contextConstructed 3), if_pos rfl]
  simp only [StateT.run, hread]
  rfl

lemma field_publicKey (c : Bytes) :
    field u ⟨contextConstructed 6, raw, c⟩ = .ok { u with publicKey := element tagSequence c } :=
  rfl

lemma field_extensions (c : Bytes) :
    field u ⟨contextConstructed 9, raw, c⟩ = .ok { u with extensions := element tagSequence c } :=
  rfl

end Fields

/-- A field that may be absent. -/
lemma foldlM_optional {u v : CertTemplate} {p : Prop} [Decidable p] {tag : UInt8} {c : Bytes}
    (habsent : p → u = v) (hpresent : ¬p → field u ⟨tag, element tag c, c⟩ = .ok v) :
    (fieldElements (if p then [] else [(tag, c)])).foldlM field u = .ok v := by
  split_ifs with hp
  · rw [habsent hp]
    rfl
  · simp [fieldElements, hpresent hp]

lemma sequenceContent_element {b : Bytes} (h : OneSequence b) :
    element tagSequence (sequenceContent b) = b := by
  obtain ⟨c, rfl, hstrip, -⟩ := h.eq_element
  rw [sequenceContent, hstrip]

/-- The fields of a template, one after the other, make the template.  Only a subject has to
be short, since `encoding/asn1` takes no longer one. -/
lemma foldlM_fields {t : CertTemplate} (h : t.Wf)
    (hlen : t.subject.directoryName = [] ∨ (fieldOctets t.fields).length < 2 ^ 31) :
    (fieldElements t.fields).foldlM field {} = .ok t := by
  obtain ⟨serialNumber, issuer, subject, publicKey, extensions⟩ := t
  obtain ⟨hissuer, hsubject, htextual, hpublicKey, hextensions⟩ := h
  simp only at hissuer hsubject htextual hpublicKey hextensions
  have happ : ∀ l l', fieldElements (l ++ l') = fieldElements l ++ fieldElements l' :=
    fun _ _ => List.map_append
  have h1 :
      (fieldElements (serialNumber.toList.map fun n => (context 1, intOctets n))).foldlM field {}
      = .ok { serialNumber } := by
    cases serialNumber with
    | none => rfl
    | some n => simp [fieldElements, field_serialNumber]
  have h2 : (fieldElements (rawField (contextConstructed 3) issuer issuer)).foldlM field
      { serialNumber } = .ok { serialNumber, issuer } :=
    foldlM_optional (fun hnil => by rw [hnil]) fun hne => field_issuer (hissuer.resolve_left hne)
  have h3 : (fieldElements (if subject.directoryName = [] then []
      else [(contextConstructed 5, nameOctets subject.directoryName)])).foldlM field
      { serialNumber, issuer } = .ok { serialNumber, issuer, subject } := by
    refine foldlM_optional (fun hnil => ?_) fun hne => ?_
    · rw [hsubject, hnil]
    · have hmem : (contextConstructed 5, nameOctets subject.directoryName) ∈
          fields ⟨serialNumber, issuer, subject, publicKey, extensions⟩ := by
        simp [fields, hne]
      rw [field_subject htextual (lt_of_le_of_lt (length_le_fieldOctets hmem)
        (hlen.resolve_left hne)), ← hsubject]
  have h4 : (fieldElements (rawField (contextConstructed 6) publicKey
      (sequenceContent publicKey))).foldlM field { serialNumber, issuer, subject } =
      .ok { serialNumber, issuer, subject, publicKey } :=
    foldlM_optional (fun hnil => by rw [hnil]) fun hne => by
      rw [field_publicKey, sequenceContent_element (hpublicKey.resolve_left hne)]
  have h5 : (fieldElements (rawField (contextConstructed 9) extensions
      (sequenceContent extensions))).foldlM field { serialNumber, issuer, subject, publicKey } =
      .ok { serialNumber, issuer, subject, publicKey, extensions } :=
    foldlM_optional (fun hnil => by rw [hnil]) fun hne => by
      rw [field_extensions, sequenceContent_element (hextensions.resolve_left hne)]
  simp only [fields, happ, List.foldlM_append, h1, h2, h3, h4, h5, bind, Except.bind]

/-- **Templates** are read back, those without a subject whatever their length. -/
lemma conveys {N : ℕ} [hN : Fact (N ≤ 2 ^ 32)] {t : CertTemplate} (h : t.Wf)
    (hshort : t.subject.directoryName = [] ∨ N ≤ 2 ^ 31) :
    Conveys N [some tagSequence] F t.marshal unmarshal (· = t) := by
  obtain hlong | hok := marshal_writes h
  · exact .inl hlong
  refine .inr ⟨_, hok, List.mem_singleton.mpr rfl, ⟨_, rfl⟩, fun hlen rest _ => ⟨t, ?_, rfl⟩⟩
  have hread := readASN1_eq_some_iff.mpr ⟨readAnyASN1_element rest (by decide)
    (lt_of_lt_of_le hlen hN.out), rfl⟩
  rw [length_element] at hlen
  have hlen' : (fieldOctets t.fields).length < N := by omega
  refine Reader.bind_ok.mpr ⟨_, rest, Reader.bind_ok.mpr ⟨_, rest, Reader.read_ok.mpr hread, rfl⟩,
    Reader.bind_ok.mpr ⟨_, rest, Reader.within_eq_ok
      (many_fieldOctets fields_low (lt_of_lt_of_le hlen' hN.out)) rest, ?_⟩⟩
  simp only [foldlM_fields h (hshort.imp_right (lt_of_lt_of_le hlen'))]
  rfl

end CertTemplate

/-! ### Proof of possession -/

/-- The input of a signature: an optional name and one SEQUENCE. -/
def PopoSigningKeyInput.Wf (i : PopoSigningKeyInput) : Prop :=
  (∀ s ∈ i.sender, s.Wf) ∧ OneSequence i.publicKey

/-- The name keeps its encoding. -/
def PopoSigningKeyInput.ReadAs (i i' : PopoSigningKeyInput) : Prop :=
  Option.Rel GeneralName.ReadAs i.sender i'.sender ∧ i'.publicKey = i.publicKey

lemma PopoSigningKeyInput.unmarshalInner_eq : unmarshalInner = (do
    let sender ← Reader.explicit "invalid sender tag" (contextConstructed 0) GeneralName.unmarshal
    let pub ← Reader.anyElement "missing publicKey"
    pure ⟨sender, pub.raw⟩) := by
  simp only [unmarshalInner, Reader.explicit, Reader.optional, bind_assoc, Reader.ite_bind,
    pure_bind]

lemma PopoSigningKeyInput.conveysInner {i : PopoSigningKeyInput} (h : i.Wf) :
    Conveys (2 ^ 31) [some (contextConstructed 0), some tagSequence] [none] i.marshalInner
      unmarshalInner
      i.ReadAs := by
  obtain ⟨hsender, e, he⟩ := h
  obtain ⟨hread, htag⟩ := readASN1_eq_some_iff.mp he
  have happ := readAnyASN1_append hread
  rw [List.append_nil] at happ
  rw [unmarshalInner_eq]
  refine Conveys.cons (H := [some (contextConstructed 0), none]) (K := [some tagSequence])
    (Conveys.explicit (o := i.sender) (R := GeneralName.ReadAs) (by decide) (by decide)
      (fun hs => by rw [hs]) fun s hs => ?_) fun sender hs => ?_
  · obtain ⟨t, ht⟩ := GeneralName.conveys (hsender s hs)
    exact ⟨_, _, by rw [hs], ht _⟩
  · rw [← htag]
    refine Conveys.last ((Conveys.anyElement hread).map ?_)
    rintro _ rfl
    exact ⟨hs, happ.symm⟩

/-- A signature proof. -/
def PopoSigningKey.Wf (k : PopoSigningKey) : Prop :=
  (∀ i ∈ k.poposkInput, i.Wf) ∧ k.algorithm.Wf

/-- What a signature proof is read as. -/
def PopoSigningKey.ReadAs (k k' : PopoSigningKey) : Prop :=
  Option.Rel PopoSigningKeyInput.ReadAs k.poposkInput k'.poposkInput ∧
    k'.algorithm = k.algorithm ∧ k'.signature = k.signature

/-- The end of a signature proof. -/
def PopoSigningKey.ofBits (input : Option PopoSigningKeyInput) (alg : AlgorithmIdentifier) :
    Bytes → Reader PopoSigningKey
  | [] => throw (.parse (str "invalid signature unused bits"))
  | _ :: sig => pure ⟨input, alg, sig⟩

lemma PopoSigningKey.unmarshalInner_eq : unmarshalInner = (do
    let input ← Reader.explicit "invalid poposkInput tag" (contextConstructed 0)
      PopoSigningKeyInput.unmarshalInner
    let alg ← AlgorithmIdentifier.unmarshal
    let bits ← Reader.element "invalid signature BIT STRING" tagBitString
    ofBits input alg bits) := by
  simp only [unmarshalInner, Reader.explicit, Reader.optional, bind_assoc, Reader.ite_bind]
  rfl

lemma PopoSigningKey.conveysInner {k : PopoSigningKey} (h : k.Wf) :
    Conveys (2 ^ 31) [some (contextConstructed 0), some tagSequence] [none] k.marshalInner
      unmarshalInner
      k.ReadAs := by
  obtain ⟨hinput, halg⟩ := h
  rw [unmarshalInner_eq]
  refine Conveys.cons (H := [some (contextConstructed 0), none]) (K := [some tagSequence])
    (Conveys.explicit (o := k.poposkInput) (by decide) (by decide)
      (fun hi => by rw [hi]) fun i hi =>
      ⟨_, _, by rw [hi], PopoSigningKeyInput.conveysInner (hinput i hi)⟩) fun input hin => ?_
  refine Conveys.cons (K := [some tagBitString]) (AlgorithmIdentifier.conveys halg) ?_
  rintro _ rfl
  refine Conveys.last ((Conveys.element (by decide)).andThen ?_)
  rintro _ rfl
  exact ⟨_, rfl, hin, rfl, rfl⟩

/-- A number for a later message, or an encrypted key. -/
def PopoPrivKey.Wf (k : PopoPrivKey) : Prop :=
  (∃ v, k = { subsequentMessage := some v } ∧ -2 ^ 63 ≤ v ∧ v < 2 ^ 63) ∨
  ∃ raw, k = { encryptedKey := some raw } ∧ OneSequence raw

lemma PopoPrivKey.conveys {k : PopoPrivKey} (h : k.Wf) :
    Conveys (2 ^ 31) [some (context 1), some (contextConstructed 4)] F k.marshal unmarshal
      (· = k) := by
  obtain ⟨v, rfl, h0, h1⟩ | ⟨raw, rfl, hraw⟩ := h
  · refine Conveys.heads (H := [some (context 1)])
      (Conveys.opened (by decide) (Conveys.ofElement_any (by decide))
      (Conveys.rest (intOctets v)) fun c hc hok _ => ?_) (by simp)
    cases hc
    refine ⟨⟨_, rfl⟩, fun _ _ _ rest _ => ⟨_, ?_, rfl⟩⟩
    simp only [if_true, checkASN1Integer_intOctets, length_intOctets_le h0 h1, decide_true,
      Bool.and_self, intValue_intOctets]
    rfl
  · obtain ⟨c, rfl, hstrip, -⟩ := hraw.eq_element
    have hmarshal : marshal { encryptedKey := some (element tagSequence c) } =
        addASN1 (contextConstructed 4) (.ok c) := by
      simp only [marshal, EncryptedKey.envelopedInner, hstrip]
    rw [hmarshal]
    refine Conveys.heads (H := [some (contextConstructed 4)])
      (Conveys.opened (by decide) (Conveys.ofElement_any (by decide))
      (Conveys.rest c) fun c' hc hok _ => ?_) (by simp)
    cases hc
    exact ⟨⟨_, rfl⟩, fun _ _ _ rest _ => ⟨_, rfl, rfl⟩⟩

namespace ProofOfPossession

/-- Exactly one of the four proofs. -/
def Wf (p : ProofOfPossession) : Prop :=
  p = { raVerified := true } ∨ (∃ k, p = { signature := some k } ∧ k.Wf) ∨
  (∃ k, p = { keyEncipherment := some k } ∧ k.Wf) ∨ ∃ k, p = { keyAgreement := some k } ∧ k.Wf

/-- What a proof is read as: the name in the input of a signature keeps its encoding, the rest
is the same. -/
structure ReadAs (p p' : ProofOfPossession) : Prop where
  raVerified : p'.raVerified = p.raVerified
  signature : Option.Rel PopoSigningKey.ReadAs p.signature p'.signature
  keyEncipherment : p'.keyEncipherment = p.keyEncipherment
  keyAgreement : p'.keyAgreement = p.keyAgreement

/-- **A proof of possession** is read back. -/
lemma conveys {p : ProofOfPossession} (h : p.Wf) :
    Conveys (2 ^ 31) [some (context 0), some (contextConstructed 1), some (contextConstructed 2),
      some (contextConstructed 3)] F p.marshal unmarshal p.ReadAs := by
  obtain rfl | ⟨k, rfl, hk⟩ | ⟨k, rfl, hk⟩ | ⟨k, rfl, hk⟩ := h
  · have hread : ReadAs { raVerified := true } { raVerified := true } := ⟨rfl, .none, rfl, rfl⟩
    refine Conveys.heads (H := [some (context 0)])
      (Conveys.opened (by decide) (Conveys.ofElement_any (by decide)) (Conveys.rest [])
      fun c hc _ _ => ⟨⟨_, hread⟩, fun _ _ _ rest _ => ⟨_, rfl, hread⟩⟩) (by simp)
  · refine Conveys.heads (H := [some (contextConstructed 1)])
      (Conveys.opened (by decide) (Conveys.ofElement_any (by decide))
      (PopoSigningKey.conveysInner hk) fun c hc _ ⟨k', hk'⟩ => ?_) (by simp)
    have hread : ∀ k', k.ReadAs k' → ReadAs { signature := some k } { signature := some k' } :=
      fun k' hk' => ⟨rfl, .some hk', rfl, rfl⟩
    exact ⟨⟨_, hread k' hk'⟩, fun k' hk' hok rest _ => ⟨_, Reader.bind_ok.mpr
      ⟨k', rest, Reader.within_eq_ok hok rest, rfl⟩, hread k' hk'⟩⟩
  · refine Conveys.heads (H := [some (contextConstructed 2)])
      (Conveys.opened (by decide) (Conveys.ofElement_any (by decide))
      (PopoPrivKey.conveys hk) fun c hc _ _ => ?_) (by simp)
    have hread : ReadAs { keyEncipherment := some k } { keyEncipherment := some k } :=
      ⟨rfl, .none, rfl, rfl⟩
    refine ⟨⟨_, hread⟩, ?_⟩
    rintro _ rfl hok rest -
    exact ⟨_, Reader.bind_ok.mpr ⟨_, rest, Reader.within_eq_ok hok rest, rfl⟩, hread⟩
  · refine Conveys.heads (H := [some (contextConstructed 3)])
      (Conveys.opened (by decide) (Conveys.ofElement_any (by decide))
      (PopoPrivKey.conveys hk) fun c hc _ _ => ?_) (by simp)
    have hread : ReadAs { keyAgreement := some k } { keyAgreement := some k } :=
      ⟨rfl, .none, rfl, rfl⟩
    refine ⟨⟨_, hread⟩, ?_⟩
    rintro _ rfl hok rest -
    exact ⟨_, Reader.bind_ok.mpr ⟨_, rest, Reader.within_eq_ok hok rest, rfl⟩, hread⟩

end ProofOfPossession

/-! ### Certificate requests -/

/-- A number of 64 bits. -/
def IsInt64 (v : ℤ) : Prop := -2 ^ 63 ≤ v ∧ v < 2 ^ 63

namespace CertRequest

/-- A request whose parts can all be written. -/
structure Wf (r : CertRequest) : Prop where
  certReqID : IsInt64 r.certReqID
  certTemplate : r.certTemplate.Wf
  controls : ∀ c ∈ r.controls, c.Wf

/-- A request is read with the octets it was written as. -/
def ReadAs (r r' : CertRequest) : Prop := r' = { r with raw := r'.raw } ∧ r.marshal = .ok r'.raw

/-- Controls that are there are not empty. -/
lemma controls_ne_nil {cs : List Control} {b : Bytes} (hcs : cs ≠ [])
    (h : concat (cs.map Control.marshal) = .ok b) : b ≠ [] := by
  obtain ⟨c, cs, rfl⟩ := List.exists_cons_of_ne_nil hcs
  obtain ⟨b1, b2, hc, -, rfl⟩ := concat_cons_eq_ok.mp h
  obtain ⟨-, x, -, -, rfl⟩ := addASN1_eq_ok.mp hc
  simp [element]

/-- What follows the template. -/
def readControls (id : ℤ) (t : CertTemplate) (raw : Bytes) : Reader CertRequest := do
  if ← Reader.empty then pure ⟨id, t, [], raw⟩
  else do
    let seq ← Reader.element "invalid Controls sequence" tagSequence
    if seq = [] then throw (.parse (str "invalid Controls sequence"))
    let controls ← Reader.within seq (Reader.many Control.unmarshal)
    if ← Reader.empty then pure ⟨id, t, controls, raw⟩
    else throw (.parse (str "trailing data in CertRequest"))

/-- What is read inside the element `raw`. -/
def readContent (raw : Bytes) : Reader CertRequest := do
  let id ← Reader.read "invalid certReqId" readASN1Int64
  let t ← CertTemplate.unmarshal
  readControls id t raw

/-- The optional controls after the template. -/
lemma conveys_controls {cs : List Control} (h : ∀ c ∈ cs, c.Wf) (id : ℤ) (t : CertTemplate)
    (raw : Bytes) :
    Conveys (2 ^ 31) [some tagSequence, none] [none]
      (Der.optional (cs ≠ []) (addASN1 tagSequence (concat (cs.map Control.marshal))))
      (readControls id t raw) (· = ⟨id, t, cs, raw⟩) := by
  by_cases hcs : cs = []
  · subst hcs
    exact Conveys.heads (Conveys.atEnd (Conveys.pure rfl)) (by simp)
  · have hopt : Der.optional (decide (cs ≠ []))
      (addASN1 tagSequence (concat (cs.map Control.marshal)))
        = addASN1 tagSequence (concat (cs.map Control.marshal)) := by
      rw [Der.optional, if_pos (decide_eq_true hcs)]
    rw [hopt]
    refine Conveys.heads (H := [some tagSequence]) (Conveys.notEmpty (by decide) (Conveys.content
      (by decide) (Conveys.many_eq (H := [some tagSequence]) (by decide) fun c hc =>
        Control.conveys (h c hc)) fun c hc _ => ⟨⟨_, rfl⟩, ?_⟩)) (by simp)
    rintro _ rfl hread rest hrest
    obtain rfl := List.head?_eq_none_iff.mp (List.mem_singleton.mp hrest)
    refine ⟨_, ?_, rfl⟩
    rw [if_neg (controls_ne_nil hcs hc)]
    exact Reader.bind_ok.mpr ⟨_, [], Reader.within_eq_ok hread [], rfl⟩

/-- **A request** is read back, with the octets it was written as. -/
lemma conveys {r : CertRequest} (h : r.Wf) :
    Conveys (2 ^ 31) [some tagSequence] F r.marshal unmarshal r.ReadAs := by
  have hinner : ∀ raw, Conveys (2 ^ 31) [some tagInteger] [none] (concat [addASN1Int r.certReqID,
      r.certTemplate.marshal, Der.optional (r.controls ≠ [])
        (addASN1 tagSequence (concat (r.controls.map Control.marshal)))]) (readContent raw)
      (· = { r with raw }) := by
    intro raw
    refine Conveys.cons (K := [some tagSequence]) (Conveys.int64 h.certReqID.1 h.certReqID.2) ?_
    rintro _ rfl
    refine Conveys.cons (H := [some tagSequence]) (K := [some tagSequence, none])
      (CertTemplate.conveys h.certTemplate (.inr le_rfl)) ?_
    rintro _ rfl
    exact Conveys.last (conveys_controls h.controls _ _ raw)
  refine (Conveys.kept (by decide) hinner).mono ?_
  rintro r' ⟨raw, hraw, rfl⟩
  exact ⟨rfl, hraw⟩

end CertRequest

namespace CertReqMsg

/-- A message whose request and proof can be written. -/
structure Wf (m : CertReqMsg) : Prop where
  certReq : m.certReq.Wf
  popo : ∀ p ∈ m.popo, p.Wf

/-- What a message is read as. -/
structure ReadAs (m m' : CertReqMsg) : Prop where
  certReq : m.certReq.ReadAs m'.certReq
  popo : Option.Rel ProofOfPossession.ReadAs m.popo m'.popo

lemma conveys {m : CertReqMsg} (h : m.Wf) :
    Conveys (2 ^ 31) [some tagSequence] F m.marshal unmarshal m.ReadAs := by
  obtain ⟨req, popo⟩ := m
  cases popo with
  | none =>
    refine Conveys.within (H := [some tagSequence]) (by decide)
      (Conveys.cons (K := [none]) (CertRequest.conveys h.certReq) fun req' hreq =>
        Conveys.last (Conveys.atEnd (Conveys.peek_false (by decide) (Conveys.pure ⟨hreq, .none⟩))))
  | some p =>
    refine Conveys.within (H := [some tagSequence]) (by decide)
      (Conveys.cons (K := [some (context 0), some (contextConstructed 1),
        some (contextConstructed 2), some (contextConstructed 3)])
        (CertRequest.conveys h.certReq) fun req' hreq =>
        Conveys.last (Conveys.notEmpty (by decide) (Conveys.peek_false (by decide)
          ((ProofOfPossession.conveys (h.popo p rfl)).map fun p' hp => ⟨hreq, .some hp⟩))))

end CertReqMsg

/-- **Certificate requests** are read back. -/
lemma CertReqMessages.conveys {ms : CertReqMessages} (h : ∀ m ∈ ms, m.Wf) :
    Conveys (2 ^ 31) [some tagSequence] F (CertReqMessages.marshal ms) CertReqMessages.unmarshal
      (List.Forall₂ CertReqMsg.ReadAs ms) :=
  Conveys.within (by decide) (Conveys.many (H := [some tagSequence]) (by decide) fun m hm =>
    CertReqMsg.conveys (h m hm))

/-! ### Revocation requests and polling -/

lemma OneSequence.isSingleElement {b : Bytes} (h : OneSequence b) :
    isSingleElement b tagSequence = true := by
  obtain ⟨e, he⟩ := h
  rw [PkiCmp.isSingleElement, he]
  rfl

/-- A template and optional extensions that are one SEQUENCE. -/
def RevDetails.Wf (d : RevDetails) : Prop :=
  d.certDetails.Wf ∧ (d.crlEntryDetails = [] ∨ OneSequence d.crlEntryDetails)

/-- The optional extensions at the end. -/
lemma RevDetails.unmarshal_eq : unmarshal = (do
    let seq ← Reader.element "invalid RevDetails sequence" tagSequence
    Reader.within seq do
      let t ← CertTemplate.unmarshal
      let exts ← Reader.unlessEmpty (do
        let e ← Reader.read "invalid crlEntryDetails sequence" (readASN1 tagSequence)
        pure e.raw) []
      if ← Reader.empty then pure ⟨t, exts⟩
      else throw (.parse (str "trailing data in RevDetails"))) := by
  simp only [unmarshal, Reader.unlessEmpty, bind_assoc, Reader.ite_bind, pure_bind]

lemma RevDetails.conveys {N : ℕ} [Fact (N ≤ 2 ^ 32)] {d : RevDetails} (h : d.Wf)
    (hshort : d.certDetails.subject.directoryName = [] ∨ N ≤ 2 ^ 31) :
    Conveys N [some tagSequence] F d.marshal unmarshal (· = d) := by
  obtain ⟨t, exts⟩ := d
  obtain ⟨ht, hexts⟩ := h
  have hwrite : (if exts = [] then .ok [] else if isSingleElement exts tagSequence then .ok exts
      else .error (.text (str "pkicmp: invalid crlEntryDetails DER"))) =
      Der.optional (exts ≠ []) (.ok exts : Except GoError Bytes) := by
    obtain rfl | hone := hexts
    · rfl
    · simp only [Der.optional, hone.isSingleElement, if_true, ne_eq, decide_not, Bool.not_eq_true',
        decide_eq_false_iff_not, ite_not]
  rw [RevDetails.unmarshal_eq]
  refine Conveys.within (H := [some tagSequence]) (by decide)
    (Conveys.cons (K := [some tagSequence, none]) (CertTemplate.conveys ht hshort) ?_)
  rintro _ rfl
  rw [hwrite]
  refine Conveys.cons (H := [some tagSequence, none]) (K := [none])
    (Conveys.unlessEmpty (H := [some tagSequence]) (S := (· = exts)) (by decide) ?_ ?_) ?_
  · intro h
    exact (not_not.mp (of_decide_eq_false h)).symm
  · intro h
    exact (hexts.resolve_left (of_decide_eq_true h)).conveys
  · rintro _ rfl
    exact Conveys.atEnd (Conveys.pure rfl)

/-- **Revocation requests** are read back. -/
lemma RevReqContent.conveys {N : ℕ} [Fact (N ≤ 2 ^ 32)] {ds : RevReqContent} (h : ∀ d ∈ ds, d.Wf)
    (hshort : ∀ d ∈ ds, d.certDetails.subject.directoryName = [] ∨ N ≤ 2 ^ 31) :
    Conveys N [some tagSequence] F (RevReqContent.marshal ds) RevReqContent.unmarshal (· = ds) :=
  Conveys.within (by decide) (Conveys.many_eq (H := [some tagSequence]) (by decide) fun d hd =>
    RevDetails.conveys (h d hd) (hshort d hd))

/-- **Polling requests** are read back. -/
lemma PollReqContent.conveys {ids : PollReqContent} (h : ∀ id ∈ ids, IsInt64 id) :
    Conveys (2 ^ 31) [some tagSequence] F (PollReqContent.marshal ids) PollReqContent.unmarshal
      (· = ids) :=
  Conveys.within (by decide) (Conveys.many_eq (H := [some tagSequence]) (by decide) fun id hid =>
    Conveys.within (by decide) (Conveys.int64 (h id hid).1 (h id hid).2))

end PkiCmp
