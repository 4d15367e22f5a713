/-
What is protected is what is read.

A protection is computed over the octets of the header and of the body as they arrived.
Everything decoded from a message but its protection and its certificates comes from those
octets, so messages with the same protected part say the same.

* `Enveloped`: how a message lies in its octets, and `parsePKIMessage_eq_ok`;
* `wire_of_parsed`: the protected part and the protection that the octets show;
* `read_of_protectedPart`: header and body are functions of the protected part.
-/
import PkiCmp.Message

namespace PkiCmp

open Der

/-! ### Parsed messages -/

/-- The fields of a message in the content of its SEQUENCE: a header element, a body
element, and the two optional fields after them. -/
structure Enveloped (s : Bytes) (m : PKIMessage) (hd bd : Element) (tail tail' : Bytes) : Prop where
  header : readAnyASN1 s = some (hd, bd.raw ++ tail)
  body : readAnyASN1 (bd.raw ++ tail) = some (bd, tail)
  rawHeader : m.rawHeader = hd.raw
  rawBody : m.rawBody = bd.raw
  decodedHeader : ∃ left, PKIHeader.unmarshal hd.raw = .ok (m.header, left)
  decodedBody : unmarshalBody bd = .ok m.body
  protection : unmarshalProtection tail = .ok (m.protection, tail')
  extraCerts : unmarshalExtraCerts tail' = .ok (m.extraCerts, [])

variable {m : PKIMessage}

lemma unmarshalMessage_eq_ok {s s' : Bytes} (h : unmarshalMessage s = .ok (m, s')) :
    ∃ hd bd tail tail', Enveloped s m hd bd tail tail' := by
  simp only [unmarshalMessage, Reader.bind_ok] at h
  obtain ⟨hd, s1, h1, hdr, s2, h2, bd, s3, h3, body, s4, h4, prot, s5, h5, ecs, s6, h6, e, s7, h7,
    h8⟩ := h
  obtain ⟨rfl, left, hhdr⟩ := Reader.within_ok h2
  have hbody : unmarshalBody bd = .ok body ∧ s4 = s3 := by
    cases hb : unmarshalBody bd <;> rw [hb] at h4 <;> cases h4
    exact ⟨rfl, rfl⟩
  obtain ⟨hbody, rfl⟩ := hbody
  cases h7
  cases hempty : s6.isEmpty <;> rw [hempty] at h8 <;> cases h8
  have hb := Reader.read_ok.mp h3
  obtain rfl := readAnyASN1_append hb
  obtain rfl := List.isEmpty_iff.mp hempty
  exact ⟨hd, bd, s4, s5,
    { header := Reader.read_ok.mp h1, body := hb, rawHeader := rfl, rawBody := rfl
      decodedHeader := ⟨left, hhdr⟩, decodedBody := hbody, protection := h5, extraCerts := h6 }⟩

/-- A message that was accepted lies in its octets, and nothing follows it. -/
lemma parsePKIMessage_eq_ok {der : Bytes} (h : parsePKIMessage der = .ok m) :
    ∃ s hd bd tail tail', der = element tagSequence s ∧ der.length < 2 ^ 32 ∧
      Enveloped s m hd bd tail tail' := by
  unfold parsePKIMessage at h
  split at h
  · cases h
  · next e rest he =>
    obtain ⟨⟨m', s'⟩, hm, h⟩ := Except.bind_eq_ok.mp h
    simp only at h
    split_ifs at h with hrest <;> cases h
    obtain ⟨hd, bd, tail, tail', henv⟩ := unmarshalMessage_eq_ok hm
    obtain ⟨hread, htag⟩ := readASN1_eq_some_iff.mp he
    obtain ⟨-, hraw, hlen, rfl⟩ := readAnyASN1_eq_some_iff.mp hread
    obtain rfl := List.isEmpty_iff.mp hrest
    rw [htag] at hraw
    rw [List.append_nil]
    exact ⟨e.content, hd, bd, tail, tail', hraw, hlen, henv⟩

/-- The fields in their places are what is read. -/
lemma Enveloped.unmarshalMessage {s : Bytes} {hd bd : Element} {tail tail' : Bytes}
    (h : Enveloped s m hd bd tail tail') :
    unmarshalMessage s = .ok (m, []) := by
  obtain ⟨left, hheader⟩ := h.decodedHeader
  have hbody : (liftM (unmarshalBody bd) : Reader PKIBody) tail = .ok (m.body, tail) := by
    rw [h.decodedBody]
    rfl
  obtain ⟨header, body, protection, extraCerts, rawHeader, rawBody⟩ := m
  obtain rfl : rawHeader = hd.raw := h.rawHeader
  obtain rfl : rawBody = bd.raw := h.rawBody
  simp only [PkiCmp.unmarshalMessage, Reader.bind_ok]
  exact ⟨hd, _, Reader.read_ok.mpr h.header, header, _,
    by simp only [Reader.within, StateT.run, hheader], bd, tail, Reader.read_ok.mpr h.body, body,
      tail,
    hbody, protection, tail', h.protection, extraCerts, [], h.extraCerts, true, [], rfl, rfl⟩

/-- A message in its octets is accepted. -/
lemma Enveloped.parsePKIMessage {s : Bytes} {hd bd : Element} {tail tail' : Bytes}
    (h : Enveloped s m hd bd tail tail') (hlen : (element tagSequence s).length < 2 ^ 32) :
    parsePKIMessage (element tagSequence s) = .ok m := by
  have hread := readAnyASN1_element [] (by decide : isHighTag tagSequence = false) hlen
  rw [List.append_nil] at hread
  have he := readASN1_eq_some_iff.mpr ⟨hread, rfl⟩
  simp only [PkiCmp.parsePKIMessage, he, StateT.run, h.unmarshalMessage, bind, Except.bind,
    List.isEmpty_nil, if_true]

/-! ### The protected part -/

/-- The protected part of a message that was accepted is there: its elements fit. -/
lemma protectedPart_of_parsed {der : Bytes} (h : parsePKIMessage der = .ok m) :
    m.protectedPart = .ok (element tagSequence (m.rawHeader ++ m.rawBody)) ∧
      (element tagSequence (m.rawHeader ++ m.rawBody)).length < 2 ^ 32 := by
  obtain ⟨s, hd, bd, tail, tail', rfl, hlen, henv⟩ := parsePKIMessage_eq_ok h
  obtain ⟨-, hhd, -, hs⟩ := readAnyASN1_eq_some_iff.mp henv.header
  obtain ⟨-, hbd, -, -⟩ := readAnyASN1_eq_some_iff.mp henv.body
  rw [henv.rawHeader, henv.rawBody]
  have hle : (hd.raw ++ bd.raw).length ≤ s.length := by
    rw [hs]
    simp only [List.length_append]
    omega
  have hpart : (element tagSequence (hd.raw ++ bd.raw)).length < 2 ^ 32 :=
    lt_of_le_of_lt (length_element_mono hle) hlen
  refine ⟨?_, hpart⟩
  have hne : ¬ (m.rawHeader = [] ∨ m.rawBody = []) := by
    rw [henv.rawHeader, henv.rawBody, hhd, hbd]
    simp [element]
  rw [PKIMessage.protectedPart, if_neg hne, henv.rawHeader, henv.rawBody]
  rw [length_element] at hpart
  exact addASN1_eq_ok.mpr ⟨by decide, _, rfl, by omega, rfl⟩

/-- A protection that was decoded is there on the wire. -/
lemma unmarshalProtection_eq_ok {s s' p : Bytes} (h : unmarshalProtection s = .ok (p, s'))
    (hp : p ≠ []) :
    ∃ field bits rest rest' unused, readASN1 (contextConstructed 0) s = some (field, rest) ∧
      readASN1 tagBitString field.content = some (bits, rest') ∧ bits.content = unused :: p := by
  simp only [unmarshalProtection, Reader.bind_ok] at h
  obtain ⟨peeked, s1, h1, h⟩ := h
  cases h1
  split at h
  · simp only [Reader.bind_ok] at h
    obtain ⟨sub, s2, h2, bits, s3, h3, h⟩ := h
    obtain ⟨field, hf, rfl⟩ := Reader.element_ok h2
    obtain ⟨-, rest, hb⟩ := Reader.within_ok h3
    obtain ⟨e, he, rfl⟩ := Reader.element_ok hb
    cases hc : e.content with
    | nil => rw [hc] at h; cases h
    | cons unused q =>
      rw [hc] at h
      cases h
      exact ⟨field, e, s2, rest, unused, hf, he, hc⟩
  · cases h
    exact absurd rfl hp

/-- **The wire and the parser agree** on what is protected, and on the protection. -/
lemma wire_of_parsed {der : Bytes} (h : parsePKIMessage der = .ok m) :
    (∃ part, m.protectedPart = .ok part ∧ wireProtectedPart der = some part) ∧
      (m.protection ≠ [] → wireProtection der = some m.protection) := by
  have hpart := (protectedPart_of_parsed h).1
  obtain ⟨s, hd, bd, tail, tail', rfl, hlen, henv⟩ := parsePKIMessage_eq_ok h
  have hmsg := readAnyASN1_element [] (by decide : isHighTag tagSequence = false) hlen
  rw [List.append_nil] at hmsg
  have hw : wireElements (element tagSequence s) = some (hd, bd, tail) := by
    simp [wireElements, readASN1, hmsg, henv.header, henv.body]
  refine ⟨⟨_, hpart, ?_⟩, fun hne => ?_⟩
  · simp [wireProtectedPart, hw, henv.rawHeader, henv.rawBody]
  · obtain ⟨field, bits, _, _, unused, hf, hbits, hc⟩ :=
      unmarshalProtection_eq_ok henv.protection hne
    simp [wireProtection, hw, hf, hbits, hc]

/-- **What is protected is what is read.**  Two messages that are accepted and have the same
protected part have the same decoded header and the same body, hence the same body type and
the same result of every accessor. -/
theorem read_of_protectedPart {d1 d2 : Bytes} {m1 m2 : PKIMessage}
    (h1 : parsePKIMessage d1 = .ok m1) (h2 : parsePKIMessage d2 = .ok m2)
    (h : m1.protectedPart = m2.protectedPart) : m1.header = m2.header ∧ m1.body = m2.body := by
  obtain ⟨hp1, hlen⟩ := protectedPart_of_parsed h1
  obtain ⟨hp2, -⟩ := protectedPart_of_parsed h2
  rw [hp1, hp2] at h
  have hcontent := (element_inj (Except.ok.inj h)).2
  obtain ⟨s1, hd1, bd1, tail1, tail1', -, -, henv1⟩ := parsePKIMessage_eq_ok h1
  obtain ⟨s2, hd2, bd2, tail2, tail2', -, -, henv2⟩ := parsePKIMessage_eq_ok h2
  rw [henv1.rawHeader, henv1.rawBody, henv2.rawHeader, henv2.rawBody] at hcontent
  -- one reader takes both headers off the same octets, and then both bodies
  have hhd := readAnyASN1_raw henv1.header bd1.raw
  rw [hcontent, readAnyASN1_raw henv2.header] at hhd
  obtain ⟨rfl, hbd⟩ := Prod.mk.inj (Option.some.inj hhd)
  have hbody := readAnyASN1_raw henv1.body []
  rw [← hbd, readAnyASN1_raw henv2.body] at hbody
  obtain ⟨rfl, -⟩ := Prod.mk.inj (Option.some.inj hbody)
  obtain ⟨left1, hheader1⟩ := henv1.decodedHeader
  obtain ⟨left2, hheader2⟩ := henv2.decodedHeader
  exact ⟨(Prod.mk.inj (Except.ok.inj (hheader1.symm.trans hheader2))).1,
    Except.ok.inj (henv1.decodedBody.symm.trans henv2.decodedBody)⟩

/-- The octets of a confirmation between NULL-DNs, with what follows its body. -/
def sampleConfirmationDER (trailer : Bytes) : Bytes :=
  element tagSequence ([0x30, 0x0b, 0x02, 0x01, 0x02, 0xa4, 0x02, 0x30, 0x00, 0xa4, 0x02, 0x30,
    0x00, 0xb3, 0x02, 0x05, 0x00] ++ trailer)

/-- A message with a protection and one without it are read alike. -/
theorem read_of_protectedPart_trailer :
    ∃ m1 m2, parsePKIMessage (sampleConfirmationDER []) = .ok m1 ∧
      parsePKIMessage (sampleConfirmationDER [0xa0, 0x04, 0x03, 0x02, 0x00, 0x01]) = .ok m2 ∧
      m1.protection ≠ m2.protection ∧ m1.header = m2.header ∧ m1.body = m2.body := by
  have hparsed : (match parsePKIMessage (sampleConfirmationDER []),
      parsePKIMessage (sampleConfirmationDER [0xa0, 0x04, 0x03, 0x02, 0x00, 0x01]) with
    | .ok m1, .ok m2 => decide (m1.protectedPart.toOption = m2.protectedPart.toOption) &&
        decide (m1.protection ≠ m2.protection)
    | _, _ => false) = true := by decide +kernel
  split at hparsed
  · next m1 m2 h1 h2 =>
    obtain ⟨hpart, hprotection⟩ := Bool.and_eq_true_iff.mp hparsed
    have hpart' : m1.protectedPart = m2.protectedPart := by
      have hpart := of_decide_eq_true hpart
      rw [(protectedPart_of_parsed h1).1, (protectedPart_of_parsed h2).1] at hpart ⊢
      exact congrArg Except.ok (Option.some.inj hpart)
    exact ⟨m1, m2, h1, h2, of_decide_eq_true hprotection, read_of_protectedPart h1 h2 hpart'⟩
  · cases hparsed

end PkiCmp
