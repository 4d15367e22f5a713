/-
Which headers are read to their end.

`PKIHeader.unmarshal` looks for each optional field in turn and leaves what it does not find: the
rest of the header, and the rest of every wrapper.

* `PKIHeader.Grammatical`: a header in the octets of its fields, each in its place, and nothing
  else;
* `PKIHeader.unread`: what the decoder leaves, place by place;
* `header_grammatical_iff`: **an accepted message has a grammatical header** exactly when nothing
  is left in any of the places.
-/
import PkiCmp.Codec.Messages

namespace PkiCmp

open Der

/-! ### What is left -/

/-- What a decoder leaves of its input, when it accepts it. -/
def Reader.left {α : Type} (r : Reader α) (s : Bytes) : Bytes :=
  match r s with
  | .ok (_, s') => s'
  | .error _ => []

lemma Reader.left_eq {α : Type} {r : Reader α} {s s' : Bytes} {a : α} (h : r s = .ok (a, s')) :
    r.left s = s' := by
  rw [Reader.left, h]

/-- What is left inside the first element, when it has this tag. -/
def leftIn (tag : UInt8) (left : Bytes → Bytes) (s : Bytes) : Bytes :=
  match readASN1 tag s with
  | some (e, _) => left e.content
  | none => []

/-- What follows the first element when it has this tag; else it is still there. -/
def after (tag : UInt8) (s : Bytes) : Bytes :=
  match readASN1 tag s with
  | some (_, s') => s'
  | none => s

/-- What follows the first element. -/
def afterAny (s : Bytes) : Bytes :=
  match readAnyASN1 s with
  | some (_, s') => s'
  | none => s

lemma leftIn_eq {tag : UInt8} {left : Bytes → Bytes} {s s' : Bytes} {e : Element}
    (h : readASN1 tag s = some (e, s')) : leftIn tag left s = left e.content := by
  rw [leftIn, h]

lemma after_eq {tag : UInt8} {s s' : Bytes} {e : Element} (h : readASN1 tag s = some (e, s')) :
    after tag s = s' := by
  rw [after, h]

lemma afterAny_raw {s s' : Bytes} {e : Element} (h : readAnyASN1 s = some (e, s')) (b : Bytes) :
    afterAny (e.raw ++ b) = b := by
  rw [afterAny, readAnyASN1_raw h b]

lemma readASN1_eq_none {tag : UInt8} {s : Bytes} (h : peekASN1Tag tag s = false) :
    readASN1 tag s = none := by
  refine Option.eq_none_iff_forall_ne_some.mpr ?_
  rintro ⟨e, s'⟩ he
  obtain ⟨hany, rfl⟩ := readASN1_eq_some_iff.mp he
  obtain ⟨-, hraw, -, happ⟩ := readAnyASN1_eq_some_iff.mp hany
  rw [happ, hraw] at h
  simp [element, peekASN1Tag] at h

namespace PKIHeader

variable {α : Type}

/-- The value of the fields that are octet strings. -/
def octetsValue (name : String) : Reader Bytes := Reader.element ("invalid " ++ name) tagOctetString

/-- The value of generalInfo. -/
def infoValue : Reader (List InfoTypeAndValue) := do
  let gi ← Reader.element "invalid generalInfo sequence" tagSequence
  Reader.within gi (Reader.many InfoTypeAndValue.unmarshal)

/-- **What the decoder leaves of the content of a header**, place by place. -/
def unread (content : Bytes) : List Bytes :=
  let sender := afterAny content
  let recipient := afterAny sender
  let messageTime := afterAny recipient
  let protectionAlg := after (contextConstructed 0) messageTime
  let senderKID := after (contextConstructed 1) protectionAlg
  let recipKID := after (contextConstructed 2) senderKID
  let transactionID := after (contextConstructed 3) recipKID
  let senderNonce := after (contextConstructed 4) transactionID
  let recipNonce := after (contextConstructed 5) senderNonce
  let freeText := after (contextConstructed 6) recipNonce
  let generalInfo := after (contextConstructed 7) freeText
  -- a directoryName is in a wrapper of its own
  [leftIn (contextConstructed 4) parseRDNSequence.left sender,
    leftIn (contextConstructed 4) parseRDNSequence.left recipient,
    leftIn (contextConstructed 0)
      (Reader.read "invalid messageTime" readASN1GeneralizedTime).left messageTime,
    leftIn (contextConstructed 1) AlgorithmIdentifier.unmarshal.left protectionAlg,
    -- after the parameters
    leftIn (contextConstructed 1) (leftIn tagSequence AlgorithmIdentifier.unmarshalInner.left)
      protectionAlg,
    leftIn (contextConstructed 2) (octetsValue "senderKID").left senderKID,
    leftIn (contextConstructed 3) (octetsValue "recipKID").left recipKID,
    leftIn (contextConstructed 4) (octetsValue "transactionID").left transactionID,
    leftIn (contextConstructed 5) (octetsValue "senderNonce").left senderNonce,
    leftIn (contextConstructed 6) (octetsValue "recipNonce").left recipNonce,
    leftIn (contextConstructed 7) PKIFreeText.unmarshal.left freeText,
    leftIn (contextConstructed 8) infoValue.left generalInfo,
    -- after the last field
    after (contextConstructed 8) generalInfo]

/-! ### The grammar -/

/-- Octets that a decoder reads to their end. -/
def Spells (r : Reader α) (v : Bytes) (a : α) : Prop := r v = .ok (a, [])

/-- A value that is there. -/
def Given (value : Bytes → α → Prop) (v : Bytes) (o : Option α) : Prop :=
  ∃ a, o = some a ∧ value v a

/-- An identifier, its parameters, and nothing else. -/
def SpellsAlgorithm (v : Bytes) (a : AlgorithmIdentifier) : Prop :=
  Spells AlgorithmIdentifier.unmarshal v a ∧ ∃ seq, v = element tagSequence seq ∧
    Spells AlgorithmIdentifier.unmarshalInner seq a

/-- The octets of a name: a directoryName is one Name, and nothing else. -/
def SpellsName (g : GeneralName) : Prop :=
  Spells GeneralName.unmarshal g.raw g ∧
    ∀ v, g.raw = element (contextConstructed 4) v → Spells parseRDNSequence v g.directoryName

/-- The octets of an optional field: none for the default, or one wrapper around the octets of
the value. -/
inductive InField (n : UInt8) (value : Bytes → α → Prop) (default : α) : α → Bytes → Prop
  | absent : InField n value default default []
  | present {a : α} {v : Bytes} (h : value v a) :
      InField n value default a (element (contextConstructed n) v)

/-- The octets of the fields of a header, but for the names. -/
structure Parts where
  pvno : Bytes
  messageTime : Bytes
  protectionAlg : Bytes
  senderKID : Bytes
  recipKID : Bytes
  transactionID : Bytes
  senderNonce : Bytes
  recipNonce : Bytes
  freeText : Bytes
  generalInfo : Bytes

/-- The fields in the order of the grammar. -/
def Parts.octets (p : Parts) (sender recipient : GeneralName) : Bytes :=
  p.pvno ++ (sender.raw ++ (recipient.raw ++ (p.messageTime ++ (p.protectionAlg ++ (p.senderKID ++
    (p.recipKID ++ (p.transactionID ++ (p.senderNonce ++ (p.recipNonce ++ (p.freeText ++
      (p.generalInfo ++ [])))))))))))

/-- Every field of the header is what its octets are read as. -/
structure Parts.Represented (p : Parts) (h : PKIHeader) : Prop where
  pvno : readASN1Int64 p.pvno = some (h.pvno, [])
  sender : SpellsName h.sender
  recipient : SpellsName h.recipient
  messageTime : ∃ t, InField 0
    (Given (Spells (Reader.read "invalid messageTime" readASN1GeneralizedTime))) none t
      p.messageTime ∧ h.messageTime = t.getD 0 ∧ h.messageTimePresent = t.isSome
  protectionAlg : InField 1 (Given SpellsAlgorithm) none h.protectionAlg p.protectionAlg
  senderKID : InField 2 (Spells (octetsValue "senderKID")) [] h.senderKID p.senderKID
  recipKID : InField 3 (Spells (octetsValue "recipKID")) [] h.recipKID p.recipKID
  transactionID :
    InField 4 (Spells (octetsValue "transactionID")) [] h.transactionID p.transactionID
  senderNonce : InField 5 (Spells (octetsValue "senderNonce")) [] h.senderNonce p.senderNonce
  recipNonce : InField 6 (Spells (octetsValue "recipNonce")) [] h.recipNonce p.recipNonce
  freeText : InField 7 (Spells PKIFreeText.unmarshal) [] h.freeText p.freeText
  generalInfo : InField 8 (Spells infoValue) [] h.generalInfo p.generalInfo

/-- **A header in the octets of its fields**, each in its place, and nothing else. -/
def Grammatical (content : Bytes) (h : PKIHeader) : Prop :=
  ∃ p : Parts, content = p.octets h.sender h.recipient ∧ p.Represented h

/-! ### What is read is in its place -/

/-- A wrapper and the value inside, which may leave something. -/
lemma wrapper_ok {d : String} {tag : UInt8} {r : Reader α} {s s' : Bytes} {a : α}
    (h : (do let sub ← Reader.element d tag; Reader.within sub r) s = .ok (a, s')) :
    ∃ e left, readASN1 tag s = some (e, s') ∧ r e.content = .ok (a, left) ∧
      s = element tag e.content ++ s' := by
  obtain ⟨sub, s1, hsub, h⟩ := Reader.bind_ok.mp h
  obtain ⟨e, he, rfl⟩ := Reader.element_ok hsub
  obtain ⟨rfl, left, ha⟩ := Reader.within_ok h
  obtain ⟨hany, htag⟩ := readASN1_eq_some_iff.mp he
  obtain ⟨-, hraw, -, happ⟩ := readAnyASN1_eq_some_iff.mp hany
  refine ⟨e, left, he, ha, ?_⟩
  rw [← htag, ← hraw]
  exact happ

/-- An optional part is read, or its tag is not there. -/
lemma optional_ok {tag : UInt8} {q : Reader α} {default a : α} {s s' : Bytes}
    (h : Reader.optional tag q default s = .ok (a, s')) :
    q s = .ok (a, s') ∨ readASN1 tag s = none ∧ a = default ∧ s' = s := by
  obtain ⟨found, s1, hpeek, h⟩ := Reader.bind_ok.mp h
  cases hpeek
  split_ifs at h with hfound
  · exact .inl h
  · cases h
    exact .inr ⟨readASN1_eq_none (Bool.eq_false_iff.mpr hfound), rfl, rfl⟩

variable {n : UInt8}

/-- **An optional field** is in its place when its wrapper holds the value only. -/
lemma field_ok {d : String} {r : Reader α} {default a : α} {s s' : Bytes}
    (h : Reader.optional (contextConstructed n)
      (do let sub ← Reader.element d (contextConstructed n); Reader.within sub r) default s =
        .ok (a, s')) :
    after (contextConstructed n) s = s' ∧ (leftIn (contextConstructed n) r.left s = [] →
      ∃ f, InField n (Spells r) default a f ∧ s = f ++ s') := by
  obtain hread | ⟨hnone, rfl, rfl⟩ := optional_ok h
  · obtain ⟨e, left, he, ha, hs⟩ := wrapper_ok hread
    refine ⟨after_eq he, fun hleft => ?_⟩
    rw [leftIn_eq he, Reader.left_eq ha] at hleft
    subst hleft
    exact ⟨_, .present ha, hs⟩
  · refine ⟨?_, fun _ => ⟨[], .absent, rfl⟩⟩
    rw [after, hnone]

/-- The same for the fields whose absence is recorded. -/
lemma explicit_ok (value : Bytes → α → Prop) (left : Bytes → Bytes) {d : String} {r : Reader α}
    {o : Option α} {s s' : Bytes}
    (h : Reader.explicit d (contextConstructed n) r s = .ok (o, s'))
    (hvalue : ∀ v a rest, r v = .ok (a, rest) → left v = [] → value v a) :
    after (contextConstructed n) s = s' ∧ (leftIn (contextConstructed n) left s = [] →
      ∃ f, InField n (Given value) none o f ∧ s = f ++ s') := by
  obtain hread | ⟨hnone, rfl, rfl⟩ := optional_ok h
  · obtain ⟨a, s1, hread, hret⟩ := Reader.bind_ok.mp hread
    cases hret
    obtain ⟨e, rest, he, ha, hs⟩ := wrapper_ok hread
    refine ⟨after_eq he, fun hleft => ?_⟩
    rw [leftIn_eq he] at hleft
    exact ⟨_, .present ⟨a, rfl, hvalue _ _ _ ha hleft⟩, hs⟩
  · refine ⟨?_, fun _ => ⟨[], .absent, rfl⟩⟩
    rw [after, hnone]

/-- An algorithm is spelled when nothing is left after it nor inside. -/
lemma spellsAlgorithm {v rest : Bytes} {a : AlgorithmIdentifier}
    (h : AlgorithmIdentifier.unmarshal v = .ok (a, rest))
    (hleft : AlgorithmIdentifier.unmarshal.left v ++
      leftIn tagSequence AlgorithmIdentifier.unmarshalInner.left v = []) :
    SpellsAlgorithm v a := by
  obtain ⟨hrest, hinner⟩ := List.append_eq_nil_iff.mp hleft
  rw [Reader.left_eq h] at hrest
  subst hrest
  obtain ⟨e, left, he, ha, hs⟩ := wrapper_ok h
  rw [leftIn_eq he, Reader.left_eq ha] at hinner
  subst hinner
  rw [List.append_nil] at hs
  exact ⟨h, e.content, hs, ha⟩

lemma spells_of_left {r : Reader α} {v rest : Bytes} {a : α} (h : r v = .ok (a, rest))
    (hleft : r.left v = []) : Spells r v a := by
  rw [Reader.left_eq h] at hleft
  subst hleft
  exact h

lemma leftIn_append {tag : UInt8} {l l' : Bytes → Bytes} {s : Bytes} (h : leftIn tag l s = [])
    (h' : leftIn tag l' s = []) : leftIn tag (fun v => l v ++ l' v) s = [] := by
  cases hread : readASN1 tag s with
  | none => rw [leftIn, hread]
  | some x =>
    rw [leftIn_eq hread] at h h' ⊢
    exact List.append_eq_nil_iff.mpr ⟨h, h'⟩

/-- A name lies in its octets, and a directoryName is in its place when its wrapper holds the
Name only. -/
lemma name_ok {s s' : Bytes} {g : GeneralName} (h : GeneralName.unmarshal s = .ok (g, s')) :
    s = g.raw ++ s' ∧ afterAny s = s' ∧
      (leftIn (contextConstructed 4) parseRDNSequence.left s = [] → SpellsName g) := by
  obtain ⟨e, he, hraw, hread⟩ := GeneralName.unmarshal_eq_ok h
  have hself := hread []
  rw [List.append_nil, ← hraw] at hself
  refine ⟨hraw ▸ readAnyASN1_append he, ?_, fun hleft => ⟨hself, fun v hv => ?_⟩⟩
  · rw [afterAny, he]
  · obtain ⟨-, helem, -, -⟩ := readAnyASN1_eq_some_iff.mp he
    obtain ⟨htag, hcontent⟩ := element_inj (helem.symm.trans (hraw.symm.trans hv))
    rw [leftIn_eq (readASN1_eq_some_iff.mpr ⟨he, htag⟩), hcontent] at hleft
    obtain ⟨e', s1, he', hbody⟩ := Reader.bind_ok.mp h
    obtain ⟨rfl, rfl⟩ := Prod.mk.inj (Option.some.inj (he.symm.trans (Reader.read_ok.mp he')))
    rw [if_pos htag] at hbody
    obtain ⟨rdns, s2, hparse, hret⟩ := Reader.bind_ok.mp hbody
    cases hret
    obtain ⟨-, left, hparse⟩ := Reader.within_ok hparse
    rw [hcontent] at hparse
    rw [Reader.left_eq hparse] at hleft
    subst hleft
    exact hparse

/-- A version lies in its octets, and is read off them whatever follows. -/
lemma split_int {s s' : Bytes} {v : ℤ} (h : readASN1Int64 s = some (v, s')) :
    ∃ f, s = f ++ s' ∧ ∀ rest, readASN1Int64 (f ++ rest) = some (v, rest) ∧
      afterAny (f ++ rest) = rest := by
  unfold readASN1Int64 at h
  split at h
  · next e rest he =>
    split_ifs at h with hc
    · cases h
      obtain ⟨hany, htag⟩ := readASN1_eq_some_iff.mp he
      refine ⟨e.raw, readAnyASN1_append hany, fun rest => ⟨?_, afterAny_raw hany rest⟩⟩
      have hagain : readASN1 tagInteger (e.raw ++ rest) = some (e, rest) :=
        readASN1_eq_some_iff.mpr ⟨readAnyASN1_raw hany rest, htag⟩
      simp only [readASN1Int64, hagain, hc, if_true]
  · cases h

/-- **What was read lies where the grammar has it** when nothing is left. -/
lemma grammatical_of_read {c s : Bytes} {h : PKIHeader}
    (hread : (do
      let pvno ← Reader.read "invalid pvno" readASN1Int64
      let sender ← wrapField "sender" GeneralName.unmarshal
      let recipient ← wrapField "recipient" GeneralName.unmarshal
      readFields pvno sender recipient) c = .ok (h, s))
    (hnone : ∀ rest ∈ unread c, rest = []) : Grammatical c h := by
  simp only [readFields, Reader.bind_ok] at hread
  obtain ⟨pvno, s1, r1, sender, s2, r2, recipient, s3, r3, time, s4, r4, alg, s5, r5, kid, s6, r6,
    rkid, s7, r7, txn, s8, r8, snonce, s9, r9, rnonce, s10, r10, text, s11, r11, info, s12, r12,
    hret⟩ := hread
  cases hret
  obtain ⟨version, rfl, hpvno⟩ := split_int (Reader.read_ok.mp r1)
  obtain ⟨hversion, -⟩ := hpvno []
  rw [List.append_nil] at hversion
  simp only [unread, (hpvno _).2, List.forall_mem_cons] at hnone
  obtain ⟨rfl, hs2, hsender⟩ := name_ok (wrapField_ok.mp r2)
  rw [hs2] at hnone
  obtain ⟨rfl, hs3, hrecipient⟩ := name_ok (wrapField_ok.mp r3)
  rw [hs3] at hnone
  obtain ⟨hs4, time_field⟩ := explicit_ok (Spells _) (Reader.left _) r4 fun v a rest ha hleft =>
    spells_of_left ha hleft
  obtain ⟨hs5, alg_field⟩ := explicit_ok SpellsAlgorithm _ r5 fun v a rest ha hleft =>
    spellsAlgorithm ha hleft
  obtain ⟨hs6, kid_field⟩ := field_ok r6
  obtain ⟨hs7, rkid_field⟩ := field_ok r7
  obtain ⟨hs8, txn_field⟩ := field_ok r8
  obtain ⟨hs9, snonce_field⟩ := field_ok r9
  obtain ⟨hs10, rnonce_field⟩ := field_ok r10
  obtain ⟨hs11, text_field⟩ := field_ok r11
  obtain ⟨hs12, info_field⟩ := field_ok r12
  rw [hs4, hs5, hs6, hs7, hs8, hs9, hs10, hs11, hs12] at hnone
  obtain ⟨n1, n2, n3, n4, n5, n6, n7, n8, n9, n10, n11, n12, rfl, -⟩ := hnone
  obtain ⟨f0, htime, rfl⟩ := time_field n3
  obtain ⟨f1, halg, rfl⟩ := alg_field (leftIn_append n4 n5)
  obtain ⟨f2, hkid, rfl⟩ := kid_field n6
  obtain ⟨f3, hrkid, rfl⟩ := rkid_field n7
  obtain ⟨f4, htxn, rfl⟩ := txn_field n8
  obtain ⟨f5, hsnonce, rfl⟩ := snonce_field n9
  obtain ⟨f6, hrnonce, rfl⟩ := rnonce_field n10
  obtain ⟨f7, htext, rfl⟩ := text_field n11
  obtain ⟨f8, hinfo, rfl⟩ := info_field n12
  exact ⟨⟨version, f0, f1, f2, f3, f4, f5, f6, f7, f8⟩, rfl,
    { pvno := hversion, sender := hsender n1, recipient := hrecipient n2
      messageTime := ⟨time, htime, rfl, rfl⟩
      protectionAlg := halg, senderKID := hkid, recipKID := hrkid, transactionID := htxn
      senderNonce := hsnonce, recipNonce := hrnonce, freeText := htext, generalInfo := hinfo }⟩

/-! ### In its place nothing is left -/

section Places

variable {value : Bytes → α → Prop} {default a : α} {f b : Bytes} {F : List (Option UInt8)}

lemma InField.head (hf : InField n value default a f) (hb : b.head? ∈ F) :
    (f ++ b).head? ∈ some (contextConstructed n) :: F := by
  cases hf with
  | absent => exact List.mem_cons_of_mem _ hb
  | present h => exact List.mem_cons_self

/-- A field is found in front of its octets, when what follows cannot be taken for it. -/
lemma InField.readASN1 (hf : InField n value default a f) (hb : b.head? ∈ F)
    (hF : some (contextConstructed n) ∉ F) (ht : isHighTag (contextConstructed n) = false)
    (hlen : (f ++ b).length < 2 ^ 32) :
    f = [] ∧ Der.readASN1 (contextConstructed n) (f ++ b) = none ∨
      ∃ e, value e.content a ∧ Der.readASN1 (contextConstructed n) (f ++ b) = some (e, b) := by
  cases hf with
  | absent => exact .inl ⟨rfl, readASN1_eq_none (peekASN1Tag_eq_false hb hF)⟩
  | @present _ v h =>
    rw [List.length_append] at hlen
    have helem := readAnyASN1_element b ht (c := v) (by omega)
    exact .inr ⟨_, h, readASN1_eq_some_iff.mpr ⟨helem, rfl⟩⟩

/-- **A field in its place** is passed, and nothing is left in it. -/
lemma InField.passed (hf : InField n value default a f) (hb : b.head? ∈ F)
    (hF : some (contextConstructed n) ∉ F) (ht : isHighTag (contextConstructed n) = false)
    (hlen : (f ++ b).length < 2 ^ 32) :
    after (contextConstructed n) (f ++ b) = b ∧ ∀ left : Bytes → Bytes,
      (∀ v, value v a → left v = []) → leftIn (contextConstructed n) left (f ++ b) = [] := by
  obtain ⟨rfl, hnone⟩ | ⟨e, hvalue, he⟩ := hf.readASN1 hb hF ht hlen
  · rw [after, hnone]
    refine ⟨rfl, fun left _ => ?_⟩
    rw [leftIn, hnone]
  · refine ⟨after_eq he, fun left hleft => ?_⟩
    rw [leftIn_eq he]
    exact hleft _ hvalue

end Places

lemma Spells.left {r : Reader α} {v : Bytes} {a : α} (h : Spells r v a) : r.left v = [] :=
  Reader.left_eq h

lemma SpellsAlgorithm.leftIn {v : Bytes} {a : AlgorithmIdentifier} (h : SpellsAlgorithm v a) :
    PkiCmp.leftIn tagSequence AlgorithmIdentifier.unmarshalInner.left v = [] := by
  obtain ⟨hread, seq, rfl, hinner⟩ := h
  obtain ⟨e, left, he, -, hs⟩ := wrapper_ok hread
  rw [List.append_nil] at hs
  rw [leftIn_eq he, ← (element_inj hs).2]
  exact hinner.left

lemma SpellsName.passed {g : GeneralName} (hg : SpellsName g) (b : Bytes) :
    afterAny (g.raw ++ b) = b ∧
      leftIn (contextConstructed 4) parseRDNSequence.left (g.raw ++ b) = [] := by
  obtain ⟨e, he, hraw, -⟩ := GeneralName.unmarshal_eq_ok hg.1
  obtain ⟨-, helem, -, -⟩ := readAnyASN1_eq_some_iff.mp he
  have hagain := readAnyASN1_raw he b
  rw [hraw]
  refine ⟨afterAny_raw he b, ?_⟩
  by_cases htag : e.tag = contextConstructed 4
  · rw [leftIn_eq (readASN1_eq_some_iff.mpr ⟨hagain, htag⟩)]
    exact Reader.left_eq (hg.2 _ (hraw.trans (htag ▸ helem)))
  · rw [leftIn, Der.readASN1, hagain]
    simp [htag]

/-- **Nothing is left of a grammatical header.** -/
lemma unread_of_grammatical {c : Bytes} {h : PKIHeader} (hg : Grammatical c h)
    (hlen : c.length < 2 ^ 32) : ∀ rest ∈ unread c, rest = [] := by
  obtain ⟨p, rfl, hp⟩ := hg
  obtain ⟨t, htime, -, -⟩ := hp.messageTime
  obtain ⟨version, hsplit, hversion⟩ := split_int hp.pvno
  rw [List.append_nil] at hsplit
  rw [← hsplit] at hversion
  simp only [Parts.octets, List.length_append] at hlen ⊢
  -- the first octets of what follows each field
  have h8 := hp.generalInfo.head (b := []) (F := [none]) List.mem_cons_self
  have h7 := hp.freeText.head h8
  have h6 := hp.recipNonce.head h7
  have h5 := hp.senderNonce.head h6
  have h4 := hp.transactionID.head h5
  have h3 := hp.recipKID.head h4
  have h2 := hp.senderKID.head h3
  have h1 := hp.protectionAlg.head h2
  obtain ⟨a0, n0⟩ := htime.passed h1 (by decide) (by decide)
    (by simp only [List.length_append]; omega)
  obtain ⟨a1, n1⟩ := hp.protectionAlg.passed h2 (by decide) (by decide)
    (by simp only [List.length_append]; omega)
  obtain ⟨a2, n2⟩ := hp.senderKID.passed h3 (by decide) (by decide)
    (by simp only [List.length_append]; omega)
  obtain ⟨a3, n3⟩ := hp.recipKID.passed h4 (by decide) (by decide)
    (by simp only [List.length_append]; omega)
  obtain ⟨a4, n4⟩ := hp.transactionID.passed h5 (by decide) (by decide)
    (by simp only [List.length_append]; omega)
  obtain ⟨a5, n5⟩ := hp.senderNonce.passed h6 (by decide) (by decide)
    (by simp only [List.length_append]; omega)
  obtain ⟨a6, n6⟩ := hp.recipNonce.passed h7 (by decide) (by decide)
    (by simp only [List.length_append]; omega)
  obtain ⟨a7, n7⟩ := hp.freeText.passed h8 (by decide) (by decide)
    (by simp only [List.length_append]; omega)
  obtain ⟨a8, n8⟩ := hp.generalInfo.passed (b := []) (F := [none]) List.mem_cons_self (by decide)
    (by decide) (by simp only [List.length_append]; omega)
  simp only [unread, (hversion _).2, (hp.sender.passed _).1, (hp.recipient.passed _).1, a0, a1, a2,
    a3, a4, a5, a6, a7, a8, List.forall_mem_cons]
  refine ⟨(hp.sender.passed _).2, (hp.recipient.passed _).2, n0 _ ?_, n1 _ ?_, n1 _ ?_,
    n2 _ fun _ => Spells.left, n3 _ fun _ => Spells.left, n4 _ fun _ => Spells.left,
    n5 _ fun _ => Spells.left, n6 _ fun _ => Spells.left, n7 _ fun _ => Spells.left,
    n8 _ fun _ => Spells.left, trivial, List.forall_mem_nil _⟩
  · rintro v ⟨a, -, ha⟩
    exact ha.left
  · rintro v ⟨a, -, ha⟩
    exact ha.1.left
  · rintro v ⟨a, -, ha⟩
    exact ha.leftIn

end PKIHeader

/-- **An accepted message has a grammatical header** exactly when nothing is left of it: after the
last field, inside a wrapper, in a name or after the parameters of the algorithm. -/
theorem header_grammatical_iff {der : Bytes} {m : PKIMessage} (h : parsePKIMessage der = .ok m) :
    ∃ content, m.rawHeader = element tagSequence content ∧
      (PKIHeader.Grammatical content m.header ↔
        ∀ rest ∈ PKIHeader.unread content, rest = []) := by
  obtain ⟨s, hd, bd, tail, tail', rfl, hlen, henv⟩ := parsePKIMessage_eq_ok h
  obtain ⟨left, hheader⟩ := henv.decodedHeader
  obtain ⟨-, -, hshort, -⟩ := readAnyASN1_eq_some_iff.mp henv.header
  rw [PKIHeader.unmarshal_eq] at hheader
  obtain ⟨e, rest, he, hread, hraw⟩ := PKIHeader.wrapper_ok hheader
  -- the header is one element
  have hself := readAnyASN1_raw henv.header []
  rw [List.append_nil, (readASN1_eq_some_iff.mp he).1] at hself
  cases hself
  rw [List.append_nil] at hraw
  refine ⟨hd.content, henv.rawHeader.trans hraw, fun hg => ?_, PKIHeader.grammatical_of_read hread⟩
  refine PKIHeader.unread_of_grammatical hg ?_
  rw [hraw, element, List.length_cons, List.length_append] at hshort
  omega

/-- A second element beside the Name of the sender is left. -/
example : PKIHeader.unread [2, 1, 2, 164, 4, 48, 0, 5, 0, 164, 2, 48, 0] =
    [5, 0] :: List.replicate 12 [] := by
  decide +kernel

/-! ### Concrete headers -/

/-- A confirmation whose header has these octets after the names. -/
def sampleHeaded (fields : Bytes) : Bytes :=
  element tagSequence (element tagSequence ([2, 1, 2, 164, 2, 48, 0, 164, 2, 48, 0] ++ fields) ++
    [179, 2, 5, 0])

/-- The transactionID 9. -/
def sampleTransactionID : Bytes := element (contextConstructed 4) (element tagOctetString [9])

/-- The senderNonce 7. -/
def sampleSenderNonce : Bytes := element (contextConstructed 5) (element tagOctetString [7])

/-- What is seen of a message. -/
def headerView (der : Bytes) : Option (Bytes × Bytes × Bytes) :=
  match parsePKIMessage der with
  | .ok m => some (m.rawHeader, m.header.transactionID, m.header.senderNonce)
  | .error _ => none

lemma exists_of_headerView {der raw txn nonce : Bytes}
    (h : headerView der = some (raw, txn, nonce)) :
    ∃ m, parsePKIMessage der = .ok m ∧ m.rawHeader = raw ∧ m.header.transactionID = txn ∧
      m.header.senderNonce = nonce := by
  unfold headerView at h
  split at h
  · next m hm =>
    cases h
    exact ⟨m, hm, rfl, rfl, rfl⟩
  · cases h

/-- **A transactionID after the senderNonce is not seen.**  The message is accepted, and the decoded
header has none. -/
theorem header_transactionID_ignored :
    ∃ m, parsePKIMessage (sampleHeaded (sampleSenderNonce ++ sampleTransactionID)) = .ok m ∧
      sampleTransactionID <:+ m.rawHeader ∧ m.header.transactionID = [] ∧
      ∀ content, m.rawHeader = element tagSequence content →
        ¬ PKIHeader.Grammatical content m.header := by
  obtain ⟨m, hm, hraw, htxn, -⟩ := exists_of_headerView
    (show headerView (sampleHeaded (sampleSenderNonce ++ sampleTransactionID)) =
      some (element tagSequence ([2, 1, 2, 164, 2, 48, 0, 164, 2, 48, 0] ++
        (sampleSenderNonce ++ sampleTransactionID)), [], [7]) by decide +kernel)
  refine ⟨m, hm, ?_, htxn, fun content hcontent hg => ?_⟩
  · rw [hraw]
    decide
  · rw [hraw] at hcontent
    obtain ⟨-, rfl⟩ := element_inj hcontent
    exact absurd (PKIHeader.unread_of_grammatical hg (by decide)) (by decide +kernel)

/-- In the order of the grammar both are seen. -/
theorem header_grammatical_sample :
    ∃ m content, parsePKIMessage (sampleHeaded (sampleTransactionID ++ sampleSenderNonce)) = .ok m ∧
      m.header.transactionID = [9] ∧ m.header.senderNonce = [7] ∧
      m.rawHeader = element tagSequence content ∧ PKIHeader.Grammatical content m.header := by
  obtain ⟨m, hm, hraw, htxn, hnonce⟩ := exists_of_headerView
    (show headerView (sampleHeaded (sampleTransactionID ++ sampleSenderNonce)) =
      some (element tagSequence ([2, 1, 2, 164, 2, 48, 0, 164, 2, 48, 0] ++
        (sampleTransactionID ++ sampleSenderNonce)), [9], [7]) by decide +kernel)
  obtain ⟨content, hcontent, hiff⟩ := header_grammatical_iff hm
  refine ⟨m, content, hm, htxn, hnonce, hcontent, hiff.mpr ?_⟩
  obtain ⟨-, rfl⟩ := element_inj (hraw.symm.trans hcontent)
  decide +kernel

end PkiCmp
