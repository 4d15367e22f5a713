/-
Round trips of responses: certificate responses, confirmations, polling, errors and answers
to revocation requests.

* `PKIStatusInfo.failInfo_roundTrip`, `PKIStatusInfo.failInfo_minimal`: the bits of a failure;
* `CertRepMessage.conveys`, `CertConfirmContent.conveys`, `PollRepContent.conveys`,
  `ErrorMsgContent.conveys`, `RevRepContent.conveys`.
-/
import Mathlib.Tactic.IntervalCases
import PkiCmp.Codec.Requests

namespace PkiCmp

open Der

variable {F : List (Option UInt8)}

/-! ### Failure bits -/

namespace PKIStatusInfo

/-- The bits below the lowest one that is set are zero. -/
lemma trailingZeros_spec (k n : ℕ) (h0 : 0 < n) (hn : n < 2 ^ k) :
    trailingZeros k n < k ∧ ∃ m, n = 2 ^ trailingZeros k n * (2 * m + 1) := by
  induction k generalizing n with
  | zero => omega
  | succ k ih =>
    rw [trailingZeros]
    split_ifs with hodd
    · exact ⟨by omega, n / 2, by omega⟩
    · have hhalf : n / 2 < 2 ^ k := by rw [pow_succ] at hn; omega
      obtain ⟨hlt, m, hm⟩ := ih (n / 2) (by omega) hhalf
      refine ⟨by omega, m, ?_⟩
      calc n = 2 * (n / 2) := by omega
        _ = 2 * (2 ^ trailingZeros k (n / 2) * (2 * m + 1)) := by rw [← hm]
        _ = 2 ^ (1 + trailingZeros k (n / 2)) * (2 * m + 1) := by rw [pow_add]; ring

/-- The lowest bit of a failure that is set, by octet and bit. -/
lemma failInfo_lowest (f : PKIFailureInfo) (hf : f ≠ 0) :
    ∃ q u m, q < 4 ∧ u < 8 ∧ trailingZeros 32 f.toNat = 8 * q + u ∧
      f.toNat = 256 ^ q * (2 ^ u * (2 * m + 1)) := by
  have hpos : 0 < f.toNat := Nat.pos_of_ne_zero fun h => hf (UInt32.toNat_inj.mp h)
  obtain ⟨hlt, m, hm⟩ := trailingZeros_spec 32 f.toNat hpos f.toNat_lt
  refine ⟨trailingZeros 32 f.toNat / 8, trailingZeros 32 f.toNat % 8, m, by omega, by omega,
    by omega, ?_⟩
  generalize trailingZeros 32 f.toNat = t at hm
  calc f.toNat = 2 ^ t * (2 * m + 1) := hm
    _ = 2 ^ (8 * (t / 8) + t % 8) * (2 * m + 1) := by rw [Nat.div_add_mod]
    _ = 256 ^ (t / 8) * (2 ^ (t % 8) * (2 * m + 1)) := by
      rw [pow_add, pow_mul, mul_assoc]
      norm_num

/-- The octets are cut after the lowest bit that is set. -/
lemma failInfoOctets_eq {f : PKIFailureInfo} {q u : ℕ} (hu : u < 8)
    (ht : trailingZeros 32 f.toNat = 8 * q + u) :
    failInfoOctets f = UInt8.ofNat u :: (beOctets 4 f.toNat).take (4 - q) := by
  have hmod : (8 * q + u) % 8 = u := by omega
  have hdiv : (8 * q + u) / 8 = q := by omega
  rw [failInfoOctets, ht, hmod, hdiv]

/-- **The bits of a failure** are read back. -/
lemma failInfo_roundTrip (f : PKIFailureInfo) (hf : f ≠ 0) :
    ∃ u b, failInfoOctets f = u :: b ∧ failInfoOf b = f := by
  obtain ⟨q, u, m, hq, hu, ht, hm⟩ := failInfo_lowest f hf
  refine ⟨_, _, failInfoOctets_eq hu ht, ?_⟩
  have hlt : f.toNat < 2 ^ 32 := f.toNat_lt
  have hoctets : beOctets 4 f.toNat =
      [octet f.toNat 3, octet f.toNat 2, octet f.toNat 1, octet f.toNat 0] := rfl
  have hnat : beNat (((beOctets 4 f.toNat).take (4 - q) ++ [0, 0, 0, 0]).take 4) = f.toNat := by
    rw [hoctets]
    generalize 2 ^ u * (2 * m + 1) = x at hm
    generalize f.toNat = n at *
    interval_cases q <;> simp [beNat, toNat_octet] <;> omega
  rw [failInfoOf, hnat, UInt32.ofNat_toNat]

/-- **The encoding is minimal**: the last bit that is used is set. -/
lemma failInfo_minimal (f : PKIFailureInfo) (hf : f ≠ 0) :
    ∃ u b l, failInfoOctets f = u :: (b ++ [l]) ∧ u < 8 ∧ l.toNat.testBit u.toNat = true ∧
      l.toNat % 2 ^ u.toNat = 0 := by
  obtain ⟨q, u, m, hq, hu, ht, hm⟩ := failInfo_lowest f hf
  have hoctets : beOctets 4 f.toNat =
      [octet f.toNat 3, octet f.toNat 2, octet f.toNat 1, octet f.toNat 0] := rfl
  have hcut : ∃ b, (beOctets 4 f.toNat).take (4 - q) = b ++ [octet f.toNat q] := by
    rw [hoctets]
    interval_cases q
    · exact ⟨[_, _, _], rfl⟩
    · exact ⟨[_, _], rfl⟩
    · exact ⟨[_], rfl⟩
    · exact ⟨[], rfl⟩
  obtain ⟨b, hb⟩ := hcut
  have hlast : (octet f.toNat q).toNat = 2 ^ u * (2 * m + 1) % 256 := by
    rw [toNat_octet, hm, Nat.mul_div_cancel_left _ (by positivity)]
  have hun : (UInt8.ofNat u).toNat = u := UInt8.toNat_ofNat_of_lt' (lt_trans hu (by decide))
  refine ⟨_, b, octet f.toNat q, by rw [failInfoOctets_eq hu ht, hb], ?_, ?_, ?_⟩
  · rw [UInt8.lt_iff_toNat_lt, hun]
    exact hu
  · rw [hun, hlast, Nat.testBit_eq_decide_div_mod_eq, decide_eq_true_iff]
    interval_cases u <;> omega
  · rw [hun, hlast]
    interval_cases u <;> omega

/-! ### Status information -/

/-- The failure bits, once their tag is there. -/
def readFailInfo : Reader PKIFailureInfo := do
  let bits ← Reader.element "invalid failInfo BIT STRING" tagBitString
  match bits with
  | [] => throw (.parse (str "invalid failInfo unused bits"))
  | _ :: b => pure (failInfoOf b)

lemma readFailInfo_bind {α : Type} (k : PKIFailureInfo → Reader α) :
    (readFailInfo >>= k) = Reader.element "invalid failInfo BIT STRING" tagBitString >>= fun bits =>
      match bits with
      | [] => throw (.parse (str "invalid failInfo unused bits")) >>= k
      | _ :: b => k (failInfoOf b) := by
  rw [readFailInfo, bind_assoc]
  congr 1
  funext bits
  cases bits <;> rfl

/-- The optional fields of a status. -/
lemma unmarshal_eq : unmarshal = (do
    let seq ← Reader.element "invalid PKIStatusInfo sequence" tagSequence
    Reader.within seq do
      let status ← Reader.read "invalid PKIStatus" readASN1Int64
      let text ← Reader.optional tagSequence PKIFreeText.unmarshal []
      let failInfo ← Reader.optional tagBitString readFailInfo 0
      pure ⟨status, text, failInfo⟩) := by
  simp only [unmarshal, Reader.optional, bind_assoc, Reader.ite_bind, readFailInfo_bind]
  rfl

/-- **A status** is read back. -/
lemma conveys {si : PKIStatusInfo} (h : IsInt64 si.status) :
    Conveys (2 ^ 31) [some tagSequence] F si.marshal unmarshal (· = si) := by
  rw [unmarshal_eq]
  refine Conveys.within (H := [some tagInteger]) (by decide)
    (Conveys.cons (K := [some tagSequence, some tagBitString, none])
      (Conveys.int64 h.1 h.2) ?_)
  rintro _ rfl
  refine Conveys.cons (H := [some tagSequence, none]) (K := [some tagBitString, none])
    (Conveys.unlessDefault (by decide) fun hne => PKIFreeText.conveys hne) ?_
  rintro _ rfl
  refine Conveys.cons (H := [some tagBitString, none]) (K := [none])
    (Conveys.unlessDefault (by decide) fun hne => ?_) ?_
  · obtain ⟨u, b, hoctets, hread⟩ := failInfo_roundTrip si.failInfo hne
    refine (Conveys.element (by decide)).andThen ?_
    rintro _ rfl
    exact ⟨si.failInfo, by rw [hoctets, ← hread], rfl⟩
  · rintro _ rfl
    exact Conveys.pure rfl

end PKIStatusInfo

namespace ErrorMsgContent

/-- The optional fields of an error. -/
lemma unmarshal_eq : unmarshal = (do
    let seq ← Reader.element "invalid ErrorMsgContent sequence" tagSequence
    Reader.within seq do
      let si ← PKIStatusInfo.unmarshal
      let code ← Reader.optional tagInteger (Reader.read "invalid errorCode" readASN1Int64) 0
      let details ← Reader.optional tagSequence PKIFreeText.unmarshal []
      pure ⟨si, code, details⟩) := by
  simp only [unmarshal, Reader.optional, bind_assoc, Reader.ite_bind, pure_bind]

/-- **Errors** are read back. -/
lemma conveys {e : ErrorMsgContent} (hs : IsInt64 e.pkiStatusInfo.status)
    (hc : IsInt64 e.errorCode) :
    Conveys (2 ^ 31) [some tagSequence] F e.marshal unmarshal (· = e) := by
  rw [unmarshal_eq]
  refine Conveys.within (H := [some tagSequence]) (by decide)
    (Conveys.cons (K := [some tagInteger, some tagSequence, none]) (PKIStatusInfo.conveys hs) ?_)
  rintro _ rfl
  refine Conveys.cons (H := [some tagInteger, none]) (K := [some tagSequence, none])
    (Conveys.unlessDefault (by decide) fun _ => Conveys.int64 hc.1 hc.2) ?_
  rintro _ rfl
  refine Conveys.cons (H := [some tagSequence, none]) (K := [none])
    (Conveys.unlessDefault (by decide) fun hne => PKIFreeText.conveys hne) ?_
  rintro _ rfl
  exact Conveys.pure rfl

end ErrorMsgContent

/-! ### Certificate responses -/

namespace CertOrEncCert

/-- The certificate is one element, or the container one SEQUENCE. -/
def Wf : CertOrEncCert → Prop
  | .certificate c => OneElement c.raw
  | .encryptedCert k => k.Wf

lemma unmarshal_eq : unmarshal = (do
    if ← Reader.empty then throw (.parse (str "missing CertOrEncCert"))
    else if ← Reader.peek (contextConstructed 0) then
      (do let sub ← Reader.element "invalid certificate tag" (contextConstructed 0)
          Reader.within sub CMPCertificate.unmarshal) >>= fun c => pure (.certificate c)
    else if ← Reader.peek (contextConstructed 1) then
      (do let sub ← Reader.element "invalid encryptedCert tag" (contextConstructed 1)
          Reader.within sub EncryptedKey.unmarshal) >>= fun k => pure (.encryptedCert k)
    else throw (.parse (str "unsupported CertOrEncCert variant"))) := by
  simp only [unmarshal, bind_assoc]

lemma conveys {c : CertOrEncCert} (h : c.Wf) :
    Conveys (2 ^ 31) [some (contextConstructed 0), some (contextConstructed 1)] F c.marshal
      unmarshal (· = c) := by
  cases c with
  | certificate c =>
    rw [unmarshal_eq]
    refine Conveys.heads (H := [some (contextConstructed 0)]) (Conveys.notEmpty (by decide)
      (Conveys.peek_true (Conveys.map (S := (· = c)) ?_ fun _ hc => congrArg certificate hc)))
      (by simp)
    exact Conveys.within (by decide) (CMPCertificate.conveys h)
  | encryptedCert k =>
    rw [unmarshal_eq]
    refine Conveys.heads (H := [some (contextConstructed 1)]) (Conveys.notEmpty (by decide)
      (Conveys.peek_false ?_ (Conveys.peek_true (Conveys.map (S := (· = k)) ?_ fun _ hk =>
        congrArg encryptedCert hk)))) (by simp)
    · show some (contextConstructed 0) ∉ [some (contextConstructed 1)]
      decide
    · exact Conveys.within (by decide) (EncryptedKey.conveys h)

end CertOrEncCert

namespace CertifiedKeyPair

/-- A key pair whose parts can be written. -/
structure Wf (ckp : CertifiedKeyPair) : Prop where
  certOrEncCert : ckp.certOrEncCert.Wf
  privateKey : ∀ k ∈ ckp.privateKey, k.Wf

lemma unmarshal_eq : unmarshal = (do
    let seq ← Reader.element "invalid CertifiedKeyPair sequence" tagSequence
    Reader.within seq do
      let c ← CertOrEncCert.unmarshal
      let k ← Reader.explicit "invalid privateKey tag" (contextConstructed 0) EncryptedKey.unmarshal
      pure ⟨c, k⟩) := by
  simp only [unmarshal, Reader.explicit, Reader.optional, bind_assoc, Reader.ite_bind, pure_bind]

lemma conveys {ckp : CertifiedKeyPair} (h : ckp.Wf) :
    Conveys (2 ^ 31) [some tagSequence] F ckp.marshal unmarshal (· = ckp) := by
  rw [unmarshal_eq]
  refine Conveys.within (H := [some (contextConstructed 0), some (contextConstructed 1)])
    (by decide) (Conveys.cons (K := [some (contextConstructed 0), none])
      (CertOrEncCert.conveys h.certOrEncCert) ?_)
  rintro _ rfl
  refine Conveys.cons (H := [some (contextConstructed 0), none]) (K := [none])
    (Conveys.explicit_eq (o := ckp.privateKey) (by decide) (by decide) (fun hk => by rw [hk])
      fun k hk => ⟨_, _, by rw [hk], EncryptedKey.conveys (h.privateKey k hk)⟩) ?_
  rintro _ rfl
  exact Conveys.pure rfl

end CertifiedKeyPair

namespace CertResponse

/-- A response whose parts can be written. -/
structure Wf (r : CertResponse) : Prop where
  certReqID : IsInt64 r.certReqID
  status : IsInt64 r.status.status
  certifiedKeyPair : ∀ ckp ∈ r.certifiedKeyPair, ckp.Wf

/-- The key pair, if one starts here. -/
def readKeyPair : Reader (Option CertifiedKeyPair) := do
  if startsKeyPair (← get) then CertifiedKeyPair.unmarshal >>= fun ckp => pure (some ckp)
  else pure none

lemma unmarshal_eq : unmarshal = (do
    let seq ← Reader.element "invalid CertResponse sequence" tagSequence
    Reader.within seq do
      let id ← Reader.read "invalid certReqId" readASN1Int64
      let status ← PKIStatusInfo.unmarshal
      let ckp ← readKeyPair
      let info ← Reader.optional tagOctetString (Reader.element "invalid rspInfo" tagOctetString) []
      pure ⟨id, status, ckp, info⟩) := by
  simp only [unmarshal, readKeyPair, Reader.optional, bind_assoc, Reader.ite_bind, pure_bind]

/-- A key pair is told apart from what may follow it. -/
lemma readKeyPair_conveys {o : Option CertifiedKeyPair} {f : Except GoError Bytes}
    (hnone : o = none → f = .ok [])
    (hsome : ∀ ckp, o = some ckp → ckp.Wf ∧ f = ckp.marshal) :
    Conveys (2 ^ 31) [some tagSequence, none] [some tagOctetString, none] f readKeyPair
      (· = o) := by
  cases o with
  | none =>
    rw [hnone rfl]
    refine .inr ⟨[], rfl, by decide, ⟨_, rfl⟩, fun _ rest hrest => ⟨none, ?_, rfl⟩⟩
    have hstart : startsKeyPair rest = false := by
      cases rest with
      | nil => rfl
      | cons x rest =>
        obtain hx | hx := List.mem_pair.mp hrest
        · obtain rfl := Option.some.inj hx
          rfl
        · cases hx
    show (if startsKeyPair rest then _ else _ : Reader _) rest = _
    rw [hstart]
    rfl
  | some ckp =>
    obtain ⟨hwf, rfl⟩ := hsome ckp rfl
    obtain hlong | ⟨b, hok, hhead, -, hread⟩ :=
      CertifiedKeyPair.conveys (F := [some tagOctetString, none]) hwf
    · exact .inl hlong
    · refine .inr ⟨b, hok, List.mem_cons.mpr (.inl (List.mem_singleton.mp hhead)), ⟨_, rfl⟩,
        fun hlen rest hrest => ⟨some ckp, ?_, rfl⟩⟩
      obtain ⟨_, hb, rfl⟩ := hread hlen rest hrest
      have hstart : startsKeyPair (b ++ rest) = true := by
        cases b with
        | nil => cases List.mem_singleton.mp hhead
        | cons x b =>
          obtain rfl := Option.some.inj (List.mem_singleton.mp hhead)
          rfl
      show (if startsKeyPair (b ++ rest) then _ else _ : Reader _) (b ++ rest) = _
      rw [hstart]
      exact Reader.bind_ok.mpr ⟨_, rest, hb, rfl⟩

lemma conveys {r : CertResponse} (h : r.Wf) :
    Conveys (2 ^ 31) [some tagSequence] F r.marshal unmarshal (· = r) := by
  rw [unmarshal_eq]
  refine Conveys.within (H := [some tagInteger]) (by decide)
    (Conveys.cons (K := [some tagSequence]) (Conveys.int64 h.certReqID.1 h.certReqID.2) ?_)
  rintro _ rfl
  refine Conveys.cons (H := [some tagSequence]) (K := [some tagSequence, some tagOctetString, none])
    (PKIStatusInfo.conveys h.status) ?_
  rintro _ rfl
  refine Conveys.cons (H := [some tagSequence, none]) (K := [some tagOctetString, none])
    (readKeyPair_conveys (fun hk => by rw [hk]) fun ckp hk =>
      ⟨h.certifiedKeyPair ckp hk, by rw [hk]⟩) ?_
  rintro _ rfl
  refine Conveys.cons (H := [some tagOctetString, none]) (K := [none])
    (Conveys.unlessDefault (by decide) fun _ => Conveys.element (by decide)) ?_
  rintro _ rfl
  exact Conveys.pure rfl

end CertResponse

namespace CertRepMessage

/-- A message whose certificates are elements and whose responses can be written. -/
structure Wf (m : CertRepMessage) : Prop where
  caPubs : ∀ c ∈ m.caPubs, OneElement c.raw
  response : ∀ r ∈ m.response, r.Wf

lemma unmarshal_eq : unmarshal = (do
    let seq ← Reader.element "invalid CertRepMessage sequence" tagSequence
    Reader.within seq do
      let caPubs ← Reader.optional (contextConstructed 1) (do
        let sub ← Reader.element "invalid caPubs tag" (contextConstructed 1)
        Reader.within sub do
          let certs ← Reader.element "invalid caPubs sequence" tagSequence
          Reader.within certs (Reader.many CMPCertificate.unmarshal)) []
      let resp ← (do
        let resp ← Reader.element "invalid response sequence" tagSequence
        Reader.within resp (Reader.many CertResponse.unmarshal))
      pure ⟨caPubs, resp⟩) := by
  simp only [unmarshal, Reader.optional, bind_assoc, Reader.ite_bind, pure_bind]

/-- **Certificate responses** are read back. -/
lemma conveys {m : CertRepMessage} (h : m.Wf) :
    Conveys (2 ^ 31) [some tagSequence] F m.marshal unmarshal (· = m) := by
  rw [unmarshal_eq]
  refine Conveys.within (H := [some (contextConstructed 1), some tagSequence]) (by decide)
    (Conveys.cons (H := [some (contextConstructed 1), none]) (K := [some tagSequence])
      (Conveys.unlessDefault (by decide) fun _ => Conveys.within (by decide)
        (Conveys.within (by decide) (CMPCertificate.conveys_many h.caPubs))) ?_)
  rintro _ rfl
  refine Conveys.cons (H := [some tagSequence]) (K := [none]) (Conveys.within (by decide)
    (Conveys.many_eq (H := [some tagSequence]) (by decide) fun r hr =>
      CertResponse.conveys (h.response r hr))) ?_
  rintro _ rfl
  exact Conveys.pure rfl

end CertRepMessage

/-! ### Confirmations -/

namespace CertStatus

/-- A status whose parts can be written. -/
structure Wf (s : CertStatus) : Prop where
  certReqID : IsInt64 s.certReqID
  statusInfo : ∀ si ∈ s.statusInfo, IsInt64 si.status
  hashAlg : ∀ a ∈ s.hashAlg, a.Wf

/-- `unmarshalHashAlg` as a decoder. -/
def readHashAlg : Reader AlgorithmIdentifier := do
  let e ← Reader.read "invalid hashAlg sequence" (readASN1 tagSequence)
  fun rest => do
    let (a, left) ← AlgorithmIdentifier.unmarshalInner.run e.content
    if rest.isEmpty && left.isEmpty then .ok (a, rest) else parseError "trailing hashAlg data"

lemma unmarshalHashAlg_of_read {sub : Bytes} {a : AlgorithmIdentifier}
    (h : readHashAlg sub = .ok (a, [])) : unmarshalHashAlg sub = .ok a := by
  obtain ⟨e, rest, he, h⟩ := Reader.bind_ok.mp h
  obtain ⟨⟨a', left⟩, hinner, h⟩ := Except.bind_eq_ok.mp h
  dsimp only at h
  split_ifs at h with hempty
  · cases h
    simp only [unmarshalHashAlg, Reader.read_ok.mp he, hinner, bind, Except.bind, hempty, if_true]
  · cases h

lemma readHashAlg_conveys {a : AlgorithmIdentifier} (h : a.Wf) :
    Conveys (2 ^ 31) [some tagSequence] [none] a.marshal readHashAlg (· = a) := by
  refine Conveys.opened (by decide) (Conveys.ofElement_read (by decide))
    (AlgorithmIdentifier.conveysInner h) fun c hc _ _ => ⟨⟨_, rfl⟩, ?_⟩
  rintro _ rfl hread rest hrest
  obtain rfl := List.head?_eq_none_iff.mp (List.mem_singleton.mp hrest)
  refine ⟨_, ?_, rfl⟩
  simp only [StateT.run, hread, bind, Except.bind, List.isEmpty_nil, Bool.and_self, if_true]

/-- The hash algorithm, with nothing after it on either level. -/
lemma hashAlg_conveys {a : AlgorithmIdentifier} {d : String} (h : a.Wf) :
    Conveys (2 ^ 31) [some (contextConstructed 0)] F (addASN1 (contextConstructed 0) a.marshal)
      (do
        let sub ← Reader.element d (contextConstructed 0)
        let a ← unmarshalHashAlg sub
        pure a) (· = a) := by
  refine Conveys.content (by decide) (readHashAlg_conveys h) fun c hc _ => ⟨⟨_, rfl⟩, ?_⟩
  rintro _ rfl hread rest -
  refine ⟨_, ?_, rfl⟩
  rw [unmarshalHashAlg_of_read hread]
  rfl

lemma unmarshal_eq : unmarshal = (do
    let seq ← Reader.element "invalid CertStatus sequence" tagSequence
    Reader.within seq do
      let hash ← Reader.element "invalid certHash" tagOctetString
      let id ← Reader.read "invalid certReqId" readASN1Int64
      let si ← Reader.optional tagSequence (PKIStatusInfo.unmarshal >>= fun si => pure (some si))
        none
      let alg ← Reader.optional (contextConstructed 0) ((do
          let sub ← Reader.element "invalid hashAlg tag" (contextConstructed 0)
          let a ← unmarshalHashAlg sub
          pure a) >>= fun a => pure (some a)) none
      if ← Reader.empty then pure ⟨hash, id, si, alg⟩
      else throw (.parse (str "trailing CertStatus data"))) := by
  simp only [unmarshal, Reader.optional, bind_assoc, Reader.ite_bind, pure_bind]

lemma conveys {s : CertStatus} (h : s.Wf) :
    Conveys (2 ^ 31) [some tagSequence] F s.marshal unmarshal (· = s) := by
  rw [unmarshal_eq]
  refine Conveys.within (H := [some tagOctetString]) (by decide)
    (Conveys.cons (K := [some tagInteger]) (Conveys.element (by decide)) ?_)
  rintro _ rfl
  refine Conveys.cons (H := [some tagInteger])
    (K := [some tagSequence, some (contextConstructed 0), none])
    (Conveys.int64 h.certReqID.1 h.certReqID.2) ?_
  rintro _ rfl
  refine Conveys.cons (H := [some tagSequence, none]) (K := [some (contextConstructed 0), none])
    (Conveys.ifSome (o := s.statusInfo) (by decide) (fun hs => by rw [hs]) fun si hs => ?_) ?_
  · rw [hs]
    exact PKIStatusInfo.conveys (h.statusInfo si hs)
  rintro _ rfl
  refine Conveys.cons (H := [some (contextConstructed 0), none]) (K := [none])
    (Conveys.ifSome (o := s.hashAlg) (by decide) (fun ha => by rw [ha]) fun a ha => ?_) ?_
  · rw [ha]
    exact hashAlg_conveys (h.hashAlg a ha)
  rintro _ rfl
  exact Conveys.atEnd (Conveys.pure rfl)

end CertStatus

/-- **Confirmations** are read back. -/
lemma CertConfirmContent.conveys {c : CertConfirmContent} (h : ∀ s ∈ c, s.Wf) :
    Conveys (2 ^ 31) [some tagSequence] F (CertConfirmContent.marshal c)
      CertConfirmContent.unmarshal (· = c) :=
  Conveys.within (by decide) (Conveys.many_eq (H := [some tagSequence]) (by decide) fun s hs =>
    CertStatus.conveys (h s hs))

/-! ### Polling -/

namespace PollRepContent

/-- One item of a polling response. -/
def readItem : Reader PollRepItem := do
  let sub ← Reader.element "invalid pollRep element" tagSequence
  Reader.within sub do
    let id ← Reader.read "invalid certReqId in pollRep" readASN1Int64
    let after ← Reader.read "invalid checkAfter in pollRep" readASN1Int64
    let reason ← Reader.unlessEmpty PKIFreeText.unmarshal []
    pure ⟨id, after, reason⟩

lemma unmarshal_eq : unmarshal = (do
    let seq ← Reader.element "invalid PollRepContent sequence" tagSequence
    Reader.within seq (Reader.many readItem)) := by
  simp only [unmarshal, readItem, Reader.unlessEmpty, bind_assoc, Reader.ite_bind, pure_bind]

lemma readItem_conveys {item : PollRepItem} (hid : IsInt64 item.certReqID)
    (hafter : IsInt64 item.checkAfter) :
    Conveys (2 ^ 31) [some tagSequence] F (addASN1 tagSequence (concat [addASN1Int item.certReqID,
      addASN1Int item.checkAfter,
      Der.optional (item.reason ≠ []) (PKIFreeText.marshal item.reason)])) readItem (· = item) := by
  refine Conveys.within (H := [some tagInteger]) (by decide)
    (Conveys.cons (K := [some tagInteger]) (Conveys.int64 hid.1 hid.2) ?_)
  rintro _ rfl
  refine Conveys.cons (H := [some tagInteger]) (K := [some tagSequence, none])
    (Conveys.int64 hafter.1 hafter.2) ?_
  rintro _ rfl
  refine Conveys.cons (H := [some tagSequence, none]) (K := [none])
    (Conveys.unlessEmpty (H := [some tagSequence]) (S := (· = item.reason)) (by decide)
      (fun h => (not_not.mp (of_decide_eq_false h)).symm)
      fun h => PKIFreeText.conveys (of_decide_eq_true h)) ?_
  rintro _ rfl
  exact Conveys.pure rfl

/-- **Polling responses** are read back. -/
lemma conveys {c : PollRepContent}
    (h : ∀ item ∈ c, IsInt64 item.certReqID ∧ IsInt64 item.checkAfter) :
    Conveys (2 ^ 31) [some tagSequence] F (marshal c) unmarshal (· = c) := by
  rw [unmarshal_eq]
  exact Conveys.within (by decide) (Conveys.many_eq (H := [some tagSequence]) (by decide)
    fun item hitem => readItem_conveys (h item hitem).1 (h item hitem).2)

end PollRepContent

/-! ### Answers to revocation requests -/

namespace CertID

/-- The issuer can be written, and there is a serial number. -/
structure Wf (id : CertID) : Prop where
  issuer : id.issuer.Wf
  serialNumber : id.serialNumber.isSome = true

/-- The issuer keeps its encoding. -/
structure ReadAs (id id' : CertID) : Prop where
  issuer : id.issuer.ReadAs id'.issuer
  serialNumber : id'.serialNumber = id.serialNumber

lemma conveys {id : CertID} (h : id.Wf) :
    Conveys (2 ^ 31) [some tagSequence] F id.marshal unmarshal id.ReadAs := by
  obtain ⟨issuer, serial⟩ := id
  obtain ⟨n, rfl⟩ := Option.isSome_iff_exists.mp h.serialNumber
  obtain ⟨t, ht⟩ := GeneralName.conveys h.issuer
  refine Conveys.within (H := [some t]) (by decide) (Conveys.cons (H := [some t])
    (K := [some tagInteger]) (ht _) fun g hg => Conveys.cons (K := [none]) (Conveys.bigInt n) ?_)
  rintro _ rfl
  exact Conveys.atEnd (Conveys.pure ⟨hg, rfl⟩)

end CertID

namespace RevRepContent

/-- The raw lists are one SEQUENCE each. -/
structure Wf (c : RevRepContent) : Prop where
  status : ∀ si ∈ c.status, IsInt64 si.status
  revCerts : ∀ id ∈ c.revCerts, id.Wf
  crls : ∀ crl ∈ c.crls, OneSequence crl

/-- The issuers keep their encoding. -/
structure ReadAs (c c' : RevRepContent) : Prop where
  status : c'.status = c.status
  revCerts : List.Forall₂ CertID.ReadAs c.revCerts c'.revCerts
  crls : c'.crls = c.crls

/-- A tagged list that is left out when it is empty. -/
lemma tagged_conveys {α β : Type} {l : List β} {t : UInt8} {d : String} {f : Except GoError Bytes}
    {H : List (Option UInt8)} {r : Reader (List α)} {S : List α → Prop} (ht : isHighTag t = false)
    (hF : some t ∉ F) (hnil : l = [] → S []) (h : Conveys (2 ^ 31) H [none] f r S) :
    Conveys (2 ^ 31) [some t, none] F (Der.optional (l ≠ []) (addASN1 t (addASN1 tagSequence f)))
      (tagged t d r) S := by
  by_cases hl : l = []
  · rw [Der.optional, decide_eq_false (not_not.mpr hl)]
    exact Conveys.absent hF (hnil hl)
  · rw [Der.optional, decide_eq_true hl]
    refine Conveys.present (Conveys.content ht (Conveys.within (d := d) (by decide) h)
      fun c _ hS => ⟨hS, fun a hSa hread rest _ => ⟨a, ?_, hSa⟩⟩)
    obtain ⟨c', s1, hc', hread⟩ := Reader.bind_ok.mp hread
    obtain ⟨e, he, rfl⟩ := Reader.element_ok hc'
    obtain ⟨rfl, left, hr⟩ := Reader.within_ok hread
    rw [he]
    exact Reader.within_eq_ok hr rest

/-- **Answers to revocation requests** are read back. -/
lemma conveys {c : RevRepContent} (h : c.Wf) :
    Conveys (2 ^ 31) [some tagSequence] F c.marshal unmarshal c.ReadAs := by
  have hunmarshal : unmarshal = (do
      let seq ← Reader.element "invalid RevRepContent sequence" tagSequence
      Reader.within seq do
        let status ← (do
          let statusSeq ← Reader.element "invalid RevRepContent status sequence" tagSequence
          Reader.within statusSeq (Reader.many PKIStatusInfo.unmarshal))
        let ids ← tagged (contextConstructed 0) "invalid revCerts" (Reader.many CertID.unmarshal)
        let crls ← tagged (contextConstructed 1) "invalid crls" (Reader.many do
          let e ← Reader.read "invalid CertificateList" (readASN1 tagSequence)
          pure e.raw)
        if ← Reader.empty then pure ⟨status, ids, crls⟩
        else throw (.parse (str "trailing data in RevRepContent"))) := by
    simp only [unmarshal, bind_assoc]
  rw [hunmarshal]
  refine Conveys.within (H := [some tagSequence]) (by decide)
    (Conveys.cons (H := [some tagSequence])
    (K := [some (contextConstructed 0), some (contextConstructed 1), none])
    (Conveys.within (by decide) (Conveys.many_eq (H := [some tagSequence]) (by decide)
      fun si hsi => PKIStatusInfo.conveys (h.status si hsi))) ?_)
  rintro _ rfl
  refine Conveys.cons (H := [some (contextConstructed 0), none])
    (K := [some (contextConstructed 1), none])
    (tagged_conveys (by decide) (by decide) (fun hl => by rw [hl]; exact .nil)
      (Conveys.many (H := [some tagSequence]) (by decide) fun id hid =>
        CertID.conveys (h.revCerts id hid))) fun ids hids => ?_
  refine Conveys.cons (H := [some (contextConstructed 1), none]) (K := [none])
    (tagged_conveys (S := (· = c.crls)) (by decide) (by decide) (fun hl => hl.symm)
      (Conveys.many_eq (H := [some tagSequence]) (by decide) fun crl hcrl => ?_)) ?_
  · rw [(h.crls crl hcrl).isSingleElement, if_pos rfl]
    exact (h.crls crl hcrl).conveys
  rintro _ rfl
  exact Conveys.atEnd (Conveys.pure ⟨rfl, hids, rfl⟩)

end RevRepContent

end PkiCmp
