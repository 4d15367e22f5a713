/-
The certificate that an enrollment is about (`client/transport.go`): the reply that
carries it, the verdict on it, and the certConf that reports the verdict.

* `Client.Offered`: a verified reply carries a certificate with a status of success;
* `Client.Refuses`: the checks that a certificate has to pass;
* `Client.certConf_reports`: **a single certConf** reports the verdict, and repeats the
  transaction, the hash and the certReqId.
-/
import PkiCmp.Authentic
import PkiCmp.Client.Course
import PkiCmp.Client.Outcome

namespace PkiCmp

open Der Interact

/-! ### The hash of a certificate -/

/-- The hash that a certConf identifies the certificate with. -/
def confirmationHash (cr : Crypto) (cert : Certificate) : Option Hash :=
  match cert.signatureAlgorithm with
  | .mldsa44 | .mldsa65 | .mldsa87 => some .sha512
  | _ => certHashFunc cr cert

/-- The two ways a status comes about: with the hash of an ML-DSA certificate, or with the one that
the certificate implies. -/
lemma newCertStatus_cases (cr : Crypto) (cert : Certificate) (certReqID : ℤ) :
    (∃ hashAlg, newCertStatus cr cert certReqID =
        .ok { certHash := cr.hash .sha512 cert.raw, certReqID, hashAlg } ∧
      confirmationHash cr cert = some .sha512) ∨
    ∃ hashAlg, newCertStatus cr cert certReqID =
        (certHash cr cert >>= fun hash => .ok { certHash := hash, certReqID, hashAlg }) ∧
      confirmationHash cr cert = certHashFunc cr cert := by
  unfold newCertStatus confirmationHash
  cases cert.signatureAlgorithm <;> first | exact .inl ⟨_, rfl, rfl⟩ | exact .inr ⟨_, rfl, rfl⟩

/-- A status is made exactly for the certificates that have such a hash. -/
lemma newCertStatus_error {cr : Crypto} {cert : Certificate} {certReqID : ℤ} {e : GoError}
    (h : newCertStatus cr cert certReqID = .error e) : confirmationHash cr cert = none := by
  obtain ⟨hashAlg, hnew, -⟩ | ⟨hashAlg, hnew, hhash⟩ := newCertStatus_cases cr cert certReqID
  · rw [hnew] at h
    cases h
  · rw [hnew, certHash] at h
    rw [hhash]
    cases hf : certHashFunc cr cert with
    | none => rfl
    | some f =>
      rw [hf] at h
      cases h

lemma newCertStatus_ok {cr : Crypto} {cert : Certificate} {certReqID : ℤ} {s : CertStatus}
    (h : newCertStatus cr cert certReqID = .ok s) :
    s.certReqID = certReqID ∧
      ∃ f, confirmationHash cr cert = some f ∧ s.certHash = cr.hash f cert.raw := by
  obtain ⟨hashAlg, hnew, hhash⟩ | ⟨hashAlg, hnew, hhash⟩ := newCertStatus_cases cr cert certReqID
  · rw [hnew] at h
    cases h
    exact ⟨rfl, .sha512, hhash, rfl⟩
  · rw [hnew] at h
    obtain ⟨hash, hcert, h⟩ := Except.bind_eq_ok.mp h
    cases h
    rw [certHash] at hcert
    cases hf : certHashFunc cr cert with
    | none =>
      rw [hf] at hcert
      cases hcert
    | some f =>
      rw [hf] at hcert
      cases hcert
      exact ⟨rfl, f, hhash.trans hf, rfl⟩

/-! ### Certificate responses -/

namespace Client

variable (c : Client)

/-! ### The verdict -/

/-- The key that a certificate certifies, when it can be read. -/
def issuedKey (cert : Certificate) : Option PublicKey :=
  cert.publicKey.or (c.crypto.parsePKIXPublicKey cert.rawSubjectPublicKeyInfo).toOption

/-- The certReqId answers the request. -/
def Allows (reqBody : PKIBody) (certReqID : ℤ) : Prop :=
  ∃ ids, answeringCertReqIDs reqBody = .ok ids ∧ certReqID ∈ ids

/-- The certificate chains to the pool at the given time, when there is a pool. -/
def Chains (cert : Certificate) (pool : Option (List Certificate)) (candidates : List Certificate)
    (now : Time) : Prop :=
  ∀ roots, pool = some roots → ∃ u, c.crypto.verifyPath cert roots candidates now = .ok u

/-- The certificate is for the key that was asked for, when one was. -/
def Certifies (cert : Certificate) (requestedKey : Option PublicKey) : Prop :=
  ∀ key, requestedKey = some key → c.issuedKey cert = some key

/-- The key that was asked for can be compared: it is no DSA key. -/
def Comparable (requestedKey : Option PublicKey) : Prop :=
  ∀ key, requestedKey = some key → key.type ≠ .other

lemma checkIssuedKey_some (cert : Certificate) (key : PublicKey) :
    c.checkIssuedKey cert (some key) = match c.issuedKey cert with
      | none => some (checkIssuedKey.incomparable "<nil>")
      | some k =>
        if k.type = .other then some (checkIssuedKey.incomparable "*dsa.PublicKey")
        else if k ≠ key then
          some (.client (str "issued certificate does not certify the requested public key"))
        else none := by
  unfold checkIssuedKey issuedKey
  cases cert.publicKey <;> rfl

lemma checkIssuedKey_eq_none_iff (cert : Certificate) (requestedKey : Option PublicKey) :
    c.checkIssuedKey cert requestedKey = none ↔
      c.Certifies cert requestedKey ∧ Comparable requestedKey := by
  cases requestedKey with
  | none => exact iff_of_true rfl ⟨nofun, nofun⟩
  | some key =>
    simp only [checkIssuedKey_some, Certifies, Comparable, Option.some.injEq, forall_eq']
    cases c.issuedKey cert with
    | none => simp
    | some k =>
      simp only [Option.some.injEq]
      split_ifs with hother hne
      · simp only [false_iff, not_and, not_not]
        rintro rfl
        exact hother
      · simp [hne]
      · obtain rfl := not_not.mp hne
        exact iff_of_true rfl ⟨rfl, hother⟩

/-- **The verdict**: nothing is held against a certificate exactly when it passes the three
checks. -/
lemma verdict_eq_none_iff (cert : Certificate) (certResp : CertResponse) (ids : List ℤ)
    (requestedKey : Option PublicKey) (pool : Option (List Certificate))
    (candidates : List Certificate) (now : Time) :
    c.verdict cert certResp ids requestedKey pool candidates now = none ↔
      certResp.certReqID ∈ ids ∧ c.Chains cert pool candidates now ∧
        c.Certifies cert requestedKey ∧ Comparable requestedKey := by
  unfold verdict checkCertReqID
  by_cases hid : certResp.certReqID ∈ ids
  · simp only [hid, true_and]
    rw [← checkIssuedKey_eq_none_iff]
    unfold Chains
    cases pool with
    | none => simp
    | some roots =>
      simp only [Option.bind_some, Option.some.injEq, forall_eq']
      cases c.crypto.verifyPath cert roots candidates now with
      | error e => simp
      | ok u => simp
  · simp [hid]

/-! ### Accepted replies -/

/-- A reply to a request or to a poll was verified, with this result. -/
def Accepts (tr : ClientHistory) (reply : CmpHTTPResponse) (vr : VerifyResult) : Prop :=
  ∃ awaited o now, (awaited = .first ∨ awaited = .poll) ∧
    ⟨.verifyTime awaited reply o, now⟩ ∈ tr ∧ reply.message.verify c.crypto o now = .ok vr

section

variable {c} {tr tr' : ClientHistory} {reply : CmpHTTPResponse} {vr : VerifyResult}

lemma accepts_append_iff :
    c.Accepts (tr ++ tr') reply vr ↔ c.Accepts tr reply vr ∨ c.Accepts tr' reply vr := by
  constructor
  · rintro ⟨awaited, o, now, ha, hmem, hv⟩
    rcases List.mem_append.mp hmem with h | h
    · exact .inl ⟨awaited, o, now, ha, h, hv⟩
    · exact .inr ⟨awaited, o, now, ha, h, hv⟩
  · rintro (⟨awaited, o, now, ha, hmem, hv⟩ | ⟨awaited, o, now, ha, hmem, hv⟩)
    · exact ⟨awaited, o, now, ha, List.mem_append_left _ hmem, hv⟩
    · exact ⟨awaited, o, now, ha, List.mem_append_right _ hmem, hv⟩

lemma not_accepts_of_local (h : ∀ a ∈ tr, a.op.Local) : ¬ c.Accepts tr reply vr :=
  fun ⟨_, _, _, _, hmem, _⟩ => h _ hmem

/-- A single reply is verified in an exchange, and returned when it verifies. -/
lemma Exchanges.verified {x : Exchange} {msg : PKIMessage} {creds : Credentials}
    {trustedCAs : Option (List Certificate)} {knownSigner : Option Certificate}
    {alternative : PKIMessage → Option Bytes} {awaited : Awaited} {o : VerifyOptions} {now : Time}
    {r : Except GoError (CmpHTTPResponse × VerifyResult)}
    (h : c.Exchanges x msg creds trustedCAs knownSigner alternative tr r)
    (hmem : ⟨.verifyTime awaited reply o, now⟩ ∈ tr)
    (hv : reply.message.verify c.crypto o now = .ok vr) :
    awaited = x.awaited ∧ r = .ok (reply, vr) := by
  cases h with
  | unencoded => cases hmem
  | unsent | refused | unparsed | mismatched => simp at hmem
  | @unverified _ _ _ _ now' _ _ _ _ _ herr =>
    simp only [List.mem_cons, List.not_mem_nil, or_false, Event.mk.injEq, reduceCtorEq, false_and,
      false_or, ClientEffect.verifyTime.injEq] at hmem
    obtain ⟨⟨rfl, rfl, rfl⟩, hnow⟩ := hmem
    cases hnow
    cases herr.symm.trans hv
  | @accepted _ _ _ _ now' _ _ _ _ hok =>
    simp only [List.mem_cons, List.not_mem_nil, or_false, Event.mk.injEq, reduceCtorEq, false_and,
      false_or, ClientEffect.verifyTime.injEq] at hmem
    obtain ⟨⟨rfl, rfl, rfl⟩, hnow⟩ := hmem
    cases hnow
    cases hok.verified.symm.trans hv
    exact ⟨rfl, rfl⟩

/-- The accepted replies of the polling loop end it or are followed by another poll. -/
lemma Polls.accepts {first : PKIHeader} {creds : Credentials} {certReqID : ℤ} {left : ℕ}
    {lastResp : PKIMessage} {knownSigner : Option Certificate} {r : PollResult}
    (h : c.Polls first creds certReqID left lastResp knownSigner tr r)
    (ha : c.Accepts tr reply vr) :
    c.pollReply reply vr = .inl r ∨ ∃ d, c.pollReply reply vr = .inr d := by
  -- nothing is accepted while a poll is made
  have hskip : ∀ {tr0 tr1 tr2 : ClientHistory}, (∀ a ∈ tr0, a.op.Local) →
      (∀ a ∈ tr1, a.op.Local) → c.Accepts (tr0 ++ (tr1 ++ tr2)) reply vr →
      c.Accepts tr2 reply vr := by
    intro tr0 tr1 tr2 h0 h1 ha
    rw [accepts_append_iff, accepts_append_iff] at ha
    exact (ha.resolve_left (not_accepts_of_local h0)).resolve_left (not_accepts_of_local h1)
  induction h with
  | exhausted =>
    obtain ⟨_, _, _, _, hmem, _⟩ := ha
    cases hmem
  | cancelled =>
    obtain ⟨_, _, _, _, hmem, _⟩ := ha
    simp at hmem
  | unprotected h0 h1 =>
    rw [accepts_append_iff] at ha
    rcases ha with ha | ha
    · exact absurd ha (not_accepts_of_local h0)
    · exact absurd ha (not_accepts_of_local (local_of_followUp h1))
  | failed h0 h1 h2 =>
    obtain ⟨_, _, _, _, hmem, hv⟩ := hskip h0 (local_of_followUp h1) ha
    cases (h2.verified hmem hv).2
  | ended h0 h1 h2 h3 =>
    obtain ⟨_, _, _, _, hmem, hv⟩ := hskip h0 (local_of_followUp h1) ha
    cases (h2.verified hmem hv).2
    exact .inl h3
  | again h0 h1 h2 h3 h4 ih =>
    obtain ⟨_, _, _, _, hmem, hv⟩ | ha :=
      accepts_append_iff.mp (hskip h0 (local_of_followUp h1) ha)
    · cases (h2.verified hmem hv).2
      exact .inr ⟨_, h3⟩
    · exact ih ha

end

/-! ### Offers -/

/-- A certificate, with the reply that carries it. -/
structure Offer where
  reply : CmpHTTPResponse
  vr : VerifyResult
  certResp : CertResponse
  rep : CertRepMessage
  cert : Certificate

/-- The certificate was offered: a reply of the expected type was accepted that carries it
with a status of success. -/
structure Offered (expected : BodyType) (tr : ClientHistory) (o : Offer) : Prop where
  accepted : c.Accepts tr o.reply o.vr
  version : checkVersion o.reply = none
  carries : extractCertRespAndRep o.reply.message expected = .ok (o.certResp, o.rep)
  success : Succeeded o.certResp
  parses : c.extractCertificate o.certResp = .ok o.cert

/-- The offer of a reply, when it verifies. -/
def offerOf (expected : BodyType) (awaited : Awaited) (reply : CmpHTTPResponse) (vo : VerifyOptions)
    (now : Time) : Option Offer :=
  match reply.message.verify c.crypto vo now, checkVersion reply,
      extractCertRespAndRep reply.message expected with
  | .ok vr, none, .ok (certResp, rep) =>
    if (awaited = .first ∨ awaited = .poll) ∧ (certResp.status.status = StatusAccepted ∨
        certResp.status.status = StatusGrantedWithMods) then
      (c.extractCertificate certResp).toOption.map fun cert => ⟨reply, vr, certResp, rep, cert⟩
    else none
  | _, _, _ => none

/-- The offers of a history. -/
def offers (expected : BodyType) (tr : ClientHistory) : List Offer :=
  tr.filterMap fun a => match a with
    | ⟨.verifyTime awaited reply vo, now⟩ => c.offerOf expected awaited reply vo now
    | _ => none

lemma offerOf_eq_some {expected : BodyType} {awaited : Awaited} {reply : CmpHTTPResponse}
    {vo : VerifyOptions} {now : Time} {o : Offer}
    (h : c.offerOf expected awaited reply vo now = some o) :
    o.reply = reply ∧ (awaited = .first ∨ awaited = .poll) ∧
      reply.message.verify c.crypto vo now = .ok o.vr ∧ checkVersion reply = none ∧
      extractCertRespAndRep reply.message expected = .ok (o.certResp, o.rep) ∧
      Succeeded o.certResp ∧ c.extractCertificate o.certResp = .ok o.cert := by
  unfold offerOf at h
  split at h
  · next vr certResp rep hv hver hx =>
    split_ifs at h with hcond
    obtain ⟨cert, hcert, rfl⟩ := Option.map_eq_some_iff.mp h
    have hcert : c.extractCertificate certResp = .ok cert := by
      cases hx' : c.extractCertificate certResp with
      | error e =>
        rw [hx'] at hcert
        cases hcert
      | ok cert' =>
        rw [hx'] at hcert
        cases hcert
        rfl
    exact ⟨rfl, hcond.1, hv, hver, hx, hcond.2, hcert⟩
  · cases h

lemma offered_of_mem_offers {expected : BodyType} {tr : ClientHistory} {o : Offer}
    (h : o ∈ c.offers expected tr) : c.Offered expected tr o := by
  obtain ⟨a, ha, hsome⟩ := List.mem_filterMap.mp h
  split at hsome
  · next awaited reply vo now =>
    obtain ⟨rfl, haw, hv, hver, hx, hst, hcert⟩ := c.offerOf_eq_some hsome
    exact ⟨⟨awaited, vo, now, haw, ha, hv⟩, hver, hx, hst, hcert⟩
  · cases hsome

section

variable {c} {msg : PKIMessage} {ids : List ℤ} {expected : BodyType} {creds : Credentials}
variable {tr : ClientHistory} {o : Offer}

lemma Offered.not_waiting (h : c.Offered expected tr o) :
    o.certResp.status.status ≠ StatusWaiting := by
  intro hw
  rcases h.success with hs | hs
  · exact absurd (hw.symm.trans hs) (by decide)
  · exact absurd (hw.symm.trans hs) (by decide)

/-- An offer among two parts of a history. -/
lemma Offered.of_append {tr' : ClientHistory} (h : c.Offered expected (tr ++ tr') o) :
    c.Offered expected tr o ∨ c.Offered expected tr' o := by
  rcases accepts_append_iff.mp h.accepted with ha | ha
  · exact .inl ⟨ha, h.version, h.carries, h.success, h.parses⟩
  · exact .inr ⟨ha, h.version, h.carries, h.success, h.parses⟩

lemma Offered.append_left (h : c.Offered expected tr o) (tr' : ClientHistory) :
    c.Offered expected (tr ++ tr') o :=
  ⟨accepts_append_iff.mpr (.inl h.accepted), h.version, h.carries, h.success, h.parses⟩

lemma Offered.append_right (h : c.Offered expected tr o) (tr' : ClientHistory) :
    c.Offered expected (tr' ++ tr) o :=
  ⟨accepts_append_iff.mpr (.inr h.accepted), h.version, h.carries, h.success, h.parses⟩

lemma not_offered_of_local (h : ∀ a ∈ tr, a.op.Local) : ¬ c.Offered expected tr o :=
  fun ho => not_accepts_of_local h ho.accepted

/-- What the first exchange offers is in the reply it returns. -/
lemma Offered.of_exchanges {r : Except GoError (CmpHTTPResponse × VerifyResult)}
    (h : c.Offered expected tr o)
    (hx : c.Exchanges firstExchange msg creds c.trustedCAs none (fun _ => none) tr r) :
    r = .ok (o.reply, o.vr) := by
  obtain ⟨_, _, _, _, hmem, hv⟩ := h.accepted
  exact (hx.verified hmem hv).2

variable {reply : CmpHTTPResponse} {vr : VerifyResult}

lemma Offered.of_opens (h : c.Offered expected tr o) (hopen : c.Opens msg creds tr reply vr) :
    reply = o.reply ∧ vr = o.vr := by
  cases h.of_exchanges hopen.1
  exact ⟨rfl, rfl⟩

/-- Nothing is offered while the client is told to wait. -/
lemma Offered.not_of_waiting {certResp : CertResponse} {rep : CertRepMessage}
    (hopen : c.Opens msg creds tr reply vr)
    (hx : extractCertRespAndRep reply.message expected = .ok (certResp, rep))
    (hst : certResp.status.status = StatusWaiting) : ¬ c.Offered expected tr o := by
  intro h
  obtain ⟨rfl, -⟩ := h.of_opens hopen
  cases hx.symm.trans h.carries
  exact h.not_waiting hst

variable {knownSigner : Option Certificate}

/-- What is offered during the polling ends it. -/
lemma Offered.of_polls {first : PKIHeader} {certReqID : ℤ} {left : ℕ} {lastResp : PKIMessage}
    {r : PollResult} (h : c.Offered expected tr o)
    (hp : c.Polls first creds certReqID left lastResp knownSigner tr r) :
    r = { reply := some o.reply, verified := some o.vr } := by
  obtain ⟨htype, herr, hrep⟩ := type_of_extractCertRespAndRep h.carries
  have hend : c.pollReply o.reply o.vr = .inl { reply := some o.reply, verified := some o.vr } := by
    unfold pollReply
    rw [h.version]
    dsimp only
    rw [if_neg (htype ▸ herr), if_neg (htype ▸ hrep)]
  rcases hp.accepts h.accepted with hr | ⟨d, hd⟩
  · exact (Sum.inl.inj (hend.symm.trans hr)).symm
  · cases hend.symm.trans hd

/-- An enrollment that ends before there is a reply to judge it by was offered nothing. -/
lemma Ends.not_offered {out : EnrollOutcome} (hend : c.Ends msg ids expected creds tr out) :
    ¬ c.Offered expected tr o := by
  intro h
  cases hend with
  | failed hx => cases h.of_exchanges hx
  | version hx hv =>
    cases h.of_exchanges hx
    cases h.version.symm.trans hv
  | errored hopen ht =>
    obtain ⟨rfl, -⟩ := h.of_opens hopen
    obtain ⟨htype, herr, -⟩ := type_of_extractCertRespAndRep h.carries
    exact herr (htype.symm.trans ht)
  | unexpected hopen ht =>
    obtain ⟨rfl, -⟩ := h.of_opens hopen
    exact ht (type_of_extractCertRespAndRep h.carries).1
  | unextracted hopen hx =>
    obtain ⟨rfl, -⟩ := h.of_opens hopen
    cases hx.symm.trans h.carries
  | unmatched hopen hx hst => exact Offered.not_of_waiting hopen hx hst h
  | pollFailed hopen hx hst _ hpoll he =>
    rcases h.of_append with h | h
    · exact Offered.not_of_waiting hopen hx hst h
    · rw [h.of_polls hpoll] at he
      cases he
  | panicked hopen hx hst _ hpoll _ hr =>
    rcases h.of_append with h | h
    · exact Offered.not_of_waiting hopen hx hst h
    · rw [h.of_polls hpoll] at hr
      cases hr
  | unextractedPolled hopen hx hst _ hpoll hx' =>
    rcases h.of_append with h | h
    · exact Offered.not_of_waiting hopen hx hst h
    · cases h.of_polls hpoll
      cases hx'.symm.trans h.carries

/-- What is offered is in the reply that the enrollment is judged by. -/
lemma Offered.of_replied {certResp : CertResponse} {rep : CertRepMessage}
    (h : c.Offered expected tr o)
    (hrep : c.Replied msg ids expected creds tr reply vr knownSigner certResp rep) :
    reply = o.reply ∧ vr = o.vr ∧ certResp = o.certResp ∧ rep = o.rep := by
  cases hrep with
  | direct hopen hx =>
    obtain ⟨rfl, rfl⟩ := h.of_opens hopen
    cases hx.symm.trans h.carries
    exact ⟨rfl, rfl, rfl, rfl⟩
  | polled hopen hwait hst _ hpoll hx =>
    rcases h.of_append with h | h
    · exact absurd h (Offered.not_of_waiting hopen hwait hst)
    · cases h.of_polls hpoll
      cases hx.symm.trans h.carries
      exact ⟨rfl, rfl, rfl, rfl⟩

/-- At most one certificate is offered. -/
lemma Offered.unique {certResp : CertResponse} {rep : CertRepMessage} {o' : Offer}
    (h : c.Offered expected tr o) (h' : c.Offered expected tr o')
    (hrep : c.Replied msg ids expected creds tr reply vr knownSigner certResp rep) : o = o' := by
  obtain ⟨reply1, vr1, certResp1, rep1, cert1⟩ := o
  obtain ⟨reply2, vr2, certResp2, rep2, cert2⟩ := o'
  obtain ⟨rfl, rfl, rfl, rfl⟩ := h.of_replied hrep
  obtain ⟨rfl, rfl, rfl, rfl⟩ := h'.of_replied hrep
  cases h.parses.symm.trans h'.parses
  rfl

end

/-! ### The reply that is judged -/

section

variable {c} {msg : PKIMessage} {ids : List ℤ} {expected : BodyType} {creds : Credentials}
variable {tr : ClientHistory} {reply : CmpHTTPResponse} {vr : VerifyResult}

variable {knownSigner : Option Certificate}

lemma Exchanges.accepts {x : Exchange} {trustedCAs : Option (List Certificate)}
    {alternative : PKIMessage → Option Bytes}
    (h : c.Exchanges x msg creds trustedCAs knownSigner alternative tr (.ok (reply, vr)))
    (hx : x.awaited = .first ∨ x.awaited = .poll) : c.Accepts tr reply vr := by
  cases h with
  | accepted _ _ _ hv =>
    exact ⟨_, _, _, hx, List.mem_cons_of_mem _ List.mem_cons_self, hv.verified⟩

/-- The reply that ends the polling was verified in answer to the last poll. -/
lemma Polls.final {first : PKIHeader} {certReqID : ℤ} {left : ℕ} {lastResp : PKIMessage}
    {r : PollResult} (h : c.Polls first creds certReqID left lastResp knownSigner tr r)
    (hr : r = { reply := some reply, verified := some vr }) :
    c.Accepts tr reply vr ∧ checkVersion reply = none ∧
      ∃ last poll signer now, Follows first last (.pollReq [certReqID]) creds poll ∧
        c.Verified poll creds c.trustedCAs signer (pollAlternative first reply.message) reply vr
          now := by
  induction h with
  | exhausted | cancelled | unprotected | failed => cases hr
  | again _ _ _ _ _ ih =>
    obtain ⟨ha, hv, hlast⟩ := ih hr
    refine ⟨?_, hv, hlast⟩
    rw [accepts_append_iff, accepts_append_iff, accepts_append_iff]
    exact .inr (.inr (.inr ha))
  | @ended _ last poll _ _ _ _ _ _ _ _ h1 h2 h3 =>
    subst hr
    unfold pollReply at h3
    split at h3
    · cases h3
    · next hversion =>
      split_ifs at h3
      · cases h3
      · split at h3 <;> cases h3
      · cases h3
        refine ⟨?_, hversion, ?_⟩
        · rw [accepts_append_iff, accepts_append_iff]
          exact .inr (.inr (h2.accepts (.inr rfl)))
        · cases h2 with
          | accepted _ _ _ hv => exact ⟨last, poll, _, _, followUp_ok h1, hv⟩

/-- The reply that an enrollment is judged by was accepted. -/
lemma Replied.accepts {certResp : CertResponse} {rep : CertRepMessage}
    (h : c.Replied msg ids expected creds tr reply vr knownSigner certResp rep) :
    c.Accepts tr reply vr ∧ checkVersion reply = none ∧
      extractCertRespAndRep reply.message expected = .ok (certResp, rep) := by
  cases h with
  | direct hopen hx => exact ⟨hopen.1.accepts (.inl rfl), hopen.2, hx⟩
  | polled _ _ _ _ hpoll hx =>
    obtain ⟨ha, hv, -⟩ := hpoll.final rfl
    exact ⟨accepts_append_iff.mpr (.inr ha), hv, hx⟩

end

/-! ### Messages before the certConf -/

section

variable {c} {msg : PKIMessage} {ids : List ℤ} {expected : BodyType} {creds : Credentials}
variable {tr : ClientHistory}

variable {knownSigner : Option Certificate}

/-- One poll posts at most its pollReq. -/
lemma sends_of_poll {op : String} {first : PKIHeader} {last poll : PKIMessage} {body : PKIBody}
    {trustedCAs : Option (List Certificate)} {alternative : PKIMessage → Option Bytes}
    {x : Exchange} {tr0 tr1 tr2 : ClientHistory}
    {r : Except GoError (CmpHTTPResponse × VerifyResult)} (h0 : ∀ a ∈ tr0, a.op.Local)
    (h1 : Prog.Steps (c.followUp op first last body creds) tr1 (.ret (.ok poll)))
    (h2 : c.Exchanges x poll creds trustedCAs knownSigner alternative tr2 r) :
    ∃ msgs, Sends (tr0 ++ (tr1 ++ tr2)) msgs ∧ ∀ m ∈ msgs, m.body = body := by
  have hbefore : Sends (tr0 ++ tr1) [] :=
    (Sends.of_local h0).append (.of_local (local_of_followUp h1))
  rw [← List.append_assoc]
  rcases h2.sends with ⟨e, -, rfl⟩ | hsent
  · exact ⟨[], hbefore.append rfl, List.forall_mem_nil _⟩
  · refine ⟨[poll], hbefore.append hsent, fun m hm => ?_⟩
    rw [List.mem_singleton.mp hm]
    exact (followUp_ok h1).body

lemma Polls.sends {first : PKIHeader} {certReqID : ℤ} {left : ℕ} {lastResp : PKIMessage}
    {r : PollResult} (h : c.Polls first creds certReqID left lastResp knownSigner tr r) :
    ∃ msgs, Sends tr msgs ∧ ∀ m ∈ msgs, m.body = .pollReq [certReqID] := by
  induction h with
  | exhausted => exact ⟨[], rfl, List.forall_mem_nil _⟩
  | cancelled => exact ⟨[], rfl, List.forall_mem_nil _⟩
  | unprotected h0 h1 =>
    exact ⟨[], (Sends.of_local h0).append (.of_local (local_of_followUp h1)),
      List.forall_mem_nil _⟩
  | failed h0 h1 h2 => exact sends_of_poll h0 h1 h2
  | ended h0 h1 h2 h3 => exact sends_of_poll h0 h1 h2
  | again h0 h1 h2 h3 h4 ih =>
    obtain ⟨msgs, hmsgs, hbody⟩ := sends_of_poll h0 h1 h2
    obtain ⟨msgs', hmsgs', hbody'⟩ := ih
    refine ⟨msgs ++ msgs', ?_, List.forall_mem_append.mpr ⟨hbody, hbody'⟩⟩
    have hsent := hmsgs.append hmsgs'
    rwa [List.append_assoc, List.append_assoc] at hsent

/-- Before the certConf only the request and pollReqs are sent, the request first. -/
def Asks (msg : PKIMessage) (tr : ClientHistory) : Prop :=
  ∃ polls, Sends tr (msg :: polls) ∧ ∀ m ∈ polls, ∃ id, m.body = .pollReq [id]

lemma Opens.sends {reply : CmpHTTPResponse} {vr : VerifyResult}
    (h : c.Opens msg creds tr reply vr) : Sends tr [msg] := by
  cases h.1 with
  | accepted hder => exact congrArg (· :: []) hder

lemma Asks.append_polls {tr' : ClientHistory} {first : PKIHeader} {certReqID : ℤ} {left : ℕ}
    {lastResp : PKIMessage} {r : PollResult} (h : Sends tr [msg])
    (hp : c.Polls first creds certReqID left lastResp knownSigner tr' r) :
    Asks msg (tr ++ tr') := by
  obtain ⟨msgs, hmsgs, hbody⟩ := hp.sends
  exact ⟨msgs, h.append hmsgs, fun m hm => ⟨_, hbody m hm⟩⟩

lemma Asks.of_opens {reply : CmpHTTPResponse} {vr : VerifyResult}
    (h : c.Opens msg creds tr reply vr) : Asks msg tr :=
  ⟨[], h.sends, List.forall_mem_nil _⟩

/-- Without a reply to judge the enrollment by, there is nothing but requests. -/
lemma Ends.asks {out : EnrollOutcome} (h : c.Ends msg ids expected creds tr out) :
    Sends tr [] ∨ Asks msg tr := by
  cases h with
  | failed hx =>
    rcases hx.sends with ⟨e, -, rfl⟩ | hsent
    · exact .inl rfl
    · exact .inr ⟨[], hsent, List.forall_mem_nil _⟩
  | version hx =>
    rcases hx.sends with ⟨e, -, rfl⟩ | hsent
    · exact .inl rfl
    · exact .inr ⟨[], hsent, List.forall_mem_nil _⟩
  | errored hopen | unexpected hopen | unextracted hopen | unmatched hopen =>
    exact .inr (.of_opens hopen)
  | pollFailed hopen _ _ _ hpoll | panicked hopen _ _ _ hpoll
  | unextractedPolled hopen _ _ _ hpoll =>
    exact .inr (.append_polls hopen.sends hpoll)

lemma Replied.asks {reply : CmpHTTPResponse} {vr : VerifyResult} {certResp : CertResponse}
    {rep : CertRepMessage}
    (h : c.Replied msg ids expected creds tr reply vr knownSigner certResp rep) : Asks msg tr := by
  cases h with
  | direct hopen => exact .of_opens hopen
  | polled hopen _ _ _ hpoll => exact .append_polls hopen.sends hpoll

end

/-! ### The certConf -/

/-- What is held against the certificate: its certReqId, its chain, or its key. -/
def Refuses (reqBody : PKIBody) (requestedKey : Option PublicKey) (o : Offer) (now : Time) : Prop :=
  ¬ Allows reqBody o.certResp.certReqID ∨
    ¬ c.Chains o.cert (c.poolFor (some o.vr) o.rep) (c.candidatesFor o.reply o.rep) now ∨
    ¬ c.Certifies o.cert requestedKey ∨ ¬ Comparable requestedKey

/-- The certConf `conf` reports the verdict on the offer, in the transaction of `first`. -/
structure Reports (first : PKIMessage) (o : Offer) (refused : Prop) (conf : PKIMessage) : Prop where
  status : ∃ status f, conf.body = .certConf [status] ∧
    confirmationHash c.crypto o.cert = some f ∧ status.certHash = c.crypto.hash f o.cert.raw ∧
    status.certReqID = o.certResp.certReqID ∧
    ((∃ info, status.statusInfo = some info ∧ info.status = StatusRejection) ↔ refused)
  transactionID : conf.header.transactionID = first.header.transactionID
  sender : conf.header.sender = first.header.sender
  recipient : conf.header.recipient = first.header.recipient
  senderKID : conf.header.senderKID = first.header.senderKID
  recipNonce : conf.header.recipNonce = o.reply.message.header.senderNonce

/-- The operations end with a certConf that could not be protected or encoded. -/
def Unsendable (first : PKIMessage) (o : Offer) (creds : Credentials) (tr : ClientHistory) : Prop :=
  ∃ status tr1 tr2 r, tr = tr1 ++ tr2 ∧
    Prog.Steps (c.followUp "protect certConf" first.header o.reply.message (.certConf [status])
      creds) tr2 (.ret r) ∧
    ∀ m, r = .ok m → ∃ e, m.marshalBinary = .error e

section

variable {c} {tr : ClientHistory}

/-- `sendCertConf` posts its message, unless it cannot be made. -/
lemma Confirms.sends {conf : CertConfirmation} {status : CertStatus} {err : Option GoError}
    (h : c.Confirms conf status tr err) :
    (Sends tr [] ∧ ∃ r, Prog.Steps (c.followUp "protect certConf" conf.req.header conf.resp
        (.certConf [status]) conf.creds) tr (.ret r) ∧
      ∀ m, r = .ok m → ∃ e, m.marshalBinary = .error e) ∨
    ∃ m, Sends tr [m] ∧ Follows conf.req.header conf.resp (.certConf [status]) conf.creds m := by
  cases h with
  | unprotected h => exact .inl ⟨.of_local (local_of_followUp h), _, h, nofun⟩
  | failed h1 h2 =>
    rcases h2.sends with ⟨e, he, rfl⟩ | hsent
    · rw [List.append_nil]
      refine .inl ⟨.of_local (local_of_followUp h1), _, h1, ?_⟩
      rintro m ⟨⟩
      exact ⟨e, he⟩
    · exact .inr ⟨_, (Sends.of_local (local_of_followUp h1)).append hsent, followUp_ok h1⟩
  | answered h1 h2 =>
    rcases h2.sends with ⟨e, he, rfl⟩ | hsent
    · cases h2
    · exact .inr ⟨_, (Sends.of_local (local_of_followUp h1)).append hsent, followUp_ok h1⟩

/-- Nothing is accepted while a certConf is sent. -/
lemma Confirms.not_accepts {conf : CertConfirmation} {status : CertStatus} {err : Option GoError}
    {reply : CmpHTTPResponse} {vr : VerifyResult} (h : c.Confirms conf status tr err) :
    ¬ c.Accepts tr reply vr := by
  have hx : ∀ {m : PKIMessage} {tr2 : ClientHistory}
      {r : Except GoError (CmpHTTPResponse × VerifyResult)},
      c.Exchanges (certConfExchange status.statusInfo.isSome) m conf.creds conf.trustPool
        conf.knownSigner (fun _ => none) tr2 r → ¬ c.Accepts tr2 reply vr := by
    rintro m tr2 r hx ⟨awaited, _, _, ha, hmem, hv⟩
    obtain ⟨rfl, -⟩ := hx.verified hmem hv
    rcases ha with ha | ha <;> cases ha
  cases h with
  | unprotected h => exact not_accepts_of_local (local_of_followUp h)
  | failed h1 h2 | answered h1 h2 =>
    rw [accepts_append_iff, not_or]
    exact ⟨not_accepts_of_local (local_of_followUp h1), hx h2⟩

/-- The certConf that is sent for an offer. -/
lemma Confirms.reports {msg : PKIMessage} {creds : Credentials} {knownSigner : Option Certificate}
    {o : Offer} {status : CertStatus} {err : Option GoError} {refused : Prop} {f : Hash}
    (h : c.Confirms (c.confirmationFor msg creds o.reply (some o.vr) knownSigner o.rep) status tr
      err) (hkid : creds.senderKID msg.header.senderKID = msg.header.senderKID)
    (hf : confirmationHash c.crypto o.cert = some f)
    (hhash : status.certHash = c.crypto.hash f o.cert.raw)
    (hid : status.certReqID = o.certResp.certReqID)
    (hinfo : (∃ info, status.statusInfo = some info ∧ info.status = StatusRejection) ↔ refused) :
    ∃ confs, Sends tr confs ∧ confs.length ≤ 1 ∧ (∀ conf ∈ confs, c.Reports msg o refused conf) ∧
      (confs = [] → c.Unsendable msg o creds tr) := by
  rcases h.sends with ⟨hsent, r, hsteps, hr⟩ | ⟨m, hsent, hm⟩
  · exact ⟨[], hsent, Nat.zero_le 1, List.forall_mem_nil _, fun _ =>
      ⟨status, [], tr, r, rfl, hsteps, hr⟩⟩
  · refine ⟨[m], hsent, le_rfl, fun conf hconf => ?_, nofun⟩
    rw [List.mem_singleton.mp hconf]
    exact ⟨⟨status, f, hm.body, hf, hhash, hid, hinfo⟩, hm.transactionID, hm.sender, hm.recipient,
      hm.senderKID.trans hkid, hm.recipNonce⟩

end

/-- How an enrollment concludes with an offer: the certConf that it sends, if any, and its
result. -/
structure Handles (reqBody : PKIBody) (requestedKey : Option PublicKey) (creds : Credentials)
    (first : PKIMessage) (o : Offer) (now : Time) (tr : ClientHistory) (confs : List PKIMessage)
    (out : EnrollOutcome) : Prop where
  sends : Sends tr confs
  single : confs.length ≤ 1
  clock : Allows reqBody o.certResp.certReqID → c.poolFor (some o.vr) o.rep ≠ none →
    ⟨.now, now⟩ ∈ tr
  reports : ∀ conf ∈ confs, c.Reports first o (c.Refuses reqBody requestedKey o now) conf
  refused : c.Refuses reqBody requestedKey o now → ∃ e, out = .failed e
  unsent : confs = [] → confirmationHash c.crypto o.cert = none ∨ c.Unsendable first o creds tr

section

variable {c} {reqBody : PKIBody} {expected : BodyType} {requestedKey : Option PublicKey}
variable {creds : Credentials} {ids : List ℤ} {msg : PKIMessage} {tr : ClientHistory} {o : Offer}
variable {out : EnrollOutcome}

lemma allows_iff (hids : answeringCertReqIDs reqBody = .ok ids) {id : ℤ} :
    Allows reqBody id ↔ id ∈ ids := by
  constructor
  · rintro ⟨ids', hids', h⟩
    cases hids.symm.trans hids'
    exact h
  · exact fun h => ⟨ids, hids, h⟩

/-- An offer is refused when the verdict is against it. -/
lemma refuses_iff (hids : answeringCertReqIDs reqBody = .ok ids) {now : Time} :
    c.Refuses reqBody requestedKey o now ↔
      c.verdict o.cert o.certResp ids requestedKey (c.poolFor (some o.vr) o.rep)
        (c.candidatesFor o.reply o.rep) now ≠ none := by
  rw [ne_eq, verdict_eq_none_iff, Refuses, allows_iff hids, not_and_or, not_and_or, not_and_or]

/-- Protecting another message leaves the senderKID of the first one as it is. -/
lemma Begins.senderKID_kept {opts : RequestOptions} (h : c.Begins reqBody creds opts msg) :
    creds.senderKID msg.header.senderKID = msg.header.senderKID := by
  rw [h.senderKID, Credentials.senderKID_idem]

variable {knownSigner : Option Certificate}

/-- **The end of an enrollment with an offer.** -/
lemma Concludes.handles (hids : answeringCertReqIDs reqBody = .ok ids)
    (h : c.Concludes msg ids creds requestedKey o.reply (some o.vr) knownSigner o.certResp o.rep tr
      out)
    (hst : Succeeded o.certResp) (hcert : c.extractCertificate o.certResp = .ok o.cert)
    (hkid : creds.senderKID msg.header.senderKID = msg.header.senderKID) :
    ∃ confs now, c.Handles reqBody requestedKey creds msg o now tr confs out := by
  cases h with
  | unsuccessful h => exact absurd hst h
  | unparsed _ h => cases h.symm.trans hcert
  | @refused _ now _ _ _ _ _ _ hcert' h0 hnow hv h1 =>
    cases hcert'.symm.trans hcert
    have hrefuses : c.Refuses reqBody requestedKey o now := by
      rw [refuses_iff hids, hv]
      exact Option.some_ne_none _
    have hclock := fun ha => hnow ((allows_iff hids).mp ha)
    cases h1 with
    | unhashed h =>
      rw [List.append_nil]
      exact ⟨[], now, .of_local h0, Nat.zero_le 1, hclock, List.forall_mem_nil _,
        fun _ => ⟨_, rfl⟩, fun _ => .inl (newCertStatus_error h)⟩
    | sent hstatus hconf =>
      obtain ⟨hid, f, hf, hhash⟩ := newCertStatus_ok hstatus
      obtain ⟨confs, hsent, hone, hreports, hunsent⟩ := hconf.reports hkid hf hhash hid
        (iff_of_true ⟨_, rfl, rfl⟩ hrefuses)
      refine ⟨confs, now, (Sends.of_local h0).append hsent, hone,
        fun ha hpool => List.mem_append_left _ (hclock ha hpool), hreports,
        fun _ => ⟨_, rfl⟩, fun hnil => .inr ?_⟩
      obtain ⟨status, tr1, tr2, r, rfl, hsteps, hr⟩ := hunsent hnil
      exact ⟨status, _, tr2, r, (List.append_assoc ..).symm, hsteps, hr⟩
  | @unhashed _ now _ _ _ hcert' h0 hnow hv h =>
    cases hcert'.symm.trans hcert
    exact ⟨[], now, .of_local h0, Nat.zero_le 1, fun ha => hnow ((allows_iff hids).mp ha),
      List.forall_mem_nil _, fun _ => ⟨_, rfl⟩, fun _ => .inl (newCertStatus_error h)⟩
  | @confirmed _ now _ err _ _ _ hcert' h0 hnow hv hstatus hconf =>
    cases hcert'.symm.trans hcert
    have hkept : ¬ c.Refuses reqBody requestedKey o now := by
      rw [refuses_iff hids, hv]
      exact not_not.mpr rfl
    obtain ⟨hid, f, hf, hhash⟩ := newCertStatus_ok hstatus
    obtain ⟨confs, hsent, hone, hreports, hunsent⟩ := hconf.reports hkid hf hhash hid
      (iff_of_false (by simp [newCertStatus_statusInfo hstatus]) hkept)
    refine ⟨confs, now, (Sends.of_local h0).append hsent, hone,
      fun ha hpool => List.mem_append_left _ (hnow ((allows_iff hids).mp ha) hpool), hreports,
      fun h => absurd h hkept, fun hnil => .inr ?_⟩
    obtain ⟨status, tr1, tr2, r, rfl, hsteps, hr⟩ := hunsent hnil
    exact ⟨status, _, tr2, r, (List.append_assoc ..).symm, hsteps, hr⟩

/-- Nothing is accepted any more once an enrollment is judged. -/
lemma Concludes.not_accepts {reply reply' : CmpHTTPResponse} {vr : Option VerifyResult}
    {vr' : VerifyResult} {certResp : CertResponse} {rep : CertRepMessage}
    (h : c.Concludes msg ids creds requestedKey reply vr knownSigner certResp rep tr out) :
    ¬ c.Accepts tr reply' vr' := by
  cases h with
  | unsuccessful | unparsed => exact not_accepts_of_local (List.forall_mem_nil _)
  | unhashed _ _ h0 => exact not_accepts_of_local h0
  | refused _ _ h0 _ _ h1 =>
    rw [accepts_append_iff, not_or]
    refine ⟨not_accepts_of_local h0, ?_⟩
    cases h1 with
    | unhashed => exact not_accepts_of_local (List.forall_mem_nil _)
    | sent _ hconf => exact hconf.not_accepts
  | confirmed _ _ h0 _ _ _ hconf =>
    rw [accepts_append_iff, not_or]
    exact ⟨not_accepts_of_local h0, hconf.not_accepts⟩

/-- Without a certificate and a status of success there is nothing to confirm. -/
lemma Concludes.eq_nil_or {reply : CmpHTTPResponse} {vr : Option VerifyResult}
    {certResp : CertResponse} {rep : CertRepMessage}
    (h : c.Concludes msg ids creds requestedKey reply vr knownSigner certResp rep tr out) :
    tr = [] ∨ Succeeded certResp ∧ ∃ cert, c.extractCertificate certResp = .ok cert := by
  cases h with
  | unsuccessful | unparsed => exact .inl rfl
  | refused hst hcert | unhashed hst hcert | confirmed hst hcert => exact .inr ⟨hst, _, hcert⟩

/-- A certConf is not a request. -/
lemma type_of_answeringCertReqIDs (hids : answeringCertReqIDs reqBody = .ok ids) :
    reqBody.type ≠ BodyTypeCertConf := by
  intro htype
  unfold answeringCertReqIDs at hids
  rw [htype, if_neg (by decide)] at hids
  cases hmsgs : reqBody.getCertReqMessages with
  | error e =>
    rw [hmsgs] at hids
    cases hids
  | ok msgs =>
    unfold PKIBody.getCertReqMessages at hmsgs
    rw [htype] at hmsgs
    cases hmsgs

/-- Neither the request nor the polls are certConfs. -/
lemma not_certConf_of_asks {opts : RequestOptions} {polls : List PKIMessage}
    (hids : answeringCertReqIDs reqBody = .ok ids) (hmsg : c.Begins reqBody creds opts msg)
    (hpolls : ∀ m ∈ polls, ∃ id, m.body = .pollReq [id]) :
    ∀ m ∈ msg :: polls, m.body.type ≠ BodyTypeCertConf := by
  intro m hm
  rcases List.mem_cons.mp hm with rfl | hm
  · rw [hmsg.body]
    exact type_of_answeringCertReqIDs hids
  · obtain ⟨id, hbody⟩ := hpolls m hm
    rw [hbody]
    show BodyTypePollReq ≠ BodyTypeCertConf
    decide

/-- **The client confirms exactly what it decided.**  It sends at most one certConf, after the
reply that carries the certificate; the certConf repeats the transaction, the hash and the
certReqId, and says rejection when the certReqId is not allowed, the certificate does not chain
to the pool, or its key is not the one that was asked for or cannot be compared with it.  A
refused certificate is not returned, and without a certConf there is no hash or the message
could not be made. -/
theorem certConf_reports {creds : Option Credentials} {opts : RequestOptions}
    (hs : Prog.Steps (c.enroll reqBody expected creds opts requestedKey) tr (.ret out)) :
    ∃ msgs confs, Sends tr (msgs ++ confs) ∧ (∀ m ∈ msgs, m.body.type ≠ BodyTypeCertConf) ∧
      confs.length ≤ 1 ∧ (confs ≠ [] → ∃ o, c.Offered expected tr o) ∧
      ∀ o, c.Offered expected tr o → ∃ k first polls tr1 tr2 now, creds = some k ∧
        msgs = first :: polls ∧ tr = tr1 ++ tr2 ∧ Sends tr1 msgs ∧ c.Offered expected tr1 o ∧
        c.Handles reqBody requestedKey k first o now tr2 confs out := by
  cases enroll_steps hs with
  | unread => exact ⟨[], [], rfl, nofun, Nat.zero_le 1, nofun, fun o ho =>
    absurd ho (not_offered_of_local (List.forall_mem_nil _))⟩
  | anonymous => exact ⟨[], [], rfl, nofun, Nat.zero_le 1, nofun, fun o ho =>
    absurd ho (not_offered_of_local (List.forall_mem_nil _))⟩
  | unprotected h =>
    have hlocal := local_of_newRequest h
    exact ⟨[], [], .of_local hlocal, nofun, Nat.zero_le 1, nofun, fun o ho =>
      absurd ho (not_offered_of_local hlocal)⟩
  | @ended _ _ msg _ _ _ hids h0 hend =>
    have hlocal := local_of_newRequest h0
    have hnone : ∀ o, ¬ c.Offered expected _ o := fun o ho =>
      ho.of_append.elim (not_offered_of_local hlocal) hend.not_offered
    rcases hend.asks with hsent | ⟨polls, hsent, hpolls⟩
    · exact ⟨[], [], (Sends.of_local hlocal).append hsent, nofun, Nat.zero_le 1, nofun,
        fun o ho => absurd ho (hnone o)⟩
    · refine ⟨msg :: polls, [], ?_, not_certConf_of_asks hids (newRequest_ok h0) hpolls,
        Nat.zero_le 1, nofun, fun o ho => absurd ho (hnone o)⟩
      rw [List.append_nil]
      exact (Sends.of_local hlocal).append hsent
  | @concluded k _ msg tr0 tr1 tr2 reply vr _ certResp rep _ hids h0 hrep hcon =>
    have hlocal := local_of_newRequest h0
    have hmsg := newRequest_ok h0
    obtain ⟨polls, hsent, hpolls⟩ := hrep.asks
    have hasked : Sends (tr0 ++ tr1) (msg :: polls) := (Sends.of_local hlocal).append hsent
    have hkind := not_certConf_of_asks hids hmsg hpolls
    -- what is offered is what the reply carries
    have honly : ∀ o, c.Offered expected (tr0 ++ (tr1 ++ tr2)) o → c.Offered expected tr1 o := by
      intro o ho
      rcases ho.of_append with ho | ho
      · exact absurd ho (not_offered_of_local hlocal)
      · exact ho.of_append.resolve_right fun ho => hcon.not_accepts ho.accepted
    rw [← List.append_assoc] at honly ⊢
    by_cases hoff : ∃ o, c.Offered expected tr1 o
    · obtain ⟨o, ho⟩ := hoff
      obtain ⟨rfl, rfl, rfl, rfl⟩ := ho.of_replied hrep
      obtain ⟨confs, now, hh⟩ := hcon.handles hids ho.success ho.parses hmsg.senderKID_kept
      have ho1 : c.Offered expected (tr0 ++ tr1) o := ho.append_right tr0
      refine ⟨msg :: polls, confs, hasked.append hh.sends, hkind, hh.single,
        fun _ => ⟨o, ho1.append_left tr2⟩, fun o' ho' => ?_⟩
      obtain rfl := ho.unique (honly o' ho') hrep
      exact ⟨k, msg, polls, _, _, now, rfl, rfl, rfl, hasked, ho1, hh⟩
    · obtain rfl : tr2 = [] := by
        refine hcon.eq_nil_or.resolve_right fun ⟨hst, cert, hcert⟩ => hoff ?_
        obtain ⟨hacc, hv, hx⟩ := hrep.accepts
        exact ⟨⟨reply, vr, certResp, rep, cert⟩, hacc, hv, hx, hst, hcert⟩
      exact ⟨msg :: polls, [], hasked.append rfl, hkind, Nat.zero_le 1, nofun,
        fun o ho => absurd ⟨o, honly o ho⟩ hoff⟩

end

/-! ### The certificate that is returned -/

/-- The reply that carries the certificate answers the request, and the certificate is the
one that was asked for. -/
structure Answers (reqBody : PKIBody) (expected : BodyType) (requestedKey : Option PublicKey)
    (creds : Credentials) (first : PKIMessage) (o : Offer) : Prop where
  authentic : o.vr.macVerified = true ∧ o.reply.message.Maced c.crypto (sharedSecret creds) ∨
    o.vr.macVerified = false ∧ ∃ cert signer now, o.reply.message.Signed c.crypto
      (c.verifyOptions o.reply.message creds c.trustedCAs signer) now cert
  transactionID : o.reply.message.header.transactionID = first.header.transactionID
  version : o.reply.message.header.pvno = PVNO2 ∨ o.reply.message.header.pvno = PVNO3
  type : o.reply.message.body.type = expected
  single : certRep o.reply.message expected = .ok o.rep ∧ o.rep.response = [o.certResp]
  success : Succeeded o.certResp
  allowed : Allows reqBody o.certResp.certReqID
  certifies : c.Certifies o.cert requestedKey
  chains : (c.trustedCAs ≠ none ∨
      o.vr.macVerified = true ∧ c.parseCMPCertificates o.rep.caPubs ≠ []) →
    ∃ now u, c.crypto.verifyPath o.cert (c.trustedCAs.getD [] ++
        if o.vr.macVerified then c.parseCMPCertificates o.rep.caPubs else [])
      (c.candidatesFor o.reply o.rep) now = .ok u

section

variable {c} {reqBody : PKIBody} {expected : BodyType} {requestedKey : Option PublicKey}
variable {creds : Credentials} {ids : List ℤ} {msg : PKIMessage} {tr : ClientHistory}
variable {reply : CmpHTTPResponse} {vr : VerifyResult}

lemma version_of_checkVersion (h : checkVersion reply = none) :
    reply.message.header.pvno = PVNO2 ∨ reply.message.header.pvno = PVNO3 := by
  unfold checkVersion at h
  dsimp only at h
  split_ifs at h with hv
  simp only [PVNO2, PVNO3] at hv ⊢
  omega

variable {rep : CertRepMessage}

lemma response_of_extractCertRespAndRep {m : PKIMessage} {certResp : CertResponse}
    (h : extractCertRespAndRep m expected = .ok (certResp, rep)) :
    certRep m expected = .ok rep ∧ rep.response = [certResp] := by
  obtain ⟨rep', hrep, h⟩ := Except.bind_eq_ok.mp h
  split at h
  · cases h
  · next r hr =>
    cases h
    exact ⟨hrep, hr⟩
  · cases h

/-- The reply that an enrollment is judged by was verified against the trusted CAs. -/
lemma Replied.verified {knownSigner : Option Certificate} {certResp : CertResponse}
    (h : c.Replied msg ids expected creds tr reply vr knownSigner certResp rep) :
    ∃ m signer alternative now, m.header.transactionID = msg.header.transactionID ∧
      c.Verified m creds c.trustedCAs signer alternative reply vr now := by
  cases h with
  | direct hopen =>
    cases hopen.1 with
    | accepted _ _ _ hv => exact ⟨msg, none, _, _, rfl, hv⟩
  | polled _ _ _ _ hpoll =>
    obtain ⟨-, -, _, poll, signer, now, hfollows, hv⟩ := hpoll.final rfl
    exact ⟨poll, signer, _, now, hfollows.transactionID, hv⟩

/-- A certificate that passes the checks chains to the trusted CAs, extended by the caPubs of
a reply with a MAC. -/
lemma chains_of_pool {cert : Certificate} {candidates : List Certificate} {now : Time}
    (h : c.Chains cert (c.poolFor (some vr) rep) candidates now)
    (hpool : c.trustedCAs ≠ none ∨ vr.macVerified = true ∧ c.parseCMPCertificates rep.caPubs ≠ []) :
    ∃ u, c.crypto.verifyPath cert (c.trustedCAs.getD [] ++
      if vr.macVerified then c.parseCMPCertificates rep.caPubs else []) candidates now = .ok u := by
  refine h _ ?_
  unfold poolFor enrollmentTrustPool
  simp only [Option.any_some]
  by_cases hmac : vr.macVerified = true
  · by_cases hpubs : c.parseCMPCertificates rep.caPubs = []
    · have htrusted : c.trustedCAs ≠ none := hpool.resolve_right fun h => h.2 hpubs
      obtain ⟨roots, hroots⟩ := Option.ne_none_iff_exists'.mp htrusted
      simp [hpubs, hroots]
    · simp [hmac, hpubs]
  · have htrusted : c.trustedCAs ≠ none := hpool.resolve_right fun h => hmac h.1
    obtain ⟨roots, hroots⟩ := Option.ne_none_iff_exists'.mp htrusted
    simp [hmac, hroots]

lemma Ends.no_result {out : EnrollOutcome} (h : c.Ends msg ids expected creds tr out)
    {res : EnrollResult} {err : Option GoError} : out ≠ some (some res, err) := by
  cases h <;> nofun

/-- A result is returned only for a certificate that nothing is held against. -/
lemma Concludes.of_result {vr : Option VerifyResult} {knownSigner : Option Certificate}
    {certResp : CertResponse} {out : EnrollOutcome} {res : EnrollResult} {err : Option GoError}
    (h : c.Concludes msg ids creds requestedKey reply vr knownSigner certResp rep tr out)
    (hout : out = some (some res, err)) :
    Succeeded certResp ∧ c.extractCertificate certResp = .ok res.certificate ∧
      ∃ now, c.verdict res.certificate certResp ids requestedKey (c.poolFor vr rep)
        (c.candidatesFor reply rep) now = none := by
  cases h with
  | unsuccessful | unparsed | refused | unhashed => cases hout
  | @confirmed cert now _ err' _ _ hst hcert _ _ hv =>
    cases err' with
    | some e => cases hout
    | none =>
      cases hout
      exact ⟨hst, hcert, now, hv⟩

/-- **A certificate that the client returns is the one it asked for**, and the reply that
carries it was authenticated. -/
theorem enroll_returns_requested {creds : Option Credentials} {opts : RequestOptions}
    {res : EnrollResult} {err : Option GoError}
    (hs : Prog.Steps (c.enroll reqBody expected creds opts requestedKey) tr
      (.ret (some (some res, err)))) :
    ∃ k first rest o, creds = some k ∧ Sends tr (first :: rest) ∧ first.body = reqBody ∧
      c.Offered expected tr o ∧ o.cert = res.certificate ∧
      c.Answers reqBody expected requestedKey k first o := by
  generalize hout : (some (some res, err) : EnrollOutcome) = out at hs
  cases enroll_steps hs with
  | unread | anonymous | unprotected => cases hout
  | ended _ _ hend => exact absurd hout.symm hend.no_result
  | @concluded k ids msg tr0 tr1 tr2 reply vr _ certResp rep _ hids h0 hrep hcon =>
    obtain ⟨hst, hcert, now, hverdict⟩ := hcon.of_result hout.symm
    obtain ⟨hid, hchains, hcertifies, -⟩ := (c.verdict_eq_none_iff ..).mp hverdict
    obtain ⟨hacc, hversion, hx⟩ := hrep.accepts
    obtain ⟨m, signer, alternative, time, htxn, hv⟩ := hrep.verified
    obtain ⟨polls, hsent, -⟩ := hrep.asks
    have ho : c.Offered expected tr1 ⟨reply, vr, certResp, rep, res.certificate⟩ :=
      ⟨hacc, hversion, hx, hst, hcert⟩
    obtain ⟨confs, _, hh⟩ := Concludes.handles (o := ⟨reply, vr, certResp, rep, res.certificate⟩)
      hids hcon hst hcert (newRequest_ok h0).senderKID_kept
    have hsends : Sends (tr0 ++ (tr1 ++ tr2)) (msg :: (polls ++ confs)) :=
      (Sends.of_local (local_of_newRequest h0)).append (hsent.append hh.sends)
    refine ⟨k, msg, _, _, rfl, hsends, (newRequest_ok h0).body,
      (ho.append_left tr2).append_right tr0, rfl, ?_, hv.transactionID.trans htxn,
      version_of_checkVersion hversion, (type_of_extractCertRespAndRep hx).1,
      response_of_extractCertRespAndRep hx, hst, (allows_iff hids).mpr hid, hcertifies, fun hpool =>
        ⟨now, chains_of_pool hchains hpool⟩⟩
    rcases PKIMessage.verify_authentic rfl hv.verified with ⟨hmac, hm⟩ | ⟨cert, hvr, hsigned⟩
    · exact .inl ⟨hmac, hm⟩
    · exact .inr ⟨congrArg VerifyResult.macVerified hvr, cert, signer, time, hsigned⟩

end

/-! ### Concrete enrollments -/

/-- A certificate for a key of the given type. -/
def keyedCertificate (type : KeyType) (raw : Bytes) : Certificate :=
  { raw, publicKey := some ⟨type, []⟩, signatureAlgorithm := .ecdsaWithSHA256 }

/-- Libraries for which every certificate and request is for the same key. -/
def keyedCrypto (type : KeyType) : Crypto :=
  { Crypto.sample with
    parseCertificate := fun raw => .ok (keyedCertificate type raw)
    parsePKIXPublicKey := fun _ => .ok ⟨type, []⟩ }

/-- A reply with the given nonce and body, protected with the shared secret. -/
def sampleReply (recipNonce : Bytes) (body : PKIBody) : Except GoError Bytes :=
  let m : PKIMessage :=
    { header :=
        { pvno := PVNO2, sender := {}, recipient := {}, transactionID := List.replicate 16 0
          recipNonce }
      body }
  match sampleCreds.prepare .sample (List.replicate 16 0) m with
  | (_, .error e) => .error e
  | (m, .ok (s, data)) => do
      let protection ← s.compute .sample data
      { m with protection }.marshalBinary

/-- A CA that issues a certificate and confirms it. -/
def issuingPeer : (o : ClientEffect) → Option o.Res
  | .random => some ⟨List.replicate 16 0, length_zeros⟩
  | .now => some 0
  | .seal s data => some (s.compute .sample data)
  | .post der =>
    let body : PKIBody :=
      match parsePKIMessage der with
      | .ok m => if m.body.type = BodyTypeCertConf then .pkiConf else
          .cp { response := [{ certReqID := 0, status := { status := StatusAccepted }
                               certifiedKeyPair :=
                                 some { certOrEncCert := .certificate ⟨[48, 0]⟩ } }] }
      | .error _ => .pkiConf
    (sampleReply (List.replicate 16 0) body).toOption.map fun body =>
      .ok ⟨200, [], some (str "application/pkixcmp"), body⟩
  | .wait _ => some none
  | .verifyTime .. => some 0

/-- The client of these enrollments. -/
def keyedClient (type : KeyType) : Client := { crypto := keyedCrypto type }

/-- The body of its request. -/
def keyedBody : PKIBody := .p10cr { raw := [48, 0], rawSubjectPublicKeyInfo := [48, 0] }

/-- A client that asks for a certificate with a CSR. -/
def keyedEnroll (type : KeyType) : ClientProg EnrollOutcome :=
  (keyedClient type).sendP10CR [48, 0] (some sampleCreds) {}

/-- The status in a certConf that reports one. -/
def statusIn (der : Bytes) : Option PKIStatus :=
  match parsePKIMessage der with
  | .error _ => none
  | .ok m =>
    match m.body.getCertConf with
    | .ok [status] => status.statusInfo.map PKIStatusInfo.status
    | _ => none

/-- What is seen of such an enrollment: the certificates that are offered, with their
certReqIds and pools, and the statuses that are posted. -/
structure View where
  certificates : List Certificate
  certReqIDs : List ℤ
  pools : List (Option (List Certificate))
  statuses : List (Option PKIStatus)
  deriving DecidableEq

/-- The view of a run of that client. -/
def keyedView (type : KeyType) (tr : ClientHistory) : View :=
  let offers := (keyedClient type).offers BodyTypeCP tr
  { certificates := offers.map Offer.cert
    certReqIDs := offers.map fun o => o.certResp.certReqID
    pools := offers.map fun o => (keyedClient type).poolFor (some o.vr) o.rep
    statuses := (posts tr).map statusIn }

lemma keyedEnroll_view (type : KeyType) (view)
    (h : (Prog.play issuingPeer (keyedEnroll type)).map (fun r => keyedView type r.1) = some view) :
    ∃ tr out, Prog.Steps (keyedEnroll type) tr (.ret out) ∧ keyedView type tr = view := by
  obtain ⟨⟨tr, out⟩, hplay, hview⟩ := Option.map_eq_some_iff.mp h
  exact ⟨tr, out, Prog.steps_of_play hplay, hview⟩

/-- **A DSA key is refused.**  The certificate is for the key of the CSR, its certReqId is
allowed and there is no pool, and still the certConf says rejection. -/
theorem certConf_rejects_dsa_key :
    ∃ tr out o, Prog.Steps (keyedEnroll .other) tr (.ret out) ∧
      (keyedClient .other).Offered BodyTypeCP tr o ∧
      Allows keyedBody o.certResp.certReqID ∧
      (keyedClient .other).poolFor (some o.vr) o.rep = none ∧
      (keyedClient .other).Certifies o.cert (some ⟨.other, []⟩) ∧
      ∃ der ∈ posts tr, statusIn der = some StatusRejection := by
  obtain ⟨tr, out, hsteps, hview⟩ := keyedEnroll_view .other
    ⟨[keyedCertificate .other [48, 0]], [0], [none], [none, some StatusRejection]⟩
    (by decide +kernel)
  obtain ⟨hcerts, hids, hpools, hposts⟩ := View.mk.inj hview
  obtain ⟨o, hoff⟩ : ∃ o, (keyedClient .other).offers BodyTypeCP tr = [o] :=
    List.length_eq_one_iff.mp (by simpa using congrArg List.length hcerts)
  have ho : o ∈ (keyedClient .other).offers BodyTypeCP tr := hoff ▸ List.mem_cons_self
  have hcert : o.cert = keyedCertificate .other [48, 0] := by simpa [hoff] using hcerts
  have hid : o.certResp.certReqID = 0 := by simpa [hoff] using hids
  have hpool : (keyedClient .other).poolFor (some o.vr) o.rep = none := by simpa [hoff] using hpools
  obtain ⟨der, hder, hstatus⟩ : ∃ der ∈ posts tr, statusIn der = some StatusRejection :=
    List.mem_map.mp (hposts ▸ List.mem_cons_of_mem _ List.mem_cons_self)
  refine ⟨tr, out, o, hsteps, offered_of_mem_offers _ ho, ⟨[-1, 0], rfl, ?_⟩, hpool, ?_, der, hder,
    hstatus⟩
  · rw [hid]
    decide
  · rintro key ⟨⟩
    rw [issuedKey, hcert]
    rfl

/-- An enrollment that is confirmed. -/
theorem certConf_reports_sample :
    ∃ tr out msgs confs o k first now, Prog.Steps (keyedEnroll .ed25519) tr (.ret out) ∧
      Sends tr (msgs ++ confs) ∧ (keyedClient .ed25519).Offered BodyTypeCP tr o ∧
      ∃ tr2, (keyedClient .ed25519).Handles keyedBody (some ⟨.ed25519, []⟩) k first o now tr2 confs
        out := by
  obtain ⟨tr, out, hsteps, hview⟩ := keyedEnroll_view .ed25519
    ⟨[keyedCertificate .ed25519 [48, 0]], [0], [none], [none, none]⟩ (by decide +kernel)
  obtain ⟨o, ho, -⟩ : ∃ o ∈ (keyedClient .ed25519).offers BodyTypeCP tr, _ :=
    List.mem_map.mp ((View.mk.inj hview).1 ▸ List.mem_cons_self)
  have hrun : Prog.Steps ((keyedClient .ed25519).enroll keyedBody BodyTypeCP (some sampleCreds) {}
      (some ⟨.ed25519, []⟩)) tr (.ret out) := hsteps
  obtain ⟨msgs, confs, hsent, -, -, -, hall⟩ := certConf_reports hrun
  obtain ⟨k, first, -, -, tr2, now, -, -, -, -, -, hh⟩ := hall o (offered_of_mem_offers _ ho)
  exact ⟨tr, out, msgs, confs, o, k, first, now, hsteps, hsent, offered_of_mem_offers _ ho, tr2, hh⟩

/-- A certificate that is returned. -/
theorem enroll_returns_requested_sample :
    ∃ tr res, Prog.Steps (keyedEnroll .ed25519) tr (.ret (some (some res, none))) ∧
      ∃ k first o, o.cert = res.certificate ∧
        (keyedClient .ed25519).Answers keyedBody BodyTypeCP (some ⟨.ed25519, []⟩) k first o := by
  obtain ⟨tr, hsteps⟩ : ∃ tr, Prog.Steps (keyedEnroll .ed25519) tr
      (.ret (some (some ⟨keyedCertificate .ed25519 [48, 0], [], []⟩, none))) :=
    Prog.exists_steps_of_play
      (show (Prog.play issuingPeer (keyedEnroll .ed25519)).map Prod.snd =
        some (some (some ⟨keyedCertificate .ed25519 [48, 0], [], []⟩, none)) by decide +kernel)
  have hrun : Prog.Steps ((keyedClient .ed25519).enroll keyedBody BodyTypeCP (some sampleCreds) {}
      (some ⟨.ed25519, []⟩)) tr _ := hsteps
  obtain ⟨k, first, -, o, -, -, -, -, hcert, ha⟩ := enroll_returns_requested hrun
  exact ⟨tr, _, hsteps, k, first, o, hcert, ha⟩

end Client

end PkiCmp
