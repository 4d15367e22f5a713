/-
The protection of responses and the octets that are written.

Every response is protected first and encoded from its fields afterwards.  The
programs are watched by a monitor that remembers the last MAC or signature that
was computed and what it was computed over.

* `Built`: what every response is when it leaves `buildResponseInternal`;
* `process_obeys`: what it still is when `process` returns it: the same, or, for
  a message of a version above 3, a response whose version was changed after it
  was protected (`Restamped`);
* `serveHTTP_protection_iff`: when the protection is the one of the octets that
  are written.
-/
import PkiCmp.Server.Handling

namespace PkiCmp

open Der Interact

/-! ### The monitor -/

/-- What has been seen of a run: the last protected part for which a protection
was computed, with that protection, and the first look at the outside world. -/
structure Seen where
  sealed : Option (Bytes × Bytes) := none
  verifier : Option Verifier := none

/-- Watch the seals and the verifier. -/
def sealMonitor : Monitor Effect Effect.Res Seen where
  allowed _ _ := True
  rely _ _ _ := True
  next
    | g, .seal _ data, .ok p => { g with sealed := some (data, p) }
    | g, .verifier, v => { g with verifier := g.verifier.or (some v) }
    | g, _, _ => g

/-- What a run shows of its seals and its verifier. -/
def seen (tr : List ServerEvent) : Seen := sealMonitor.after {} tr

/-- A program of the tracker leaves the monitor as it is. -/
lemma sealMonitor_tracker {α : Type} {p : ServerProg α} (hp : Prog.Only Effect.OnTracker p)
    (g : Seen) : Prog.Obeys sealMonitor (fun g' _ => g' = g) g p := by
  refine Prog.Obeys.of_only hp fun o ho => ⟨trivial, fun x => ?_⟩
  cases o <;> first | rfl | exact ho.elim

/-- Any program, a handler for one, may run under the monitor. -/
lemma sealMonitor_any {α : Type} (p : ServerProg α) (g : Seen) :
    Prog.Obeys sealMonitor (fun _ _ => True) g p :=
  Prog.Obeys.of_allowed (fun _ _ => trivial) p

/-! ### Building a response -/

/-- A response as it is built: encoding it again gives the elements that were
sealed. -/
structure Built (g : Seen) (resp : PKIMessage) : Prop where
  constructed : resp.body.Constructed
  sealed : resp.protection ≠ [] →
    ∃ hd bd, resp.EncodesTo hd bd ∧
      g.sealed = some (element tagSequence (hd ++ bd), resp.protection)

/-- The answer of a handler, if any, is built. -/
def AnswerBuilt (g : Seen) (r : Option PKIMessage) : Prop := ∀ resp, r = some resp → Built g resp

namespace Server

variable (srv : Server)

/-- `Protect`: what it returns without an error is sealed. -/
lemma protect_obeys (creds : Credentials) (m : PKIMessage) (g : Seen) :
    Prog.Obeys sealMonitor
      (fun g' r => r.1.body = m.body ∧ (r.2 = none →
        r.1.header.pvno = m.body.requiredPVNO m.header.pvno ∧
        ∃ hd bd, r.1.EncodesTo hd bd ∧
          g'.sealed = some (element tagSequence (hd ++ bd), r.1.protection)))
      g (srv.protect creds m) := by
  unfold protect
  refine Prog.Obeys.bind (sealMonitor_any _ g) fun g salt _ => ?_
  have hbody := (creds.prepare_fst srv.crypto salt m).1
  split
  · next m' e h =>
    rw [h] at hbody
    exact ⟨hbody, nofun⟩
  · next m' s data h =>
    rw [h] at hbody
    obtain ⟨⟨hd, bd, henc, rfl⟩, hpvno⟩ := Credentials.prepare_ok h
    simp only [perform, Prog.call_bind, Prog.Obeys.op_iff]
    refine ⟨trivial, fun x _ => ?_⟩
    cases x with
    | error e => exact ⟨hbody, nofun⟩
    | ok p => exact ⟨hbody, fun _ => ⟨hpvno, hd, bd, ⟨henc.1, henc.2, henc.3⟩, rfl⟩⟩

/-- `protectResponseWithOptions`, for a message that is not protected yet. -/
lemma protectResponse_obeys (m : PKIMessage) (hm : m.protection = [])
    (sender : Option SenderIdentity) (params : Option MACCredentialOption) (g : Seen) :
    Prog.Obeys sealMonitor
      (fun g' r => r.1.body = m.body ∧ (r.2 = none → r.1.protection ≠ [] →
        r.1.header.pvno = m.body.requiredPVNO m.header.pvno ∧
        ∃ hd bd, r.1.EncodesTo hd bd ∧
          g'.sealed = some (element tagSequence (hd ++ bd), r.1.protection)))
      g (srv.protectResponseWithOptions m sender params) := by
  have hcreds : ∀ creds, Prog.Obeys sealMonitor _ g (srv.protect creds m) := fun creds =>
    (srv.protect_obeys creds m g).mono fun g' r hr =>
      (⟨hr.1, fun h _ => hr.2 h⟩ : r.1.body = m.body ∧ (r.2 = none → r.1.protection ≠ [] → _))
  unfold protectResponseWithOptions
  split
  · split
    · exact ⟨rfl, nofun⟩
    · exact hcreds _
  · split
    · exact ⟨rfl, nofun⟩
    · exact hcreds _
    · exact ⟨rfl, fun _ h => absurd hm h⟩

/-- `buildResponseInternal`: the response is built, and when it is protected it
has the body it was built with, in the version that body requires. -/
lemma buildResponseInternal_obeys (req : PKIMessage) (body : PKIBody) (hb : body.Constructed)
    (sender : Option SenderIdentity) (info : List InfoTypeAndValue)
    (params : Option MACCredentialOption) (g : Seen) :
    Prog.Obeys sealMonitor
      (fun g' resp => Built g' resp ∧ (resp.protection ≠ [] →
        resp.body = body ∧ resp.header.pvno = body.requiredPVNO req.header.pvno))
      g (srv.buildResponseInternal req body sender info params) := by
  simp only [buildResponseInternal, perform, Prog.call_bind, Prog.Obeys.op_iff]
  refine ⟨trivial, fun nonce _ => ⟨trivial, fun now _ => ?_⟩⟩
  refine Prog.Obeys.bind (srv.protectResponse_obeys _ rfl sender _ _) ?_
  rintro g' ⟨resp, err⟩ ⟨hbody, hok⟩
  cases err with
  | none =>
    refine ⟨⟨?_, fun hp => (hok rfl hp).2⟩, fun hp => ⟨hbody, (hok rfl hp).1⟩⟩
    rw [hbody]
    exact hb
  | some e => exact ⟨⟨(fun _ _ h => by cases h), fun hp => absurd rfl hp⟩, fun hp => absurd rfl hp⟩

lemma answerError_obeys (req : PKIMessage) (sender : Option SenderIdentity) (si : PKIStatusInfo)
    (g : Seen) : Prog.Obeys sealMonitor AnswerBuilt g (srv.answerError req sender si) := by
  refine Prog.Obeys.bind (srv.buildResponseInternal_obeys req _ (by nofun) sender [] none g) ?_
  rintro g resp h _ ⟨⟩
  exact h.1

lemma reject_obeys (req : PKIMessage) (sender : Option SenderIdentity) (failInfo : PKIFailureInfo)
    (text : PKIFreeText) (g : Seen) :
    Prog.Obeys sealMonitor AnswerBuilt g (srv.reject req sender failInfo text) :=
  srv.answerError_obeys req sender _ g

/-! ### The handlers -/

variable {srv} {msg : PKIMessage} {sender : SenderIdentity} {pt : Point}

lemma Says.constructed {i : ServerProg (List InfoTypeAndValue)} {body : PKIBody}
    (h : srv.Says msg pt i body) : body.Constructed := by
  cases h with
  | refused _ reqType => cases reqType <;> nofun
  | wait _ reqType => cases reqType <;> nofun
  | issue _ reqType => cases reqType <;> nofun
  | _ => exact fun _ _ h => by cases h

/-- The response that is sent, once it is there. -/
def Point.response : Point → Option PKIMessage
  | .built _ _ _ resp | .kept resp _ | .completed _ _ resp | .done resp => some resp
  | _ => none

/-- A response that was built stays as it was built to the end. -/
lemma Handles.built {p : ServerThread} (hp : srv.Handles msg sender pt p)
    {g : Seen} (hg : AnswerBuilt g pt.response) : Prog.Obeys sealMonitor AnswerBuilt g p := by
  have hentry : ∀ {α : Type} {q : ServerProg α} (g : Seen), Prog.Only Effect.OnEntry q →
      Prog.Obeys sealMonitor (fun g' _ => g' = g) g q :=
    fun g hq => sealMonitor_tracker (hq.mono fun _ => Effect.OnEntry.onTracker) g
  induction hp generalizing g with
  | drop => exact fun _ h => by cases h
  | send h => cases h <;> exact hg
  | look _ _ _ ih => exact ⟨trivial, fun found _ => ih found hg⟩
  | clock _ ih => exact ⟨trivial, fun now _ => ih now hg⟩
  | call h _ ih =>
    refine Prog.Obeys.bind (sealMonitor_any _ g) fun g' r _ => ih r ?_
    cases h <;> exact fun _ h => by cases h
  | build h _ ih =>
    refine Prog.Obeys.bind (Prog.Obeys.bind (sealMonitor_any _ g) fun g info _ =>
      (srv.buildResponseInternal_obeys msg _ h.constructed sender info _ g)).traced ?_
    rintro g' resp ⟨hbuilt, tr, hs, -⟩
    refine ih tr resp (answers_of_steps h.info_only hs) ?_
    rintro _ ⟨⟩
    exact hbuilt.1
  | pend _ _ _ _ hclock _ ih =>
    refine clock_obeys hclock ⟨trivial, fun _ => rfl⟩ fun last => ?_
    refine Prog.Obeys.bind (hentry _ (TrackerConfig.setPending_only ..)) ?_
    rintro _ ok rfl
    exact ih ok hg
  | issue _ _ _ _ _ ih =>
    refine Prog.Obeys.bind (hentry g (TrackerConfig.setIssued_only ..)) ?_
    rintro _ ok rfl
    exact ih ok hg
  | complete _ _ ih =>
    refine Prog.Obeys.bind (hentry g (TrackerConfig.setCompleted_only ..)) ?_
    rintro _ _ rfl
    exact ih hg
  | tell _ _ _ ih => exact ⟨trivial, fun err _ => ih err hg⟩
  | delete _ _ _ ih =>
    refine Prog.Obeys.bind (hentry g (TrackerConfig.delete_only ..)) ?_
    rintro _ _ rfl
    exact ih hg
  | finish _ _ ih =>
    refine Prog.Obeys.bind (hentry g (TrackerConfig.setCompleted_only ..)) ?_
    rintro _ _ rfl
    exact ih hg

lemma dispatch_obeys (msg : PKIMessage) (sender : SenderIdentity) (g : Seen) :
    Prog.Obeys sealMonitor AnswerBuilt g (srv.dispatch msg sender) :=
  (srv.dispatch_handles msg sender).built fun _ h => by cases h

variable (srv)

lemma processForwarded_obeys (fwd : Option Forwarding) (msg : PKIMessage) (sender : SenderIdentity)
    (g : Seen) : Prog.Obeys sealMonitor AnswerBuilt g (srv.processForwarded fwd msg sender) := by
  have hver : ∀ (g : Seen) (s : SenderIdentity),
      Prog.Obeys sealMonitor AnswerBuilt g (srv.processVerified msg s) := by
    intro g s
    refine Prog.Obeys.bind (sealMonitor_any _ g) ?_
    rintro g ⟨msg', r⟩ -
    cases r with
    | error e => exact srv.answerError_obeys _ _ _ g
    | ok _ => exact srv.dispatch_obeys _ _ g
  unfold processForwarded
  split
  · exact hver g sender
  · refine ⟨trivial, fun refused _ => ?_⟩
    cases refused with
    | some e => exact srv.answerError_obeys _ _ _ _
    | none => exact hver _ _

end Server

/-! ### The version of the answer -/

/-- A response whose version was set to 3 after it was protected with a larger
one. -/
structure Restamped (g : Seen) (resp : PKIMessage) : Prop where
  constructed : resp.body.Constructed
  sealed : resp.protection ≠ [] → resp.body.requiredPVNO resp.header.pvno = PVNO3 ∧
    ∃ (p : ℤ) (hd bd : Bytes), PVNO3 < p ∧ { resp.header with pvno := p }.marshal = .ok hd ∧
      resp.body.marshal = .ok bd ∧
      g.sealed = some (element tagSequence (hd ++ bd), resp.protection)

/-- The answer to a message: built, or restamped when a version above 3 was
answered. -/
structure Answered (known : Prop) (g : Seen) (r : Option PKIMessage) : Prop where
  built : known → AnswerBuilt g r
  restamped : ¬ known → ∀ resp, r = some resp → Restamped g resp

lemma Answered.of_built {known : Prop} {g : Seen} {r : Option PKIMessage} (hk : known)
    (h : AnswerBuilt g r) : Answered known g r :=
  ⟨fun _ => h, fun hn => absurd hk hn⟩

lemma PKIBody.requiredPVNO_error (e : ErrorMsgContent) (p : ℤ) :
    (PKIBody.error e).requiredPVNO p = if PVNO2 < p then p else PVNO2 := rfl

namespace Server

variable (srv : Server)

/-- `answerVersion`: below 2 the version is the one the response was protected
with, above 3 it is not. -/
lemma answerVersion_obeys (msg : PKIMessage) (g : Seen)
    (hv : msg.header.pvno < PVNO2 ∨ PVNO3 < msg.header.pvno) :
    Prog.Obeys sealMonitor (Answered (msg.header.pvno ≤ PVNO3)) g (srv.answerVersion msg) := by
  refine Prog.Obeys.bind (srv.buildResponseInternal_obeys msg _ (by nofun) none [] none g) ?_
  rintro g resp ⟨⟨hcon, hsealed⟩, hprot⟩
  obtain ⟨header, body, protection, extraCerts, rawHeader, rawBody⟩ := resp
  refine ⟨fun hle => ?_, fun hlt => ?_⟩
  · -- the version was 2 already when the response was protected
    rintro _ ⟨⟩
    rw [if_neg (by omega)]
    refine ⟨hcon, fun hp => ?_⟩
    obtain ⟨hd, bd, henc, hg⟩ := hsealed hp
    obtain ⟨rfl, hpvno⟩ := hprot hp
    rw [PKIBody.requiredPVNO_error, if_neg (by omega)] at hpvno
    exact ⟨hd, bd, by rw [← hpvno]; exact henc, hg⟩
  · rintro _ ⟨⟩
    rw [if_pos (by omega)]
    refine ⟨hcon, fun hp => ?_⟩
    obtain ⟨hd, bd, henc, hg⟩ := hsealed hp
    obtain ⟨rfl, hpvno⟩ := hprot hp
    rw [PKIBody.requiredPVNO_error, if_pos (by unfold PVNO2 PVNO3 at *; omega)] at hpvno
    refine ⟨rfl, msg.header.pvno, hd, bd, by omega, ?_, henc.body, hg⟩
    rw [← hpvno]
    exact henc.header

/-- The request that a nested message forwards, once its sender is
authenticated. -/
def forwardedRequest (v : Verifier) (msg : PKIMessage) : Option PKIMessage :=
  if msg.header.pvno < PVNO2 ∨ PVNO3 < msg.header.pvno then none
  else match srv.verifyRecipient msg with
    | .error _ => none
    | .ok _ =>
      match srv.verifyProtection v msg with
      | .error _ => none
      | .ok sender =>
        match srv.validateProfile msg sender with
        | .error _ => none
        | .ok _ =>
          if msg.body.type = BodyTypeNested then (srv.nestedRequest msg).toOption else none

/-- No message that is processed, the one received or the one it forwards, has a
version above 3. -/
def VersionsKnown (v : Option Verifier) (msg : PKIMessage) : Prop :=
  msg.header.pvno ≤ PVNO3 ∧
    ∀ v', v = some v' → ∀ req, srv.forwardedRequest v' msg = some req → req.header.pvno ≤ PVNO3

/-- What a nested message forwards is not nested. -/
lemma nestedRequest_not_nested {msg req : PKIMessage} (h : srv.nestedRequest msg = .ok req) :
    req.body.type ≠ BodyTypeNested := by
  unfold nestedRequest at h
  split at h
  · cases h
  · split at h
    · cases h
    · split_ifs at h with hn
      cases h
      exact hn
    · cases h

variable {srv}

/-- `process` on a message that is not nested. -/
lemma process_obeys_flat (hs : srv.signerErr = none) (depth : ℕ) {msg : PKIMessage}
    (hn : msg.body.type ≠ BodyTypeNested) (fwd : Option Forwarding) (g : Seen) :
    Prog.Obeys sealMonitor (Answered (msg.header.pvno ≤ PVNO3)) g
      (srv.process (depth + 1) msg fwd) := by
  have hok : ∀ {p : ServerThread} {g}, Prog.Obeys sealMonitor AnswerBuilt g p →
      msg.header.pvno ≤ PVNO3 → Prog.Obeys sealMonitor (Answered (msg.header.pvno ≤ PVNO3)) g p :=
    fun h hle => h.mono fun _ _ => Answered.of_built hle
  unfold process
  rw [if_neg (by simp [hs])]
  split
  · next hv => exact srv.answerVersion_obeys msg g hv
  · next hv =>
    have hle : msg.header.pvno ≤ PVNO3 := by omega
    split
    · exact hok (srv.reject_obeys _ _ _ _ g) hle
    · refine Prog.Obeys.bind (sealMonitor_any _ g) fun g v _ => ?_
      split
      · exact hok (srv.answerError_obeys _ _ _ g) hle
      · unfold processAuthenticated
        split
        · exact hok (srv.reject_obeys _ _ _ _ g) hle
        · rw [if_neg hn]
          exact hok (srv.processForwarded_obeys _ _ _ g) hle

/-- `handleNested`: only the version of the forwarded request counts. -/
lemma handleNested_obeys (hs : srv.signerErr = none) (depth : ℕ) (msg : PKIMessage)
    (ra : SenderIdentity) (g : Seen) :
    Prog.Obeys sealMonitor
      (Answered (∀ req, (srv.nestedRequest msg).toOption = some req → req.header.pvno ≤ PVNO3)) g
      (srv.handleNested (fun req fwd => srv.process (depth + 1) req (some fwd)) msg ra) := by
  unfold handleNested
  split
  · next h =>
    exact (srv.reject_obeys _ _ _ _ g).mono fun _ _ =>
      Answered.of_built (by simp [h, Except.toOption])
  · next req h =>
    have hflat := process_obeys_flat hs depth (srv.nestedRequest_not_nested h) (some ⟨msg, ra⟩) g
    refine hflat.mono fun g r hr => ?_
    simpa [h, Except.toOption] using hr

/-- **The answer of `process`** is built, unless a version above 3 is met. -/
lemma process_obeys (hs : srv.signerErr = none) (msg : PKIMessage) :
    Prog.Obeys sealMonitor (fun g => Answered (srv.VersionsKnown g.verifier msg) g) {}
      (srv.processMessage msg) := by
  -- without a forwarded request only the version of the message counts
  have hnone : (∀ v, srv.forwardedRequest v msg = none) →
      ∀ v, srv.VersionsKnown v msg ↔ msg.header.pvno ≤ PVNO3 := by
    intro h v
    simp [VersionsKnown, h]
  unfold processMessage process
  rw [if_neg (by simp [hs])]
  split
  · next hv =>
    refine (srv.answerVersion_obeys msg {} hv).mono fun g r h => ?_
    rw [hnone (fun v => by simp [forwardedRequest, hv])]
    exact h
  · next hv =>
    have hle : msg.header.pvno ≤ PVNO3 := by omega
    split
    · next e hrec =>
      refine (srv.reject_obeys _ _ _ _ {}).mono fun g r h => ?_
      rw [hnone (fun v => by simp [forwardedRequest, hv, hrec])]
      exact .of_built hle h
    · next hrec =>
      simp only [perform, Prog.call_bind, Prog.Obeys.op_iff]
      refine ⟨trivial, fun v _ => ?_⟩
      -- from here on the monitor remembers `v`
      suffices hv' : Prog.Obeys sealMonitor
        (Answered (∀ req, srv.forwardedRequest v msg = some req →
          req.header.pvno ≤ PVNO3)) { verifier := some v } _ by
        refine (hv'.stable (I := fun g => g.verifier = some v) ?_ rfl).mono ?_
        · intro g o x h
          cases o <;> try exact h
          · cases x <;> exact h
          · simp [sealMonitor, h]
        · rintro g r ⟨hg, h⟩
          have hk : srv.VersionsKnown g.verifier msg ↔
              ∀ req, srv.forwardedRequest v msg = some req → req.header.pvno ≤ PVNO3 := by
            simp [VersionsKnown, hg, hle]
          rw [hk]
          exact h
      have hbuilt : ∀ {p : ServerThread} {g : Seen},
          Prog.Obeys sealMonitor AnswerBuilt g p → srv.forwardedRequest v msg = none →
          Prog.Obeys sealMonitor (Answered (∀ req, srv.forwardedRequest v msg = some req →
            req.header.pvno ≤ PVNO3)) g p :=
        fun h hf => h.mono fun _ _ => Answered.of_built (by simp [hf])
      split
      · next hp =>
        exact hbuilt (srv.answerError_obeys _ _ _ _) (by simp [forwardedRequest, hv, hrec, hp])
      · next sender hp =>
        unfold processAuthenticated
        split
        · next hprof =>
          exact hbuilt (srv.reject_obeys _ _ _ _ _)
            (by simp [forwardedRequest, hv, hrec, hp, hprof])
        · next hprof =>
          split_ifs with hn
          · have hf : srv.forwardedRequest v msg = (srv.nestedRequest msg).toOption := by
              simp [forwardedRequest, hv, hrec, hp, hprof, hn]
            rw [hf]
            exact handleNested_obeys hs 0 msg sender _
          · exact hbuilt (srv.processForwarded_obeys _ _ _ _)
              (by simp [forwardedRequest, hv, hrec, hp, hprof, hn])

/-! ### What is written -/

/-- `ServeHTTP` writes a message only for a request that parses, and then it is
the answer of `processMessage`. -/
lemma serveHTTP_ok {r : HTTPRequest} {tr : List ServerEvent} {der : Bytes}
    (h : Prog.Steps (srv.serveHTTP r) tr (.ret (some ⟨200, der⟩))) :
    ∃ b msg resp, r.body = some b ∧ parsePKIMessage (b.take maxRequestBodySize) = .ok msg ∧
      Prog.Steps (srv.processMessage msg) tr (.ret (some resp)) ∧ resp.marshalBinary = .ok der := by
  unfold serveHTTP at h
  split_ifs at h with hm hc
  · cases h
  · cases h
  · split at h
    · cases h
    · cases h
    · next msg hmsg =>
      obtain ⟨b, hb, hparse⟩ := Option.map_eq_some_iff.mp hmsg
      obtain ⟨tr1, tr2, resp, rfl, h1, h2⟩ := h.of_bind
      split at h2
      · cases h2
      · cases h2
      · next der' hder =>
        cases h2
        obtain ⟨resp, rfl, hresp⟩ := Option.map_eq_some_iff.mp hder
        exact ⟨b, msg, resp, hb, hparse, by rw [List.append_nil]; exact h1, hresp⟩

/-- **The protection of a response is the one of the octets that are written**
exactly when no message that is processed has a version above 3. -/
theorem serveHTTP_protection_iff (hs : srv.signerErr = none) {r : HTTPRequest}
    {tr : List ServerEvent} {der p : Bytes}
    (hrun : Prog.Steps (srv.serveHTTP r) tr (.ret (some ⟨200, der⟩)))
    (hp : wireProtection der = some p) :
    ∃ b msg signed, r.body = some b ∧ parsePKIMessage (b.take maxRequestBodySize) = .ok msg ∧
      (seen tr).sealed = some (signed, p) ∧
      (wireProtectedPart der = some signed ↔ srv.VersionsKnown (seen tr).verifier msg) := by
  obtain ⟨b, msg, resp, hb, hmsg, hsteps, hder⟩ := serveHTTP_ok hrun
  have hans : Answered (srv.VersionsKnown (seen tr).verifier msg) (seen tr) (some resp) :=
    (Prog.Obeys.steps hsteps (process_obeys hs msg) (.of_forall (fun _ _ _ => trivial) _ tr)).2
  by_cases hk : srv.VersionsKnown (seen tr).verifier msg
  · obtain ⟨hcon, hsealed⟩ := hans.built hk resp rfl
    obtain ⟨rfl, hne, hd', bd', hhd, hbd, -, hwire⟩ := PKIMessage.wire_marshalBinary hcon hder hp
    obtain ⟨hd, bd, henc, hg⟩ := hsealed hne
    rw [henc.updatePVNO, henc.header] at hhd
    rw [henc.body] at hbd
    cases hhd
    cases hbd
    exact ⟨b, msg, _, hb, hmsg, hg, iff_of_true hwire hk⟩
  · obtain ⟨hcon, hsealed⟩ := hans.restamped hk resp rfl
    obtain ⟨rfl, hne, hd', bd', hhd, hbd, hlen, hwire⟩ := PKIMessage.wire_marshalBinary hcon hder hp
    obtain ⟨hver, q, hd, bd, hq, hmar, hbody, hg⟩ := hsealed hne
    refine ⟨b, msg, _, hb, hmsg, hg, iff_of_false (fun heq => ?_) hk⟩
    -- the two protected parts differ in the version
    rw [hbody] at hbd
    cases hbd
    rw [hwire] at heq
    have hcat := (element_inj (Option.some.inj heq)).2
    obtain rfl := List.append_cancel_right hcat
    rw [length_element, List.length_append] at hlen
    have hpvno := PKIHeader.pvno_eq_of_marshal (p := q) hhd hmar
    simp only [PKIMessage.updatePVNO, hver] at hpvno
    omega

/-! ### Concrete responses -/

/-- A server with an Ed25519 key and its certificate. -/
def sampleSigned : Server :=
  .new .sample 0 Handler.external
    { signerKey := some { pub := ⟨.ed25519, [7]⟩, sign := fun data _ => .ok data }
      signerCert := some { raw := [0x30, 0], rawSubject := [0x30, 0],
                           publicKey := some ⟨.ed25519, [7]⟩ } }

/-- A pkiConf with empty names, posted with the given version. -/
def samplePost (pvno : UInt8) : HTTPRequest where
  method := str "POST"
  mediaType := some (str "application/pkixcmp")
  body := some [0x30, 0x11, 0x30, 0x0b, 0x02, 0x01, pvno, 0xa4, 0x02, 0x30, 0x00,
    0xa4, 0x02, 0x30, 0x00, 0xb3, 0x02, 0x05, 0x00]

/-- Zero nonces, the clock at zero, no credentials to look up, and protections as
they are computed. -/
def sampleAnswer : (o : Effect) → Option o.Res
  | .random => some ⟨List.replicate 16 0, length_zeros⟩
  | .now => some 0
  | .verifier => some
      { now := 0
        lookupSecret := fun _ _ => .error (.text (str "not found"))
        lookupCertificate := fun _ _ _ => .error (.text (str "not found")) }
  | .seal s data => some (s.compute .sample data)
  | _ => none

/-- The octets written for a version, and the last seal. -/
def sampleWritten (pvno : UInt8) : Option (Option HTTPResponse × Option (Bytes × Bytes)) :=
  (Prog.play sampleAnswer (sampleSigned.serveHTTP (samplePost pvno))).map fun (tr, w) =>
    (w, (seen tr).sealed)

/-- The response is protected, and it shows or does not show what was sealed. -/
def sampleShows (pvno : UInt8) (shown : Bool) : Bool :=
  match sampleWritten pvno with
  | some (some ⟨200, der⟩, some (signed, p)) =>
    wireProtection der = some p && (wireProtectedPart der = some signed) == shown
  | _ => false

/-- The runs behind `sampleShows`. -/
lemma exists_of_sampleShows {pvno : UInt8} {shown : Bool} (h : sampleShows pvno shown = true) :
    ∃ tr der p signed,
      Prog.Steps (sampleSigned.serveHTTP (samplePost pvno)) tr (.ret (some ⟨200, der⟩)) ∧
      wireProtection der = some p ∧ (seen tr).sealed = some (signed, p) ∧
      (wireProtectedPart der = some signed ↔ shown = true) := by
  unfold sampleShows at h
  split at h
  · next der signed p hw =>
    obtain ⟨⟨tr, w⟩, hplay, heq⟩ := Option.map_eq_some_iff.mp hw
    simp only [Prod.mk.injEq] at heq
    obtain ⟨rfl, hsealed⟩ := heq
    simp only [Bool.and_eq_true, decide_eq_true_eq, beq_iff_eq] at h
    refine ⟨tr, der, p, signed, Prog.steps_of_play hplay, h.1, hsealed, ?_⟩
    rw [← h.2, decide_eq_true_eq]
  · cases h

/-- A pkiConf of version 4 is answered with a signature over a header of version
4, and a header of version 3 is written. -/
theorem serveHTTP_protection_of_version_four :
    ∃ tr der p signed, sampleSigned.signerErr = none ∧
      Prog.Steps (sampleSigned.serveHTTP (samplePost 4)) tr (.ret (some ⟨200, der⟩)) ∧
      wireProtection der = some p ∧ (seen tr).sealed = some (signed, p) ∧
      wireProtectedPart der ≠ some signed := by
  obtain ⟨tr, der, p, signed, hrun, hp, hsealed, hshown⟩ :=
    exists_of_sampleShows (show sampleShows 4 false = true by decide +kernel)
  exact ⟨tr, der, p, signed, rfl, hrun, hp, hsealed, fun h => Bool.false_ne_true (hshown.mp h)⟩

/-- The same message in version 2 is answered with a protection of what is
written. -/
theorem serveHTTP_protection_of_version_two :
    ∃ tr der p b msg signed, sampleSigned.signerErr = none ∧
      Prog.Steps (sampleSigned.serveHTTP (samplePost 2)) tr (.ret (some ⟨200, der⟩)) ∧
      wireProtection der = some p ∧ (samplePost 2).body = some b ∧
      parsePKIMessage (b.take maxRequestBodySize) = .ok msg ∧
      (seen tr).sealed = some (signed, p) ∧ wireProtectedPart der = some signed ∧
      sampleSigned.VersionsKnown (seen tr).verifier msg := by
  obtain ⟨tr, der, p, signed, hrun, hp, hsealed, hshown⟩ :=
    exists_of_sampleShows (show sampleShows 2 true = true by decide +kernel)
  obtain ⟨b, msg, signed', hb, hmsg, hsealed', hiff⟩ := serveHTTP_protection_iff rfl hrun hp
  cases hsealed.symm.trans hsealed'
  exact ⟨tr, der, p, b, msg, signed, rfl, hrun, hp, hb, hmsg, hsealed, hshown.mpr rfl,
    hiff.mp (hshown.mpr rfl)⟩

end Server

end PkiCmp
