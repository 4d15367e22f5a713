/-
Follow-up messages that were answered cannot be replayed (`handlePollReq` and
`handleCertConf`).

Messages and cleanups come one after the other.  Every entry that waits for a
follow-up message expects the nonce of the last answer in its transaction; the answer
to a follow-up message replaces that nonce or removes the entry.

* `TransactionEntry.expectedNonce`, `Tracker.Expects`: the nonces that are expected;
* `Renews`: what one turn may do to them;
* `Fresh`: the invariant of a run, `Fresh.turn`;
* `followup_not_replayed`.
-/
import PkiCmp.Server.Cleanup

namespace PkiCmp

open Der Interact

/-! ### Expected nonces -/

/-- The nonce that the next message of the transaction has to repeat. -/
def TransactionEntry.expectedNonce (e : TransactionEntry) : Option Bytes :=
  match e.state with
  | .pending => some e.senderNonce
  | .issued => some e.issuedSenderNonce
  | _ => none

/-- The entry under the key expects the nonce. -/
def Tracker.Expects (m : Tracker) (key : TransactionKey) (n : Bytes) : Prop :=
  ∃ c, m.cell key = some c ∧ c.entry.expectedNonce = some n

namespace Tracker

variable {m : Tracker} {key key' : TransactionKey} {n : Bytes}

lemma expects_publish {entry : TransactionEntry} {txn : ℕ}
    (h : (m.publish key entry txn).Expects key' n) :
    (key' = key ∧ entry.expectedNonce = some n) ∨ (key' ≠ key ∧ m.Expects key' n) := by
  obtain ⟨c, hc, hn⟩ := h
  rw [cell_publish] at hc
  split_ifs at hc with hk
  · cases hc
    exact .inl ⟨hk, hn⟩
  · exact .inr ⟨hk, c, hc, hn⟩

lemma expects_start {ck : CredentialKey} {now : Time} (h : (m.start key ck now).Expects key' n) :
    key' ≠ key ∧ m.Expects key' n := by
  obtain ⟨-, h⟩ | h := expects_publish h
  · cases h
  · exact h

lemma expects_remove (h : (m.remove key).Expects key' n) : key' ≠ key ∧ m.Expects key' n := by
  obtain ⟨c, hc, hn⟩ := h
  rw [cell_remove] at hc
  split_ifs at hc with hk
  exact ⟨hk, c, hc, hn⟩

end Tracker

namespace Server

/-- At most one key comes to expect a nonce, the one of the response; all other nonces
that are expected afterwards were expected before. -/
def Renews (m : Tracker) (resp : Option PKIMessage) (m' : Tracker) : Prop :=
  ∃ key0, ∀ key n, m'.Expects key n → m.Expects key n ∨
    (key = key0 ∧ ∃ p, resp = some p ∧ n = p.header.senderNonce)

lemma Renews.refl (m : Tracker) (resp : Option PKIMessage) : Renews m resp m :=
  ⟨[], fun _ _ h => .inl h⟩

/-- The nonces that the server generated in a run: those of its responses. -/
def noncesOf (ts : List ServerTurn) : List Bytes :=
  ts.filterMap fun t => t.result.map fun p => p.header.senderNonce

lemma noncesOf_append (ts us : List ServerTurn) :
    noncesOf (ts ++ us) = noncesOf ts ++ noncesOf us := List.filterMap_append

lemma noncesOf_singleton (t : ServerTurn) :
    noncesOf [t] = (t.result.map fun p => p.header.senderNonce).toList := by
  simp only [noncesOf, List.filterMap_cons, List.filterMap_nil]
  cases t.result <;> rfl

/-! ### One turn -/

section

variable {srv : Server} {msg q : PKIMessage} {s : SenderIdentity} {credID : Bytes} {tr : History}
variable {resp : Option PKIMessage} {m m' : Tracker} {r : HandlerResult}

/-- What the handler's result does to the nonces: the entry of the transaction expects
what it expected before, or the nonce of the response, or nothing. -/
lemma Conclusion.expects {reqType : RequestType} {certReqID : ℤ} {c : Cell}
    (h : srv.Conclusion q s credID c reqType certReqID r m tr resp m') {key : TransactionKey}
    {n : Bytes} (hn : m'.Expects key n) :
    m.Expects key n ∨ (key = srv.tracker.makeKey credID q.header.transactionID ∧
      ∃ p, resp = some p ∧ n = p.header.senderNonce) := by
  cases h with
  | unchanged => exact .inl hn
  | waiting =>
    obtain ⟨hk, he⟩ | ⟨-, hold⟩ := Tracker.expects_publish hn
    · exact .inr ⟨hk, _, rfl, (Option.some.inj he).symm⟩
    · exact .inl hold
  | implicit =>
    obtain ⟨-, he⟩ | ⟨-, hold⟩ := Tracker.expects_publish hn
    · cases he
    · exact .inl hold
  | issued =>
    obtain ⟨hk, he⟩ | ⟨-, hold⟩ := Tracker.expects_publish hn
    · exact .inr ⟨hk, _, rfl, (Option.some.inj he).symm⟩
    · exact .inl hold

/-- When the handler asks to wait or returns a certificate, the old nonce is gone. -/
lemma Conclusion.replaces {reqType : RequestType} {certReqID : ℤ} {c : Cell} {h0 : Response}
    (h : srv.Conclusion q s credID c reqType certReqID r m tr resp m') (herr : r.err = none)
    (hr : r.response = some h0) (hsome : h0.waiting ≠ none ∨ h0.certificate ≠ none) {n : Bytes}
    (hn : m'.Expects (srv.tracker.makeKey credID q.header.transactionID) n) :
    ∃ p, resp = some p ∧ n = p.header.senderNonce := by
  cases h with
  | unchanged _ hnone =>
    obtain ⟨hw, hc⟩ := hnone herr h0 hr
    exact absurd hsome (by simp [hw, hc])
  | waiting =>
    obtain ⟨-, he⟩ | ⟨hne, -⟩ := Tracker.expects_publish hn
    · exact ⟨_, rfl, (Option.some.inj he).symm⟩
    · exact absurd rfl hne
  | implicit =>
    obtain ⟨-, he⟩ | ⟨hne, -⟩ := Tracker.expects_publish hn
    · cases he
    · exact absurd rfl hne
  | issued =>
    obtain ⟨-, he⟩ | ⟨hne, -⟩ := Tracker.expects_publish hn
    · exact ⟨_, rfl, (Option.some.inj he).symm⟩
    · exact absurd rfl hne

/-- **One message** renews the nonces. -/
lemma Processed.renews (h : srv.Processed msg m tr resp m') : Renews m resp m' := by
  cases h with
  | idle => exact .refl m resp
  | @request q _ credID _ _ _ _ _ _ _ _ _ _ _ _ hset =>
    refine ⟨srv.tracker.makeKey credID q.header.transactionID, fun key n hn => ?_⟩
    obtain hold | hnew := hset.expects hn
    · exact .inl (Tracker.expects_start hold).2
    · exact .inr hnew
  | @poll q _ credID _ _ _ _ _ _ _ _ _ _ _ _ _ _ _ _ hset =>
    refine ⟨srv.tracker.makeKey credID q.header.transactionID, fun key n hn => ?_⟩
    obtain hold | hnew := hset.expects hn
    · exact .inl hold
    · exact .inr hnew
  | confirm _ _ _ _ _ _ _ _ hset _ =>
    split at hset
    · rw [hset.1]
      exact .refl m _
    · rw [hset.2]
      exact ⟨[], fun key n hn => .inl (Tracker.expects_remove hn).2⟩
  | revoke =>
    refine ⟨[], fun key n hn => ?_⟩
    obtain ⟨-, hn⟩ | ⟨-, hn⟩ := Tracker.expects_publish hn
    · cases hn
    · exact .inl (Tracker.expects_start hn).2

/-- The cleanup only takes entries out. -/
lemma cell_of_expiring (hd : Does exec m tr m') (h : Within Effect.Expiring tr)
    (key : TransactionKey) : m'.cell key = m.cell key ∨ m'.cell key = none := by
  induction hd with
  | nil m => exact .inl rfl
  | @cons m m1 m' o c x tr hx _ ih =>
    have ho : o.Expiring := h _ List.mem_cons_self
    have hone : m1.cell key = m.cell key ∨ m1.cell key = none := by
      cases exec_mapStep hx with
      | load => exact .inl rfl
      | delete site key' judged =>
        rw [Tracker.cell_remove]
        split_ifs
        · exact .inr rfl
        · exact .inl rfl
      | other _ _ _ hcell _ =>
        left
        unfold Tracker.cell
        rw [hcell]
      | _ => exact ho.elim
    obtain ih | ih := ih fun e he => h e (List.mem_cons_of_mem _ he)
    · rw [ih]
      exact hone
    · exact .inr ih

lemma cleanup_renews (h : (srv.cleanupExpired >>= fun _ => pure none).Runs exec m tr resp m') :
    Renews m resp m' := by
  refine ⟨[], fun key n hn => .inl ?_⟩
  obtain ⟨c, hc, hn⟩ := hn
  obtain h | h := cell_of_expiring h.does (within_of_cleanup h.steps) key
  · exact ⟨c, h ▸ hc, hn⟩
  · rw [h] at hc
    cases hc

/-- Only messages reach the handler. -/
lemma processed_of_call (hh : srv.handler = .external) {p : ServerThread}
    (hp : srv.Thread p) (h : p.Runs exec m tr resp m') {ctx : Ctx}
    (hcall : ⟨.handleCMP ctx q s, r⟩ ∈ tr) :
    ∃ msg, p = srv.processMessage msg ∧ srv.Processed msg m tr resp m' := by
  cases hp with
  | message msg => exact ⟨msg, rfl, processed_of_runs hh h⟩
  | cleanup => exact ((within_of_cleanup h.steps).no_call (fun _ _ _ h => h) hcall).elim

/-- A thread of the server that is run alone renews the nonces. -/
lemma thread_renews (hh : srv.handler = .external) {p : ServerThread}
    (hp : srv.Thread p) (h : p.Runs exec m tr resp m') : Renews m resp m' := by
  cases hp with
  | message msg => exact (processed_of_runs hh h).renews
  | cleanup => exact cleanup_renews h

end

/-! ### Runs -/

/-- The invariant of a run: expected nonces were generated in it, and no nonce is expected
under two keys. -/
structure Fresh (past : List Bytes) (m : Tracker) : Prop where
  generated : ∀ {key n}, m.Expects key n → n ∈ past
  unique : ∀ {key key' n}, m.Expects key n → m.Expects key' n → key = key'

/-- The nonce was generated and is not expected any more. -/
structure Spent (past : List Bytes) (n : Bytes) (m : Tracker) : Prop where
  generated : n ∈ past
  unexpected : ∀ key, ¬ m.Expects key n

section

variable {past : List Bytes} {resp : Option PKIMessage} {m m' : Tracker}

/-- A nonce of the past is not the one of the response. -/
lemma ne_of_nodup {p : PKIMessage} {n : Bytes}
    (hnodup : (past ++ (resp.map fun p => p.header.senderNonce).toList).Nodup) (hn : n ∈ past)
    (hp : resp = some p) : n ≠ p.header.senderNonce := by
  rintro rfl
  subst hp
  exact (List.nodup_append.mp hnodup).2.2 _ hn _ (by simp) rfl

lemma Fresh.renews (hf : Fresh past m) (hr : Renews m resp m')
    (hnodup : (past ++ (resp.map fun p => p.header.senderNonce).toList).Nodup) :
    Fresh (past ++ (resp.map fun p => p.header.senderNonce).toList) m' := by
  obtain ⟨key0, hr⟩ := hr
  constructor
  · intro key n hn
    obtain hn | ⟨-, p, rfl, rfl⟩ := hr key n hn
    · exact List.mem_append_left _ (hf.generated hn)
    · simp
  · intro key key' n hn hn'
    obtain hold | ⟨hk, p, hp, hnew⟩ := hr key n hn
    · obtain hold' | ⟨-, p, hp, hnew⟩ := hr key' n hn'
      · exact hf.unique hold hold'
      · exact absurd hnew (ne_of_nodup hnodup (hf.generated hold) hp)
    · obtain hold' | ⟨hk', -⟩ := hr key' n hn'
      · exact absurd hnew (ne_of_nodup hnodup (hf.generated hold') hp)
      · exact hk.trans hk'.symm

/-- A nonce that is spent stays so. -/
lemma Spent.renews {n : Bytes} (hs : Spent past n m) (hr : Renews m resp m')
    (hnodup : (past ++ (resp.map fun p => p.header.senderNonce).toList).Nodup) :
    Spent (past ++ (resp.map fun p => p.header.senderNonce).toList) n m' := by
  obtain ⟨key0, hr⟩ := hr
  refine ⟨List.mem_append_left _ hs.generated, fun key hn => ?_⟩
  obtain hold | ⟨-, p, hp, hnew⟩ := hr key n hn
  · exact hs.unexpected key hold
  · exact ne_of_nodup hnodup hs.generated hp hnew

end

/-! ### Follow-up messages -/

/-- The follow-up message was answered: a poll with a certificate or with the request to
wait, a certConf with a pkiConf. -/
def FollowedUp (q : PKIMessage) (r : HandlerResult) (resp : Option PKIMessage) : Prop :=
  (q.body.type = BodyTypePollReq ∧ r.err = none ∧
    ∃ h, r.response = some h ∧ (h.waiting ≠ none ∨ h.certificate ≠ none)) ∨
  (q.body.type = BodyTypeCertConf ∧ ∃ p, resp = some p ∧ p.body.type = BodyTypePKIConf)

lemma FollowedUp.type {q : PKIMessage} {r : HandlerResult} {resp : Option PKIMessage}
    (h : FollowedUp q r resp) : q.body.type = BodyTypePollReq ∨ q.body.type = BodyTypeCertConf :=
  h.imp And.left And.left

/-- A response is of the type it was built with, or it is the error about the protection. -/
lemma Answers.type {srv : Server} {s : Option SenderIdentity} {tr : History} {req p : PKIMessage}
    {body : PKIBody} (h : srv.Answers s tr req body p) :
    p.body.type = body.type ∨ p.body.type = BodyTypeError := by
  obtain hb | ⟨p', rfl⟩ := h.cases
  · exact .inl (by rw [hb])
  · exact .inr rfl

section

variable {srv : Server} {msg q q' : PKIMessage} {s : SenderIdentity} {tr : History} {ctx : Ctx}
variable {resp : Option PKIMessage} {m m' : Tracker} {r : HandlerResult} {past : List Bytes}

/-- The handler sees a follow-up message only when its nonce is expected. -/
lemma Processed.expected (h : srv.Processed msg m tr resp m')
    (hcall : ⟨.handleCMP ctx q s, r⟩ ∈ tr)
    (hq : q.body.type = BodyTypePollReq ∨ q.body.type = BodyTypeCertConf) :
    ∃ key, m.Expects key q.header.recipNonce := by
  cases h with
  | idle _ htr => exact absurd hcall (htr _ _ _ _)
  | request _ _ hreq _ h0 h1 _ =>
    obtain ⟨-, rfl, -, -⟩ := call_eq h0 h1 hcall
    obtain hq | hq := hq <;> rw [hq] at hreq <;> exact absurd hreq (by decide)
  | @poll _ _ _ _ c _ _ _ _ _ _ _ _ _ hc hstate hnonce h0 h1 _ =>
    obtain ⟨-, rfl, -, -⟩ := call_eq h0 h1 hcall
    exact ⟨_, c, hc, by rw [TransactionEntry.expectedNonce, hstate, hnonce.2]⟩
  | @confirm _ _ _ c _ _ _ _ _ _ _ _ _ hc hstate hnonce h0 h1 _ _ =>
    obtain ⟨-, rfl, -, -⟩ := call_eq h0 h1 hcall
    exact ⟨_, c, hc, by rw [TransactionEntry.expectedNonce, hstate, hnonce.2]⟩
  | revoke _ _ hrr _ h0 h1 _ =>
    obtain ⟨-, rfl, -, -⟩ := call_eq h0 h1 hcall
    obtain hq | hq := hq <;> rw [hrr] at hq <;> exact absurd hq (by decide)

/-- **An answer spends the nonce** of the follow-up message. -/
lemma Processed.spent (h : srv.Processed msg m tr resp m') (hf : Fresh past m)
    (hnodup : (past ++ (resp.map fun p => p.header.senderNonce).toList).Nodup)
    (hcall : ⟨.handleCMP ctx q s, r⟩ ∈ tr) (hans : FollowedUp q r resp) :
    Spent (past ++ (resp.map fun p => p.header.senderNonce).toList) q.header.recipNonce m' := by
  obtain ⟨key0, hkey0⟩ := h.expected hcall hans.type
  refine ⟨List.mem_append_left _ (hf.generated hkey0), fun key hn => ?_⟩
  have hold : m.Expects key q.header.recipNonce := by
    obtain ⟨_, hr⟩ := h.renews
    obtain hold | ⟨-, p, hp, hnew⟩ := hr key _ hn
    · exact hold
    · exact absurd hnew (ne_of_nodup hnodup (hf.generated hkey0) hp)
  cases h with
  | idle _ htr => exact htr _ _ _ _ hcall
  | request _ _ hreq _ h0 h1 _ =>
    obtain ⟨-, rfl, -, -⟩ := call_eq h0 h1 hcall
    obtain hq | hq := hans.type <;> rw [hq] at hreq <;> exact absurd hreq (by decide)
  | @poll _ _ _ _ c _ _ _ _ _ _ _ hq _ hc hstate hnonce h0 h1 hset =>
    obtain ⟨-, rfl, -, rfl⟩ := call_eq h0 h1 hcall
    obtain ⟨-, herr, h, hr, hsome⟩ | ⟨hq', -⟩ := hans
    · -- the nonce is expected under the key of the transaction only
      have hkey := hf.unique hold
        ⟨c, hc, by rw [TransactionEntry.expectedNonce, hstate, hnonce.2]⟩
      subst hkey
      obtain ⟨p, hp, hnew⟩ := hset.replaces herr hr hsome hn
      exact ne_of_nodup hnodup (hf.generated hold) hp hnew
    · rw [hq] at hq'
      exact absurd hq' (by decide)
  | @confirm _ _ _ c _ _ _ _ _ _ _ _ hq hc hstate hnonce h0 h1 hset ha =>
    obtain ⟨-, rfl, -, rfl⟩ := call_eq h0 h1 hcall
    obtain ⟨hq', -⟩ | ⟨-, p, hp, hconf⟩ := hans
    · rw [hq] at hq'
      exact absurd hq' (by decide)
    · cases hp
      split at hset
      · obtain ht | ht := ha.type
        · rw [hconf, hset.2] at ht
          exact absurd (show BodyTypePKIConf = BodyTypeError from ht) (by decide)
        · rw [hconf] at ht
          exact absurd ht (by decide)
      · have hkey := hf.unique hold
          ⟨c, hc, by rw [TransactionEntry.expectedNonce, hstate, hnonce.2]⟩
        subst hkey
        rw [hset.2] at hn
        exact (Tracker.expects_remove hn).1 rfl
  | revoke _ _ hrr _ h0 h1 _ =>
    obtain ⟨-, rfl, -, -⟩ := call_eq h0 h1 hcall
    obtain hq | hq := hans.type <;> rw [hrr] at hq <;> exact absurd hq (by decide)

lemma Arrived.same {arrived : PKIMessage} (h : Arrived arrived q) :
    q.body = arrived.body ∧ q.header.recipNonce = arrived.header.recipNonce := by
  obtain rfl | ⟨-, id, rfl⟩ := h <;> exact ⟨rfl, rfl⟩

lemma type_of_getNested {body : PKIBody} {msgs : List PKIMessage}
    (h : body.getNested = .ok msgs) : body.type = BodyTypeNested := by
  unfold PKIBody.getNested at h
  split at h
  · rfl
  · rfl
  · next b _ _ =>
      by_contra hne
      rw [if_pos hne] at h
      cases h

/-- A message with another one inside is a nested message. -/
lemma type_of_nestedRequest {inner : PKIMessage} (h : srv.nestedRequest msg = .ok inner) :
    msg.body.type = BodyTypeNested := by
  unfold nestedRequest at h
  split_ifs at h
  split at h
  · cases h
  · next hget => exact type_of_getNested hget
  · next hget => exact type_of_getNested hget

/-- A message that is received twice brings the same request. -/
lemma Brings.same (h : srv.Brings msg q) (h' : srv.Brings msg q')
    (hq : q.body.type ≠ BodyTypeNested) (hq' : q'.body.type ≠ BodyTypeNested) :
    q'.body = q.body ∧ q'.header.recipNonce = q.header.recipNonce := by
  obtain ⟨arrived, ha, hmsg⟩ := h
  obtain ⟨arrived', ha', hmsg'⟩ := h'
  have heq : arrived' = arrived := by
    obtain rfl | hnested := hmsg
    · obtain rfl | hnested' := hmsg'
      · rfl
      · exact absurd (ha.same.1 ▸ type_of_nestedRequest hnested') hq
    · obtain rfl | hnested' := hmsg'
      · exact absurd (ha'.same.1 ▸ type_of_nestedRequest hnested) hq'
      · exact Except.ok.inj (hnested'.symm.trans hnested)
  subst heq
  exact ⟨ha'.same.1.trans ha.same.1.symm, ha'.same.2.trans ha.same.2.symm⟩

/-- The handler sees the request that was received. -/
lemma Processed.brings (h : srv.Processed msg m tr resp m')
    (hcall : ⟨.handleCMP ctx q s, r⟩ ∈ tr) :
    srv.Brings msg q ∧ q.body.type ≠ BodyTypeNested := by
  cases h with
  | idle _ htr => exact absurd hcall (htr _ _ _ _)
  | request hb _ hq _ h0 h1 _ =>
    obtain ⟨-, rfl, -, -⟩ := call_eq h0 h1 hcall
    refine ⟨hb, fun h => ?_⟩
    rw [h] at hq
    exact absurd hq (by decide)
  | poll hb _ hq _ _ _ _ h0 h1 _ =>
    obtain ⟨-, rfl, -, -⟩ := call_eq h0 h1 hcall
    exact ⟨hb, by rw [hq]; decide⟩
  | confirm hb _ hq _ _ _ h0 h1 _ _ =>
    obtain ⟨-, rfl, -, -⟩ := call_eq h0 h1 hcall
    exact ⟨hb, by rw [hq]; decide⟩
  | revoke hb _ hq _ h0 h1 _ =>
    obtain ⟨-, rfl, -, -⟩ := call_eq h0 h1 hcall
    exact ⟨hb, by rw [hq]; decide⟩

end

/-! ### Whole runs -/

section

variable {srv : Server} {m m' : Tracker} {past : List Bytes}
variable {ts : List ServerTurn}

/-- The expected nonces of a run are fresh. -/
lemma fresh_of_turns (hh : srv.handler = .external) (h : Turns exec {} ts m)
    (hthreads : ∀ t ∈ ts, srv.Thread t.prog) (hnodup : (noncesOf ts).Nodup) :
    Fresh (noncesOf ts) m := by
  refine h.invariant (J := fun past m => (noncesOf past).Nodup → Fresh (noncesOf past) m)
    (fun _ => ⟨fun h => ?_, fun h => ?_⟩) (fun past t m m' ht hf hrun hnodup => ?_) hnodup
  · obtain ⟨c, hc, -⟩ := h
    cases hc
  · obtain ⟨c, hc, -⟩ := h
    cases hc
  · rw [noncesOf_append, noncesOf_singleton] at hnodup ⊢
    exact (hf (List.nodup_append.mp hnodup).1).renews (thread_renews hh (hthreads t ht) hrun) hnodup

/-- A spent nonce is not expected again. -/
lemma spent_of_turns (hh : srv.handler = .external) (h : Turns exec m ts m')
    (hthreads : ∀ t ∈ ts, srv.Thread t.prog) (hnodup : (past ++ noncesOf ts).Nodup) {n : Bytes}
    (hs : Spent past n m) : Spent (past ++ noncesOf ts) n m' := by
  refine h.invariant
    (J := fun ts m => (past ++ noncesOf ts).Nodup → Spent (past ++ noncesOf ts) n m)
    (fun _ => by rwa [show noncesOf [] = [] from rfl, List.append_nil])
    (fun ts t m m' ht hs hrun hnodup => ?_) hnodup
  rw [noncesOf_append, noncesOf_singleton, ← List.append_assoc] at hnodup ⊢
  exact (hs (List.nodup_append.mp hnodup).1).renews (thread_renews hh (hthreads t ht) hrun) hnodup

end

/-- **No follow-up message is answered twice**: messages and cleanups come one after the
other, and all nonces of the server are distinct.  A poll that the handler has answered
with a certificate or with the request to wait, and a certConf that was answered with a
pkiConf, do not reach the handler again, when the same message is received again and
when it is forwarded inside another one. -/
theorem followup_not_replayed (srv : Server) (hh : srv.handler = .external) (m' : Tracker)
    (pre mid post : List ServerTurn)
    (t u : ServerTurn)
    (hrun : Turns exec {} (pre ++ t :: (mid ++ u :: post)) m')
    (hthreads : ∀ v ∈ pre ++ t :: (mid ++ u :: post), srv.Thread v.prog)
    (hnonces : (noncesOf (pre ++ t :: (mid ++ u :: post))).Nodup)
    (ctx : Ctx) (q : PKIMessage) (s : SenderIdentity) (r : HandlerResult)
    (hcall : ⟨.handleCMP ctx q s, r⟩ ∈ t.trace) (hans : FollowedUp q r t.result) :
    (∀ msg, t.prog = srv.processMessage msg → u.prog = srv.processMessage msg → NoCall u.trace) ∧
    ∀ ctx' s' r', ⟨.handleCMP ctx' q s', r'⟩ ∉ u.trace := by
  obtain ⟨m1, hpre, hrun⟩ := turns_append_iff.mp hrun
  obtain ⟨m2, ht, hrun⟩ := turns_cons_iff.mp hrun
  obtain ⟨m3, hmid, hrun⟩ := turns_append_iff.mp hrun
  obtain ⟨m4, hu, -⟩ := turns_cons_iff.mp hrun
  rw [List.append_cons, noncesOf_append, noncesOf_append mid, ← List.append_assoc] at hnonces
  have hnodup := (List.nodup_append.mp hnonces).1
  have hpast := (List.nodup_append.mp hnodup).1
  obtain ⟨msg, hmsg, hproc⟩ := processed_of_call hh (hthreads t (by simp)) ht hcall
  have hspent : Spent (noncesOf (pre ++ [t])) q.header.recipNonce m2 := by
    rw [noncesOf_append, noncesOf_singleton] at hpast ⊢
    exact hproc.spent (fresh_of_turns hh hpre (fun v hv => hthreads v (List.mem_append_left _ hv))
      (List.nodup_append.mp hpast).1) hpast hcall hans
  have hspent' := spent_of_turns hh hmid (fun v hv => hthreads v (by simp [hv])) hnodup hspent
  have hno : ∀ ctx' q' s' r', ⟨.handleCMP ctx' q' s', r'⟩ ∈ u.trace → q'.body = q.body →
      q'.header.recipNonce ≠ q.header.recipNonce := by
    intro ctx' q' s' r' hcall' hbody hnonce
    obtain ⟨_, -, hproc'⟩ := processed_of_call hh (hthreads u (by simp)) hu hcall'
    obtain ⟨key, hkey⟩ := hproc'.expected hcall' (hbody ▸ hans.type)
    exact hspent'.unexpected key (hnonce ▸ hkey)
  refine ⟨fun msg ht' hu' ctx' q' s' r' hcall' => ?_, fun ctx' s' r' hcall' =>
    hno ctx' q s' r' hcall' rfl rfl⟩
  rw [ht'] at ht
  rw [hu'] at hu
  obtain ⟨hb, hq⟩ := (processed_of_runs hh ht).brings hcall
  obtain ⟨hb', hq'⟩ := (processed_of_runs hh hu).brings hcall'
  obtain ⟨hbody, hnonce⟩ := hb.same hb' hq hq'
  exact hno ctx' q' s' r' hcall' hbody hnonce

/-- The outside with a nonce of its own, and a handler that asks to wait. -/
def numberedOracle (n : UInt8) : Oracle :=
  { sampleOracle 1 with
    random := ⟨List.replicate 16 n, rfl⟩
    result := { response := some { waiting := some ⟨0, [], [1]⟩ } } }

/-- The poll that follows the first answer. -/
def firstPoll : PKIMessage := sampleReceived (.pollReq [0]) (List.replicate 16 1)

/-- A request, and a poll that comes twice. -/
def pollTwice : Option (List ServerTurn × Tracker) :=
  recordTurns exec
    [(sampleServer.processMessage sampleRequest, fun _ => numberedOracle 1),
     (sampleServer.processMessage firstPoll, fun _ => numberedOracle 2),
     (sampleServer.processMessage firstPoll, fun _ => numberedOracle 3)] {}

/-- The event is a call of the handler with a poll, which has to wait. -/
def pollWaits : ServerEvent → Bool
  | ⟨.handleCMP _ q _, r⟩ => q.body.type = BodyTypePollReq && r.err = none &&
      r.response.any fun h => h.waiting.isSome
  | _ => false

lemma followedUp_of_pollWaits {tr : History} (h : tr.any pollWaits) (resp : Option PKIMessage) :
    ∃ ctx q s r, ⟨.handleCMP ctx q s, r⟩ ∈ tr ∧ FollowedUp q r resp := by
  obtain ⟨⟨o, r⟩, he, hwaits⟩ := List.any_eq_true.mp h
  cases o with
  | handleCMP ctx q s =>
    simp only [pollWaits, Bool.and_eq_true, decide_eq_true_eq] at hwaits
    obtain ⟨⟨hq, herr⟩, hany⟩ := hwaits
    obtain ⟨h, hr, hw⟩ := (Option.any_eq_true _ _).mp hany
    exact ⟨ctx, q, s, r, he, .inl ⟨hq, herr, h, hr, .inl (Option.isSome_iff_ne_none.mp hw)⟩⟩
  | _ => cases hwaits

/-- The poll of the second turn has to wait, and no nonce is drawn twice. -/
def waitsOnce : List ServerTurn × Tracker → Bool
  | ([t0, t, u], _) => t.trace.any pollWaits && decide (noncesOf [t0, t, u]).Nodup
  | _ => false

/-- The first poll has to wait, and the second one does not reach the handler. -/
theorem followup_not_replayed_sample :
    ∃ t0 t u m', Turns exec {} [t0, t, u] m' ∧ t.prog = sampleServer.processMessage firstPoll ∧
      u.prog = sampleServer.processMessage firstPoll ∧
      (∃ ctx q s r, ⟨.handleCMP ctx q s, r⟩ ∈ t.trace ∧ FollowedUp q r t.result) ∧
      NoCall u.trace := by
  have hrun : pollTwice.any waitsOnce = true := by decide +kernel
  obtain ⟨⟨ts, m'⟩, hrec, hts⟩ := (Option.any_eq_true _ _).mp hrun
  obtain ⟨hturns, hprogs⟩ := turns_of_recordTurns hrec
  unfold waitsOnce at hts
  split at hts
  · next t0 t u _ heq =>
    cases heq
    obtain ⟨hany, hnodup⟩ := Bool.and_eq_true_iff.mp hts
    obtain ⟨hp0, hp, hp'⟩ : t0.prog = sampleServer.processMessage sampleRequest ∧
        t.prog = sampleServer.processMessage firstPoll ∧
        u.prog = sampleServer.processMessage firstPoll := by simpa using hprogs
    have hthreads : ∀ v ∈ [t0, t, u], sampleServer.Thread v.prog := by
      intro v hv
      simp only [List.mem_cons, List.not_mem_nil, or_false] at hv
      rcases hv with rfl | rfl | rfl
      · exact hp0 ▸ .message _
      · exact hp ▸ .message _
      · exact hp' ▸ .message _
    obtain ⟨ctx, q, s, r, hcall, hans⟩ := followedUp_of_pollWaits hany t.result
    have hno := followup_not_replayed sampleServer rfl m' [t0] [] [] t u hturns hthreads
      (of_decide_eq_true hnodup) ctx q s r hcall hans
    exact ⟨t0, t, u, m', hturns, hp, hp', ⟨ctx, q, s, r, hcall, hans⟩, hno.1 _ hp hp'⟩
  · cases hts

end Server

end PkiCmp
