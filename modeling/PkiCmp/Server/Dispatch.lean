/-
The course of one message (`process` of `server/server.go`).

* `Course`: a message is refused before a transaction is started for it, or it is
  handed to the handlers, an initial request after its transaction was started;
* `course_of_steps`: every trace of a message is one of these.
-/
import PkiCmp.Lib.Sequential
import PkiCmp.Server.Authentication

namespace PkiCmp

open Der Interact

/-- One call of the server among others that come one after the other. -/
abbrev ServerTurn := Turn Effect Effect.Res (Option PKIMessage)

/-- Every operation of the trace is of the kind. -/
def Within (P : Effect → Prop) (tr : History) : Prop := ∀ e ∈ tr, P e.op

namespace Within

variable {P Q : Effect → Prop} {tr tr' : History}

lemma nil : Within P [] := List.forall_mem_nil _

lemma mono (h : Within P tr) (hPQ : ∀ o, P o → Q o) : Within Q tr := fun e he => hPQ _ (h e he)

lemma append (h : Within P tr) (h' : Within P tr') : Within P (tr ++ tr') :=
  fun e he => (List.mem_append.mp he).elim (h e) (h' e)

lemma cons {o : Effect} {x : o.Res} (ho : P o) (h : Within P tr) : Within P (⟨o, x⟩ :: tr) :=
  List.forall_mem_cons.mpr ⟨ho, h⟩

lemma of_only {α : Type} {p q : ServerProg α} (hp : Prog.Only P p) (hs : Prog.Steps p tr q) :
    Within P tr := fun _ he => hp.mem_steps hs he

section

variable {ctx : Ctx} {q : PKIMessage} {s : SenderIdentity} {r : HandlerResult}

/-- Where the handler may not be called, no call is found. -/
lemma no_call (h : Within P tr) (hP : ∀ ctx q s, ¬ P (.handleCMP ctx q s)) :
    ⟨.handleCMP ctx q s, r⟩ ∉ tr := fun hmem => hP ctx q s (h _ hmem)

lemma building_no_call (h : Within Effect.Building tr) : ⟨.handleCMP ctx q s, r⟩ ∉ tr :=
  h.no_call fun _ _ _ h => h

end

end Within

namespace Server

/-- The response is an error. -/
def IsRefusal (resp : Option PKIMessage) : Prop := ∃ m c, resp = some m ∧ m.body = .error c

/-- The message `q` was received as `msg`, or inside the nested message `msg`. -/
def Brings (srv : Server) (msg q : PKIMessage) : Prop :=
  ∃ arrived, Arrived arrived q ∧ (arrived = msg ∨ srv.nestedRequest msg = .ok arrived)

/-- What can happen to a message. -/
inductive Course (srv : Server) (msg : PKIMessage) : History → Option PKIMessage → Prop
  /-- one of the checks fails -/
  | refused {tr : History} {resp : Option PKIMessage} (htr : Within Effect.Around tr)
      (hresp : IsRefusal resp) : Course srv msg tr resp
  /-- no transaction can be started -/
  | locked {tr0 tr1 tr2 : History} {q : PKIMessage} {s : SenderIdentity} {credID : Bytes}
      {r : Except GoError Bool} {resp : Option PKIMessage} (hq : srv.Brings msg q)
      (hinitial : isInitialRequest q.body.type) (hcred : s.credentialID srv.crypto = .ok credID)
      (h0 : Within Effect.Around tr0)
      (h1 : Prog.Steps (srv.tracker.startIfAbsent credID q.header.transactionID) tr1 (.ret r))
      (hr : r ≠ .ok false) (h2 : Within Effect.Around tr2) (hresp : IsRefusal resp) :
      Course srv msg (tr0 ++ (tr1 ++ tr2)) resp
  /-- an initial request whose transaction was started -/
  | started {tr0 tr1 tr2 : History} {q : PKIMessage} {s : SenderIdentity} {credID : Bytes}
      {resp : Option PKIMessage} (hq : srv.Brings msg q)
      (hinitial : isInitialRequest q.body.type) (hcred : s.credentialID srv.crypto = .ok credID)
      (h0 : Within Effect.Around tr0)
      (h1 : Prog.Steps (srv.tracker.startIfAbsent credID q.header.transactionID) tr1
        (.ret (.ok false)))
      (h2 : Prog.Steps (srv.dispatch q s) tr2 (.ret resp)) :
      Course srv msg (tr0 ++ (tr1 ++ tr2)) resp
  /-- a message of a transaction that has to be there -/
  | followed {tr0 tr1 : History} {q : PKIMessage} {s : SenderIdentity} {credID : Bytes}
      {resp : Option PKIMessage} (hq : srv.Brings msg q)
      (hinitial : ¬ isInitialRequest q.body.type) (hcred : s.credentialID srv.crypto = .ok credID)
      (h0 : Within Effect.Around tr0) (h1 : Prog.Steps (srv.dispatch q s) tr1 (.ret resp)) :
      Course srv msg (tr0 ++ tr1) resp

section

variable {srv : Server} {msg : PKIMessage} {tr : History} {resp : Option PKIMessage}

/-! ### Refusals -/

variable {s : Option SenderIdentity}

lemma Answers.isRefusal {req m : PKIMessage} {c : ErrorMsgContent}
    (h : srv.Answers s tr req (.error c) m) : IsRefusal (some m) := by
  obtain hb | ⟨m', rfl⟩ := h.cases
  · exact ⟨m, c, rfl, hb⟩
  · exact ⟨_, _, rfl, rfl⟩

lemma answerError_steps {req : PKIMessage} {si : PKIStatusInfo}
    (hs : Prog.Steps (srv.answerError req s si) tr (.ret resp)) :
    Within Effect.Building tr ∧ IsRefusal resp := by
  refine ⟨.of_only (srv.answerError_only ..) hs, ?_⟩
  obtain ⟨tr1, tr2, m, rfl, h1, h2⟩ := hs.of_bind
  obtain ⟨rfl, ⟨⟩⟩ := h2.of_ret
  exact (buildResponseInternal_steps h1).1.isRefusal

lemma answerVersion_steps {req : PKIMessage}
    (hs : Prog.Steps (srv.answerVersion req) tr (.ret resp)) :
    Within Effect.Building tr ∧ IsRefusal resp := by
  obtain ⟨tr1, tr2, m, rfl, h1, h2⟩ := hs.of_bind
  obtain ⟨rfl, ⟨⟩⟩ := h2.of_ret
  obtain ⟨_, c, ⟨⟩, hc⟩ := (buildResponseInternal_steps h1).1.isRefusal
  exact ⟨(Within.of_only (srv.buildResponse_only ..) h1).append .nil, _, c, rfl, hc⟩

lemma reject_steps {req : PKIMessage} {failInfo : PKIFailureInfo} {text : PKIFreeText}
    (hs : Prog.Steps (srv.reject req s failInfo text) tr (.ret resp)) :
    Within Effect.Building tr ∧ IsRefusal resp :=
  answerError_steps hs

/-! ### The checks -/

/-- The checks of the header end with the start of a transaction. -/
lemma validateHeader_steps {arrived q : PKIMessage} {s : SenderIdentity} {r : Except GoError Unit}
    (hs : Prog.Steps (srv.validateHeader arrived s) tr (.ret (q, r))) :
    Arrived arrived q ∧ ((Within Effect.Around tr ∧ ∃ e, r = .error e) ∨
      ∃ tr0 tr1, tr = tr0 ++ tr1 ∧ Within Effect.Around tr0 ∧
        Prog.Steps (srv.startTransaction q s) tr1 (.ret r)) := by
  have htime : ∀ q, Prog.Only Effect.Around (srv.checkMessageTime q) :=
    srv.checkMessageTime_of trivial
  have hfields : ∀ (q : PKIMessage) {tr : History},
      Prog.Steps (srv.validateFields q s) tr (.ret r) →
      (Within Effect.Around tr ∧ ∃ e, r = .error e) ∨
      ∃ tr0 tr1, tr = tr0 ++ tr1 ∧ Within Effect.Around tr0 ∧
        Prog.Steps (srv.startTransaction q s) tr1 (.ret r) := by
    intro q tr hs
    unfold validateFields at hs
    split at hs
    · next e _ =>
      obtain ⟨rfl, ⟨⟩⟩ := hs.of_ret
      exact .inl ⟨.nil, e, rfl⟩
    · obtain ⟨tr0, tr1, r', rfl, h0, h1⟩ := hs.of_bind
      have hw := Within.of_only (htime q) h0
      split at h1
      · next e =>
        obtain ⟨rfl, ⟨⟩⟩ := h1.of_ret
        exact .inl ⟨hw.append .nil, e, rfl⟩
      · split_ifs at h1
        · obtain ⟨rfl, ⟨⟩⟩ := h1.of_ret
          exact .inl ⟨hw.append .nil, _, rfl⟩
        · exact .inr ⟨tr0, tr1, rfl, hw, h1⟩
  unfold validateHeader at hs
  split_ifs at hs with hid
  · obtain ⟨rfl, ⟨⟩⟩ := hs.of_ret
    exact ⟨.inl rfl, .inl ⟨.nil, _, rfl⟩⟩
  · obtain ⟨id, tr', rfl, hk⟩ := hs.of_call
    obtain ⟨tr0, tr1, r', rfl, h0, h1⟩ := hk.of_bind
    obtain ⟨rfl, ⟨⟩⟩ := h1.of_ret
    refine ⟨.inr ⟨hid, id, rfl⟩, ?_⟩
    obtain ⟨hw, he⟩ | ⟨a, b, rfl, hw, hb⟩ := hfields _ h0
    · exact .inl ⟨.cons trivial (hw.append .nil), he⟩
    · exact .inr ⟨⟨.random, id⟩ :: a, b, by simp, .cons trivial hw, hb⟩
  · obtain ⟨tr0, tr1, r', rfl, h0, h1⟩ := hs.of_bind
    obtain ⟨rfl, ⟨⟩⟩ := h1.of_ret
    rw [List.append_nil]
    exact ⟨.inl rfl, hfields _ h0⟩

/-- A verified message is refused, or handed over. -/
lemma processVerified_course {arrived : PKIMessage} {s : SenderIdentity}
    (harrived : arrived = msg ∨ srv.nestedRequest msg = .ok arrived) {tr0 : History}
    (h0 : Within Effect.Around tr0)
    (hs : Prog.Steps (srv.processVerified arrived s) tr (.ret resp)) :
    srv.Course msg (tr0 ++ tr) resp := by
  obtain ⟨tr1, tr2, ⟨q, r⟩, rfl, h1, h2⟩ := hs.of_bind
  obtain ⟨hq, ⟨hw, e, rfl⟩ | ⟨a, b, rfl, ha, hb⟩⟩ := validateHeader_steps h1
  · obtain ⟨hw2, hresp⟩ := answerError_steps h2
    exact .refused (h0.append (hw.append (hw2.mono fun _ => Effect.Building.around))) hresp
  · have hbrings : srv.Brings msg q := ⟨arrived, hq, harrived⟩
    unfold startTransaction at hb
    split at hb
    · obtain ⟨rfl, ⟨⟩⟩ := hb.of_ret
      obtain ⟨hw2, hresp⟩ := answerError_steps h2
      exact .refused (h0.append ((ha.append .nil).append
        (hw2.mono fun _ => Effect.Building.around))) hresp
    · next credID hcred =>
      split_ifs at hb with hinitial
      · obtain ⟨b1, b2, started, rfl, hb1, hb2⟩ := hb.of_bind
        have hlocked : ∀ {e : GoError}, r = .error e → b2 = [] → started ≠ .ok false →
            srv.Course msg (tr0 ++ (a ++ (b1 ++ b2) ++ tr2)) resp := by
          rintro e rfl rfl hne
          obtain ⟨hw2, hresp⟩ := answerError_steps h2
          rw [List.append_nil, List.append_assoc, ← List.append_assoc]
          exact .locked hbrings hinitial hcred (h0.append ha) hb1 hne
            (hw2.mono fun _ => Effect.Building.around) hresp
        split at hb2
        · obtain ⟨rfl, ⟨⟩⟩ := hb2.of_ret
          exact hlocked rfl rfl (fun h => by cases h)
        · obtain ⟨rfl, ⟨⟩⟩ := hb2.of_ret
          exact hlocked rfl rfl (by simp)
        · obtain ⟨rfl, ⟨⟩⟩ := hb2.of_ret
          rw [List.append_nil, List.append_assoc, ← List.append_assoc]
          exact .started hbrings hinitial hcred (h0.append ha) hb1 h2
      · obtain ⟨rfl, ⟨⟩⟩ := hb.of_ret
        rw [List.append_nil, ← List.append_assoc]
        exact .followed hbrings hinitial hcred (h0.append ha) h2

/-- `process` refuses a message, hands it over, or goes on with the one inside. -/
lemma process_steps {depth : ℕ} {q : PKIMessage} {fwd : Option Forwarding}
    (hs : Prog.Steps (srv.process (depth + 1) q fwd) tr (.ret resp)) :
    (Within Effect.Around tr ∧ IsRefusal resp) ∨
    (∃ tr0 tr1 s, tr = tr0 ++ tr1 ∧ Within Effect.Around tr0 ∧
      Prog.Steps (srv.processVerified q s) tr1 (.ret resp)) ∨
    ∃ tr0 tr1 arrived fwd', tr = tr0 ++ tr1 ∧ Within Effect.Around tr0 ∧
      q.body.type = BodyTypeNested ∧ srv.nestedRequest q = .ok arrived ∧
      Prog.Steps (srv.process depth arrived (some fwd')) tr1 (.ret resp) := by
  have hbuilding : ∀ {tr : History}, Within Effect.Building tr ∧ IsRefusal resp →
      Within Effect.Around tr ∧ IsRefusal resp :=
    fun h => ⟨h.1.mono fun _ => Effect.Building.around, h.2⟩
  unfold process at hs
  split_ifs at hs
  · exact .inl (hbuilding (reject_steps hs))
  · exact .inl (hbuilding (answerVersion_steps hs))
  · split at hs
    · exact .inl (hbuilding (reject_steps hs))
    · obtain ⟨v, tr', rfl, hk⟩ := hs.of_call
      have hv : ∀ {tr : History}, Within Effect.Around tr →
          Within Effect.Around (⟨.verifier, v⟩ :: tr) := fun h => .cons trivial h
      split at hk
      · obtain ⟨hw, hresp⟩ := hbuilding (answerError_steps hk)
        exact .inl ⟨hv hw, hresp⟩
      · next s _ =>
        unfold processAuthenticated at hk
        split at hk
        · obtain ⟨hw, hresp⟩ := hbuilding (reject_steps hk)
          exact .inl ⟨hv hw, hresp⟩
        · split_ifs at hk with htype
          · unfold handleNested at hk
            split at hk
            · obtain ⟨hw, hresp⟩ := hbuilding (reject_steps hk)
              exact .inl ⟨hv hw, hresp⟩
            · next arrived harrived =>
              exact .inr (.inr ⟨[_], tr', arrived, _, rfl, hv .nil, htype, harrived, hk⟩)
          · unfold processForwarded at hk
            split at hk
            · exact .inr (.inl ⟨[_], tr', s, rfl, hv .nil, hk⟩)
            · obtain ⟨refused, tr'', rfl, hf⟩ := hk.of_call
              split at hf
              · obtain ⟨hw, hresp⟩ := hbuilding (answerError_steps hf)
                exact .inl ⟨hv (.cons trivial hw), hresp⟩
              · exact .inr (.inl ⟨[_, _], tr'', _, rfl, hv (.cons trivial .nil), hf⟩)

/-- **The course of a message**, whatever the answers it gets from outside. -/
theorem course_of_steps (hs : Prog.Steps (srv.processMessage msg) tr (.ret resp)) :
    srv.Course msg tr resp := by
  obtain ⟨hw, hresp⟩ | ⟨tr0, tr1, s, rfl, h0, h1⟩ | ⟨tr0, tr1, arrived, fwd, rfl, h0, -, hn, h1⟩ :=
    process_steps hs
  · exact .refused hw hresp
  · exact processVerified_course (.inl rfl) h0 h1
  · obtain ⟨hw, hresp⟩ | ⟨a, b, s, rfl, ha, hb⟩ | ⟨_, _, _, _, _, _, htype, -⟩ := process_steps h1
    · exact .refused (h0.append hw) hresp
    · rw [← List.append_assoc]
      exact processVerified_course (.inr hn) (h0.append ha) hb
    · exact absurd htype (nestedRequest_eq_ok hn).2.2.1

end

end Server

end PkiCmp
