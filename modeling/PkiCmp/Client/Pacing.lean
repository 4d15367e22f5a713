/-
How long a client waits between two polls (`client/transport.go`).

* `Client.Configured`: the limits that the options of `NewClient` can set;
* `Client.clampCheckAfter_eq`: the wait, computed in 64 bits, is the clamp over the integers;
* `Client.pacer`: the monitor of the polling loop;
* `Client.Paced`: what stands between two polls in a row;
* `Client.poll_paced`: **every run of `poll`** keeps to its number of polls and to the clamped
  waits.
-/
import PkiCmp.Client.Rounds

namespace PkiCmp

open Der Interact

namespace Client

/-! ### The clamp -/

/-- A number of 64 bits. -/
def Fits64 (v : ℤ) : Prop := -2 ^ 63 ≤ v ∧ v < 2 ^ 63

/-- The limits of a client: the defaults of `NewClient`, or what `WithCheckAfterLimits` makes of
any two durations. -/
inductive Configured : Client → Prop
  | default {c : Client} (hmin : c.minCheckAfter = DefaultMinCheckAfter)
      (hmax : c.maxCheckAfter = DefaultMaxCheckAfter) : Configured c
  | limits (c : Client) {minimum maximum : Duration} (hmin : Fits64 minimum)
      (hmax : Fits64 maximum) : Configured (c.withCheckAfterLimits minimum maximum)

/-- The limits are in order, and the upper one is a duration. -/
structure Limited (c : Client) : Prop where
  nonneg : 0 ≤ c.minCheckAfter
  le : c.minCheckAfter ≤ c.maxCheckAfter
  lt : c.maxCheckAfter < 2 ^ 63

/-- The clamp over the integers. -/
def clamped (c : Client) (seconds : ℤ) : Duration :=
  max c.minCheckAfter (min c.maxCheckAfter (seconds * Time.second))

lemma Configured.limited {c : Client} (h : c.Configured) : c.Limited := by
  cases h with
  | default hmin hmax =>
    constructor
    · rw [hmin]
      decide
    · rw [hmin, hmax]
      decide
    · rw [hmax]
      decide
  | limits c hmin hmax =>
    obtain ⟨-, hmin⟩ := hmin
    obtain ⟨-, hmax⟩ := hmax
    constructor <;> dsimp only [withCheckAfterLimits] <;> split_ifs <;> linarith

lemma wrap64_of_fits {v : ℤ} (h : Fits64 v) : wrap64 v = v := by
  obtain ⟨hlow, hhigh⟩ := h
  exact Int.bmod_eq_of_le (by norm_num at *; omega) (by norm_num at *; omega)

section

variable {c : Client}

/-- **The wait is the clamp**: neither the bound on the seconds nor the product wraps. -/
lemma clampCheckAfter_eq (hc : c.Limited) (seconds : ℤ) :
    c.clampCheckAfter seconds = c.clamped seconds := by
  obtain ⟨hnonneg, hle, hlt⟩ := hc
  have hsecond : Time.second = 1000000000 := rfl
  -- the seconds of the upper limit, rounded down
  have hdiv : c.maxCheckAfter.tdiv Time.second = c.maxCheckAfter / Time.second :=
    Int.tdiv_eq_ediv_of_nonneg (hnonneg.trans hle)
  have hlow := Int.mul_ediv_self_le (x := c.maxCheckAfter) (k := Time.second) (by decide)
  have hhigh := Int.lt_mul_ediv_self_add (x := c.maxCheckAfter) (k := Time.second) (by decide)
  generalize c.maxCheckAfter / Time.second = bound at hdiv hlow hhigh
  rw [hsecond] at hlow hhigh
  have hbound : wrap64 (bound + 1) = bound + 1 := wrap64_of_fits (by constructor <;> linarith)
  rw [clampCheckAfter, clamped, hdiv, hbound, hsecond]
  split_ifs with hneg hlarge
  · rw [min_eq_right (by linarith), max_eq_left (by linarith)]
  · rw [min_eq_left (by linarith), max_eq_right hle]
  · rw [not_le] at hneg hlarge
    have hfew : seconds ≤ bound := Int.lt_add_one_iff.mp hlarge
    rw [wrap64_of_fits (by constructor <;> linarith)]
    dsimp only
    split_ifs with hmin hmax
    · rw [min_eq_right (by linarith), max_eq_left hmin.le]
    · linarith
    · rw [not_lt] at hmin hmax
      rw [min_eq_right hmax, max_eq_right hmin]

lemma clamped_nonneg (hc : c.Limited) (seconds : ℤ) : 0 ≤ c.clamped seconds :=
  le_max_of_le_left hc.nonneg

lemma clamped_mono {seconds seconds' : ℤ} (h : seconds ≤ seconds') :
    c.clamped seconds ≤ c.clamped seconds' := by
  have hmul : seconds * Time.second ≤ seconds' * Time.second :=
    mul_le_mul_of_nonneg_right h (by decide)
  exact max_le_max_left _ (min_le_min_left _ hmul)

end

/-! ### The monitor -/

/-- The seconds that a pollRep asks for; an empty one asks for none. -/
def askedSeconds (items : PollRepContent) : ℤ := (items.head?.map PollRepItem.checkAfter).getD 0

/-- Where the polling loop stands. -/
inductive Pace where
  | begun
  | asked
  | due (d : Duration)
  | rested
  | over
  deriving DecidableEq

/-- A poll may follow. -/
def Pace.Ready (p : Pace) : Prop := p = .begun ∨ p = .rested

/-- The number of polls, and where the loop stands. -/
structure Pacing where
  polls : ℕ
  pace : Pace

/-- A message that asks for the request `certReqID`, in its encoding. -/
def PollsFor (certReqID : ℤ) (der : Bytes) : Prop :=
  ∃ m : PKIMessage, m.body = .pollReq [certReqID] ∧ m.marshalBinary = .ok der

/-- What a verified reply leaves to be done. -/
def paceAfter (c : Client) (reply : CmpHTTPResponse) (o : VerifyOptions) (now : Time) : Pace :=
  match reply.message.verify c.crypto o now, reply.message.body.getPollRep with
  | .ok _, .ok items => .due (c.clampCheckAfter (askedSeconds items))
  | _, _ => .over

/-- **The monitor of the polling loop**: a poll at the beginning or after a wait, a wait for the
time that the last reply asks for. -/
def pacer (c : Client) (certReqID : ℤ) : Monitor ClientEffect ClientEffect.Res Pacing where
  allowed
    | g, .post der => g.polls < c.maxPolls.toNat ∧ g.pace.Ready ∧ PollsFor certReqID der
    | g, .wait d => g.pace = .due d
    | g, .verifyTime awaited .. => g.pace = .asked ∧ awaited = .poll
    | _, _ => True
  rely _ _ _ := True
  next
    | g, .post _, _ => ⟨g.polls + 1, .asked⟩
    | g, .verifyTime _ reply o, now => ⟨g.polls, c.paceAfter reply o now⟩
    | g, .wait _, none => ⟨g.polls, .rested⟩
    | g, .wait _, some _ => ⟨g.polls, .over⟩
    | g, _, _ => g

section

variable (c : Client) {certReqID : ℤ}

/-- Making a message takes no turn. -/
lemma pacer_making {α : Type} {p : ClientProg α} (hp : Prog.Only ClientEffect.Making p)
    (g : Pacing) : Prog.Obeys (c.pacer certReqID) (fun g' _ => g' = g) g p := by
  refine Prog.Obeys.of_only hp fun o ho => ?_
  cases o with
  | post | wait | verifyTime => exact ho.elim
  | _ => exact ⟨trivial, fun _ => rfl⟩

/-- The wait that is due makes the loop ready. -/
lemma pause_obeys (i : ℕ) {waitTime : Duration} {g : Pacing}
    (hg : g.pace = if i = 0 then .begun else .due waitTime) :
    Prog.Obeys (c.pacer certReqID)
      (fun g' done => done = none → g'.polls = g.polls ∧ g'.pace.Ready) g (pause i waitTime) := by
  unfold pause
  split_ifs at hg ⊢ with hi
  · exact fun _ => ⟨rfl, .inl hg⟩
  · simp only [request, Prog.call_bind]
    refine ⟨hg, fun done _ => ?_⟩
    cases done with
    | none => exact fun _ => ⟨rfl, .inr rfl⟩
    | some e => nofun

/-- A reply is looked at when it was asked for. -/
lemma verifyResponse_paced (req : PKIMessage) (reply : CmpHTTPResponse)
    (creds : Credentials) (trustedCAs : Option (List Certificate))
    (knownSigner : Option Certificate) (alternative : Option Bytes) {g : Pacing}
    (hg : g.pace = .asked) :
    Prog.Obeys (c.pacer certReqID)
      (fun g' r => r.isOk → g'.polls = g.polls ∧ ∀ items,
        reply.message.body.getPollRep = .ok items →
          g'.pace = .due (c.clampCheckAfter (askedSeconds items))) g
      (c.verifyResponse .poll req reply creds trustedCAs knownSigner alternative) := by
  unfold verifyResponse
  dsimp only
  split_ifs
  · nofun
  · nofun
  · nofun
  · simp only [request, Prog.call_bind]
    refine ⟨⟨hg, rfl⟩, fun now _ => ?_⟩
    dsimp only
    split
    · next vr hv =>
      refine fun _ => ⟨rfl, fun items hitems => ?_⟩
      show c.paceAfter reply _ now = _
      rw [paceAfter, hv, hitems]
    · exact fun h => nomatch h

lemma sendHTTP_paced {der : Bytes} {g : Pacing} (hpolls : g.polls < c.maxPolls.toNat)
    (hready : g.pace.Ready) (hder : PollsFor certReqID der) :
    Prog.Obeys (c.pacer certReqID) (fun g' _ => g' = ⟨g.polls + 1, .asked⟩) g
      (c.sendHTTP der) := by
  simp only [sendHTTP, request, Prog.call_bind]
  refine ⟨⟨hpolls, hready, hder⟩, fun answer _ => ?_⟩
  cases answer <;> rfl

/-- **One poll**: the reply says how long to wait. -/
lemma exchange_paced {x : Exchange} (hx : x.awaited = .poll) {msg : PKIMessage}
    (creds : Credentials)
    (trustedCAs : Option (List Certificate)) (knownSigner : Option Certificate)
    (alternative : PKIMessage → Option Bytes) {g : Pacing} (hpolls : g.polls < c.maxPolls.toNat)
    (hready : g.pace.Ready) (hmsg : msg.body = .pollReq [certReqID]) :
    Prog.Obeys (c.pacer certReqID)
      (fun g' r => ∀ reply vr, r = .ok (reply, vr) → g'.polls = g.polls + 1 ∧
        ∀ items, reply.message.body.getPollRep = .ok items →
          g'.pace = .due (c.clampCheckAfter (askedSeconds items))) g
      (c.exchange x msg creds trustedCAs knownSigner alternative) := by
  unfold exchange
  split
  · exact fun _ _ h => by cases h
  · next der hder =>
    refine (c.sendHTTP_paced hpolls hready ⟨msg, hmsg, hder⟩).bind ?_
    rintro _ sent rfl
    cases sent with
    | error e => exact fun _ _ h => by cases h
    | ok raw =>
      dsimp only
      split
      · exact fun _ _ h => by cases h
      · next reply hparse =>
        rw [hx]
        refine (c.verifyResponse_paced msg reply creds trustedCAs knownSigner _ rfl).bind ?_
        intro g' v hv
        cases v with
        | error e => exact fun _ _ h => by cases h
        | ok vr =>
          rintro _ _ ⟨⟩
          exact hv rfl

/-- The loop goes on after a pollRep, with the time that it asks for. -/
lemma pollReply_wait {c : Client} {reply : CmpHTTPResponse} {vr : VerifyResult} {d : Duration}
    (h : c.pollReply reply vr = .inr d) :
    ∃ items, reply.message.body.getPollRep = .ok items ∧
      d = c.clampCheckAfter (askedSeconds items) := by
  unfold pollReply at h
  split at h
  · cases h
  · split_ifs at h
    · split at h
      · cases h
      · next items hitems =>
        cases h
        exact ⟨items, hitems, rfl⟩

/-- **The polling loop**, by induction on the polls that are left. -/
lemma pollLoop_paced (first : PKIHeader) (creds : Credentials) (left i : ℕ)
    (lastResp : PKIMessage) (waitTime : Duration) (knownSigner : Option Certificate) {g : Pacing}
    (hpolls : g.polls + left ≤ c.maxPolls.toNat)
    (hg : g.pace = if i = 0 then .begun else .due waitTime) :
    Prog.Obeys (c.pacer certReqID) (fun _ _ => True) g
      (c.pollLoop first creds certReqID left i lastResp waitTime knownSigner) := by
  induction left generalizing i lastResp waitTime knownSigner g with
  | zero => trivial
  | succ left ih =>
    rw [pollLoop]
    refine (c.pause_obeys i hg).bind fun g1 done hdone => ?_
    cases done with
    | some e => trivial
    | none =>
      obtain ⟨hsame, hready⟩ := hdone rfl
      refine ((c.pacer_making (c.followUp_making ..) g1).and_yields
        (c.followUp_yields _ first lastResp _ creds)).bind ?_
      rintro _ m ⟨rfl, hm⟩
      cases m with
      | error e => trivial
      | ok pollMsg =>
        refine (c.exchange_paced rfl creds c.trustedCAs knownSigner _ (by omega) hready
          (hm pollMsg rfl).body).bind fun g2 r hr => ?_
        cases r with
        | error e => trivial
        | ok answer =>
          obtain ⟨reply, vr⟩ := answer
          obtain ⟨hcount, hdue⟩ := hr reply vr rfl
          dsimp only
          split
          · trivial
          · next wait hwait =>
            refine ih (i + 1) reply.message wait _ (by omega) ?_
            rw [if_neg (Nat.succ_ne_zero i)]
            obtain ⟨items, hitems, rfl⟩ := pollReply_wait hwait
            exact hdue items hitems

end

/-! ### Runs -/

/-- What stands between two polls in a row: a verified pollRep, and after it the wait that it asks
for. -/
def Paced (c : Client) (mid : ClientHistory) : Prop :=
  ∃ before after reply o now vr items, mid = before ++ ⟨.verifyTime .poll reply o, now⟩ :: after ∧
    reply.message.verify c.crypto o now = .ok vr ∧
    reply.message.body.getPollRep = .ok items ∧
    ⟨.wait (c.clamped (askedSeconds items)), none⟩ ∈ after

section

variable {c : Client} {certReqID : ℤ}

/-- Without a poll, the loop gets ready by a wait or a verification, and the first of them finds
the pace as it was. -/
lemma exists_turn {mid : ClientHistory} (hposts : posts mid = []) {g : Pacing}
    (hg : ¬ g.pace.Ready) (haccepts : (c.pacer certReqID).Accepts g mid)
    (hready : ((c.pacer certReqID).after g mid).pace.Ready) :
    ∃ before e rest g', mid = before ++ e :: rest ∧ posts rest = [] ∧ g'.pace = g.pace ∧
      ((∃ d x, e = ⟨.wait d, x⟩ ∧ g'.pace = .due d) ∨
        ∃ reply o now, e = ⟨.verifyTime .poll reply o, now⟩ ∧ g'.pace = .asked) ∧
      (c.pacer certReqID).Accepts ((c.pacer certReqID).next g' e.op e.res) rest ∧
      (c.pacer certReqID).after g mid =
        (c.pacer certReqID).after ((c.pacer certReqID).next g' e.op e.res) rest := by
  obtain ⟨before, ⟨o, x⟩, rest, rfl, hpace, hnext⟩ :=
    Monitor.exists_change _ Pacing.pace fun h => hg (h ▸ hready)
  obtain ⟨-, hallowed, hrest⟩ := Monitor.accepts_append_iff.mp haccepts
  rw [posts, List.filterMap_append, List.append_eq_nil_iff] at hposts
  have hend := Monitor.after_append (c.pacer certReqID) g before (⟨o, x⟩ :: rest)
  cases o with
  | post der => cases hposts.2
  | wait d =>
    exact ⟨before, _, rest, _, rfl, hposts.2, hpace, .inl ⟨d, x, rfl, hallowed⟩, hrest, hend⟩
  | verifyTime awaited reply o =>
    obtain ⟨hasked, rfl⟩ := hallowed
    exact ⟨before, _, rest, _, rfl, hposts.2, hpace, .inr ⟨reply, o, x, rfl, hasked⟩, hrest, hend⟩
  | _ => exact absurd hpace hnext

/-- After the end no poll follows. -/
lemma not_ready_of_over {mid : ClientHistory} (hposts : posts mid = []) {g : Pacing}
    (hg : g.pace = .over) (haccepts : (c.pacer certReqID).Accepts g mid) :
    ¬ ((c.pacer certReqID).after g mid).pace.Ready := by
  intro hready
  obtain ⟨_, _, _, _, -, -, hpace, ⟨_, _, -, h⟩ | ⟨_, _, _, -, h⟩, -⟩ :=
    exists_turn hposts (by simp [hg, Pace.Ready]) haccepts hready
  · cases hg.symm.trans (hpace.symm.trans h)
  · cases hg.symm.trans (hpace.symm.trans h)

/-- Without a poll, the loop is ready again only after the wait that is due. -/
lemma mem_of_due {mid : ClientHistory} (hposts : posts mid = []) {g : Pacing} {d : Duration}
    (hg : g.pace = .due d) (haccepts : (c.pacer certReqID).Accepts g mid)
    (hready : ((c.pacer certReqID).after g mid).pace.Ready) : ⟨.wait d, none⟩ ∈ mid := by
  obtain ⟨before, e, rest, g', rfl, hrest, hpace, hturn, hend, hafter⟩ :=
    exists_turn hposts (by simp [hg, Pace.Ready]) haccepts hready
  rw [hafter] at hready
  obtain ⟨d', x, rfl, h⟩ | ⟨_, _, _, -, h⟩ := hturn
  · cases hg.symm.trans (hpace.symm.trans h)
    cases x with
    | none => exact List.mem_append_right _ List.mem_cons_self
    | some e => exact absurd hready (not_ready_of_over hrest rfl hend)
  · cases hg.symm.trans (hpace.symm.trans h)

/-- **Between two polls** stands the wait for the time that the reply to the first one asks for. -/
lemma paced_of_asked (hc : c.Limited) {mid : ClientHistory} (hposts : posts mid = []) {g : Pacing}
    (hg : g.pace = .asked) (haccepts : (c.pacer certReqID).Accepts g mid)
    (hready : ((c.pacer certReqID).after g mid).pace.Ready) : c.Paced mid := by
  obtain ⟨before, e, rest, g', rfl, hrest, hpace, hturn, hend, hafter⟩ :=
    exists_turn hposts (by simp [hg, Pace.Ready]) haccepts hready
  rw [hafter] at hready
  obtain ⟨_, _, -, h⟩ | ⟨reply, o, now, rfl, -⟩ := hturn
  · cases hg.symm.trans (hpace.symm.trans h)
  cases hv : reply.message.verify c.crypto o now with
  | error e =>
    have hover : c.paceAfter reply o now = .over := by rw [paceAfter, hv]
    exact absurd hready (not_ready_of_over hrest hover hend)
  | ok vr =>
    cases hitems : reply.message.body.getPollRep with
    | error e =>
      have hover : c.paceAfter reply o now = .over := by rw [paceAfter, hv, hitems]
      exact absurd hready (not_ready_of_over hrest hover hend)
    | ok items =>
      have hdue : c.paceAfter reply o now = .due (c.clamped (askedSeconds items)) := by
        rw [paceAfter, hv, hitems]
        exact congrArg Pace.due (clampCheckAfter_eq hc _)
      exact ⟨before, rest, reply, o, now, vr, items, rfl, hv, hitems,
        mem_of_due hrest hdue hend hready⟩

/-- The polls that were counted are the messages that were sent. -/
lemma polls_after (g : Pacing) (tr : ClientHistory) :
    ((c.pacer certReqID).after g tr).polls = g.polls + (posts tr).length := by
  induction tr generalizing g with
  | nil => rfl
  | cons e tr ih =>
    rw [Monitor.after_cons, ih]
    obtain ⟨o, x⟩ := e
    cases o with
    | post der =>
      show g.polls + 1 + _ = g.polls + ((posts tr).length + 1)
      omega
    | wait d => cases x <;> rfl
    | _ => rfl

lemma polls_le {g : Pacing} {tr : ClientHistory} (haccepts : (c.pacer certReqID).Accepts g tr)
    (hg : g.polls ≤ c.maxPolls.toNat) :
    ((c.pacer certReqID).after g tr).polls ≤ c.maxPolls.toNat := by
  induction tr generalizing g with
  | nil => exact hg
  | cons e tr ih =>
    obtain ⟨o, x⟩ := e
    obtain ⟨hallowed, haccepts⟩ := haccepts
    refine ih haccepts ?_
    cases o with
    | post der => exact hallowed.1
    | wait d => cases x <;> exact hg
    | _ => exact hg

/-- A run of `poll` is accepted by the monitor. -/
lemma poll_accepts {first : PKIHeader} {lastResp : PKIMessage} {creds : Credentials}
    {knownSigner : Option Certificate} {tr : ClientHistory} {q : ClientProg PollResult}
    (hs : Prog.Steps (c.poll first lastResp creds certReqID knownSigner) tr q) :
    (c.pacer certReqID).Accepts ⟨0, .begun⟩ tr := by
  have hobeys : Prog.Obeys (c.pacer certReqID) (fun _ _ => True) ⟨0, .begun⟩
      (c.poll first lastResp creds certReqID knownSigner) :=
    c.pollLoop_paced first creds _ 0 lastResp 0 knownSigner (Nat.zero_add _).le rfl
  exact (hobeys.steps hs (.of_forall (fun _ _ _ => trivial) _ _)).1

/-- **Poll waits are an overflow-free clamp.** With the limits that the options can set, the wait
computed in 64 bits is the clamp of the seconds over the integers, it is not negative and grows
with the seconds.  Every run of `poll`, whatever is answered and wherever it stops, sends only
pollReqs, at most `maxPolls` of them, and between two in a row it waits the clamp of the time that
a verified pollRep asks for, which is none for an empty one. -/
theorem poll_paced (hc : c.Configured) :
    (∀ seconds, c.clampCheckAfter seconds =
        max c.minCheckAfter (min c.maxCheckAfter (seconds * 1000000000)) ∧
      0 ≤ c.clampCheckAfter seconds) ∧
    (∀ seconds seconds', seconds ≤ seconds' →
      c.clampCheckAfter seconds ≤ c.clampCheckAfter seconds') ∧
    ∀ first lastResp creds certReqID knownSigner tr q,
      Prog.Steps (c.poll first lastResp creds certReqID knownSigner) tr q →
      (posts tr).length ≤ c.maxPolls.toNat ∧ (∀ der ∈ posts tr, PollsFor certReqID der) ∧
      ∀ pre der answer mid der' answer' post,
        tr = pre ++ ⟨.post der, answer⟩ :: (mid ++ ⟨.post der', answer'⟩ :: post) →
        posts mid = [] → c.Paced mid := by
  have hlim := hc.limited
  refine ⟨fun seconds => ⟨clampCheckAfter_eq hlim seconds, ?_⟩, fun seconds seconds' h => ?_, ?_⟩
  · rw [clampCheckAfter_eq hlim]
    exact clamped_nonneg hlim seconds
  · rw [clampCheckAfter_eq hlim, clampCheckAfter_eq hlim]
    exact clamped_mono h
  · intro first lastResp creds certReqID knownSigner tr q hs
    have haccepts := poll_accepts hs
    refine ⟨?_, ?_, ?_⟩
    · have hle := polls_le haccepts (Nat.zero_le _)
      rwa [polls_after, Nat.zero_add] at hle
    · intro der hder
      obtain ⟨e, he, hsome⟩ := List.mem_filterMap.mp hder
      obtain ⟨pre, post, rfl⟩ := List.append_of_mem he
      have hallowed := haccepts.allowed
      obtain ⟨o, x⟩ := e
      cases o with
      | post der' =>
        cases hsome
        exact hallowed.2.2
      | _ => cases hsome
    · rintro pre der answer mid der' answer' post rfl hposts
      obtain ⟨-, -, haccepts⟩ := Monitor.accepts_append_iff.mp haccepts
      exact paced_of_asked hlim hposts rfl (Monitor.accepts_append_iff.mp haccepts).1
        haccepts.allowed.2.1

/-- The first message of a run, and what was sent after it. -/
lemma exists_of_posts_cons {tr : ClientHistory} {der : Bytes} {ders : List Bytes}
    (h : posts tr = der :: ders) :
    ∃ pre answer post, tr = pre ++ ⟨.post der, answer⟩ :: post ∧ posts pre = [] ∧
      posts post = ders := by
  induction tr with
  | nil => cases h
  | cons e tr ih =>
    obtain ⟨o, x⟩ := e
    cases o with
    | post der' =>
      obtain ⟨rfl, rfl⟩ := List.cons.inj h
      exact ⟨[], x, tr, rfl, rfl, rfl⟩
    | _ =>
      obtain ⟨pre, answer, post, rfl, hpre, hpost⟩ := ih h
      exact ⟨_ :: pre, answer, post, rfl, hpre, hpost⟩

end

/-- A client that waits at most two and a half seconds; its lower limit is not negative. -/
def hastyClient : Client := pollingClient.withCheckAfterLimits (-1) 2500000000

/-- The header of its first request. -/
def hastyHeader : PKIHeader := { pvno := PVNO2, transactionID := List.replicate 16 0 }

/-- It polls for the request 0. -/
def hastyPoll : ClientProg PollResult :=
  hastyClient.poll hastyHeader { header := hastyHeader, body := .pkiConf } sampleCreds 0 none

/-- Two polls, with the wait between them. -/
theorem poll_paced_sample :
    hastyClient.Configured ∧ hastyClient.clampCheckAfter 5 = 2500000000 ∧
      ∃ tr result, Prog.Steps hastyPoll tr (.ret result) ∧ (posts tr).length = 2 ∧
        ∃ mid, mid <:+: tr ∧ hastyClient.Paced mid := by
  have hc : hastyClient.Configured := .limits _ ⟨by decide, by decide⟩ ⟨by decide, by decide⟩
  obtain ⟨⟨tr, result⟩, hplay, hlen⟩ := Option.map_eq_some_iff.mp
    (show (Prog.play deferringPeer hastyPoll).map (fun r => (posts r.1).length) = some 2 by
      decide +kernel)
  obtain ⟨der, der', hposts⟩ := List.length_eq_two.mp hlen
  obtain ⟨pre, answer, rest, rfl, -, hrest⟩ := exists_of_posts_cons hposts
  obtain ⟨mid, answer', post, rfl, hmid, -⟩ := exists_of_posts_cons hrest
  have hsteps := Prog.steps_of_play hplay
  obtain ⟨hclamp, -, hruns⟩ := poll_paced hc
  refine ⟨hc, (hclamp 5).1.trans (by decide), _, result, hsteps, hlen, mid, ?_, ?_⟩
  · exact ⟨pre ++ [⟨.post der, answer⟩], ⟨.post der', answer'⟩ :: post, by simp⟩
  · exact (hruns _ _ _ _ _ _ _ hsteps).2.2 pre der answer mid der' answer' post rfl hmid

end Client

end PkiCmp
