/-
The references of the CA across a restart (`server/snapshot.go`).

`RestoreTransactions` takes a decoder for the references.  Here it is a program that calls the
decoder, which may answer each call as it likes; with the answers of a function it is the restoring
of `Server/Snapshot` (`restoreBy_play`).

* `jsonString_eq_iff`: a string survives its JSON exactly when it is UTF-8;
* `restoreBy`: `RestoreTransactions` with the calls of its decoder;
* `restoreBy_steps`: the decoder is called for every entry;
* `references_kept_iff`: **the references that survive**.
-/
import PkiCmp.Server.Memory

namespace PkiCmp

open Der Interact

/-! ### Strings -/

/-- The replacement character is a rune. -/
lemma runeWidth_replacement (s : Bytes) : runeWidth (0xef :: 0xbf :: 0xbd :: s) = some 3 := by
  rfl

/-- The runes of a string are its octets as long as they are valid. -/
lemma flatMap_runesAux_eq_iff {fuel k : ℕ} {s : Bytes} (h : s.length ≤ fuel) :
    (runesAux fuel k s).flatMap Prod.snd = s ↔ utf8ValidAux fuel s = true := by
  induction fuel generalizing k s with
  | zero =>
    cases List.length_eq_zero_iff.mp (Nat.le_zero.mp h)
    exact iff_of_true rfl rfl
  | succ fuel ih =>
    cases s with
    | nil => exact iff_of_true rfl rfl
    | cons b s =>
      rw [runesAux, utf8ValidAux]
      on_goal 2 => exact List.cons_ne_nil _ _
      on_goal 2 => exact List.cons_ne_nil _ _
      split
      · next n hn =>
        have hpos := runeWidth_pos hn
        have hdrop : ((b :: s).drop n).length ≤ fuel := by
          rw [List.length_drop, List.length_cons]
          rw [List.length_cons] at h
          omega
        rw [List.flatMap_cons, ← ih (k := k + n) hdrop]
        constructor
        · intro heq
          nth_rewrite 3 [← List.take_append_drop n (b :: s)] at heq
          exact List.append_cancel_left heq
        · intro heq
          rw [heq, List.take_append_drop]
      · next hnone =>
        rw [List.flatMap_cons]
        refine iff_of_false (fun heq => ?_) (by decide)
        rw [← heq, List.cons_append, List.cons_append, List.cons_append,
          runeWidth_replacement] at hnone
        cases hnone

/-- **A string survives its JSON** exactly when it is UTF-8. -/
lemma jsonString_eq_iff {s : GoString} : jsonString s = s ↔ utf8Valid s = true :=
  flatMap_runesAux_eq_iff le_rfl

/-! ### The calls of the decoder -/

/-- Programs that call the decoder of references. -/
abbrev Decoding := Prog RawMessage fun _ => Except GoError (Option IssueRef)

section

variable (r : Recovery)

/-- The loop of `RestoreTransactions`.  The JSON of an entry has a reference, if only `null`, so
the decoder is called for each. -/
def restoreEntriesBy (maxPerCredential : ℤ) :
    List SavedTransaction → Tracker → Decoding (Except GoError Tracker)
  | [], next => .ret (.ok next)
  | saved :: rest, next =>
    match checkSaved r saved with
    | .error e => .ret (.error e)
    | .ok cert => .op saved.issueRef fun ref =>
      match ref >>= fun ref =>
          next.place maxPerCredential saved (restoredEntry saved cert ref) with
      | .error e => .ret (.error e)
      | .ok next => restoreEntriesBy maxPerCredential rest next

/-- `RestoreTransactions`, up to the tracker that it builds. -/
def restoreBy (signer : Bytes) (maxTransactions maxPerCredential : ℤ) (t : Tracker)
    (snapshot : TransactionSnapshot) : Decoding (Except GoError Tracker) :=
  match checkSnapshot r signer maxTransactions t snapshot with
  | .error e => .ret (.error e)
  | .ok () => restoreEntriesBy r maxPerCredential snapshot.entries { nextPtr := t.nextPtr }

/-- One turn of the loop: the checks, the decoder, and the rest. -/
lemma restoreOne_eq (maxPerCredential : ℤ) (next : Tracker) (saved : SavedTransaction) :
    next.restoreOne r maxPerCredential saved = (checkSaved r saved >>= fun cert =>
      r.unmarshalIssueRef saved.issueRef >>= fun ref =>
        next.place maxPerCredential saved (restoredEntry saved cert ref)) := by
  rw [Tracker.restoreOne, restoreEntry, bind_assoc]
  refine congrArg _ (funext fun cert => ?_)
  rw [bind_assoc]
  rfl

/-- The answers of the decoder `r` has. -/
def decoderOf (raw : RawMessage) : Option (Except GoError (Option IssueRef)) :=
  some (r.unmarshalIssueRef raw)

lemma restoreEntriesBy_play (maxPerCredential : ℤ) (entries : List SavedTransaction)
    (next : Tracker) :
    (Prog.play (decoderOf r) (restoreEntriesBy r maxPerCredential entries next)).map Prod.snd =
      some (entries.foldlM (Tracker.restoreOne r maxPerCredential) next) := by
  induction entries generalizing next with
  | nil => rfl
  | cons saved rest ih =>
    rw [restoreEntriesBy, List.foldlM_cons, restoreOne_eq]
    cases hcheck : checkSaved r saved with
    | error e => rfl
    | ok cert =>
      simp only [Prog.play, decoderOf, Option.map_map]
      have hbind : ∀ f : Option Certificate → Except GoError Tracker,
          (Except.ok cert >>= f : Except GoError Tracker) = f cert := fun _ => rfl
      rw [hbind]
      cases hplace : r.unmarshalIssueRef saved.issueRef >>= fun ref =>
          next.place maxPerCredential saved (restoredEntry saved cert ref) with
      | error e => rfl
      | ok next' => exact ih next'

/-- **The program is the restoring** of the model when a function decodes the references. -/
theorem restoreBy_play (signer : Bytes) (maxTransactions maxPerCredential : ℤ) (t : Tracker)
    (snapshot : TransactionSnapshot) :
    (Prog.play (decoderOf r) (restoreBy r signer maxTransactions maxPerCredential t snapshot)).map
      Prod.snd = some (nextTracker r signer maxTransactions maxPerCredential t snapshot) := by
  unfold restoreBy nextTracker
  cases checkSnapshot r signer maxTransactions t snapshot with
  | error e => rfl
  | ok => exact restoreEntriesBy_play r ..

variable {r} {maxPerCredential : ℤ}

/-- An entry is placed where none was, and nothing else changes. -/
lemma cell_of_place {next t : Tracker} {saved : SavedTransaction} {entry : TransactionEntry}
    (h : next.place maxPerCredential saved entry = .ok t) :
    next.cell saved.key = none ∧
      ∀ key, t.cell key = (next.publish saved.key entry next.nextPtr).cell key := by
  unfold Tracker.place at h
  split_ifs at h with hsome
  simp only at h
  split_ifs at h
  cases h
  exact ⟨by simpa using hsome, fun _ => rfl⟩

/-- **The loop to its end**: one call for each entry, and the entries are there. -/
lemma restoreEntriesBy_steps {entries : List SavedTransaction} {next t : Tracker}
    {tr : List (Event RawMessage fun _ => Except GoError (Option IssueRef))}
    (hs : Prog.Steps (restoreEntriesBy r maxPerCredential entries next) tr (.ret (.ok t))) :
    tr.map Event.op = entries.map SavedTransaction.issueRef ∧
      (∀ key c, next.cell key = some c → t.cell key = some c) ∧
      ∀ s ∈ entries, ∃ c cert ref, t.cell s.key = some c ∧ c.entry = restoredEntry s cert ref := by
  induction entries generalizing next tr with
  | nil =>
    obtain ⟨rfl, ⟨⟩⟩ := hs.of_ret
    exact ⟨rfl, fun _ _ h => h, List.forall_mem_nil _⟩
  | cons s rest ih =>
    rw [restoreEntriesBy] at hs
    split at hs
    · obtain ⟨-, ⟨⟩⟩ := hs.of_ret
    · next cert _ =>
      obtain ⟨-, ⟨⟩⟩ | ⟨answer, tr', rfl, hk⟩ := Prog.steps_op_iff.mp hs
      split at hk
      · obtain ⟨-, ⟨⟩⟩ := hk.of_ret
      · next next' hplace =>
        obtain ⟨ref, -, hplace⟩ := Except.bind_eq_ok.mp hplace
        obtain ⟨hnone, hcell⟩ := cell_of_place hplace
        obtain ⟨hcalls, hkept, hfound⟩ := ih hk
        refine ⟨by rw [List.map_cons, List.map_cons, hcalls], fun key c hc => ?_, ?_⟩
        · refine hkept key c ?_
          have hne : key ≠ s.key := by
            rintro rfl
            rw [hnone] at hc
            cases hc
          rw [hcell, Tracker.cell_publish, if_neg hne, hc]
        · refine List.forall_mem_cons.mpr ⟨?_, hfound⟩
          have hnew : next'.cell s.key = some ⟨next.nextPtr, next.nextPtr,
              restoredEntry s cert ref⟩ := by
            rw [hcell, Tracker.cell_publish, if_pos rfl]
          exact ⟨_, cert, ref, hkept _ _ hnew, rfl⟩

end

/-! ### What survives -/

/-- Every pending entry has its reference for polling. -/
def PollRefsKept (m t : Tracker) : Prop :=
  ∀ key c, m.cell key = some c → c.entry.state = .pending →
    ∃ c', t.cell key = some c' ∧ c'.entry.pollRef = c.entry.pollRef

/-- The JSON of the references that are there. -/
def referenceTexts (r : Recovery) (m : Tracker) : List (Except GoError RawMessage) :=
  m.transactions.entries.filterMap fun e => e.2.entry.issueRef.map r.marshalIssueRef

/-- The decoder was called once for every reference, with its JSON, and for nothing else; an entry
without a reference is still without. -/
structure ReferencesDecoded (r : Recovery) (m t : Tracker) (calls : List RawMessage) : Prop where
  once : (calls.map Except.ok).Perm (referenceTexts r m)
  absent : ∀ key c, m.cell key = some c → c.entry.issueRef = none →
    ∃ c', t.cell key = some c' ∧ c'.entry.issueRef = none

section

variable {r : Recovery} {signer : Bytes} {maxTransactions maxPerCredential : ℤ}
  {m t t' : Tracker} {snapshot : TransactionSnapshot}
  {tr : List (Event RawMessage fun _ => Except GoError (Option IssueRef))}

/-- **The restoring to its end**. -/
lemma restoreBy_steps (hs : Prog.Steps
      (restoreBy r signer maxTransactions maxPerCredential t snapshot) tr (.ret (.ok t'))) :
    tr.map Event.op = snapshot.entries.map SavedTransaction.issueRef ∧
      ∀ s ∈ snapshot.entries, ∃ c cert ref, t'.cell s.key = some c ∧
        c.entry = restoredEntry s cert ref := by
  unfold restoreBy at hs
  split at hs
  · obtain ⟨-, ⟨⟩⟩ := hs.of_ret
  · obtain ⟨hcalls, -, hfound⟩ := restoreEntriesBy_steps hs
    exact ⟨hcalls, hfound⟩

/-- The references of entries that all have one, as they were saved. -/
lemma filterMap_of_savedAs {es : List ((_ : TransactionKey) × Cell)} {saved : List SavedTransaction}
    (h : List.Forall₂ (SavedAs r) es saved) (hall : ∀ e ∈ es, e.2.entry.issueRef ≠ none) :
    es.filterMap (fun e => e.2.entry.issueRef.map r.marshalIssueRef) =
      (saved.map SavedTransaction.issueRef).map Except.ok := by
  induction h with
  | nil => rfl
  | cons hsaved _ ih =>
    obtain ⟨hhead, htail⟩ := List.forall_mem_cons.mp hall
    obtain ⟨ref, href⟩ := Option.ne_none_iff_exists'.mp hhead
    obtain ⟨text, htext, rfl⟩ := hsaved.eq
    rw [href] at htext
    rw [List.filterMap_cons, href, Option.map_some, List.map_cons, List.map_cons, ih htail]
    exact congrArg (· :: _) htext

/-- **What a restart keeps of the references.**  A reference for polling is kept exactly when it is
UTF-8, and the decoder is called as it should exactly when there is no entry without a reference. -/
theorem references_kept_iff (hsnap : snapshotTransactions r signer m = .ok snapshot)
    (hs : Prog.Steps (restoreBy r signer maxTransactions maxPerCredential t snapshot) tr
      (.ret (.ok t'))) :
    (PollRefsKept m t' ↔ ∀ key c, m.cell key = some c → c.entry.state = .pending →
      utf8Valid c.entry.pollRef = true) ∧
    (ReferencesDecoded r m t' (tr.map Event.op) ↔
      ∀ key c, m.cell key = some c → c.entry.issueRef ≠ none) := by
  obtain ⟨-, -, -, es, hperm, hes⟩ := snapshotTransactions_eq_ok hsnap
  obtain ⟨hcalls, hfound⟩ := restoreBy_steps hs
  have hback : ∀ key c, m.cell key = some c → ∃ c', t'.cell key = some c' ∧
      c'.entry.pollRef = jsonString c.entry.pollRef := by
    intro key c hc
    have hmem : (⟨key, c⟩ : (_ : TransactionKey) × Cell) ∈ es :=
      hperm.mem_iff.mpr (AList.mem_lookup_iff.mp hc)
    obtain ⟨s, hsaved, has⟩ := Fallible.exists_of_forall₂ hes.flip hmem
    obtain ⟨c', cert, ref, hc', hentry⟩ := hfound s hsaved
    obtain ⟨text, -, rfl⟩ := SavedAs.eq has
    exact ⟨c', hc', by rw [hentry]; rfl⟩
  constructor
  · constructor
    · intro hkept key c hc hpending
      obtain ⟨c', hc', heq⟩ := hkept key c hc hpending
      obtain ⟨c'', hc'', hjson⟩ := hback key c hc
      rw [hc'] at hc''
      cases hc''
      exact jsonString_eq_iff.mp (hjson.symm.trans heq)
    · intro hvalid key c hc hpending
      obtain ⟨c', hc', hjson⟩ := hback key c hc
      exact ⟨c', hc', hjson.trans (jsonString_eq_iff.mpr (hvalid key c hc hpending))⟩
  · have hlen : (tr.map Event.op).length = m.transactions.entries.length := by
      rw [hcalls, List.length_map, ← hes.length_eq, hperm.length_eq]
    constructor
    · intro hdec key c hc
      have hcount := hdec.once.length_eq
      rw [List.length_map, hlen, referenceTexts, List.length_filterMap_eq_countP, eq_comm,
        List.countP_eq_length] at hcount
      have hsome := hcount ⟨key, c⟩ (AList.mem_lookup_iff.mp hc)
      intro hnone
      simp only [hnone] at hsome
      cases hsome
    · intro hall
      have hes' : ∀ e ∈ es, e.2.entry.issueRef ≠ none := fun e he =>
        hall e.1 e.2 (AList.mem_lookup_iff.mpr (hperm.subset he))
      refine ⟨?_, fun key c hc hnone => absurd hnone (hall key c hc)⟩
      rw [hcalls, ← filterMap_of_savedAs hes hes']
      exact hperm.filterMap _

end

/-- A tracker with one pending entry. -/
def pendingTracker (pollRef : GoString) (issueRef : Option IssueRef) : Tracker :=
  ({} : Tracker).restored [1]
    { state := .pending, lastActivity := 1, credentialKey := [2], pollRef, issueRef,
      senderNonce := List.replicate 16 0 }

lemma cell_pendingTracker {pollRef : GoString} {issueRef : Option IssueRef} {key : TransactionKey}
    {c : Cell} (h : (pendingTracker pollRef issueRef).cell key = some c) :
    c.entry.pollRef = pollRef ∧ c.entry.issueRef = issueRef := by
  rw [pendingTracker, Tracker.cell_restored, Tracker.cell_publish] at h
  split_ifs at h
  · cases h
    exact ⟨rfl, rfl⟩
  · cases h

/-- What is restored of it: the calls of the decoder, and the reference for polling. -/
def pendingOutcome (pollRef : GoString) (issueRef : Option IssueRef) :
    Option (List RawMessage × Option GoString) :=
  match snapshotTransactions (.sample 1) [] (pendingTracker pollRef issueRef) with
  | .error _ => none
  | .ok snapshot =>
    match Prog.play (decoderOf (.sample 1)) (restoreBy (.sample 1) [] 10 10 {} snapshot) with
    | some (tr, .ok t') => some (tr.map Event.op, (t'.cell [1]).map fun c => c.entry.pollRef)
    | _ => none

lemma exists_steps_of_pendingOutcome {pollRef pollRef' : GoString} {issueRef : Option IssueRef}
    {calls : List RawMessage} (h : pendingOutcome pollRef issueRef = some (calls, some pollRef')) :
    ∃ snapshot tr t' c', snapshotTransactions (.sample 1) [] (pendingTracker pollRef issueRef) =
        .ok snapshot ∧
      Prog.Steps (restoreBy (.sample 1) [] 10 10 {} snapshot) tr (.ret (.ok t')) ∧
      tr.map Event.op = calls ∧ t'.cell [1] = some c' ∧ c'.entry.pollRef = pollRef' := by
  unfold pendingOutcome at h
  split at h
  · cases h
  · next snapshot hsnap =>
    split at h
    · next tr t' hplay =>
      obtain ⟨rfl, hpoll⟩ := Prod.mk.inj (Option.some.inj h)
      obtain ⟨c', hc', rfl⟩ := Option.map_eq_some_iff.mp hpoll
      exact ⟨snapshot, tr, t', c', hsnap, Prog.steps_of_play hplay, rfl, hc', rfl⟩
    · cases h

/-- A reference in UTF-8 and one that has a JSON survive. -/
theorem references_kept_sample :
    ∃ snapshot tr t', snapshotTransactions (.sample 1) [] (pendingTracker [97] (some 5)) =
        .ok snapshot ∧
      Prog.Steps (restoreBy (.sample 1) [] 10 10 {} snapshot) tr (.ret (.ok t')) ∧
      PollRefsKept (pendingTracker [97] (some 5)) t' ∧
      ReferencesDecoded (.sample 1) (pendingTracker [97] (some 5)) t' (tr.map Event.op) := by
  obtain ⟨snapshot, tr, t', c', hsnap, hs, -, -, -⟩ :=
    exists_steps_of_pendingOutcome (show pendingOutcome [97] (some 5) =
      some ([.value 5], some [97]) by decide +kernel)
  obtain ⟨hpoll, hissue⟩ := references_kept_iff hsnap hs
  refine ⟨snapshot, tr, t', hsnap, hs, hpoll.mpr fun key c hc _ => ?_, hissue.mpr fun key c hc =>
    ?_⟩
  · rw [(cell_pendingTracker hc).1]
    decide
  · rw [(cell_pendingTracker hc).2]
    nofun

/-- **A reference that is not UTF-8 comes back as another one**, and the decoder is called with
`null` for an entry that has no reference. -/
theorem references_altered :
    ∃ snapshot tr t' c', snapshotTransactions (.sample 1) [] (pendingTracker [0xff] none) =
        .ok snapshot ∧
      Prog.Steps (restoreBy (.sample 1) [] 10 10 {} snapshot) tr (.ret (.ok t')) ∧
      referenceTexts (.sample 1) (pendingTracker [0xff] none) = [] ∧ tr.map Event.op = [.null] ∧
      t'.cell [1] = some c' ∧ c'.entry.pollRef = [0xef, 0xbf, 0xbd] := by
  obtain ⟨snapshot, tr, t', c', hsnap, hs, hcalls, hc', hpoll⟩ :=
    exists_steps_of_pendingOutcome (show pendingOutcome [0xff] none =
      some ([.null], some [0xef, 0xbf, 0xbd]) by decide +kernel)
  exact ⟨snapshot, tr, t', c', hsnap, hs, rfl, hcalls, hc', hpoll⟩

end PkiCmp
