/-
The map of transactions under one operation.

* `MapStep`, `exec_mapStep`: everything one operation can do to the map, with its
  answer;
* `Tracker.Wf`: an entry that is published gets a pointer of its own;
* `Tracker.Knows`: a pointer read once names the same entry for ever.
-/
import PkiCmp.Server.Effect

namespace PkiCmp

open Der Interact

namespace Tracker

lemma cell_publish (t : Tracker) (key key' : TransactionKey) (entry : TransactionEntry) (txn : ℕ) :
    (t.publish key entry txn).cell key' =
      if key' = key then some ⟨t.nextPtr, txn, entry⟩ else t.cell key' := by
  unfold cell publish
  split_ifs with h
  · rw [h, AList.lookup_insert]
  · rw [AList.lookup_insert_ne h]

lemma cell_remove (t : Tracker) (key key' : TransactionKey) :
    (t.remove key).cell key' = if key' = key then none else t.cell key' := by
  unfold cell remove
  split_ifs with h
  · rw [h, AList.lookup_erase]
  · rw [AList.lookup_erase_ne h]

/-- The number of entries that satisfy `p`. -/
def countIf (t : Tracker) (p : TransactionEntry → Bool) : ℕ :=
  t.transactions.entries.countP fun e => p e.2.entry

/-- An entry takes its part in the count. -/
lemma countIf_remove (t : Tracker) {key : TransactionKey} {cell : Cell}
    (h : t.cell key = some cell) (p : TransactionEntry → Bool) :
    (t.remove key).countIf p + (if p cell.entry then 1 else 0) = t.countIf p := by
  have hmem : key ∈ t.transactions.entries.keys :=
    AList.lookup_isSome.mp (Option.isSome_iff_exists.mpr ⟨cell, h⟩)
  obtain ⟨b, l1, l2, -, hl, herase⟩ := List.exists_of_kerase hmem
  obtain rfl : b = cell := by
    have hb : (⟨key, b⟩ : (_ : TransactionKey) × Cell) ∈ t.transactions.entries := by
      rw [hl]
      simp
    exact Option.some.inj (((List.mem_dlookup_iff t.transactions.nodupKeys).mpr hb).symm.trans h)
  have hremove : (t.remove key).transactions.entries = l1 ++ l2 := herase
  simp only [countIf, hremove, hl, List.countP_append, List.countP_cons]
  omega

lemma countIf_remove_none (t : Tracker) {key : TransactionKey} (h : t.cell key = none)
    (p : TransactionEntry → Bool) : (t.remove key).countIf p = t.countIf p := by
  have hmem : key ∉ t.transactions.entries.keys := fun hk => by
    have hsome : (t.cell key).isSome := AList.lookup_isSome.mpr hk
    simp [h] at hsome
  unfold countIf remove
  exact congrArg _ (List.kerase_of_notMem_keys hmem)

/-- An entry that is published takes the place of the one under its key. -/
lemma countIf_publish (t : Tracker) (key : TransactionKey) (entry : TransactionEntry) (txn : ℕ)
    (p : TransactionEntry → Bool) :
    (t.publish key entry txn).countIf p =
      (t.remove key).countIf p + (if p entry then 1 else 0) := by
  show List.countP _ (_ :: _) = _
  rw [List.countP_cons]
  rfl

@[simp] lemma nextPtr_publish (t : Tracker) (key : TransactionKey) (entry : TransactionEntry)
    (txn : ℕ) : (t.publish key entry txn).nextPtr = t.nextPtr + 1 := rfl

end Tracker

/-! ### One operation -/

/-- The operations that read or write the map. -/
def Effect.OnMap : Effect → Prop
  | .load .. | .loadOrStore .. | .compareAndSwap .. | .loadAndDelete .. | .restart .. => True
  | _ => False

/-- What an operation does to the map, with the answer it gives. -/
inductive MapStep (t : Tracker) : (o : Effect) → o.Res → Tracker → Prop
  | load (site : Site) (key : TransactionKey) : MapStep t (.load site key) (t.cell key) t
  | present (key : TransactionKey) (entry : TransactionEntry) (h : (t.cell key).isSome) :
      MapStep t (.loadOrStore key entry) true t
  | store (key : TransactionKey) (entry : TransactionEntry) (h : t.cell key = none) :
      MapStep t (.loadOrStore key entry) false (t.publish key entry t.nextPtr)
  | swap (site : Site) (key : TransactionKey) (cell : Cell) (new : TransactionEntry)
      (h : t.cell key = some cell) :
      MapStep t (.compareAndSwap site key cell.ptr new) true (t.publish key new cell.txn)
  | lost (site : Site) (key : TransactionKey) (old : ℕ) (new : TransactionEntry)
      (h : ∀ cell, t.cell key = some cell → cell.ptr ≠ old) :
      MapStep t (.compareAndSwap site key old new) false t
  | delete (site : Site) (key : TransactionKey) (judged : ℕ) :
      MapStep t (.loadAndDelete site key judged) (t.cell key) (t.remove key)
  | restart (r : Recovery) (maxTransactions maxPerCredential : ℤ) (ids : Bool) (t' : Tracker)
      (h : t.restart r maxTransactions maxPerCredential ids = some t') :
      MapStep t (.restart maxTransactions maxPerCredential ids) true t'
  | refused (maxTransactions maxPerCredential : ℤ) (ids : Bool) :
      MapStep t (.restart maxTransactions maxPerCredential ids) false t
  | other {o : Effect} (x : o.Res) (t' : Tracker) (ho : ¬ o.OnMap)
      (hc : t'.transactions = t.transactions) (hn : t'.nextPtr = t.nextPtr) : MapStep t o x t'

/-- **Every operation** is one of these. -/
lemma exec_mapStep {o : Effect} {c : Oracle} {t t' : Tracker} {x : o.Res}
    (h : exec o c t = some (x, t')) : MapStep t o x t' := by
  cases o with
  | load site key =>
    cases h
    exact .load site key
  | loadOrStore key entry =>
    simp only [exec] at h
    split_ifs at h with hs <;> cases h
    · exact .present key entry hs
    · exact .store key entry (by simpa using hs)
  | compareAndSwap site key old new =>
    simp only [exec] at h
    split at h
    · next cell hcell =>
      split_ifs at h with hp <;> cases h
      · subst hp
        exact .swap site key cell new hcell
      · refine .lost site key old new fun cell' hcell' => ?_
        obtain rfl : cell = cell' := Option.some.inj (hcell.symm.trans hcell')
        exact hp
    · next hnone =>
      cases h
      refine .lost site key old new fun cell hcell => ?_
      rw [hnone] at hcell
      cases hcell
  | loadAndDelete site key judged =>
    cases h
    exact .delete site key judged
  | restart a b w =>
    simp only [exec] at h
    split at h <;> cases h
    · next hr => exact .restart c.recovery a b w _ hr
    · exact .refused a b w
  | diverge => cases h
  | _ =>
    cases h
    exact .other _ _ not_false rfl rfl

/-- A load answers with what is there. -/
lemma MapStep.loaded {t t' : Tracker} {site : Site} {key : TransactionKey} {x : Option Cell}
    (h : MapStep t (.load site key) x t') : t.cell key = x ∧ t' = t := by
  cases h with
  | load => exact ⟨rfl, rfl⟩
  | other x t' ho hc hn => exact absurd trivial ho

/-- A removal answers with what was there. -/
lemma MapStep.removed {t t' : Tracker} {site : Site} {key : TransactionKey} {judged : ℕ}
    {x : Option Cell} (h : MapStep t (.loadAndDelete site key judged) x t') :
    t.cell key = x ∧ t' = t.remove key := by
  cases h with
  | delete => exact ⟨rfl, rfl⟩
  | other x t' ho hc hn => exact absurd trivial ho

/-- A compare-and-swap that succeeds replaces the entry of a transaction. -/
lemma MapStep.swapped {t t' : Tracker} {site : Site} {key : TransactionKey} {old : ℕ}
    {new : TransactionEntry} (h : MapStep t (.compareAndSwap site key old new) true t') :
    ∃ cell, t.cell key = some cell ∧ cell.ptr = old ∧ t' = t.publish key new cell.txn := by
  generalize hx : (true : Effect.Res (.compareAndSwap site key old new)) = x at h
  cases h with
  | swap site key cell new hcell => exact ⟨cell, hcell, rfl, rfl⟩
  | lost => cases hx
  | other x t' ho hc hn => exact absurd trivial ho

namespace Tracker

variable {t t' : Tracker}

/-! ### Pointers -/

/-- Pointers are given out once, and a transaction has one entry at a time. -/
structure Wf (t : Tracker) : Prop where
  fresh : ∀ {key cell}, t.cell key = some cell → cell.ptr < t.nextPtr
  inj : ∀ {key key' cell cell'}, t.cell key = some cell → t.cell key' = some cell' →
    cell.ptr = cell'.ptr → key = key'
  started : ∀ {key cell}, t.cell key = some cell → cell.txn < t.nextPtr
  single : ∀ {key key' cell cell'}, t.cell key = some cell → t.cell key' = some cell' →
    cell.txn = cell'.txn → key = key'

/-- The pointer of the entry names nothing else, now or later. -/
structure Knows (t : Tracker) (c : Cell) : Prop where
  given : c.ptr < t.nextPtr
  names : ∀ {key cell}, t.cell key = some cell → cell.ptr = c.ptr → cell = c

lemma Wf.empty (n : ℕ) : Wf { nextPtr := n } := ⟨nofun, nofun, nofun, nofun⟩

/-- What is in the map is known. -/
lemma Wf.knows (hw : t.Wf) {key : TransactionKey} {c : Cell} (h : t.cell key = some c) :
    t.Knows c := by
  refine ⟨hw.fresh h, fun {key' cell} hcell hp => ?_⟩
  obtain rfl := hw.inj hcell h hp
  exact Option.some.inj (hcell.symm.trans h)

/-- An entry that starts a transaction, or goes on with the one under its key. -/
lemma Wf.of_publish (hw : t.Wf) (key : TransactionKey) (entry : TransactionEntry) {txn : ℕ}
    (htxn : txn = t.nextPtr ∨ ∃ c, t.cell key = some c ∧ c.txn = txn) :
    (t.publish key entry txn).Wf := by
  have hold : ∀ {key' cell}, (t.publish key entry txn).cell key' = some cell →
      (key' = key ∧ cell.ptr = t.nextPtr ∧ cell.txn = txn) ∨
      (key' ≠ key ∧ t.cell key' = some cell) := by
    intro key' cell h
    rw [cell_publish] at h
    split_ifs at h with hk
    · cases h
      exact .inl ⟨hk, rfl, rfl⟩
    · exact .inr ⟨hk, h⟩
  have hlt : txn ≤ t.nextPtr := by
    obtain rfl | ⟨c, hc, rfl⟩ := htxn
    · exact le_rfl
    · exact (hw.started hc).le
  have hother : ∀ {key' cell}, key' ≠ key → t.cell key' = some cell → cell.txn ≠ txn := by
    intro key' cell hk h
    obtain rfl | ⟨c, hc, rfl⟩ := htxn
    · exact (hw.started h).ne
    · exact fun ht => hk (hw.single h hc ht)
  constructor
  · intro key' cell h
    rw [nextPtr_publish]
    obtain ⟨-, h, -⟩ | ⟨-, h⟩ := hold h
    · omega
    · exact Nat.lt_succ_of_lt (hw.fresh h)
  · intro key1 key2 c1 c2 h1 h2 hp
    obtain ⟨hk1, hp1, -⟩ | ⟨-, h1⟩ := hold h1 <;> obtain ⟨hk2, hp2, -⟩ | ⟨-, h2⟩ := hold h2
    · exact hk1.trans hk2.symm
    · exact absurd (hp.symm.trans hp1) (hw.fresh h2).ne
    · exact absurd (hp.trans hp2) (hw.fresh h1).ne
    · exact hw.inj h1 h2 hp
  · intro key' cell h
    rw [nextPtr_publish]
    obtain ⟨-, -, h⟩ | ⟨-, h⟩ := hold h
    · omega
    · exact Nat.lt_succ_of_lt (hw.started h)
  · intro key1 key2 c1 c2 h1 h2 ht
    obtain ⟨hk1, -, ht1⟩ | ⟨hk1, h1⟩ := hold h1 <;> obtain ⟨hk2, -, ht2⟩ | ⟨hk2, h2⟩ := hold h2
    · exact hk1.trans hk2.symm
    · exact absurd (ht.symm.trans ht1) (hother hk2 h2)
    · exact absurd (ht.trans ht2) (hother hk1 h1)
    · exact hw.single h1 h2 ht

lemma Knows.of_publish {c : Cell} (hc : t.Knows c) (key : TransactionKey)
    (entry : TransactionEntry) (txn : ℕ) : (t.publish key entry txn).Knows c := by
  refine ⟨by rw [nextPtr_publish]; have := hc.given; omega, fun {key' cell} h hp => ?_⟩
  rw [cell_publish] at h
  split_ifs at h
  · cases h
    have := hc.given
    simp only at hp
    omega
  · exact hc.names h hp

end Tracker

namespace MapStep

variable {t t' : Tracker} {o : Effect} {x : o.Res}

/-- Pointers stay unique. -/
lemma wf (h : MapStep t o x t') (hw : t.Wf) : t'.Wf := by
  cases h with
  | store key entry h => exact hw.of_publish key entry (.inl rfl)
  | swap site key cell new h => exact hw.of_publish key new (.inr ⟨cell, h, rfl⟩)
  | delete site key judged =>
    have hold : ∀ {key' cell}, (t.remove key).cell key' = some cell → t.cell key' = some cell := by
      intro key' cell h
      rw [Tracker.cell_remove] at h
      split_ifs at h
      exact h
    exact ⟨fun h => hw.fresh (hold h), fun h1 h2 => hw.inj (hold h1) (hold h2),
      fun h => hw.started (hold h), fun h1 h2 => hw.single (hold h1) (hold h2)⟩
  | restart r a b w t' h =>
    refine Tracker.restart_induction h (.empty _) fun t1 key c e' h1 _ _ _ => ?_
    have h2 := h1.of_publish key (if w then e' else { e' with certReqID := none }) (.inl rfl)
    exact ⟨h2.fresh, h2.inj, h2.started, h2.single⟩
  | other x t' ho hc hn =>
    have hcell : ∀ {key cell}, t'.cell key = some cell → t.cell key = some cell :=
      fun {key cell} h => by unfold Tracker.cell at h ⊢; rw [← hc, h]
    exact ⟨fun h => hn ▸ hw.fresh (hcell h), fun h1 h2 => hw.inj (hcell h1) (hcell h2),
      fun h => hn ▸ hw.started (hcell h), fun h1 h2 => hw.single (hcell h1) (hcell h2)⟩
  | _ => exact hw

/-- What was known stays known. -/
lemma knows (h : MapStep t o x t') {c : Cell} (hc : t.Knows c) : t'.Knows c := by
  cases h with
  | store key entry h => exact hc.of_publish key entry _
  | swap site key cell new h => exact hc.of_publish key new _
  | delete site key judged =>
    refine ⟨hc.given, fun {key' cell} h hp => ?_⟩
    rw [Tracker.cell_remove] at h
    split_ifs at h
    exact hc.names h hp
  | restart r a b w t' h =>
    refine Tracker.restart_induction (P := fun t => t.Knows c) h ⟨hc.given, nofun⟩ ?_
    intro t1 key _ e' h1 _ _ _
    have h2 := h1.of_publish key (if w then e' else { e' with certReqID := none }) t1.nextPtr
    exact ⟨h2.given, h2.names⟩
  | other x t' ho hcell hn =>
    refine ⟨hn ▸ hc.given, fun {key' cell} h hp => @hc.names key' cell ?_ hp⟩
    unfold Tracker.cell at h ⊢
    rw [← hcell]
    exact h
  | _ => exact hc

/-- The answer of a load is known. -/
lemma loaded_knows {site : Site} {key : TransactionKey} {c : Cell} {t' : Tracker}
    (h : MapStep t (.load site key) (some c) t') (hw : t.Wf) : t'.Knows c := by
  obtain ⟨hc, rfl⟩ := h.loaded
  exact hw.knows hc

end MapStep

end PkiCmp
