/-
The counters of the tracker (`server/transaction.go`) under concurrent calls.

* `Hold`, `holdMonitor`: what a call has reserved and not given back, read off its
  operations so far;
* `Scope`: all transactions, or those of one credential, each with its counter and
  its limit;
* `Accurate`: the invariant; `accounting_exact`: what it means for the counters.
-/
import PkiCmp.Server.Memory
import PkiCmp.Server.Transaction

namespace PkiCmp

open Der Interact

namespace TrackerConfig

variable (t : TrackerConfig)

/-! ### Reservations -/

/-- What a call holds: a unit of the count, a unit of the counter of a credential,
whether each was within the limit when it was taken, and the key it has stored an
entry under. -/
structure Hold where
  counted : Bool := false
  cred : Option CredentialKey := none
  granted : Bool := false
  credGranted : Bool := false
  stored : Option TransactionKey := none
  deriving DecidableEq

/-- An entry under the key belongs to the credential with this counter. -/
def Bound (key : TransactionKey) (ck : CredentialKey) : Prop :=
  ∃ c : CredentialID, t.KeyOf c key ∧ ck = t.makeCredentialKey c.1

/-- The key of an entry tells the counter of its credential. -/
def Separates (B : TransactionKey → CredentialKey → Prop) : Prop :=
  ∀ key ck ck', B key ck → B key ck' → ck = ck'

lemma separates_of_injective {t : TrackerConfig} (hsha : Function.Injective t.sha256) :
    Separates t.Bound := by
  rintro key ck ck' ⟨c, hc, rfl⟩ ⟨c', hc', rfl⟩
  rw [hc.unique hsha hc']

variable (B : TransactionKey → CredentialKey → Prop)

/-- The monitor of a call.  A unit is taken once and given back once, an entry is
stored against a reservation, and one that is removed leaves two units to give
back. -/
def holdMonitor : Monitor Effect Effect.Res Hold where
  allowed g o := g.stored = none ∧
    match o with
    | .countAdd delta => (delta = 1 ∧ g.counted = false) ∨ (delta = -1 ∧ g.counted = true)
    | .credCountAdd ck delta => (delta = 1 ∧ g.cred = none) ∨ (delta = -1 ∧ g.cred = some ck)
    | .loadOrStore key entry => g.counted ∧ g.granted ∧ g.credGranted ∧
        g.cred = some entry.credentialKey ∧ B key entry.credentialKey
    | .compareAndSwap _ key _ new => B key new.credentialKey
    | .loadAndDelete .. => g.counted = false ∧ g.cred = none
    | .restart .. => False
    | _ => True
  rely
    | _, .load _ key, x => ∀ cell, x = some cell → B key cell.entry.credentialKey
    | _, .loadAndDelete _ key _, x => ∀ cell, x = some cell → B key cell.entry.credentialKey
    | _, _, _ => True
  next
    | g, .countAdd delta, n =>
      if delta = 1 then { g with counted := true, granted := n ≤ t.maxTransactions }
      else { g with counted := false, granted := false }
    | g, .credCountAdd ck delta, n =>
      if delta = 1 then
        { g with cred := some ck, credGranted := n ≤ t.maxTransactionsPerCredential }
      else { g with cred := none, credGranted := false }
    | g, .loadOrStore key _, loaded => if loaded then g else { stored := some key }
    | g, .loadAndDelete .., some cell =>
      { g with counted := true, cred := some cell.entry.credentialKey, granted := false,
               credGranted := false }
    | g, _, _ => g

namespace holdMonitor

variable (g : Hold)

lemma next_take (n : ℤ) : (t.holdMonitor B).next g (.countAdd 1) n =
    { g with counted := true, granted := n ≤ t.maxTransactions } := rfl

lemma next_giveBack (n : ℤ) : (t.holdMonitor B).next g (.countAdd (-1)) n =
    { g with counted := false, granted := false } := rfl

lemma next_takeCred (ck : CredentialKey) (n : ℤ) : (t.holdMonitor B).next g (.credCountAdd ck 1) n =
    { g with cred := some ck, credGranted := n ≤ t.maxTransactionsPerCredential } := rfl

lemma next_giveBackCred (ck : CredentialKey) (n : ℤ) :
    (t.holdMonitor B).next g (.credCountAdd ck (-1)) n =
      { g with cred := none, credGranted := false } := rfl

lemma next_stored (key : TransactionKey) (entry : TransactionEntry) :
    (t.holdMonitor B).next g (.loadOrStore key entry) false = { stored := some key } := rfl

lemma next_removed (site : Site) (key : TransactionKey) (judged : ℕ) (cell : Cell) :
    (t.holdMonitor B).next g (.loadAndDelete site key judged) (some cell) =
      { g with counted := true, cred := some cell.entry.credentialKey, granted := false,
               credGranted := false } := rfl

end holdMonitor

/-- What thread `i` holds after the operations in the log. -/
def holdOf (log : ServerLog) (i : ℕ) : Hold :=
  (t.holdMonitor t.Bound).after {} ((log.filter fun e => e.1 = i).map Prod.snd)

lemma holdOf_snoc_self (log : ServerLog) (i : ℕ) (e : ServerEvent) :
    t.holdOf (log ++ [(i, e)]) i = (t.holdMonitor t.Bound).next (t.holdOf log i) e.op e.res := by
  simp [holdOf, List.filter_append, Monitor.after, List.foldl_append]

lemma holdOf_snoc_ne (log : ServerLog) {i j : ℕ} (hij : i ≠ j) (e : ServerEvent) :
    t.holdOf (log ++ [(i, e)]) j = t.holdOf log j := by
  simp [holdOf, List.filter_append, hij]

/-! ### Scopes -/

/-- All transactions, or those of one credential. -/
abbrev Scope := Option CredentialKey

namespace Scope

/-- The entry counts in the scope. -/
def has : Scope → TransactionEntry → Bool
  | none, _ => true
  | some ck, e => e.credentialKey = ck

/-- The counter of the scope. -/
def counter : Scope → Tracker → ℤ
  | none, m => m.count
  | some ck, m => m.credentialCounts ck

/-- The call holds a unit of the counter. -/
def held : Scope → Hold → Bool
  | none, g => g.counted
  | some ck, g => g.cred = some ck

/-- The call holds a unit that was within the limit. -/
def granted : Scope → Hold → Bool
  | none, g => g.counted && g.granted
  | some ck, g => decide (g.cred = some ck) && g.credGranted

/-- The limit of the scope. -/
def limit : Scope → ℤ
  | none => t.maxTransactions
  | some _ => t.maxTransactionsPerCredential

lemma held_of_granted {c : Scope} {g : Hold} (h : c.granted g) : c.held g := by
  cases c <;> exact (Bool.and_eq_true_iff.mp h).1

end Scope

/-! ### One operation -/

section Step

variable {t} {B : TransactionKey → CredentialKey → Prop} {g : Hold} {o : Effect} {x : o.Res}
  {c : Oracle} {m m' : Tracker} (sc : Scope)

/-- Every entry belongs to the credential of its key. -/
def Owned (B : TransactionKey → CredentialKey → Prop) (m : Tracker) : Prop :=
  ∀ {key cell}, m.cell key = some cell → B key cell.entry.credentialKey

lemma owned_step (hm : Owned B m) (ha : (t.holdMonitor B).allowed g o)
    (hx : exec o c m = some (x, m')) : Owned B m' := by
  intro key cell hcell
  cases exec_mapStep hx with
  | store key' entry hnone =>
    rw [Tracker.cell_publish] at hcell
    split_ifs at hcell with hk
    · cases hcell
      rw [hk]
      exact ha.2.2.2.2.2
    · exact hm hcell
  | swap site key' cell' new h =>
    rw [Tracker.cell_publish] at hcell
    split_ifs at hcell with hk
    · cases hcell
      rw [hk]
      exact ha.2
    · exact hm hcell
  | delete site key' judged =>
    rw [Tracker.cell_remove] at hcell
    split_ifs at hcell
    exact hm hcell
  | restart => exact ha.2.elim
  | other x m' ho hc hn => exact hm (by simpa only [Tracker.cell, hc] using hcell)
  | _ => exact hm hcell

/-- An entry that is read or removed belongs to the credential of its key. -/
lemma holds_rely (hm : Owned B m) (hx : exec o c m = some (x, m')) :
    (t.holdMonitor B).rely g o x := by
  cases o with
  | load site key =>
    rintro cell rfl
    exact hm (exec_mapStep hx).loaded.1
  | loadAndDelete site key judged =>
    rintro cell rfl
    exact hm (exec_mapStep hx).removed.1
  | _ => trivial

/-- The entry that replaces another one counts in the same scopes. -/
lemma has_of_bound (hsep : Separates B) {key : TransactionKey}
    {e e' : TransactionEntry} (h : B key e.credentialKey) (h' : B key e'.credentialKey) :
    sc.has e = sc.has e' := by
  cases sc with
  | none => rfl
  | some ck => simp only [Scope.has, hsep _ _ _ h h']

/-- **One operation** changes a counter by the entries it stores or removes and by
the units it takes or gives back. -/
lemma counter_step (hsep : Separates B) (hm : Owned B m)
    (ha : (t.holdMonitor B).allowed g o) (hx : exec o c m = some (x, m')) :
    sc.counter m' + m.countIf sc.has + (if sc.held g then 1 else 0) =
      sc.counter m + m'.countIf sc.has +
        (if sc.held ((t.holdMonitor B).next g o x) then 1 else 0) := by
  cases o with
  | countAdd delta =>
    cases hx
    have hsize : Tracker.countIf { m with count := m.count + delta } sc.has = m.countIf sc.has :=
      rfl
    rw [hsize]
    cases sc with
    | none =>
      obtain ⟨-, ⟨rfl, hg⟩ | ⟨rfl, hg⟩⟩ := ha
      · simp only [Scope.counter, Scope.held, holdMonitor.next_take, hg, if_true,
          Bool.false_eq_true, if_false]
        omega
      · simp only [Scope.counter, Scope.held, holdMonitor.next_giveBack, hg, if_true,
          Bool.false_eq_true, if_false]
        omega
    | some ck => obtain ⟨-, ⟨rfl, -⟩ | ⟨rfl, -⟩⟩ := ha <;> rfl
  | credCountAdd ck delta =>
    cases hx
    have hsize : (m.addCredCount ck delta).countIf sc.has = m.countIf sc.has := rfl
    rw [hsize]
    cases sc with
    | none => obtain ⟨-, ⟨rfl, -⟩ | ⟨rfl, -⟩⟩ := ha <;> rfl
    | some ck' =>
      by_cases hck : ck' = ck
      · subst hck
        have hadd : Scope.counter (some ck') (m.addCredCount ck' delta) =
            Scope.counter (some ck') m + delta := Function.update_self ..
        rw [hadd]
        obtain ⟨-, ⟨rfl, hg⟩ | ⟨rfl, hg⟩⟩ := ha
        · simp only [Scope.held, holdMonitor.next_takeCred, hg, reduceCtorEq, decide_false,
            decide_true, if_true, Bool.false_eq_true, if_false]
          omega
        · simp only [Scope.held, holdMonitor.next_giveBackCred, hg, reduceCtorEq, decide_false,
            decide_true, if_true, Bool.false_eq_true, if_false]
          omega
      · -- the counter of another credential
        have hadd : Scope.counter (some ck') (m.addCredCount ck delta) =
            Scope.counter (some ck') m := Function.update_of_ne hck ..
        have hne : some ck ≠ some ck' := fun h => hck (Option.some.inj h).symm
        rw [hadd]
        obtain ⟨-, ⟨rfl, hg⟩ | ⟨rfl, hg⟩⟩ := ha
        · simp only [Scope.held, holdMonitor.next_takeCred, hg, hne, reduceCtorEq]
        · simp only [Scope.held, holdMonitor.next_giveBackCred, hg, hne, reduceCtorEq]
  | loadOrStore key entry =>
    cases exec_mapStep hx with
    | present => rfl
    | store _ _ hnone =>
      -- the reservation turns into the entry
      have hheld : sc.held g = sc.has entry := by
        obtain ⟨-, hcount, -, -, hcred, -⟩ := ha
        cases sc with
        | none => exact hcount
        | some ck => simp [Scope.held, Scope.has, hcred]
      have hcount : sc.counter (m.publish key entry m.nextPtr) = sc.counter m := by
        cases sc <;> rfl
      have hnext : sc.held ((t.holdMonitor B).next g (.loadOrStore key entry) false) =
          false := by cases sc <;> rfl
      rw [Tracker.countIf_publish, Tracker.countIf_remove_none m hnone, hheld, hcount, hnext]
      push_cast
      omega
    | other _ _ ho => exact absurd trivial ho
  | compareAndSwap site key old new =>
    cases exec_mapStep hx with
    | swap _ _ cell _ hcell =>
      have hcount : sc.counter (m.publish key new cell.txn) = sc.counter m := by cases sc <;> rfl
      have hremove := m.countIf_remove hcell sc.has
      rw [has_of_bound sc hsep (hm hcell) ha.2] at hremove
      rw [Tracker.countIf_publish, hcount, hremove]
      rfl
    | lost => rfl
    | other _ _ ho => exact absurd trivial ho
  | loadAndDelete site key judged =>
    obtain ⟨-, hcounted, hcred⟩ := ha
    obtain ⟨hcell, rfl⟩ := (exec_mapStep hx).removed
    have hcount : sc.counter (m.remove key) = sc.counter m := by cases sc <;> rfl
    have hheld : sc.held g = false := by cases sc <;> simp [Scope.held, hcounted, hcred]
    rw [hcount, hheld]
    cases x with
    | none =>
      have hnext : (t.holdMonitor B).next g (.loadAndDelete site key judged) none = g := rfl
      rw [m.countIf_remove_none hcell, hnext, hheld]
    | some cell =>
      -- the entry turns into units that are still to be given back
      have hnext : sc.held ((t.holdMonitor B).next g (.loadAndDelete site key judged)
          (some cell)) = sc.has cell.entry := by
        cases sc <;> simp [Scope.held, Scope.has, holdMonitor.next_removed]
      have hremove := m.countIf_remove hcell sc.has
      rw [hnext, ← hremove]
      push_cast
      omega
  | restart => exact ha.2.elim
  | diverge => cases hx
  | _ =>
    cases hx
    rfl

/-- Entries and granted units do not become more, unless a unit is granted, and then
the whole count is within the limit. -/
lemma granted_step (hsep : Separates B) (hm : Owned B m)
    (ha : (t.holdMonitor B).allowed g o) (hx : exec o c m = some (x, m')) :
    m'.countIf sc.has + (if sc.granted ((t.holdMonitor B).next g o x) then 1 else 0) ≤
        m.countIf sc.has + (if sc.granted g then 1 else 0) ∨
      sc.counter m' ≤ sc.limit t := by
  cases o with
  | countAdd delta =>
    cases hx
    have hsize : Tracker.countIf { m with count := m.count + delta } sc.has = m.countIf sc.has :=
      rfl
    rw [hsize]
    cases sc with
    | none =>
      obtain ⟨-, ⟨rfl, hg⟩ | ⟨rfl, hg⟩⟩ := ha
      · by_cases hn : m.count + 1 ≤ t.maxTransactions
        · exact .inr hn
        · exact .inl (by simp [Scope.granted, holdMonitor.next_take, hn])
      · exact .inl (by simp [Scope.granted, holdMonitor.next_giveBack])
    | some ck => obtain ⟨-, ⟨rfl, -⟩ | ⟨rfl, -⟩⟩ := ha <;> exact .inl le_rfl
  | credCountAdd ck delta =>
    cases hx
    have hsize : (m.addCredCount ck delta).countIf sc.has = m.countIf sc.has := rfl
    rw [hsize]
    cases sc with
    | none => obtain ⟨-, ⟨rfl, -⟩ | ⟨rfl, -⟩⟩ := ha <;> exact .inl le_rfl
    | some ck' =>
      by_cases hck : ck' = ck
      · subst hck
        have hadd : Scope.counter (some ck') (m.addCredCount ck' delta) =
            m.credentialCounts ck' + delta := Function.update_self ..
        rw [hadd]
        obtain ⟨-, ⟨rfl, hg⟩ | ⟨rfl, hg⟩⟩ := ha
        · by_cases hn : m.credentialCounts ck' + 1 ≤ t.maxTransactionsPerCredential
          · exact .inr hn
          · exact .inl (by simp [Scope.granted, holdMonitor.next_takeCred, hn])
        · exact .inl (by simp [Scope.granted, holdMonitor.next_giveBackCred])
      · have hne : some ck ≠ some ck' := fun h => hck (Option.some.inj h).symm
        obtain ⟨-, ⟨rfl, hg⟩ | ⟨rfl, hg⟩⟩ := ha
        · exact .inl (by simp [Scope.granted, holdMonitor.next_takeCred, hne])
        · exact .inl (by simp [Scope.granted, holdMonitor.next_giveBackCred])
  | loadOrStore key entry =>
    refine .inl ?_
    cases exec_mapStep hx with
    | present => exact le_rfl
    | store _ _ hnone =>
      have hgranted : sc.granted g = sc.has entry := by
        obtain ⟨-, hcount, hg, hcg, hcred, -⟩ := ha
        cases sc with
        | none => simp [Scope.granted, Scope.has, hcount, hg]
        | some ck => simp [Scope.granted, Scope.has, hcred, hcg]
      have hnext : sc.granted ((t.holdMonitor B).next g (.loadOrStore key entry) false) =
          false := by cases sc <;> rfl
      rw [Tracker.countIf_publish, Tracker.countIf_remove_none m hnone, hgranted, hnext]
      exact le_rfl
    | other _ _ ho => exact absurd trivial ho
  | compareAndSwap site key old new =>
    refine .inl ?_
    cases exec_mapStep hx with
    | swap _ _ cell _ hcell =>
      have hremove := m.countIf_remove hcell sc.has
      rw [has_of_bound sc hsep (hm hcell) ha.2] at hremove
      rw [Tracker.countIf_publish, hremove]
      exact le_rfl
    | lost => exact le_rfl
    | other _ _ ho => exact absurd trivial ho
  | loadAndDelete site key judged =>
    refine .inl ?_
    obtain ⟨hcell, rfl⟩ := (exec_mapStep hx).removed
    cases x with
    | none =>
      rw [m.countIf_remove_none hcell]
      exact le_rfl
    | some cell =>
      have hnext : sc.granted ((t.holdMonitor B).next g (.loadAndDelete site key judged)
          (some cell)) = false := by cases sc <;> simp [Scope.granted, holdMonitor.next_removed]
      have hremove := m.countIf_remove hcell sc.has
      rw [hnext]
      simp only [Bool.false_eq_true, if_false]
      omega
  | restart => exact ha.2.elim
  | diverge => cases hx
  | _ =>
    cases hx
    exact .inl le_rfl

/-- The counter after a step of one member of a pool, whose states hold units. -/
lemma counter_set {γ : Type} (f : γ → Hold) {gs : List γ} {i : ℕ} {a b : γ} (hsep : Separates B)
    (hm : Owned B m) (hi : gs[i]? = some a) (ha : (t.holdMonitor B).allowed (f a) o)
    (hx : exec o c m = some (x, m'))
    (hb : sc.held (f b) = sc.held ((t.holdMonitor B).next (f a) o x))
    (h : sc.counter m = m.countIf sc.has + gs.countP fun g => sc.held (f g)) :
    sc.counter m' = m'.countIf sc.has + (gs.set i b).countP fun g => sc.held (f g) := by
  have hstep := counter_step sc hsep hm ha hx
  have hcount := countP_set_add (fun g => sc.held (f g)) hi b
  beta_reduce at hcount
  rw [hb] at hcount
  split_ifs at hstep hcount <;> omega

/-- The limit after a step of one member of a pool. -/
lemma limit_set {γ : Type} (f : γ → Hold) {gs : List γ} {i : ℕ} {a b : γ} (hsep : Separates B)
    (hm : Owned B m) (hi : gs[i]? = some a) (ha : (t.holdMonitor B).allowed (f a) o)
    (hx : exec o c m = some (x, m'))
    (hheld : sc.held (f b) = sc.held ((t.holdMonitor B).next (f a) o x))
    (hgranted : sc.granted (f b) = sc.granted ((t.holdMonitor B).next (f a) o x))
    (hcounter : sc.counter m = m.countIf sc.has + gs.countP fun g => sc.held (f g))
    (h : (m.countIf sc.has + gs.countP fun g => sc.granted (f g) : ℤ) ≤ max 0 (sc.limit t)) :
    (m'.countIf sc.has + (gs.set i b).countP fun g => sc.granted (f g) : ℤ) ≤
      max 0 (sc.limit t) := by
  have hcount := countP_set_add (fun g => sc.granted (f g)) hi b
  beta_reduce at hcount
  rw [hgranted] at hcount
  obtain hle | hle := granted_step sc hsep hm ha hx
  · split_ifs at hle hcount <;> omega
  · -- the unit was granted, and all units are counted
    have hafter := counter_set sc f hsep hm hi ha hx hheld hcounter
    have hmono : (gs.set i b).countP (fun g => sc.granted (f g)) ≤
        (gs.set i b).countP fun g => sc.held (f g) :=
      List.countP_mono_left fun g _ hg => Scope.held_of_granted hg
    have hmax : sc.limit t ≤ max 0 (sc.limit t) := le_max_right _ _
    omega

/-- The entry under the key is removed in this event. -/
def removesKey (key : TransactionKey) (e : ServerEvent) : Bool :=
  match e with
  | ⟨.loadAndDelete _ key' _, some _⟩ => key' = key
  | _ => false

/-- A key is stored when it is free, and removed when it is not. -/
lemma stored_step (ha : (t.holdMonitor B).allowed g o) (hx : exec o c m = some (x, m'))
    (key : TransactionKey) :
    (if decide (((t.holdMonitor B).next g o x).stored = some key) then 1 else 0) +
        (if (m.cell key).isSome then 1 else 0) =
      (if removesKey key ⟨o, x⟩ then 1 else 0) + (if (m'.cell key).isSome then 1 else 0) := by
  have hg : g.stored ≠ some key := by simp [ha.1]
  cases exec_mapStep hx with
  | load => simp [holdMonitor, removesKey, hg]
  | present => simp [holdMonitor, removesKey, hg]
  | store key' entry hnone =>
    rw [holdMonitor.next_stored, Tracker.cell_publish]
    by_cases hk : key' = key
    · subst hk
      simp [removesKey, hnone]
    · have hk' : key ≠ key' := fun h => hk h.symm
      simp [removesKey, hk, hk']
  | swap site key' cell new hcell =>
    rw [Tracker.cell_publish]
    by_cases hk : key = key'
    · subst hk
      simp [holdMonitor, removesKey, hg, hcell]
    · simp [holdMonitor, removesKey, hg, hk]
  | lost => simp [holdMonitor, removesKey, hg]
  | delete site key' judged =>
    rw [Tracker.cell_remove]
    cases hcell : m.cell key' with
    | none =>
      by_cases hk : key = key'
      · subst hk
        simp [holdMonitor, removesKey, hg, hcell]
      · simp [holdMonitor, removesKey, hg, hk]
    | some cell =>
      rw [holdMonitor.next_removed]
      by_cases hk : key = key'
      · subst hk
        simp [removesKey, hg, hcell]
      · have hk' : key' ≠ key := fun h => hk h.symm
        simp [removesKey, hg, hk, hk']
  | restart => exact ha.2.elim
  | refused => exact ha.2.elim
  | other x m' ho hc hn =>
    have hcell : m'.cell key = m.cell key := by simp only [Tracker.cell, hc]
    have hnext : ((t.holdMonitor B).next g o x).stored = g.stored := by
      cases o with
      | countAdd delta => by_cases hd : delta = 1 <;> simp [holdMonitor, hd]
      | credCountAdd ck delta => by_cases hd : delta = 1 <;> simp [holdMonitor, hd]
      | loadOrStore => exact absurd trivial ho
      | loadAndDelete => exact absurd trivial ho
      | _ => rfl
    have hremoves : removesKey key ⟨o, x⟩ = false := by
      cases o with
      | loadAndDelete => exact absurd trivial ho
      | _ => rfl
    rw [hnext, hremoves, hcell, if_neg (by simpa using hg)]
    rfl

end Step

/-! ### Runs -/

/-- A pool of concurrent calls. -/
abbrev CallSys := Sys Effect Effect.Res Answer Tracker

/-- The key that `startIfAbsent` has returned `(false, nil)` for. -/
def startedKey : Answer → Option TransactionKey
  | .started key (.ok false) => some key
  | _ => none

/-- The key of a call that has returned. -/
def returnedKey : ServerProg Answer → Option TransactionKey
  | .ret a => startedKey a
  | .op _ _ => none

/-- A call that has returned holds nothing. -/
structure Returned (g : Hold) (a : Answer) : Prop where
  counted : g.counted = false
  cred : g.cred = none
  stored : g.stored = startedKey a

/-- How often the entry under the key was removed. -/
def removals (log : ServerLog) (key : TransactionKey) : ℕ :=
  log.countP fun e => removesKey key e.2

/-- The invariant: each counter is the number of its entries and of the units that
calls hold, entries and granted units are within the limit, and an entry is under
its key between the call that stored it and its removal. -/
structure Accurate (s : CallSys) (gs : List Hold) : Prop where
  indices : ∀ e ∈ s.log, e.1 < gs.length
  holds : ∀ {i : ℕ} {g : Hold}, gs[i]? = some g → g = t.holdOf s.log i
  owned : Owned t.Bound s.mem
  counters : ∀ sc : Scope, sc.counter s.mem = s.mem.countIf sc.has + gs.countP sc.held
  limits : ∀ sc : Scope,
    (s.mem.countIf sc.has + gs.countP sc.granted : ℤ) ≤ max 0 (sc.limit t)
  stored : ∀ key, gs.countP (fun g => g.stored = some key) =
    removals s.log key + if (s.mem.cell key).isSome then 1 else 0

variable {t}

namespace Accurate

variable {s : CallSys} {gs : List Hold}

lemma init : t.Accurate (.init {}) [] where
  indices := by simp [Sys.init]
  holds h := by simp at h
  owned := nofun
  counters sc := by cases sc <;> rfl
  limits sc := by simp [Sys.init, Tracker.countIf]
  stored key := by simp [Sys.init, removals, Tracker.cell]

lemma start (h : t.Accurate s gs) (p : ServerProg Answer) :
    t.Accurate (s.start p) (gs ++ [({} : Hold)]) where
  indices e he := by
    have := h.indices e he
    simp
    omega
  holds := by
    intro i g hi
    rw [List.getElem?_append] at hi
    split_ifs at hi with hlt
    · exact h.holds hi
    · -- nothing of the new call is in the log
      obtain rfl := List.mem_singleton.mp (List.mem_of_getElem? hi)
      have hnil : s.log.filter (fun e => e.1 = i) = [] := by
        refine List.filter_eq_nil_iff.mpr fun e he => ?_
        have := h.indices e he
        simp
        omega
      simp [holdOf, Sys.start, hnil]
  owned := h.owned
  counters sc := by
    rw [List.countP_append]
    have hnew : [({} : Hold)].countP sc.held = 0 := by cases sc <;> rfl
    rw [hnew]
    exact h.counters sc
  limits sc := by
    rw [List.countP_append]
    have hnew : [({} : Hold)].countP sc.granted = 0 := by cases sc <;> rfl
    rw [hnew]
    exact h.limits sc
  stored key := by
    rw [List.countP_append]
    exact h.stored key

/-- **One step** of a call keeps the counters accurate. -/
lemma after (hsep : Separates t.Bound) (h : t.Accurate s gs) {i : ℕ} {g : Hold}
    {o : Effect} {x : o.Res} {c : Oracle} {m : Tracker} (hi : gs[i]? = some g)
    (ha : (t.holdMonitor t.Bound).allowed g o) (hx : exec o c s.mem = some (x, m))
    (k : o.Res → ServerProg Answer) :
    t.Accurate (s.after i o k x m) (gs.set i ((t.holdMonitor t.Bound).next g o x)) where
  indices := by
    rw [List.length_set]
    intro e he
    obtain he | he := List.mem_append.mp he
    · exact h.indices e he
    · rw [List.mem_singleton.mp he]
      exact (List.getElem?_eq_some_iff.mp hi).1
  holds := by
    intro j g' hj
    obtain ⟨rfl, rfl⟩ | ⟨hne, hj⟩ := eq_or_getElem?_of_set hj
    · rw [h.holds hi]
      exact (t.holdOf_snoc_self s.log _ ⟨o, x⟩).symm
    · rw [h.holds hj]
      exact (t.holdOf_snoc_ne _ hne.symm _).symm
  owned := owned_step h.owned ha hx
  counters sc := counter_set sc id hsep h.owned hi ha hx rfl (h.counters sc)
  limits sc := limit_set sc id hsep h.owned hi ha hx rfl rfl (h.counters sc) (h.limits sc)
  stored key := by
    have hstep := stored_step ha hx key
    have hcount := countP_set_add (fun g : Hold => g.stored = some key) hi
      ((t.holdMonitor t.Bound).next g o x)
    have hold := h.stored key
    have hg : ¬ g.stored = some key := by simp [ha.1]
    have hlog : removals (s.log ++ [(i, ⟨o, x⟩)]) key =
        removals s.log key + if removesKey key ⟨o, x⟩ then 1 else 0 := by
      rw [removals, List.countP_append, List.countP_singleton]
      rfl
    beta_reduce at hcount
    rw [if_neg (by simpa using hg)] at hcount
    show _ = removals (s.log ++ [(i, ⟨o, x⟩)]) key + if (m.cell key).isSome then 1 else 0
    omega

/-- The states of the calls are the ones the log shows. -/
lemma countP_eq (h : t.Accurate s gs) (hlen : gs.length = s.threads.length) (p : Hold → Bool) :
    gs.countP p = (List.range s.threads.length).countP fun i => p (t.holdOf s.log i) := by
  have hgs : gs = (List.range s.threads.length).map (t.holdOf s.log) := by
    refine List.ext_getElem? fun i => ?_
    by_cases hi : i < gs.length
    · have hg : gs[i]? = some gs[i] := List.getElem?_eq_getElem hi
      rw [hg, h.holds hg, List.getElem?_map, List.getElem?_range (hlen ▸ hi)]
      rfl
    · rw [List.getElem?_eq_none (by omega), List.getElem?_eq_none (by simp; omega)]
  rw [hgs, List.countP_map]
  rfl

end Accurate

/-! ### Calls -/

section Calls

variable {B : TransactionKey → CredentialKey → Prop} (hsep : Separates B)

lemma startIfAbsent_hold {credID txID : Bytes}
    (h : B (t.makeKey credID txID) (t.makeCredentialKey credID)) :
    Prog.Obeys (t.holdMonitor B)
      (fun g r => g = { stored := startedKey (.started (t.makeKey credID txID) r) }) {}
      (t.startIfAbsent credID txID) := by
  simp only [startIfAbsent, perform, Prog.call_bind, Prog.Obeys.op_iff, holdMonitor.next_take]
  refine ⟨⟨rfl, .inl ⟨rfl, rfl⟩⟩, fun newCount _ => ?_⟩
  split_ifs with hmax
  · exact ⟨⟨rfl, .inr ⟨rfl, rfl⟩⟩, fun _ _ => rfl⟩
  · simp only [Prog.Obeys.op_iff]
    refine ⟨⟨rfl, trivial⟩, fun _ _ => ⟨⟨rfl, .inl ⟨rfl, rfl⟩⟩, fun newCredCount _ => ?_⟩⟩
    split_ifs with hcred
    · exact ⟨⟨rfl, .inr ⟨rfl, rfl⟩⟩, fun _ _ => ⟨⟨rfl, .inr ⟨rfl, rfl⟩⟩, fun _ _ => rfl⟩⟩
    · simp only [Prog.Obeys.op_iff]
      refine ⟨⟨rfl, trivial⟩, fun now _ => ⟨⟨rfl, rfl, ?_, ?_, rfl, h⟩, fun loaded _ => ?_⟩⟩
      · exact decide_eq_true (not_lt.mp hmax)
      · exact decide_eq_true (not_lt.mp hcred)
      · cases loaded with
        | true =>
          exact ⟨⟨rfl, .inr ⟨rfl, rfl⟩⟩, fun _ _ =>
            ⟨⟨rfl, .inr ⟨rfl, rfl⟩⟩, fun _ _ => rfl⟩⟩
        | false => rfl

/-- An entry is replaced by one of the same credential. -/
lemma replaceOpen_hold {site : Site} {key : TransactionKey} {entry : Time → TransactionEntry}
    (h : ∀ now, B key (entry now).credentialKey) :
    Prog.Obeys (t.holdMonitor B) (fun g _ => g = {}) {} (replaceOpen site key entry) := by
  simp only [replaceOpen, perform, Prog.call_bind, Prog.Obeys.op_iff]
  refine ⟨⟨rfl, trivial⟩, fun old _ => ?_⟩
  cases old with
  | none => rfl
  | some old =>
    simp only
    split_ifs
    · rfl
    · exact ⟨⟨rfl, trivial⟩, fun now _ => ⟨⟨rfl, h now⟩, fun _ _ => rfl⟩⟩

lemma getInState_hold (site : Site) (state : TxnState) (key : TransactionKey) :
    Prog.Obeys (t.holdMonitor B) (fun g _ => g = {}) {} (getInState site state key) :=
  .of_only (getInState_load (P := fun o => o = .load site key) site state key rfl) fun o ho => by
    subst ho
    exact ⟨⟨rfl, trivial⟩, fun _ => rfl⟩

lemma complete_hold (key : TransactionKey) (retries : ℕ) :
    Prog.Obeys (t.holdMonitor B) (fun g _ => g = {}) {} (complete key retries) := by
  induction retries with
  | zero => exact ⟨⟨rfl, trivial⟩, nofun⟩
  | succ retries ih =>
    simp only [complete, perform, Prog.call_bind, Prog.Obeys.op_iff]
    refine ⟨⟨rfl, trivial⟩, fun old hold => ?_⟩
    cases old with
    | none => rfl
    | some old =>
      refine ⟨⟨rfl, trivial⟩, fun now _ => ⟨⟨rfl, hold old rfl⟩, fun swapped _ => ?_⟩⟩
      cases swapped with
      | true => rfl
      | false => exact ih

/-- Both units of an entry that was removed are given back. -/
lemma release_hold (ck : CredentialKey) :
    Prog.Obeys (t.holdMonitor B) (fun g _ => g = {}) { counted := true, cred := some ck }
      (release ck) :=
  ⟨⟨rfl, .inr ⟨rfl, rfl⟩⟩, fun _ _ => ⟨⟨rfl, trivial⟩, fun _ _ =>
    ⟨⟨rfl, .inr ⟨rfl, rfl⟩⟩, fun _ _ => rfl⟩⟩⟩

lemma delete_hold (credID txID : Bytes) (judged : ℕ) :
    Prog.Obeys (t.holdMonitor B) (fun g _ => g = {}) {} (t.delete credID txID judged) := by
  simp only [delete, perform, Prog.call_bind, Prog.Obeys.op_iff]
  refine ⟨⟨rfl, rfl, rfl⟩, fun v _ => ?_⟩
  cases v with
  | none => rfl
  | some cell => exact release_hold cell.entry.credentialKey

include hsep

/-- The entry that is removed has the credential of the one that was judged. -/
lemma expire_hold (cutoff : Time) (key : TransactionKey) :
    Prog.Obeys (t.holdMonitor B) (fun g _ => g = {}) {} (expire cutoff key) := by
  simp only [expire, perform, Prog.call_bind, Prog.Obeys.op_iff]
  refine ⟨⟨rfl, trivial⟩, fun value hvalue => ?_⟩
  cases value with
  | none => rfl
  | some c =>
    by_cases hbefore : c.entry.lastActivity.before cutoff
    · simp only [if_pos hbefore, Prog.Obeys.op_iff]
      refine ⟨⟨rfl, rfl, rfl⟩, fun removed hremoved => ?_⟩
      cases removed with
      | none => rfl
      | some c' =>
        rw [holdMonitor.next_removed, hsep _ _ _ (hremoved c' rfl) (hvalue c rfl)]
        refine Prog.Obeys.bind (release_hold c.entry.credentialKey) ?_
        rintro _ _ rfl
        split_ifs <;> rfl
    · simp only [if_neg hbefore]
      rfl

lemma cleanupExpired_hold (maxAge : Duration) :
    Prog.Obeys (t.holdMonitor B) (fun g _ => g = {}) {} (cleanupExpired maxAge) := by
  have hall : ∀ (cutoff : Time) (keys : List TransactionKey),
      Prog.Obeys (t.holdMonitor B) (fun g _ => g = {}) {} (expireAll cutoff keys) := by
    intro cutoff keys
    induction keys with
    | nil => rfl
    | cons key keys ih =>
      refine Prog.Obeys.bind (expire_hold hsep cutoff key) ?_
      rintro _ e rfl
      refine Prog.Obeys.bind ih ?_
      rintro _ es rfl
      rfl
  unfold cleanupExpired
  split_ifs
  · rfl
  · exact ⟨⟨rfl, trivial⟩, fun now _ => ⟨⟨rfl, trivial⟩, fun keys _ => hall _ _⟩⟩

omit hsep in
/-- **Every call** gives back what it has taken. -/
lemma call_hold (hsep : Separates t.Bound) (call : Call) :
    Prog.Obeys (t.holdMonitor t.Bound) Returned {} (t.call call) := by
  have hquiet : ∀ {α : Type} {p : ServerProg α} {f : α → Answer},
      Prog.Obeys (t.holdMonitor t.Bound) (fun g _ => g = {}) {} p → (∀ a, startedKey (f a) = none) →
      Prog.Obeys (t.holdMonitor t.Bound) Returned {} (p >>= fun a => pure (f a)) := by
    intro α p f hp hf
    refine Prog.Obeys.bind hp ?_
    rintro _ a rfl
    exact ⟨rfl, rfl, (hf a).symm⟩
  cases call with
  | startIfAbsent c x =>
    refine Prog.Obeys.bind (startIfAbsent_hold ⟨c, ⟨x, rfl⟩, rfl⟩) ?_
    rintro _ r rfl
    exact ⟨rfl, rfl, rfl⟩
  | setPending c x => exact hquiet (replaceOpen_hold fun _ => ⟨c, ⟨x, rfl⟩, rfl⟩) fun _ => rfl
  | getPending c x => exact hquiet (getInState_hold _ _ _) fun _ => rfl
  | setIssued c x => exact hquiet (replaceOpen_hold fun _ => ⟨c, ⟨x, rfl⟩, rfl⟩) fun _ => rfl
  | getIssued c x => exact hquiet (getInState_hold _ _ _) fun _ => rfl
  | setCompleted c x => exact hquiet (complete_hold _ _) fun _ => rfl
  | delete c x => exact hquiet (delete_hold _ _ _) fun _ => rfl
  | cleanupExpired maxAge => exact hquiet (cleanupExpired_hold hsep maxAge) fun _ => rfl

end Calls

/-! ### The counters -/

/-- The programs that an action starts are calls of the tracker. -/
def StartsCall (t : TrackerConfig) (a : Action Effect Effect.Res Answer Oracle) : Prop :=
  ∀ p, a = .spawn p → ∃ call, p = t.call call

lemma accurate_inductive (hsep : Separates t.Bound) :
    Sys.Inductive exec (t.holdMonitor t.Bound) Returned t.Accurate fun _ a => t.StartsCall a where
  spawn s gs p hw hp := by
    obtain ⟨call, rfl⟩ := hp p rfl
    exact ⟨{}, call_hold hsep call, hw.2.start _⟩
  step s gs i c g o k x m hw hi _ ha hx _ := by
    exact ⟨holds_rely hw.2.owned hx, hw.2.after hsep hi ha hx k⟩

/-- A call has returned `(false, nil)` exactly when it has stored an entry. -/
lemma returnedKey_eq {g : Hold} {p : ServerProg Answer}
    (h : Prog.Obeys (t.holdMonitor t.Bound) Returned g p) (key : TransactionKey) :
    decide (g.stored = some key) = decide (returnedKey p = some key) := by
  cases p with
  | ret a => rw [show g.stored = startedKey a from h.stored]; rfl
  | op o k => simp [show g.stored = none from h.1.1, returnedKey]

/-- **Exact accounting** for any number of concurrent calls, in every state that
they can reach.  Each counter is the number of its entries and of the units that
calls hold; without unfinished calls it is the number of entries.  The entries are
within the limits and no counter is negative.  For each key, the calls of
`startIfAbsent` that returned `(false, nil)` are as many as the removals, and one
more when there is an entry. -/
theorem accounting_exact (t : TrackerConfig) (hsha : Function.Injective t.sha256)
    (actions : List (Action Effect Effect.Res Answer Oracle)) (s : CallSys)
    (hcalls : ∀ a ∈ actions, t.StartsCall a) (hrun : Sys.run exec (.init {}) actions = some s) :
    (∀ sc : Scope, sc.counter s.mem = s.mem.countIf sc.has +
      (List.range s.threads.length).countP fun i => sc.held (t.holdOf s.log i)) ∧
    (s.Quiescent → ∀ sc : Scope, sc.counter s.mem = s.mem.countIf sc.has) ∧
    (∀ sc : Scope, (s.mem.countIf sc.has : ℤ) ≤ max 0 (sc.limit t)) ∧
    (∀ sc : Scope, 0 ≤ sc.counter s.mem) ∧
    ∀ key, s.threads.countP (fun p => returnedKey p = some key) =
      removals s.log key + if (s.mem.cell key).isSome then 1 else 0 := by
  obtain ⟨gs, hw⟩ := Sys.invariant (accurate_inductive (separates_of_injective hsha)) ⟨.nil, .init⟩
    (.of_forall hcalls _) hrun
  have h := hw.2
  refine ⟨fun sc => ?_, fun hq sc => ?_, fun sc => ?_, fun sc => ?_, fun key => ?_⟩
  · rw [h.counters sc, h.countP_eq hw.1.length_eq]
  · have hnone : gs.countP sc.held = 0 := by
      refine List.countP_eq_zero.mpr fun g hg => ?_
      obtain ⟨a, ha⟩ := hw.quiescent hq g hg
      cases sc <;> simp [Scope.held, ha.counted, ha.cred]
    rw [h.counters sc, hnone]
    simp
  · have := h.limits sc
    omega
  · rw [h.counters sc]
    positivity
  · have hstored := countP_eq_of_forall₂ (p := fun g : Hold => g.stored = some key)
      (q := fun p => returnedKey p = some key) (fun g p hp => returnedKey_eq hp key) hw.1
    rw [← hstored]
    exact h.stored key

/-- A tracker for concrete runs. -/
def sampleTracker : TrackerConfig := ⟨id, 2, 2, 0⟩

/-- Two calls of `startIfAbsent` for one key; the second is in the middle of its
reservation when the first returns. -/
def sampleCalls : List (Action Effect Effect.Res Answer Oracle) :=
  .spawn (sampleTracker.call (.startIfAbsent ⟨[1], by decide⟩ [2])) ::
    .spawn (sampleTracker.call (.startIfAbsent ⟨[1], by decide⟩ [2])) ::
    List.replicate 3 (.step 1 (Server.sampleOracle 1)) ++
    List.replicate 5 (.step 0 (Server.sampleOracle 1))

/-- One entry is stored, and the second call holds a unit in the middle of its reservation. -/
theorem accounting_exact_sampleCalls :
    ∃ s, Sys.run exec (.init {}) sampleCalls = some s ∧ s.mem.count = 2 ∧
      s.mem.countIf (Scope.has none) = 1 ∧
      s.mem.count = s.mem.countIf (Scope.has none) +
        (List.range s.threads.length).countP fun i => (sampleTracker.holdOf s.log i).counted := by
  have hrun : (Sys.run exec (.init {}) sampleCalls).any (fun s =>
      decide (s.mem.count = 2 ∧ s.mem.countIf (Scope.has none) = 1)) = true := by decide +kernel
  obtain ⟨s, hs, h⟩ := (Option.any_eq_true _ _).mp hrun
  obtain ⟨hcount, hsize⟩ := of_decide_eq_true h
  refine ⟨s, hs, hcount, hsize, (accounting_exact sampleTracker Function.injective_id sampleCalls s
    ?_ hs).1 none⟩
  simp only [sampleCalls, List.cons_append, List.forall_mem_cons, List.forall_mem_append]
  refine ⟨?_, ?_, ?_, ?_⟩
  · rintro p ⟨⟩
    exact ⟨_, rfl⟩
  · rintro p ⟨⟩
    exact ⟨_, rfl⟩
  · intro a ha p hp
    rw [List.eq_of_mem_replicate ha] at hp
    cases hp
  · intro a ha p hp
    rw [List.eq_of_mem_replicate ha] at hp
    cases hp

end TrackerConfig

end PkiCmp
