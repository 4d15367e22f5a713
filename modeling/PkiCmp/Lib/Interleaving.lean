/-
Interleaved execution of interaction programs over a shared state.

* `Sys`, `Sys.act`: a pool of programs; an action starts a program or lets one
  program of the pool do its next operation, which is one step;
* `Sys.run`, `Sys.Along`: runs of actions, and runs all of whose steps meet a
  condition on the state they are taken in;
* `Sys.invariant`: **the invariant rule**.  Every program of the pool obeys a
  monitor; the invariant speaks about the shared state, the log and the monitor
  states only, and one step at a time;
* `Sys.Histories`: what each program of the pool has done so far;
* `Prog.run`, `Prog.run_bind`: a program run alone from a state.
-/
import Mathlib.Data.List.Forall2
import PkiCmp.Lib.Prog

namespace Interact

variable {Op : Type} {Res : Op → Type} {α σ χ G : Type}

/-- A pool of programs over a shared state, with the log of the operations done
so far, each with the number of the program that issued it. -/
structure Sys (Op : Type) (Res : Op → Type) (α σ : Type) where
  mem : σ
  threads : List (Prog Op Res α)
  log : List (ℕ × Event Op Res)

/-- Start a program, or let program `i` do its next operation; the environment
contributes a choice to the answer. -/
inductive Action (Op : Type) (Res : Op → Type) (α χ : Type) where
  | spawn (p : Prog Op Res α)
  | step (i : ℕ) (c : χ)

variable {β : Type}

/-- Replacing one member on both sides keeps two lists related. -/
lemma forall₂_set {γ : Type} {R : β → γ → Prop} {as : List β} {bs : List γ} {a : β} {b : γ}
    (h : List.Forall₂ R as bs) (hab : R a b) (i : ℕ) :
    List.Forall₂ R (as.set i a) (bs.set i b) := by
  induction h generalizing i with
  | nil => exact .nil
  | cons hxy _ ih =>
    cases i with
    | zero => exact .cons hab ‹_›
    | succ i => exact .cons hxy (ih i)

/-- A member of the right list is related to the member of the left one in its
place. -/
lemma exists_getElem?_of_forall₂ {γ : Type} {R : β → γ → Prop} {as : List β} {bs : List γ}
    (h : List.Forall₂ R as bs) {i : ℕ} {b : γ} (hb : bs[i]? = some b) :
    ∃ a, as[i]? = some a ∧ R a b := by
  induction h generalizing i with
  | nil => simp at hb
  | @cons a0 b0 as bs hxy _ ih =>
    cases i with
    | zero =>
      obtain rfl : b0 = b := by simpa using hb
      exact ⟨a0, by simp, hxy⟩
    | succ i =>
      obtain ⟨a, ha, hab⟩ := ih (by simpa using hb)
      exact ⟨a, by simpa using ha, hab⟩

/-- Two lists whose members agree on a property in their places have as many with it. -/
lemma countP_eq_of_forall₂ {γ : Type} {R : β → γ → Prop} {p : β → Bool} {q : γ → Bool}
    (hpq : ∀ a b, R a b → p a = q b) {as : List β} {bs : List γ} (h : List.Forall₂ R as bs) :
    as.countP p = bs.countP q := by
  induction h with
  | nil => rfl
  | cons hab _ ih => rw [List.countP_cons, List.countP_cons, hpq _ _ hab, ih]

/-- A member stays one when another place is set, or it is the one replaced. -/
lemma eq_or_mem_set {bs : List β} {i : ℕ} {b c : β} (hi : bs[i]? = some b) (b' : β) (hc : c ∈ bs) :
    c = b ∨ c ∈ bs.set i b' := by
  obtain ⟨j, hj⟩ := List.mem_iff_getElem?.mp hc
  by_cases hij : i = j
  · subst hij
    exact .inl (Option.some.inj (hj.symm.trans hi))
  · exact .inr (List.mem_iff_getElem?.mpr ⟨j, by rw [List.getElem?_set_ne hij, hj]⟩)

lemma mem_set_of_getElem? {bs : List β} {i : ℕ} {b : β} (hi : bs[i]? = some b) (b' : β) :
    b' ∈ bs.set i b' :=
  List.mem_set (List.getElem?_eq_some_iff.mp hi).1 b'

lemma eq_or_getElem?_of_set {bs : List β} {i j : ℕ} {b b' : β} (h : (bs.set i b')[j]? = some b) :
    (j = i ∧ b = b') ∨ (j ≠ i ∧ bs[j]? = some b) := by
  by_cases hij : i = j
  · subst hij
    rw [List.getElem?_set_self'] at h
    obtain ⟨_, -, rfl⟩ := Option.map_eq_some_iff.mp h
    exact .inl ⟨rfl, rfl⟩
  · rw [List.getElem?_set_ne hij] at h
    exact .inr ⟨fun hji => hij hji.symm, h⟩

/-- Replacing one member changes a count by that member alone. -/
lemma countP_set_add (p : β → Bool) {bs : List β} {i : ℕ} {b : β} (hi : bs[i]? = some b) (b' : β) :
    (bs.set i b').countP p + (if p b then 1 else 0) = bs.countP p + (if p b' then 1 else 0) := by
  induction bs generalizing i with
  | nil => simp at hi
  | cons a bs ih =>
    cases i with
    | zero =>
      obtain rfl : a = b := by simpa using hi
      simp only [List.set_cons_zero, List.countP_cons]
      omega
    | succ i =>
      have := ih (by simpa using hi)
      simp only [List.set_cons_succ, List.countP_cons]
      omega

/-- An element of a list with one more element is the last one, or an earlier one. -/
lemma split_of_snoc_eq {l pre post : List β} {b x : β} (h : l ++ [x] = pre ++ b :: post) :
    (pre = l ∧ b = x ∧ post = []) ∨ ∃ post', post = post' ++ [x] ∧ l = pre ++ b :: post' := by
  obtain rfl | ⟨post', y, rfl⟩ := List.eq_nil_or_concat post
  · obtain ⟨rfl, hx⟩ := List.append_inj' h rfl
    exact .inl ⟨rfl, (List.cons.inj hx).1.symm, rfl⟩
  · rw [List.concat_eq_append, ← List.cons_append, ← List.append_assoc] at h
    obtain ⟨rfl, hx⟩ := List.append_inj' h rfl
    obtain rfl := (List.cons.inj hx).1
    exact .inr ⟨post', List.concat_eq_append, rfl⟩

/-- After every element of the list that satisfies `R`, what follows satisfies `P`. -/
def Since (R : β → Prop) (l : List β) (P : List β → Prop) : Prop :=
  ∀ pre b post, l = pre ++ b :: post → R b → P post

lemma Since.nil {R : β → Prop} {P : List β → Prop} : Since R [] P := by
  intro pre b post h
  simp at h

lemma Since.mono {R : β → Prop} {l : List β} {P Q : List β → Prop} (h : Since R l P)
    (hPQ : ∀ post, P post → Q post) : Since R l Q :=
  fun pre b post hl hb => hPQ post (h pre b post hl hb)

/-- One more element follows the earlier ones, and nothing follows it. -/
lemma Since.snoc {R : β → Prop} {l : List β} {P : List β → Prop} {x : β}
    (h : Since R l fun post => P (post ++ [x])) (hx : R x → P []) : Since R (l ++ [x]) P := by
  intro pre b post hl hb
  obtain ⟨-, rfl, rfl⟩ | ⟨post, rfl, rfl⟩ := split_of_snoc_eq hl
  · exact hx hb
  · exact h pre b post rfl hb

namespace Sys

/-- The start of every run: nothing is going on. -/
def init (m : σ) : Sys Op Res α σ := ⟨m, [], []⟩

/-- The pool after program `i` got the answer `x` and left the shared state `m`. -/
def after (s : Sys Op Res α σ) (i : ℕ) (o : Op) (k : Res o → Prog Op Res α) (x : Res o) (m : σ) :
    Sys Op Res α σ :=
  ⟨m, s.threads.set i (k x), s.log ++ [(i, ⟨o, x⟩)]⟩

/-- The pool after starting a program. -/
def start (s : Sys Op Res α σ) (p : Prog Op Res α) : Sys Op Res α σ :=
  ⟨s.mem, s.threads ++ [p], s.log⟩

variable (exec : (o : Op) → χ → σ → Option (Res o × σ))

/-- One action; `none` when it is not possible. -/
def act (s : Sys Op Res α σ) : Action Op Res α χ → Option (Sys Op Res α σ)
  | .spawn p => some (s.start p)
  | .step i c =>
    match s.threads[i]? with
    | some (.op o k) =>
      match exec o c s.mem with
      | some (x, m) => some (s.after i o k x m)
      | none => none
    | _ => none

/-- A run of actions. -/
def run (s : Sys Op Res α σ) : List (Action Op Res α χ) → Option (Sys Op Res α σ)
  | [] => some s
  | a :: as =>
    match s.act exec a with
    | some s' => s'.run as
    | none => none

/-- Every action of the run is taken in a state that meets the condition. -/
def Along (C : Sys Op Res α σ → Action Op Res α χ → Prop) :
    Sys Op Res α σ → List (Action Op Res α χ) → Prop
  | _, [] => True
  | s, a :: as => C s a ∧ ∀ s', s.act exec a = some s' → Along C s' as

/-- The operation that program `i` does next. -/
def nextOp (s : Sys Op Res α σ) (i : ℕ) : Option Op :=
  match s.threads[i]? with
  | some (.op o _) => some o
  | _ => none

/-- The operation that an action lets a program do meets the condition. -/
def OnStep (P : Sys Op Res α σ → ℕ → Op → Prop) (s : Sys Op Res α σ) :
    Action Op Res α χ → Prop
  | .spawn _ => True
  | .step i _ => ∀ o ∈ s.nextOp i, P s i o

/-- No program of the pool has anything left to do. -/
def Quiescent (s : Sys Op Res α σ) : Prop :=
  ∀ p ∈ s.threads, ∃ a, p = .ret a

/-- A program is started only when no other one is running. -/
def Sequential (s : Sys Op Res α σ) : Action Op Res α χ → Prop
  | .spawn _ => s.Quiescent
  | .step _ _ => True

instance (p : Prog Op Res α) : Decidable (∃ a, p = .ret a) :=
  match p with
  | .ret a => isTrue ⟨a, rfl⟩
  | .op _ _ => isFalse nofun

instance (s : Sys Op Res α σ) : Decidable s.Quiescent :=
  inferInstanceAs (Decidable (∀ p ∈ s.threads, ∃ a, p = .ret a))

instance (s : Sys Op Res α σ) (a : Action Op Res α χ) : Decidable (s.Sequential a) :=
  match a with
  | .spawn _ => inferInstanceAs (Decidable s.Quiescent)
  | .step _ _ => isTrue trivial

instance {P : Sys Op Res α σ → ℕ → Op → Prop} [∀ s i o, Decidable (P s i o)]
    (s : Sys Op Res α σ) (a : Action Op Res α χ) : Decidable (s.OnStep P a) :=
  match a with
  | .spawn _ => isTrue trivial
  | .step i _ => inferInstanceAs (Decidable (∀ o ∈ s.nextOp i, P s i o))

instance decidableAlong {C : Sys Op Res α σ → Action Op Res α χ → Prop}
    [∀ s a, Decidable (C s a)] :
    (s : Sys Op Res α σ) → (as : List (Action Op Res α χ)) → Decidable (Along exec C s as)
  | _, [] => isTrue trivial
  | s, a :: as =>
    match h : s.act exec a with
    | none => decidable_of_iff (C s a) ⟨fun hc => ⟨hc, by simp [h]⟩, And.left⟩
    | some s' =>
      have : Decidable (Along exec C s' as) := decidableAlong s' as
      decidable_of_iff (C s a ∧ Along exec C s' as) (by simp [Along, h])

variable {exec}

variable {s : Sys Op Res α σ}

lemma OnStep.of_op {P : Sys Op Res α σ → ℕ → Op → Prop} {i : ℕ} {c : χ} {o : Op}
    {k : Res o → Prog Op Res α} (h : s.OnStep P (.step i c : Action Op Res α χ))
    (hi : s.threads[i]? = some (.op o k)) :
    P s i o :=
  h o (by simp [nextOp, hi])

/-- In a quiescent pool no program does a next operation. -/
lemma Quiescent.nextOp (h : s.Quiescent) (i : ℕ) : s.nextOp i = none := by
  unfold Sys.nextOp
  split
  · next o k hi =>
    obtain ⟨a, ha⟩ := h _ (List.mem_of_getElem? hi)
    cases ha
  · rfl

/-- A step of one program leaves the next operation of another as it was. -/
lemma nextOp_after_ne {i j : ℕ} (hij : j ≠ i) (o : Op) (k : Res o → Prog Op Res α) (x : Res o)
    (m : σ) :
    (s.after i o k x m).nextOp j = s.nextOp j := by
  simp only [nextOp, after, List.getElem?_set_ne hij.symm]

/-- A condition on the actions alone. -/
lemma Along.of_forall {P : Action Op Res α χ → Prop} {as : List (Action Op Res α χ)}
    (hP : ∀ a ∈ as, P a) (s : Sys Op Res α σ) : Along exec (fun _ a => P a) s as := by
  induction as generalizing s with
  | nil => trivial
  | cons a as ih =>
    exact ⟨hP a List.mem_cons_self, fun s' _ =>
      ih (fun b hb => hP b (List.mem_cons_of_mem _ hb)) s'⟩

/-- A condition on the actions alone can be added to the one on their states. -/
lemma Along.and_forall {C : Sys Op Res α σ → Action Op Res α χ → Prop}
    {P : Action Op Res α χ → Prop} {as : List (Action Op Res α χ)} (h : Along exec C s as)
    (hP : ∀ a ∈ as, P a) :
    Along exec (fun s a => P a ∧ C s a) s as := by
  induction as generalizing s with
  | nil => trivial
  | cons a as ih =>
    exact ⟨⟨hP a List.mem_cons_self, h.1⟩,
      fun s' hs' => ih (h.2 s' hs') fun b hb => hP b (List.mem_cons_of_mem _ hb)⟩

/-- What one action can do. -/
lemma act_eq_some {s' : Sys Op Res α σ} {a : Action Op Res α χ} (h : s.act exec a = some s') :
    (∃ p, a = .spawn p ∧ s' = s.start p) ∨
    ∃ i c o k x m, a = .step i c ∧ s.threads[i]? = some (.op o k) ∧
      exec o c s.mem = some (x, m) ∧ s' = s.after i o k x m := by
  cases a with
  | spawn p => exact .inl ⟨p, rfl, (Option.some.inj h).symm⟩
  | step i c =>
    simp only [act] at h
    split at h
    · next o k hi =>
      split at h
      · next x m hx => exact .inr ⟨i, c, o, k, x, m, rfl, hi, hx, (Option.some.inj h).symm⟩
      · cases h
    · cases h

section Invariant

variable (exec)
variable (M : Monitor Op Res G) (Q : G → α → Prop) (J : Sys Op Res α σ → List G → Prop)
variable (C : Sys Op Res α σ → Action Op Res α χ → Prop)

/-- The programs of the pool obey the monitor from the given states on, and the
invariant holds. -/
def Watched (s : Sys Op Res α σ) (gs : List G) : Prop :=
  List.Forall₂ (fun g p => Prog.Obeys M Q g p) gs s.threads ∧ J s gs

/-- What an invariant has to be shown for: a program that is started, and one
operation of a program that the monitor allows. -/
structure Inductive : Prop where
  spawn : ∀ s gs p, Watched M Q J s gs → C s (.spawn p) →
    ∃ g, Prog.Obeys M Q g p ∧ J (s.start p) (gs ++ [g])
  step : ∀ s gs i c g o k x m, Watched M Q J s gs → gs[i]? = some g →
    s.threads[i]? = some (.op o k) → M.allowed g o → exec o c s.mem = some (x, m) →
    C s (.step i c) → M.rely g o x ∧ J (s.after i o k x m) (gs.set i (M.next g o x))

variable {exec M Q J C}

/-- One action keeps the pool watched. -/
lemma Watched.act (hI : Inductive exec M Q J C) {s s' : Sys Op Res α σ} {gs : List G}
    {a : Action Op Res α χ} (hw : Watched M Q J s gs) (hc : C s a)
    (h : s.act exec a = some s') : ∃ gs', Watched M Q J s' gs' := by
  obtain ⟨p, rfl, rfl⟩ | ⟨i, c, o, k, x, m, rfl, hi, hx, rfl⟩ := act_eq_some h
  · obtain ⟨g, hg, hJ⟩ := hI.spawn s gs p hw hc
    exact ⟨gs ++ [g], List.rel_append hw.1 (.cons hg .nil), hJ⟩
  · obtain ⟨g, hg, hobey⟩ := exists_getElem?_of_forall₂ hw.1 hi
    obtain ⟨hr, hJ⟩ := hI.step s gs i c g o k x m hw hg hi hobey.1 hx hc
    exact ⟨_, forall₂_set hw.1 (hobey.2 x hr) i, hJ⟩

/-- **The invariant rule**: along a run whose steps meet the condition the pool
stays watched. -/
theorem invariant (hI : Inductive exec M Q J C) {s s' : Sys Op Res α σ} {gs : List G}
    {as : List (Action Op Res α χ)} (hw : Watched M Q J s gs) (hc : Along exec C s as)
    (h : s.run exec as = some s') : ∃ gs', Watched M Q J s' gs' := by
  induction as generalizing s gs with
  | nil =>
    cases h
    exact ⟨gs, hw⟩
  | cons a as ih =>
    rw [run] at h
    split at h
    · next t ht =>
      obtain ⟨gs', hw'⟩ := hw.act hI hc.1 ht
      exact ih hw' (hc.2 t ht) h
    · cases h

/-- In a quiescent state every monitor state meets the postcondition. -/
lemma Watched.quiescent {s : Sys Op Res α σ} {gs : List G} (hw : Watched M Q J s gs)
    (hq : s.Quiescent) : ∀ g ∈ gs, ∃ a, Q g a := by
  obtain ⟨hobey, -⟩ := hw
  obtain ⟨m, ps, log⟩ := s
  replace hq : ∀ p ∈ ps, ∃ a, p = .ret a := hq
  replace hobey : List.Forall₂ (fun g p => Prog.Obeys M Q g p) gs ps := hobey
  induction hobey with
  | nil => simp
  | @cons g p gs ps hgp _ ih =>
    intro g' hg'
    obtain rfl | hg' := List.mem_cons.mp hg'
    · obtain ⟨a, rfl⟩ := hq p List.mem_cons_self
      exact ⟨a, hgp⟩
    · exact ih (fun p hp => hq p (List.mem_cons_of_mem _ hp)) g' hg'

end Invariant

/-! ### Histories -/

/-- The lists hold what each program of the pool has done so far. -/
structure Histories (log : List (ℕ × Event Op Res)) (hs : List (List (Event Op Res))) : Prop where
  bound : ∀ {i e}, (i, e) ∈ log → i < hs.length
  mem_iff : ∀ {i h}, hs[i]? = some h → ∀ e, e ∈ h ↔ (i, e) ∈ log

namespace Histories

variable {log : List (ℕ × Event Op Res)} {hs : List (List (Event Op Res))}

lemma nil : Histories ([] : List (ℕ × Event Op Res)) [] := ⟨nofun, nofun⟩

/-- A program that is started has done nothing. -/
lemma spawn (hl : Histories log hs) : Histories log (hs ++ [[]]) where
  bound he := by
    rw [List.length_append]
    exact Nat.lt_add_right _ (hl.bound he)
  mem_iff {i h} hi e := by
    rw [List.getElem?_append] at hi
    split_ifs at hi with hlt
    · exact hl.mem_iff hi e
    · obtain rfl : [] = h := by
        cases hk : i - hs.length with
        | zero => simpa [hk] using hi
        | succ k => simp [hk] at hi
      refine ⟨nofun, fun he => absurd (hl.bound he) hlt⟩

/-- One more operation is added to the history of its program. -/
lemma step (hl : Histories log hs) {i : ℕ} {h : List (Event Op Res)} (hi : hs[i]? = some h)
    (e : Event Op Res) : Histories (log ++ [(i, e)]) (hs.set i (h ++ [e])) where
  bound {j e'} he := by
    rw [List.length_set]
    rcases List.mem_append.mp he with he | he
    · exact hl.bound he
    · obtain ⟨rfl, -⟩ := Prod.mk.inj (List.mem_singleton.mp he)
      exact (List.getElem?_eq_some_iff.mp hi).1
  mem_iff {j h'} hj e' := by
    rw [List.mem_append, List.mem_singleton, Prod.mk.injEq]
    rcases eq_or_getElem?_of_set hj with ⟨rfl, rfl⟩ | ⟨hne, hj⟩
    · rw [List.mem_append, List.mem_singleton, hl.mem_iff hi]
      simp
    · rw [hl.mem_iff hj]
      simp [hne]

end Histories

end Sys

/-! ### A program run alone -/

namespace Prog

variable (exec : (o : Op) → χ → σ → Option (Res o × σ)) {β : Type}

/-- Run a program alone.  The environment's choices are used up one by one, and
the run is possible only when they are exactly as many as the operations. -/
def run : Prog Op Res α → List χ → σ → Option (α × σ)
  | .ret a, [], m => some (a, m)
  | .ret _, _ :: _, _ => none
  | .op _ _, [], _ => none
  | .op o k, c :: cs, m =>
    match exec o c m with
    | some (x, m') => (k x).run cs m'
    | none => none

variable {exec}

/-- A composition runs one program after the other. -/
lemma run_bind {p : Prog Op Res α} {f : α → Prog Op Res β} {cs : List χ} {m m' : σ} {b : β} :
    (p >>= f).run exec cs m = some (b, m') ↔
      ∃ cs1 cs2 a m1, cs = cs1 ++ cs2 ∧ p.run exec cs1 m = some (a, m1) ∧
        (f a).run exec cs2 m1 = some (b, m') := by
  induction p generalizing cs m with
  | ret a =>
    constructor
    · intro h
      exact ⟨[], cs, a, m, rfl, rfl, h⟩
    · rintro ⟨cs1, cs2, a', m1, rfl, h1, h2⟩
      cases cs1 with
      | nil =>
        obtain ⟨rfl, rfl⟩ : a = a' ∧ m = m1 := by simpa [run] using h1
        exact h2
      | cons c cs1 => cases h1
  | op o k ih =>
    cases cs with
    | nil =>
      constructor
      · intro h
        cases h
      · rintro ⟨cs1, cs2, a, m1, hcs, h1, _⟩
        obtain ⟨rfl, rfl⟩ := List.append_eq_nil_iff.mp hcs.symm
        cases h1
    | cons c cs =>
      simp only [op_bind, run]
      cases hx : exec o c m with
      | none =>
        refine ⟨nofun, ?_⟩
        rintro ⟨cs1, cs2, a, m1, hcs, h1, _⟩
        cases cs1 with
        | nil => cases h1
        | cons c' cs1 =>
          obtain ⟨rfl, rfl⟩ : c = c' ∧ cs = cs1 ++ cs2 := by simpa using hcs
          simp [run, hx] at h1
      | some xm =>
        obtain ⟨x, m0⟩ := xm
        simp only [ih x]
        constructor
        · rintro ⟨cs1, cs2, a, m1, rfl, h1, h2⟩
          exact ⟨c :: cs1, cs2, a, m1, rfl, by simpa [run, hx] using h1, h2⟩
        · rintro ⟨cs1, cs2, a, m1, hcs, h1, h2⟩
          cases cs1 with
          | nil => cases h1
          | cons c' cs1 =>
            obtain ⟨rfl, rfl⟩ : c = c' ∧ cs = cs1 ++ cs2 := by simpa using hcs
            exact ⟨cs1, cs2, a, m1, rfl, by simpa [run, hx] using h1, h2⟩

/-- What is run is a trace. -/
lemma steps_of_run {p : Prog Op Res α} {cs : List χ} {m m' : σ} {a : α}
    (h : p.run exec cs m = some (a, m')) : ∃ tr, Steps p tr (.ret a) := by
  induction p generalizing cs m with
  | ret b =>
    cases cs with
    | nil =>
      cases h
      exact ⟨[], .refl _⟩
    | cons c cs => cases h
  | op o k ih =>
    cases cs with
    | nil => cases h
    | cons c cs =>
      rw [run] at h
      split at h
      · obtain ⟨tr, hs⟩ := ih _ h
        exact ⟨_, .cons hs⟩
      · cases h

variable (exec) in
/-- Run alone, the program returns, whatever the environment chooses. -/
def Returns (p : Prog Op Res α) : Prop :=
  ∀ (cs : ℕ → χ) (m : σ), ∃ n a m', p.run exec ((List.range n).map cs) m = some (a, m')

namespace Returns

lemma ret (a : α) : Returns exec (.ret a : Prog Op Res α) := fun _ m => ⟨0, a, m, rfl⟩

/-- One operation that cannot fail, and then a program that returns. -/
lemma op {o : Op} {k : Res o → Prog Op Res α} (ho : ∀ c m, (exec o c m).isSome)
    (hk : ∀ x, Returns exec (k x)) : Returns exec (.op o k) := by
  intro cs m
  obtain ⟨⟨x, m1⟩, hx⟩ := Option.isSome_iff_exists.mp (ho (cs 0) m)
  obtain ⟨n, a, m', h⟩ := hk x (fun i => cs (i + 1)) m1
  refine ⟨n + 1, a, m', ?_⟩
  rw [List.range_succ_eq_map, List.map_cons, List.map_map, run, hx]
  exact h

/-- A program whose operations cannot fail returns. -/
lemma of_only {P : Op → Prop} (hP : ∀ o, P o → ∀ c m, (exec o c m).isSome) {p : Prog Op Res α}
    (hp : Only P p) : Returns exec p := by
  induction p with
  | ret a => exact .ret a
  | op o k ih => exact .op (hP o hp.1) fun x => ih x (hp.2 x)

/-- A composition returns when its parts do. -/
lemma bind {p : Prog Op Res α} {f : α → Prog Op Res β} (hp : Returns exec p)
    (hf : ∀ tr a, Steps p tr (.ret a) → Returns exec (f a)) : Returns exec (p >>= f) := by
  intro cs m
  obtain ⟨n1, a, m1, h1⟩ := hp cs m
  obtain ⟨tr, hs⟩ := steps_of_run h1
  obtain ⟨n2, b, m2, h2⟩ := hf tr a hs (fun i => cs (n1 + i)) m1
  refine ⟨n1 + n2, b, m2, run_bind.mpr ⟨_, _, a, m1, ?_, h1, h2⟩⟩
  rw [List.range_add, List.map_append, List.map_map]
  rfl

end Returns

/-! ### A program run at one moment -/

variable (exec) in
/-- Run a program alone, with the same choice of the environment at every step. -/
def runAt (c : χ) : Prog Op Res α → σ → Option (α × σ)
  | .ret a, m => some (a, m)
  | .op o k, m =>
    match exec o c m with
    | some (x, m') => (k x).runAt c m'
    | none => none

@[simp] lemma runAt_ret (c : χ) (a : α) (m : σ) :
    (.ret a : Prog Op Res α).runAt exec c m = some (a, m) := rfl

lemma runAt_op {c : χ} {o : Op} {m m' : σ} {x : Res o} (h : exec o c m = some (x, m'))
    (k : Res o → Prog Op Res α) : (Prog.op o k).runAt exec c m = (k x).runAt exec c m' := by
  rw [runAt, h]

/-- A composition runs one program after the other. -/
lemma runAt_bind {c : χ} {p : Prog Op Res α} {f : α → Prog Op Res β} {m m' : σ} {a : α}
    (h : p.runAt exec c m = some (a, m')) :
    (p >>= f).runAt exec c m = (f a).runAt exec c m' := by
  induction p generalizing m with
  | ret b =>
    cases h
    rfl
  | op o k ih =>
    rw [runAt] at h
    split at h
    · next x m1 hx =>
      rw [op_bind, runAt_op hx]
      exact ih x h
    · cases h

/-- **Invariants of a run**: what each allowed operation keeps holds at the end. -/
lemma Obeys.runAt {M : Monitor Op Res G} {Q : G → α → Prop} {c : χ} {J : G → σ → Prop}
    (hstep : ∀ g o x m m', J g m → M.allowed g o → exec o c m = some (x, m') →
      M.rely g o x ∧ J (M.next g o x) m') {p : Prog Op Res α} {g : G} {m m' : σ} {a : α}
    (hp : Obeys M Q g p) (hJ : J g m) (h : p.runAt exec c m = some (a, m')) :
    ∃ g', Q g' a ∧ J g' m' := by
  induction p generalizing g m with
  | ret b =>
    cases h
    exact ⟨g, hp, hJ⟩
  | op o k ih =>
    rw [Prog.runAt] at h
    split at h
    · next x m1 hx =>
      obtain ⟨hr, hJ'⟩ := hstep g o x m m1 hJ hp.1 hx
      exact ih x (hp.2 x hr) hJ' h
    · cases h

end Prog

end Interact
