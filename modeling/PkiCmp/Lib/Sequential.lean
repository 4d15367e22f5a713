/-
Programs run one after the other, with their traces.

* `Does`: what the events of a trace do to the memory, one by one;
* `Prog.Runs`: a program takes a trace alone, from one memory to another;
* `Prog.record`: a run for given choices of the environment, evaluated;
* `Turns`: programs run in turn, each to its end before the next one starts
  (`Turns.invariant`: what every turn keeps holds at the end);
* `recordTurns`: turns for given choices of the environment, evaluated.
-/
import PkiCmp.Lib.Interleaving

namespace Interact

variable {Op : Type} {Res : Op → Type} {α β σ χ : Type}

/-! ### Traces on a memory -/

section Does

variable (exec : (o : Op) → χ → σ → Option (Res o × σ))

/-- The events of the trace, executed one by one, lead from one memory to the other. -/
inductive Does : σ → List (Event Op Res) → σ → Prop
  | nil (m : σ) : Does m [] m
  | cons {m m1 m' : σ} {o : Op} {c : χ} {x : Res o} {tr : List (Event Op Res)}
      (h : exec o c m = some (x, m1)) (ht : Does m1 tr m') : Does m (⟨o, x⟩ :: tr) m'

variable {exec}

lemma does_nil_iff {m m' : σ} : Does exec m [] m' ↔ m' = m := by
  constructor
  · intro h
    cases h
    rfl
  · rintro rfl
    exact .nil m'

lemma does_cons_iff {m m' : σ} {o : Op} {x : Res o} {tr : List (Event Op Res)} :
    Does exec m (⟨o, x⟩ :: tr) m' ↔ ∃ c m1, exec o c m = some (x, m1) ∧ Does exec m1 tr m' := by
  constructor
  · intro h
    cases h with
    | cons h ht => exact ⟨_, _, h, ht⟩
  · rintro ⟨c, m1, h, ht⟩
    exact .cons h ht

/-- Traces are executed one after the other. -/
lemma does_append_iff {m m' : σ} {tr1 tr2 : List (Event Op Res)} :
    Does exec m (tr1 ++ tr2) m' ↔ ∃ m1, Does exec m tr1 m1 ∧ Does exec m1 tr2 m' := by
  constructor
  · intro h
    induction tr1 generalizing m with
    | nil => exact ⟨m, .nil m, h⟩
    | cons e tr1 ih =>
      obtain ⟨o, x⟩ := e
      obtain ⟨c, m1, hx, h⟩ := does_cons_iff.mp h
      obtain ⟨m2, h1, h2⟩ := ih h
      exact ⟨m2, .cons hx h1, h2⟩
  · rintro ⟨m1, h1, h2⟩
    induction h1 with
    | nil m => exact h2
    | cons hx _ ih => exact .cons hx (ih h2)

/-- Operations that leave the memory alone. -/
lemma Does.eq_of_forall {P : Op → Prop}
    (hP : ∀ o c m x m', P o → exec o c m = some (x, m') → m' = m) {m m' : σ}
    {tr : List (Event Op Res)} (h : Does exec m tr m') (htr : ∀ e ∈ tr, P e.op) : m' = m := by
  induction h with
  | nil m => rfl
  | cons hx _ ih =>
    rw [ih fun e he => htr e (List.mem_cons_of_mem _ he)]
    exact hP _ _ _ _ _ (htr _ List.mem_cons_self) hx

end Does

/-! ### Runs -/

namespace Prog

variable (exec : (o : Op) → χ → σ → Option (Res o × σ))

/-- The program, run alone, takes the trace, returns and leaves the memory behind. -/
structure Runs (p : Prog Op Res α) (m : σ) (tr : List (Event Op Res)) (a : α) (m' : σ) : Prop where
  steps : Steps p tr (.ret a)
  does : Does exec m tr m'

/-- Run a program alone; the environment makes its choices step by step. -/
def record (cs : ℕ → χ) : Prog Op Res α → ℕ → σ → Option (List (Event Op Res) × α × σ)
  | .ret a, _, m => some ([], a, m)
  | .op o k, n, m =>
    match exec o (cs n) m with
    | none => none
    | some (x, m1) => (record cs (k x) (n + 1) m1).map fun (tr, a, m') => (⟨o, x⟩ :: tr, a, m')

variable {exec}

variable {tr : List (Event Op Res)}

/-- What is recorded is a run. -/
lemma runs_of_record {cs : ℕ → χ} {p : Prog Op Res α} {n : ℕ} {m m' : σ} {a : α}
    (h : p.record exec cs n m = some (tr, a, m')) :
    p.Runs exec m tr a m' := by
  induction p generalizing n m tr with
  | ret b =>
    cases h
    exact ⟨.refl _, .nil _⟩
  | op o k ih =>
    rw [record] at h
    split at h
    · cases h
    · next x m1 hx =>
      obtain ⟨⟨tr', b, m2⟩, hk, h⟩ := Option.map_eq_some_iff.mp h
      cases h
      obtain ⟨hs, hd⟩ := ih x hk
      exact ⟨.cons hs, .cons hx hd⟩

/-- A composition runs one program after the other. -/
lemma runs_bind_iff {p : Prog Op Res α} {f : α → Prog Op Res β} {m m' : σ} {b : β} :
    (p >>= f).Runs exec m tr b m' ↔
      ∃ tr1 tr2 a m1, tr = tr1 ++ tr2 ∧ p.Runs exec m tr1 a m1 ∧ (f a).Runs exec m1 tr2 b m' := by
  constructor
  · rintro ⟨hs, hd⟩
    obtain ⟨tr1, tr2, a, rfl, h1, h2⟩ := hs.of_bind
    obtain ⟨m1, hd1, hd2⟩ := does_append_iff.mp hd
    exact ⟨tr1, tr2, a, m1, rfl, ⟨h1, hd1⟩, ⟨h2, hd2⟩⟩
  · rintro ⟨tr1, tr2, a, m1, rfl, ⟨h1, hd1⟩, ⟨h2, hd2⟩⟩
    exact ⟨steps_bind_iff.mpr (.inr ⟨tr1, tr2, a, rfl, h1, h2⟩), does_append_iff.mpr ⟨m1, hd1, hd2⟩⟩

lemma runs_op_iff {o : Op} {k : Res o → Prog Op Res α} {m m' : σ} {a : α} :
    (Prog.op o k).Runs exec m tr a m' ↔
      ∃ x tr' c m1, tr = ⟨o, x⟩ :: tr' ∧ exec o c m = some (x, m1) ∧
        (k x).Runs exec m1 tr' a m' := by
  constructor
  · rintro ⟨hs, hd⟩
    obtain ⟨x, tr', rfl, hk⟩ := hs.of_call
    obtain ⟨c, m1, hx, hd⟩ := does_cons_iff.mp hd
    exact ⟨x, tr', c, m1, rfl, hx, hk, hd⟩
  · rintro ⟨x, tr', c, m1, rfl, hx, hs, hd⟩
    exact ⟨.cons hs, .cons hx hd⟩

lemma runs_ret_iff {b a : α} {m m' : σ} :
    (Prog.ret b : Prog Op Res α).Runs exec m tr a m' ↔ tr = [] ∧ a = b ∧ m' = m := by
  constructor
  · rintro ⟨hs, hd⟩
    obtain ⟨rfl, ⟨⟩⟩ := hs.of_ret
    exact ⟨rfl, rfl, does_nil_iff.mp hd⟩
  · rintro ⟨rfl, rfl, rfl⟩
    exact ⟨.refl _, .nil _⟩

/-- A run alone is a run of a pool, which comes to rest. -/
lemma Runs.exists_run {p : Prog Op Res α} {m m' : σ} {a : α} (h : p.Runs exec m tr a m')
    (log : List (ℕ × Event Op Res)) :
    ∃ (cs : List χ) (s : Sys Op Res α σ), s.mem = m' ∧ s.Quiescent ∧
      Sys.run exec ⟨m, [p], log⟩ (cs.map (.step 0)) = some s := by
  induction p generalizing m tr log with
  | ret b =>
    obtain ⟨-, -, rfl⟩ := runs_ret_iff.mp h
    exact ⟨[], _, rfl, fun q hq => ⟨b, List.mem_singleton.mp hq⟩, rfl⟩
  | op o k ih =>
    obtain ⟨x, tr', c, m1, rfl, hx, hk⟩ := runs_op_iff.mp h
    obtain ⟨cs, s, hm, hq, hrun⟩ := ih x hk (log ++ [(0, ⟨o, x⟩)])
    refine ⟨c :: cs, s, hm, hq, ?_⟩
    simp only [List.map_cons, Sys.run, Sys.act, List.getElem?_cons_zero, hx]
    exact hrun

end Prog

/-! ### Turns -/

/-- A program that was run to its end: its operations with their answers, and the
result. -/
structure Turn (Op : Type) (Res : Op → Type) (α : Type) where
  prog : Prog Op Res α
  trace : List (Event Op Res)
  result : α

/-- The programs run in turn, without overlapping. -/
inductive Turns (exec : (o : Op) → χ → σ → Option (Res o × σ)) :
    σ → List (Turn Op Res α) → σ → Prop
  | nil (m : σ) : Turns exec m [] m
  | cons {m m1 m' : σ} {t : Turn Op Res α} {ts : List (Turn Op Res α)}
      (h : t.prog.Runs exec m t.trace t.result m1) (hs : Turns exec m1 ts m') :
      Turns exec m (t :: ts) m'

variable {exec : (o : Op) → χ → σ → Option (Res o × σ)} {ts : List (Turn Op Res α)}

lemma turns_cons_iff {m m' : σ} {t : Turn Op Res α} :
    Turns exec m (t :: ts) m' ↔
      ∃ m1, t.prog.Runs exec m t.trace t.result m1 ∧ Turns exec m1 ts m' := by
  constructor
  · rintro (_ | ⟨h, hs⟩)
    exact ⟨_, h, hs⟩
  · rintro ⟨m1, h, hs⟩
    exact .cons h hs

lemma turns_append_iff {m m' : σ} {us : List (Turn Op Res α)} :
    Turns exec m (ts ++ us) m' ↔ ∃ m1, Turns exec m ts m1 ∧ Turns exec m1 us m' := by
  constructor
  · intro h
    induction ts generalizing m with
    | nil => exact ⟨m, .nil m, h⟩
    | cons t ts ih =>
      cases h with
      | cons ht h =>
        obtain ⟨m1, h1, h2⟩ := ih h
        exact ⟨m1, .cons ht h1, h2⟩
  · rintro ⟨m1, h1, h2⟩
    induction h1 with
    | nil m => exact h2
    | cons ht _ ih => exact .cons ht (ih h2)

/-- **The invariant rule**: what the turns so far and the memory have in common, kept by
every turn, holds at the end. -/
lemma Turns.invariant {J : List (Turn Op Res α) → σ → Prop} {m m' : σ} (h : Turns exec m ts m')
    (hJ : J [] m)
    (hstep : ∀ past t m m', t ∈ ts → J past m → t.prog.Runs exec m t.trace t.result m' →
      J (past ++ [t]) m') : J ts m' := by
  have hpast : ∀ past, J past m → J (past ++ ts) m' := by
    clear hJ
    induction h with
    | nil m =>
      intro past hJ
      rwa [List.append_nil]
    | cons ht _ ih =>
      intro past hJ
      rw [List.append_cons]
      exact ih (fun past t m m' hmem => hstep past t m m' (List.mem_cons_of_mem _ hmem)) _
        (hstep _ _ _ _ List.mem_cons_self hJ ht)
  exact hpast [] hJ

/-- Run programs in turn, each with its own choices of the environment. -/
def recordTurns (exec : (o : Op) → χ → σ → Option (Res o × σ)) :
    List (Prog Op Res α × (ℕ → χ)) → σ → Option (List (Turn Op Res α) × σ)
  | [], m => some ([], m)
  | (p, cs) :: ps, m =>
    match p.record exec cs 0 m with
    | none => none
    | some (tr, a, m1) =>
      (recordTurns exec ps m1).map fun (ts, m') => (⟨p, tr, a⟩ :: ts, m')

/-- What is recorded are turns of the programs. -/
lemma turns_of_recordTurns {ps : List (Prog Op Res α × (ℕ → χ))} {m m' : σ}
    (h : recordTurns exec ps m = some (ts, m')) :
    Turns exec m ts m' ∧ ts.map Turn.prog = ps.map Prod.fst := by
  induction ps generalizing m ts with
  | nil =>
    cases h
    exact ⟨.nil _, rfl⟩
  | cons pc ps ih =>
    obtain ⟨p, cs⟩ := pc
    rw [recordTurns] at h
    split at h
    · cases h
    · next tr a m1 hp =>
      obtain ⟨⟨ts', m2⟩, hps, heq⟩ := Option.map_eq_some_iff.mp h
      cases heq
      obtain ⟨hturns, hprogs⟩ := ih hps
      exact ⟨.cons (Prog.runs_of_record hp) hturns, by rw [List.map_cons, hprogs]; rfl⟩

end Interact
