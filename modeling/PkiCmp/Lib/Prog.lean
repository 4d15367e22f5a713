/-
Interaction programs: finite decision trees of operations, with the answers
coming from outside.

* `Prog`: the programs, a monad, over operations `Op` answered in `Res`;
* `Prog.Steps`: the traces a program can take, for any answers
  (`Prog.steps_bind_iff`: a trace of a sequential composition is a trace of the
  first program, or a complete one followed by a trace of the second);
* `Prog.interp`: every operation replaced by a program;
* `Prog.Only`: the operations a program may issue;
* `Prog.Yields`: the results a program may return;
* `Monitor`, `Prog.Obeys`: a small automaton that watches the operations of a
  program, and the programs that keep to it whatever answers the automaton may
  rely on (`Prog.Obeys.bind`, `Prog.Obeys.steps`);
* `Monitor.recording`: the monitor whose state is the history of the program.
-/
import Mathlib.Data.List.Basic
import Mathlib.Data.List.Induction
import Mathlib.Tactic.Common

namespace Interact

/-- A program over the operations `Op`: it either returns, or issues one
operation and goes on with its answer. -/
inductive Prog (Op : Type) (Res : Op → Type) (α : Type) : Type where
  | ret (a : α)
  | op (o : Op) (k : Res o → Prog Op Res α)

/-- One operation together with the answer it was given. -/
structure Event (Op : Type) (Res : Op → Type) where
  op : Op
  res : Res op

namespace Prog

variable {Op : Type} {Res : Op → Type} {α β γ : Type}

/-- Sequential composition. -/
protected def bind : Prog Op Res α → (α → Prog Op Res β) → Prog Op Res β
  | .ret a, f => f a
  | .op o k, f => .op o fun x => (k x).bind f

/-- Issue one operation and return its answer. -/
def call (o : Op) : Prog Op Res (Res o) :=
  .op o .ret

instance : Monad (Prog Op Res) where
  pure := .ret
  bind := Prog.bind

@[simp] lemma pure_eq (a : α) : (pure a : Prog Op Res α) = .ret a := rfl

@[simp] lemma ret_bind (a : α) (f : α → Prog Op Res β) : (Prog.ret a >>= f) = f a := rfl

@[simp] lemma op_bind (o : Op) (k : Res o → Prog Op Res α) (f : α → Prog Op Res β) :
    (Prog.op o k >>= f) = .op o fun x => k x >>= f := rfl

@[simp] lemma call_bind (o : Op) (f : Res o → Prog Op Res β) :
    ((call o : Prog Op Res (Res o)) >>= f) = .op o f := rfl

/-- Sequential composition is associative. -/
lemma bind_assoc' (p : Prog Op Res α) (f : α → Prog Op Res β) (g : β → Prog Op Res γ) :
    (p >>= f) >>= g = p >>= fun a => f a >>= g := by
  induction p with
  | ret a => rfl
  | op o k ih =>
    simp only [op_bind]
    exact congrArg _ (funext ih)

/-- Mapping the identity changes nothing. -/
lemma id_map' (p : Prog Op Res α) : id <$> p = p := by
  induction p with
  | ret a => rfl
  | op o k ih => exact congrArg (Prog.op o) (funext ih)

instance : LawfulMonad (Prog Op Res) :=
  LawfulMonad.mk' _ id_map' (fun _ _ => rfl) bind_assoc'

/-! ### Traces -/

/-- `Steps p tr q`: answering the operations of `p` as in `tr` leaves `q` to be
done.  The answers are arbitrary. -/
inductive Steps : Prog Op Res α → List (Event Op Res) → Prog Op Res α → Prop
  | refl (p : Prog Op Res α) : Steps p [] p
  | cons {o : Op} {k : Res o → Prog Op Res α} {x : Res o} {tr : List (Event Op Res)}
      {q : Prog Op Res α} (h : Steps (k x) tr q) : Steps (.op o k) (⟨o, x⟩ :: tr) q

variable {tr : List (Event Op Res)}

/-- A trace of a program that has returned is empty. -/
lemma steps_ret_iff {a : α} {q : Prog Op Res α} :
    Steps (.ret a) tr q ↔ tr = [] ∧ q = .ret a := by
  constructor
  · intro h
    cases h
    exact ⟨rfl, rfl⟩
  · rintro ⟨rfl, rfl⟩
    exact .refl _

/-- A trace of a program that issues an operation is empty or starts with it. -/
lemma steps_op_iff {o : Op} {k : Res o → Prog Op Res α} {q : Prog Op Res α} :
    Steps (.op o k) tr q ↔
      (tr = [] ∧ q = .op o k) ∨ ∃ x tr', tr = ⟨o, x⟩ :: tr' ∧ Steps (k x) tr' q := by
  constructor
  · intro h
    cases h with
    | refl => exact .inl ⟨rfl, rfl⟩
    | cons h => exact .inr ⟨_, _, rfl, h⟩
  · rintro (⟨rfl, rfl⟩ | ⟨x, tr', rfl, h⟩)
    · exact .refl _
    · exact .cons h

variable {p : Prog Op Res α}

/-- **Traces of a composition**: either the first program is still running, or
it has returned and the rest of the trace is one of the second. -/
lemma steps_bind_iff {f : α → Prog Op Res β} {q : Prog Op Res β} :
    Steps (p >>= f) tr q ↔
      (∃ p', Steps p tr p' ∧ q = p' >>= f) ∨
      ∃ tr1 tr2 a, tr = tr1 ++ tr2 ∧ Steps p tr1 (.ret a) ∧ Steps (f a) tr2 q := by
  constructor
  · intro h
    induction p generalizing tr with
    | ret a => exact .inr ⟨[], tr, a, rfl, .refl _, h⟩
    | op o k ih =>
      rw [op_bind, steps_op_iff] at h
      obtain ⟨rfl, rfl⟩ | ⟨x, tr', rfl, h⟩ := h
      · exact .inl ⟨_, .refl _, rfl⟩
      · obtain ⟨p', hp, rfl⟩ | ⟨tr1, tr2, a, rfl, h1, h2⟩ := ih x h
        · exact .inl ⟨p', .cons hp, rfl⟩
        · exact .inr ⟨⟨o, x⟩ :: tr1, tr2, a, rfl, .cons h1, h2⟩
  · rintro (⟨p', hp, rfl⟩ | ⟨tr1, tr2, a, rfl, h1, h2⟩)
    · induction hp with
      | refl p => exact .refl _
      | cons _ ih => exact .cons ih
    · generalize hr : Prog.ret a = r at h1
      induction h1 with
      | refl p =>
        subst hr
        exact h2
      | cons _ ih => exact .cons (ih hr)

/-- A program that has returned has nothing left to do. -/
lemma Steps.of_ret {a b : α} (h : Steps (.ret a) tr (.ret b)) :
    tr = [] ∧ b = a := by
  obtain ⟨rfl, hret⟩ := steps_ret_iff.mp h
  cases hret
  exact ⟨rfl, rfl⟩

/-- A complete trace of a composition is one of each part. -/
lemma Steps.of_bind {f : α → Prog Op Res β} {b : β} (h : Steps (p >>= f) tr (.ret b)) :
    ∃ tr1 tr2 a, tr = tr1 ++ tr2 ∧ Steps p tr1 (.ret a) ∧ Steps (f a) tr2 (.ret b) := by
  obtain ⟨p', hp, hret⟩ | h := steps_bind_iff.mp h
  · cases p' with
    | ret a => exact ⟨tr, [], a, (List.append_nil tr).symm, hp, by rw [hret]; exact .refl _⟩
    | op o k => cases hret
  · exact h

/-- A complete trace that begins with a call has its answer. -/
lemma Steps.of_call {o : Op} {f : Res o → Prog Op Res β} {b : β}
    (h : Steps (call o >>= f) tr (.ret b)) :
    ∃ x tr', tr = ⟨o, x⟩ :: tr' ∧ Steps (f x) tr' (.ret b) := by
  obtain ⟨-, hret⟩ | h := steps_op_iff.mp h
  · cases hret
  · exact h

/-- Answer the operations by a function, as long as it has an answer. -/
def play (answer : (o : Op) → Option (Res o)) :
    Prog Op Res α → Option (List (Event Op Res) × α)
  | .ret a => some ([], a)
  | .op o k =>
    match answer o with
    | none => none
    | some x => (play answer (k x)).map fun (tr, a) => (⟨o, x⟩ :: tr, a)

variable {answer : (o : Op) → Option (Res o)}

/-- What is played is a trace. -/
lemma steps_of_play {a : α} (h : play answer p = some (tr, a)) :
    Steps p tr (.ret a) := by
  induction p generalizing tr with
  | ret b =>
    cases h
    exact .refl _
  | op o k ih =>
    rw [play] at h
    split at h
    · cases h
    · next x _ =>
      obtain ⟨⟨tr', b⟩, hk, h⟩ := Option.map_eq_some_iff.mp h
      cases h
      exact .cons (ih x hk)

/-- What is played has the given answers. -/
lemma answer_of_play {a : α} (h : play answer p = some (tr, a)) {e : Event Op Res} (he : e ∈ tr) :
    answer e.op = some e.res := by
  induction p generalizing tr with
  | ret b =>
    cases h
    cases he
  | op o k ih =>
    rw [play] at h
    split at h
    · cases h
    · next x hx =>
      obtain ⟨⟨tr', b⟩, hk, h⟩ := Option.map_eq_some_iff.mp h
      cases h
      obtain rfl | he := List.mem_cons.mp he
      · exact hx
      · exact ih x hk he

/-- A result that is played is the end of some trace. -/
lemma exists_steps_of_play {a : α} (h : (play answer p).map Prod.snd = some a) :
    ∃ tr, Steps p tr (.ret a) := by
  obtain ⟨⟨tr, b⟩, hplay, rfl⟩ := Option.map_eq_some_iff.mp h
  exact ⟨tr, steps_of_play hplay⟩

/-! ### Interpretation -/

section

variable {Op' : Type} {Res' : Op' → Type}

/-- Replace every operation of a program by a program. -/
def interp (f : (o : Op) → Prog Op' Res' (Res o)) : Prog Op Res α → Prog Op' Res' α
  | .ret a => .ret a
  | .op o k => f o >>= fun x => (k x).interp f

/-- What happens while operations with their answers are interpreted one after the other. -/
inductive Expands (f : (o : Op) → Prog Op' Res' (Res o)) :
    List (Event Op Res) → List (Event Op' Res') → Prop
  | nil : Expands f [] []
  | cons {o : Op} {x : Res o} {ops : List (Event Op Res)} {tr1 tr2 : List (Event Op' Res')}
      (h : Steps (f o) tr1 (.ret x)) (ht : Expands f ops tr2) :
      Expands f (⟨o, x⟩ :: ops) (tr1 ++ tr2)

/-- Whatever happens while a program is interpreted happens while one of its operations is, to
which the program has come by the operations that were interpreted before. -/
lemma mem_steps_interp {f : (o : Op) → Prog Op' Res' (Res o)} {p : Prog Op Res α}
    {tr : List (Event Op' Res')} {q : Prog Op' Res' α} {e : Event Op' Res'}
    (h : Steps (p.interp f) tr q) (he : e ∈ tr) :
    ∃ ops o k tr1 mid tr2 r, tr = tr1 ++ (mid ++ tr2) ∧ Steps p ops (.op o k) ∧
      Expands f ops tr1 ∧ Steps (f o) mid r ∧ e ∈ mid := by
  induction p generalizing tr with
  | ret a =>
    obtain ⟨rfl, -⟩ := steps_ret_iff.mp h
    cases he
  | op o k ih =>
    obtain ⟨r, hr, -⟩ | ⟨tr1, tr2, x, rfl, h1, h2⟩ := steps_bind_iff.mp h
    · exact ⟨[], o, k, [], tr, [], r, by simp, .refl _, .nil, hr, he⟩
    · rcases List.mem_append.mp he with he | he
      · exact ⟨[], o, k, [], tr1, tr2, .ret x, rfl, .refl _, .nil, h1, he⟩
      · obtain ⟨ops, o', k', pre, mid, post, r, rfl, hp, hpre, hr, he⟩ := ih x h2 he
        exact ⟨_, o', k', tr1 ++ pre, mid, post, r, by simp, .cons hp, .cons h1 hpre, hr, he⟩

end

/-! ### Operations of a program -/

/-- Every operation the program can issue satisfies `P`. -/
def Only (P : Op → Prop) : Prog Op Res α → Prop
  | .ret _ => True
  | .op o k => P o ∧ ∀ x, Only P (k x)

namespace Only

variable {P : Op → Prop}

@[simp] lemma ret_iff {a : α} : Only P (.ret a : Prog Op Res α) ↔ True := Iff.rfl

@[simp] lemma op_iff {o : Op} {k : Res o → Prog Op Res α} :
    Only P (.op o k) ↔ P o ∧ ∀ x, Only P (k x) := Iff.rfl

@[simp] lemma call_iff {o : Op} : Only P (call o : Prog Op Res (Res o)) ↔ P o := by
  simp [call]

/-- More operations may be allowed. -/
lemma mono {R : Op → Prop} {p : Prog Op Res α} (hp : Only P p) (h : ∀ o, P o → R o) :
    Only R p := by
  induction p with
  | ret a => trivial
  | op o k ih => exact ⟨h o hp.1, fun x => ih x (hp.2 x)⟩

/-- A composition issues the operations of its parts. -/
lemma bind {p : Prog Op Res α} {f : α → Prog Op Res β} (hp : Only P p)
    (hf : ∀ a, Only P (f a)) : Only P (p >>= f) := by
  induction p with
  | ret a => exact hf a
  | op o k ih => exact ⟨hp.1, fun x => ih x (hp.2 x)⟩

/-- Every operation along a trace is one the program may issue. -/
lemma mem_steps {p q : Prog Op Res α} {tr : List (Event Op Res)} {e : Event Op Res}
    (hp : Only P p) (hs : Steps p tr q) (he : e ∈ tr) : P e.op := by
  induction hs with
  | refl p => cases he
  | cons _ ih =>
    rcases List.mem_cons.mp he with rfl | he
    · exact hp.1
    · exact ih (hp.2 _) he

end Only

/-! ### Results of a program -/

/-- Whatever answers it gets, the program returns only values that satisfy `R`. -/
def Yields (R : α → Prop) : Prog Op Res α → Prop
  | .ret a => R a
  | .op _ k => ∀ x, Yields R (k x)

namespace Yields

variable {R : α → Prop}

/-- What the first program returns is what the second starts from. -/
lemma bind {S : β → Prop} {p : Prog Op Res α} {f : α → Prog Op Res β} (hp : Yields R p)
    (hf : ∀ a, R a → Yields S (f a)) : Yields S (p >>= f) := by
  induction p with
  | ret a => exact hf a hp
  | op o k ih => exact fun x => ih x (hp x)

/-- A program that returns something returns something. -/
lemma of_true (p : Prog Op Res α) : Yields (fun _ => True) p := by
  induction p with
  | ret a => trivial
  | op o k ih => exact ih

/-- The value at the end of a trace. -/
lemma steps {p : Prog Op Res α} {tr : List (Event Op Res)} {a : α} (hp : Yields R p)
    (hs : Steps p tr (.ret a)) : R a := by
  generalize hq : (Prog.ret a : Prog Op Res α) = q at hs
  induction hs with
  | refl p =>
    subst hq
    exact hp
  | cons _ ih => exact ih (hp _) hq

end Yields

end Prog

/-- An event that has no other one of its kind before it is the only one. -/
lemma countP_le_one {β : Type} {p : β → Bool} {l : List β}
    (h : ∀ pre b post, l = pre ++ b :: post → p b → ∀ c ∈ pre, p c = false) : l.countP p ≤ 1 := by
  induction l using List.reverseRecOn with
  | nil => simp
  | append_singleton l b ih =>
    have hl : l.countP p ≤ 1 := ih fun pre c post hsplit =>
      h pre c (post ++ [b]) (by rw [hsplit]; simp)
    rw [List.countP_append, List.countP_singleton]
    split_ifs with hb
    · have hnone : l.countP p = 0 := List.countP_eq_zero.mpr fun c hc => by
        simp [h l b [] rfl hb c hc]
      omega
    · omega

/-! ### Monitors -/

/-- An automaton that watches the operations of a program: which operations it
allows in a state, which answers it may rely on, and where it goes. -/
structure Monitor (Op : Type) (Res : Op → Type) (G : Type) where
  allowed : G → Op → Prop
  rely : G → (o : Op) → Res o → Prop
  next : G → (o : Op) → Res o → G

namespace Monitor

variable {Op : Type} {Res : Op → Type} {G : Type} (M : Monitor Op Res G)

/-- Operations of a kind are allowed where the invariant holds, and keep it. -/
def Keeps (I : G → Prop) (P : Op → Prop) : Prop :=
  ∀ g o, I g → P o → M.allowed g o ∧ ∀ x, M.rely g o x → I (M.next g o x)

variable {M} in
lemma Keeps.mono {I : G → Prop} {P Q : Op → Prop} (h : M.Keeps I P) (hQ : ∀ o, Q o → P o) :
    M.Keeps I Q := fun g o hg ho => h g o hg (hQ o ho)

/-- The state of the monitor after a trace. -/
def after (g : G) (tr : List (Event Op Res)) : G :=
  tr.foldl (fun g e => M.next g e.op e.res) g

/-- The answers along a trace are the ones the monitor relies on. -/
def Relies : G → List (Event Op Res) → Prop
  | _, [] => True
  | g, e :: tr => M.rely g e.op e.res ∧ Relies (M.next g e.op e.res) tr

/-- Every operation of a trace is allowed when it is issued. -/
def Accepts : G → List (Event Op Res) → Prop
  | _, [] => True
  | g, e :: tr => M.allowed g e.op ∧ Accepts (M.next g e.op e.res) tr

@[simp] lemma after_nil (g : G) : M.after g [] = g := rfl

@[simp] lemma after_cons (g : G) (e : Event Op Res) (tr : List (Event Op Res)) :
    M.after g (e :: tr) = M.after (M.next g e.op e.res) tr := rfl

lemma after_append (g : G) (pre post : List (Event Op Res)) :
    M.after g (pre ++ post) = M.after (M.after g pre) post := List.foldl_append

/-- A monitor that relies on nothing is content with every trace. -/
lemma Relies.of_forall {M : Monitor Op Res G} (h : ∀ g o x, M.rely g o x) (g : G)
    (tr : List (Event Op Res)) : M.Relies g tr := by
  induction tr generalizing g with
  | nil => trivial
  | cons e tr ih => exact ⟨h g e.op e.res, ih _⟩

/-- What follows an accepted beginning is accepted from the state it leads to. -/
lemma accepts_append_iff {M : Monitor Op Res G} {g : G} {pre post : List (Event Op Res)} :
    M.Accepts g (pre ++ post) ↔ M.Accepts g pre ∧ M.Accepts (M.after g pre) post := by
  induction pre generalizing g with
  | nil => simp [Accepts]
  | cons e pre ih => simp [Accepts, ih, and_assoc]

/-- Every operation of an accepted trace is allowed in the state before it. -/
lemma Accepts.allowed {M : Monitor Op Res G} {g : G} {pre post : List (Event Op Res)}
    {e : Event Op Res} (h : M.Accepts g (pre ++ e :: post)) : M.allowed (M.after g pre) e.op :=
  (accepts_append_iff.mp h).2.1

/-- A part of the state that is not the same after a trace was changed by some event of it, the
first of which finds it as it was. -/
lemma exists_change {β : Type} (f : G → β) {g : G} {tr : List (Event Op Res)}
    (h : f (M.after g tr) ≠ f g) :
    ∃ pre e post, tr = pre ++ e :: post ∧ f (M.after g pre) = f g ∧
      f (M.next (M.after g pre) e.op e.res) ≠ f g := by
  induction tr generalizing g with
  | nil => exact absurd rfl h
  | cons e tr ih =>
    by_cases hf : f (M.next g e.op e.res) = f g
    · rw [after_cons, ← hf] at h
      obtain ⟨pre, e', post, rfl, hpre, hnext⟩ := ih h
      exact ⟨e :: pre, e', post, rfl, hpre.trans hf, hf ▸ hnext⟩
    · exact ⟨[], e, tr, rfl, rfl, hf⟩

/-- The monitor that records what has happened, and asks `P` whether an operation may
follow. -/
def recording (P : List (Event Op Res) → Op → Prop) : Monitor Op Res (List (Event Op Res)) where
  allowed := P
  rely _ _ _ := True
  next h o x := h ++ [⟨o, x⟩]

lemma after_recording (P : List (Event Op Res) → Op → Prop) (h tr : List (Event Op Res)) :
    (recording P).after h tr = h ++ tr := by
  induction tr generalizing h with
  | nil => exact (List.append_nil h).symm
  | cons e tr ih =>
    rw [after_cons, ih]
    simp [recording]

/-- Two monitors side by side. -/
def prod {H : Type} (M : Monitor Op Res G) (N : Monitor Op Res H) : Monitor Op Res (G × H) where
  allowed g o := M.allowed g.1 o ∧ N.allowed g.2 o
  rely g o x := M.rely g.1 o x ∧ N.rely g.2 o x
  next g o x := (M.next g.1 o x, N.next g.2 o x)

end Monitor

namespace Prog

variable {Op : Type} {Res : Op → Type} {α β : Type} {G : Type}

/-- The program keeps to the monitor from state `g` on, whatever answers the
monitor relies on, and when it returns `Q` holds. -/
def Obeys (M : Monitor Op Res G) (Q : G → α → Prop) : G → Prog Op Res α → Prop
  | g, .ret a => Q g a
  | g, .op o k => M.allowed g o ∧ ∀ x, M.rely g o x → Obeys M Q (M.next g o x) (k x)

namespace Obeys

variable {M : Monitor Op Res G} {Q R : G → α → Prop} {g : G}

@[simp] lemma ret_iff {a : α} : Obeys M Q g (.ret a) ↔ Q g a := Iff.rfl

@[simp] lemma op_iff {o : Op} {k : Res o → Prog Op Res α} :
    Obeys M Q g (.op o k) ↔
      M.allowed g o ∧ ∀ x, M.rely g o x → Obeys M Q (M.next g o x) (k x) := Iff.rfl

variable {p : Prog Op Res α}

/-- The postcondition may be weakened. -/
lemma mono (h : Obeys M R g p) (hQ : ∀ g a, R g a → Q g a) :
    Obeys M Q g p := by
  induction p generalizing g with
  | ret a => exact hQ g a h
  | op o k ih => exact ⟨h.1, fun x hx => ih x (h.2 x hx)⟩

/-- A property of the monitor's state that every answer keeps holds at the end. -/
lemma stable {I : G → Prop} (hI : ∀ g o x, I g → I (M.next g o x)) (h : Obeys M Q g p) (hg : I g) :
    Obeys M (fun g a => I g ∧ Q g a) g p := by
  induction p generalizing g with
  | ret a => exact ⟨hg, h⟩
  | op o k ih => exact ⟨h.1, fun x hx => ih x (h.2 x hx) (hI g o x hg)⟩

/-- What a program returns holds beside what the monitor ensures. -/
lemma and_yields {S : α → Prop} (h : Obeys M Q g p) (hy : Yields S p) :
    Obeys M (fun g' a => Q g' a ∧ S a) g p := by
  induction p generalizing g with
  | ret a => exact ⟨h, hy⟩
  | op o k ih => exact ⟨h.1, fun x hx => ih x (h.2 x hx) (hy x)⟩

/-- A result comes with the trace that leads to it. -/
lemma traced (h : Obeys M Q g p) :
    Obeys M (fun g' a => Q g' a ∧ ∃ tr, Steps p tr (.ret a) ∧ M.after g tr = g') g p := by
  induction p generalizing g with
  | ret a => exact ⟨h, [], .refl _, rfl⟩
  | op o k ih =>
    refine ⟨h.1, fun x hx => (ih x (h.2 x hx)).mono ?_⟩
    rintro g' a ⟨hq, tr, hs, hafter⟩
    exact ⟨hq, ⟨o, x⟩ :: tr, .cons hs, hafter⟩

/-- A program that obeys two monitors obeys both of them side by side. -/
lemma prod {H : Type} {N : Monitor Op Res H} {S : H → α → Prop} {h : H} (hM : Obeys M Q g p)
    (hN : Obeys N S h p) :
    Obeys (M.prod N) (fun g' a => Q g'.1 a ∧ S g'.2 a) (g, h) p := by
  induction p generalizing g h with
  | ret a => exact ⟨hM, hN⟩
  | op o k ih => exact ⟨⟨hM.1, hN.1⟩, fun x hx => ih x (hM.2 x hx.1) (hN.2 x hx.2)⟩

/-- A monitor that allows everything is obeyed. -/
lemma of_allowed (ha : ∀ g o, M.allowed g o) (p : Prog Op Res α) :
    Obeys M (fun _ _ => True) g p := by
  induction p generalizing g with
  | ret a => trivial
  | op o k ih => exact ⟨ha g o, fun x _ => ih x⟩

/-- A program whose operations keep an invariant of the monitor's state. -/
lemma of_keeps {I : G → Prop} {P : Op → Prop} (hI : M.Keeps I P) (hp : Only P p) (hg : I g) :
    Obeys M (fun g' _ => I g') g p := by
  induction p generalizing g with
  | ret a => exact hg
  | op o k ih =>
    obtain ⟨ha, hk⟩ := hI g o hg hp.1
    exact ⟨ha, fun x hx => ih x (hp.2 x) (hk x hx)⟩

/-- A program whose operations the monitor allows and ignores leaves its state
as it was. -/
lemma of_only {P : Op → Prop} (hp : Only P p)
    (hP : ∀ o, P o → M.allowed g o ∧ ∀ x, M.next g o x = g) :
    Obeys M (fun g' _ => g' = g) g p := by
  induction p with
  | ret a => rfl
  | op o k ih =>
    refine ⟨(hP o hp.1).1, fun x _ => ?_⟩
    rw [(hP o hp.1).2 x]
    exact ih x (hp.2 x)

/-- **Composition**: the postcondition of the first program is the
precondition of the second. -/
lemma bind {f : α → Prog Op Res β} {S : G → β → Prop} (h : Obeys M R g p)
    (hf : ∀ g a, R g a → Obeys M S g (f a)) :
    Obeys M S g (p >>= f) := by
  induction p generalizing g with
  | ret a => exact hf g a h
  | op o k ih => exact ⟨h.1, fun x hx => ih x (h.2 x hx)⟩

/-- **Along every trace** a program that obeys the monitor is accepted by it,
and what is left obeys the monitor from the state the trace leads to. -/
lemma steps {q : Prog Op Res α} {tr : List (Event Op Res)} (hs : Steps p tr q) (h : Obeys M Q g p)
    (hr : M.Relies g tr) :
    M.Accepts g tr ∧ Obeys M Q (M.after g tr) q := by
  induction hs generalizing g with
  | refl p => exact ⟨trivial, h⟩
  | cons _ ih =>
    obtain ⟨ha, hq⟩ := ih (h.2 _ hr.1) hr.2
    exact ⟨⟨h.1, ha⟩, hq⟩

/-- What has been recorded before an operation of a trace lets it follow. -/
lemma recorded {P : List (Event Op Res) → Op → Prop} {Q : List (Event Op Res) → α → Prop}
    {q : Prog Op Res α} {pre post : List (Event Op Res)} {e : Event Op Res}
    (h : Obeys (.recording P) Q [] p) (hs : Steps p (pre ++ e :: post) q) : P pre e.op := by
  have hallowed := (h.steps hs (.of_forall (fun _ _ _ => trivial) _ _)).1.allowed
  rwa [Monitor.after_recording, List.nil_append] at hallowed

end Obeys

end Prog

end Interact
