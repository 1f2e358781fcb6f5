import Ingest4x.Effect.Result
import Mathlib.Logic.Relation
import Mathlib.Tactic.Basic

/-! # Programs over a set of operations

A program is a tree of operations: it ends with a value, or it performs one operation and goes on
with the answer. What an operation does to the outside world is not part of the program; it is
given by an *environment*, a relation between the state before an operation, the answer and the
state after. One program can so be run under several environments: one where every operation
succeeds, one where any operation may fail, one that answers from a fixed script.

* **`Prog`** — the trees, with their monad structure.
* **`Reaches` / `Runs`** — the small steps of a program under an environment, and its finished runs.
* **`wp`** — weakest preconditions with an assertion on every operation a program performs.
* **`Prog.exec`** — the run under an environment that answers by a function. -/

namespace Effect

/-- **Programs** over operations `Op`, where `o : Op` is answered by a value of `Resp o`. -/
inductive Prog (Op : Type) (Resp : Op → Type) (α : Type) : Type
  | pure (a : α)
  | op (o : Op) (k : Resp o → Prog Op Resp α)

variable {Op : Type} {Resp : Op → Type} {α β γ σ : Type}

namespace Prog

/-- Sequential composition: continue with `f` where `p` ends. -/
def bind : Prog Op Resp α → (α → Prog Op Resp β) → Prog Op Resp β
  | .pure a, f => f a
  | .op o k, f => .op o fun r => (k r).bind f

/-- The program that performs one operation and returns the answer. -/
def perform (o : Op) : Prog Op Resp (Resp o) :=
  .op o .pure

instance : Monad (Prog Op Resp) where
  pure := .pure
  bind := bind

@[simp] theorem pure_bind' (a : α) (f : α → Prog Op Resp β) : (Prog.pure a >>= f) = f a := rfl

@[simp] theorem op_bind (o : Op) (k : Resp o → Prog Op Resp α) (f : α → Prog Op Resp β) :
    (Prog.op o k >>= f) = .op o fun r => k r >>= f := rfl

@[simp] theorem perform_bind (o : Op) (f : Resp o → Prog Op Resp β) :
    ((perform o : Prog Op Resp (Resp o)) >>= f) = .op o f := rfl

theorem pure_eq (a : α) : (Pure.pure a : Prog Op Resp α) = .pure a := rfl

/-- `p >>= pure = p`. -/
theorem bind_pure' (p : Prog Op Resp α) : (p >>= Prog.pure) = p := by
  induction p with
  | pure a => rfl
  | op o k ih =>
    rw [op_bind]
    congr 1
    funext r
    exact ih r

/-- Sequential composition is associative. -/
theorem bind_bind (p : Prog Op Resp α) (f : α → Prog Op Resp β) (g : β → Prog Op Resp γ) :
    (p >>= f >>= g) = p >>= fun a => f a >>= g := by
  induction p with
  | pure a => rfl
  | op o k ih =>
    simp only [op_bind]
    congr 1
    funext r
    exact ih r

instance : LawfulMonad (Prog Op Resp) :=
  LawfulMonad.mk' _ bind_pure' (fun _ _ => rfl) bind_bind

end Prog

/-! ### Runs under an environment -/

/-- **Environment.** `env o s r s'`: in state `s` the operation `o` may answer `r` and leave `s'`. -/
abbrev Env (Op : Type) (Resp : Op → Type) (σ : Type) : Type :=
  (o : Op) → σ → Resp o → σ → Prop

/-- One small step: perform the first operation of the program. -/
inductive Step (env : Env Op Resp σ) : Prog Op Resp α × σ → Prog Op Resp α × σ → Prop
  | op {o : Op} {k : Resp o → Prog Op Resp α} {s s' : σ} {r : Resp o} (h : env o s r s') :
      Step env (.op o k, s) (k r, s')

/-- `Reaches env c c'`: the configuration `c'` is met while running `c`. -/
def Reaches (env : Env Op Resp σ) : Prog Op Resp α × σ → Prog Op Resp α × σ → Prop :=
  Relation.ReflTransGen (Step env)

/-- `Runs env p s a s'`: from `s` the program `p` can end with `a` in state `s'`. -/
def Runs (env : Env Op Resp σ) (p : Prog Op Resp α) (s : σ) (a : α) (s' : σ) : Prop :=
  Reaches env (p, s) (.pure a, s')

theorem runs_pure (env : Env Op Resp σ) (a : α) (s : σ) : Runs env (.pure a) s a s :=
  Relation.ReflTransGen.refl

theorem runs_op {env : Env Op Resp σ} {o : Op} {k : Resp o → Prog Op Resp α} {s s' s'' : σ}
    {r : Resp o} {a : α} (h : env o s r s') (hk : Runs env (k r) s' a s'') :
    Runs env (.op o k) s a s'' :=
  Relation.ReflTransGen.head (.op h) hk

/-! ### Weakest preconditions -/

/-- **Weakest precondition.** `wp env P p Q s`: run from `s`, the program `p` meets `P o s'` before
every operation `o` it performs in a state `s'`, and `Q a s'` wherever it ends. -/
def wp (env : Env Op Resp σ) (P : Op → σ → Prop) :
    Prog Op Resp α → (α → σ → Prop) → σ → Prop
  | .pure a, Q, s => Q a s
  | .op o k, Q, s => P o s ∧ ∀ r s', env o s r s' → wp env P (k r) Q s'

section Rules

variable {env : Env Op Resp σ} {P P' : Op → σ → Prop} {s : σ}

@[simp] theorem wp_pure (a : α) (Q : α → σ → Prop) : wp env P (.pure a) Q s = Q a s := rfl

@[simp] theorem wp_op (o : Op) (k : Resp o → Prog Op Resp α) (Q : α → σ → Prop) :
    wp env P (.op o k) Q s = (P o s ∧ ∀ r s', env o s r s' → wp env P (k r) Q s') := rfl

/-- The rule of composition, as an equivalence. -/
theorem wp_bind (p : Prog Op Resp α) (f : α → Prog Op Resp β) (Q : β → σ → Prop) :
    wp env P (p >>= f) Q s ↔ wp env P p (fun a s' => wp env P (f a) Q s') s := by
  induction p generalizing s with
  | pure a => exact Iff.rfl
  | op o k ih =>
    simp only [Prog.op_bind, wp_op]
    exact and_congr_right' (forall_congr' fun r => forall_congr' fun s' => imp_congr_right fun _ =>
      ih r)

/-- The rule of composition where only the result is rewritten. -/
theorem wp_map (p : Prog Op Resp α) (f : α → β) (Q : β → σ → Prop) :
    wp env P (p >>= fun a => .pure (f a)) Q s ↔ wp env P p (fun a => Q (f a)) s := by
  rw [wp_bind]
  exact Iff.rfl

/-- The rule of consequence. -/
theorem wp_mono {p : Prog Op Resp α} {Q Q' : α → σ → Prop} (hP : ∀ o s, P o s → P' o s)
    (hQ : ∀ a s, Q a s → Q' a s) (h : wp env P p Q s) : wp env P' p Q' s := by
  induction p generalizing s with
  | pure a => exact hQ a s h
  | op o k ih => exact ⟨hP o s h.1, fun r s' he => ih r (h.2 r s' he)⟩

/-- The rule of consequence for the postcondition alone. -/
theorem wp_imp {p : Prog Op Resp α} {Q Q' : α → σ → Prop} (h : wp env P p Q s)
    (hQ : ∀ a s, Q a s → Q' a s) : wp env P p Q' s :=
  wp_mono (fun _ _ h => h) hQ h

/-- Two specifications of one program hold together. -/
theorem wp_and {p : Prog Op Resp α} {Q Q' : α → σ → Prop} (h : wp env P p Q s)
    (h' : wp env P' p Q' s) :
    wp env (fun o s => P o s ∧ P' o s) p (fun a s => Q a s ∧ Q' a s) s := by
  induction p generalizing s with
  | pure a => exact ⟨h, h'⟩
  | op o k ih => exact ⟨⟨h.1, h'.1⟩, fun r s' he => ih r (h.2 r s' he) (h'.2 r s' he)⟩

/-- A weakest precondition is an invariant of the small steps. -/
theorem wp_step {c c' : Prog Op Resp α × σ} {Q : α → σ → Prop} (h : wp env P c.1 Q c.2)
    (hs : Step env c c') : wp env P c'.1 Q c'.2 := by
  cases hs with
  | op he => exact h.2 _ _ he

/-- **Adequacy.** What is met along a run satisfies the rest of the specification. -/
theorem wp_reaches {p : Prog Op Resp α} {c : Prog Op Resp α × σ} {Q : α → σ → Prop}
    (h : wp env P p Q s) (hr : Reaches env (p, s) c) : wp env P c.1 Q c.2 := by
  induction hr with
  | refl => exact h
  | tail _ hs ih => exact wp_step ih hs

/-- A finished run satisfies the postcondition. -/
theorem wp_runs {p : Prog Op Resp α} {Q : α → σ → Prop} {a : α} {s' : σ} (h : wp env P p Q s)
    (hr : Runs env p s a s') : Q a s' :=
  wp_reaches h hr

/-- **Completeness.** What holds wherever the runs end is a specification. -/
theorem wp_of_runs {p : Prog Op Resp α} {Q : α → σ → Prop}
    (h : ∀ a s', Runs env p s a s' → Q a s') : wp env (fun _ _ => True) p Q s := by
  induction p generalizing s with
  | pure a => exact h a s (runs_pure env a s)
  | op o k ih =>
    exact ⟨trivial, fun r s' he => ih r fun a s'' hruns => h a s'' (runs_op he hruns)⟩

/-- Where every operation has an answer, a specification is met somewhere. -/
theorem exists_of_wp (htotal : ∀ o s, ∃ r s', env o s r s') {p : Prog Op Resp α}
    {Q : α → σ → Prop} (h : wp env P p Q s) : ∃ a s', Q a s' := by
  induction p generalizing s with
  | pure a => exact ⟨a, s, h⟩
  | op o k ih =>
    obtain ⟨r, s', he⟩ := htotal o s
    exact ih r (h.2 r s' he)

/-- A state assertion that holds before each operation and at the end holds in every state that a
run meets. -/
theorem wp_invariant {I : σ → Prop} {p : Prog Op Resp α} {c : Prog Op Resp α × σ}
    {Q : α → σ → Prop} (hP : ∀ o s, P o s → I s) (hQ : ∀ a s, Q a s → I s) (h : wp env P p Q s)
    (hr : Reaches env (p, s) c) : I c.2 := by
  have h' := wp_reaches h hr
  obtain ⟨p', s'⟩ := c
  cases p' with
  | pure a => exact hQ a s' h'
  | op o k => exact hP o s' h'.1

/-- Two moments of one run are related by every preorder that the operations respect. -/
theorem wp_related {R : σ → σ → Prop} (hrefl : ∀ s, R s s) (htrans : ∀ s t u, R s t → R t u → R s u)
    (hop : ∀ o s r s', P o s → env o s r s' → R s s') {p : Prog Op Resp α}
    {c : Prog Op Resp α × σ} {Q : α → σ → Prop} (h : wp env P p Q s)
    (hr : Reaches env (p, s) c) : R s c.2 := by
  induction hr with
  | refl => exact hrefl s
  | tail hr hs ih =>
    have h' := wp_reaches h hr
    cases hs with
    | op he => exact htrans _ _ _ ih (hop _ _ _ _ h'.1 he)

/-- What the operations do to the state since the beginning may be assumed throughout. -/
theorem wp_frame {R : σ → σ → Prop} (htrans : ∀ s t u, R s t → R t u → R s u)
    (hop : ∀ o s r s', P o s → env o s r s' → R s s') {p : Prog Op Resp α} {Q : α → σ → Prop}
    {s₀ : σ} (hstart : R s₀ s) (h : wp env P p Q s) :
    wp env (fun o s => P o s ∧ R s₀ s) p (fun a s => Q a s ∧ R s₀ s) s := by
  induction p generalizing s with
  | pure a => exact ⟨h, hstart⟩
  | op o k ih =>
    exact ⟨⟨h.1, hstart⟩, fun r s' he =>
      ih r (htrans _ _ _ hstart (hop o s r s' h.1 he)) (h.2 r s' he)⟩

/-- **The rule of views.** A specification over a view of the state holds over the state, where the
view of every operation is an operation on the view. -/
theorem wp_view {σ' : Type} {env' : Env Op Resp σ'} {view : σ → σ'}
    (hview : ∀ o s r s', env o s r s' → env' o (view s) r (view s')) {P : Op → σ' → Prop}
    {p : Prog Op Resp α} {Q : α → σ' → Prop} (h : wp env' P p Q (view s)) :
    wp env (fun o s => P o (view s)) p (fun a s => Q a (view s)) s := by
  induction p generalizing s with
  | pure a => exact h
  | op o k ih => exact ⟨h.1, fun r s' he => ih r (h.2 r (view s') (hview o s r s' he))⟩

/-- An environment with fewer answers satisfies the same specifications. -/
theorem wp_env_mono {env' : Env Op Resp σ} {p : Prog Op Resp α} {Q : α → σ → Prop}
    (henv : ∀ o s r s', env' o s r s' → env o s r s') (h : wp env P p Q s) :
    wp env' P p Q s := by
  induction p generalizing s with
  | pure a => exact h
  | op o k ih => exact ⟨h.1, fun r s' he => ih r (h.2 r s' (henv o s r s' he))⟩

end Rules

/-! ### Running under a function -/

/-- **Execution** under a function that answers every operation. -/
def Prog.exec (answer : (o : Op) → σ → Resp o × σ) : Prog Op Resp α → σ → α × σ
  | .pure a, s => (a, s)
  | .op o k, s => (k (answer o s).1).exec answer (answer o s).2

/-- The execution is a run of every environment that allows the function's answers. -/
theorem runs_exec {env : Env Op Resp σ} {answer : (o : Op) → σ → Resp o × σ}
    (h : ∀ o s, env o s (answer o s).1 (answer o s).2) (p : Prog Op Resp α) (s : σ) :
    Runs env p s (p.exec answer s).1 (p.exec answer s).2 := by
  induction p generalizing s with
  | pure a => exact runs_pure env a s
  | op o k ih => exact runs_op (h o s) (ih _ _)

end Effect
