import Ingest4x.Effect.Program

/-! # Commands: programs with a local state and an error exit

A command is a program that also owns a local state and may stop early with an error; it is how a
function that takes `&mut` arguments and returns a `Result` reads as a program. The local state
survives an error exit, so what such a function did to its arguments before it failed is kept.

* **`Cmd`** — commands, a stack of Lean's own transformers over `Prog`.
* **`wpc`** — weakest preconditions with one postcondition for each exit, and a rule for each way a
  command is built.
* **`Cmd.forEach`** — a loop over a list, with its invariant rule.
* **`Keeps`** — a command keeps an invariant, with a rule for each way it is built. -/

namespace Effect

/-- **Commands** with local state `τ` and errors `ε`. -/
abbrev Cmd (Op : Type) (Resp : Op → Type) (τ ε : Type) : Type → Type :=
  ExceptT ε (StateT τ (Prog Op Resp))

variable {Op : Type} {Resp : Op → Type} {τ τ' ε ε' α β σ : Type}

namespace Cmd

/-- Perform one operation and return its answer. -/
def perform (o : Op) : Cmd Op Resp τ ε (Resp o) :=
  ExceptT.lift (StateT.lift (Prog.perform o))

/-- Stop with the error of a command that answers with a result. -/
def orThrow (c : Cmd Op Resp τ ε (Except ε α)) : Cmd Op Resp τ ε α :=
  c >>= MonadExcept.ofExcept

/-- The program behind a command: start with local state `t`. -/
def start (c : Cmd Op Resp τ ε α) (t : τ) : Prog Op Resp (Except ε α × τ) :=
  c t

/-- Run a command with other errors: `f` translates them. -/
def mapError (f : ε → ε') (c : Cmd Op Resp τ ε α) : Cmd Op Resp τ ε' α :=
  fun t => c.start t >>= fun r => .pure (r.1.mapError f, r.2)

/-- Run a command to its result, so that its error can be looked at. -/
def attempt (c : Cmd Op Resp τ ε α) : Cmd Op Resp τ ε' (Except ε α) :=
  fun t => c.start t >>= fun r => .pure (.ok r.1, r.2)

/-- Run a command on a part of the local state. -/
def focus (get : τ' → τ) (put : τ → τ' → τ') (c : Cmd Op Resp τ ε α) : Cmd Op Resp τ' ε α :=
  fun t => c.start (get t) >>= fun r => .pure (r.1, put r.2 t)

/-- Run `body` on each element of a list, in order, until one fails. -/
def forEach (body : β → Cmd Op Resp τ ε Unit) : List β → Cmd Op Resp τ ε Unit
  | [] => pure ()
  | b :: bs => body b >>= fun _ => forEach body bs

@[simp] theorem forEach_nil (body : β → Cmd Op Resp τ ε Unit) : forEach body [] = pure () := rfl

@[simp] theorem forEach_cons (body : β → Cmd Op Resp τ ε Unit) (b : β) (bs : List β) :
    forEach body (b :: bs) = body b >>= fun _ => forEach body bs := rfl

/-- A loop over two lists is the two loops in sequence. -/
theorem forEach_append (body : β → Cmd Op Resp τ ε Unit) (bs bs' : List β) :
    forEach body (bs ++ bs') = forEach body bs >>= fun _ => forEach body bs' := by
  induction bs with
  | nil => rw [List.nil_append, forEach_nil, pure_bind]
  | cons b bs ih =>
    rw [List.cons_append, forEach_cons, forEach_cons, bind_assoc]
    congr 1
    funext _
    exact ih

end Cmd

/-! ### Weakest preconditions of commands -/

/-- One postcondition from two: `Q` for a value, `E` for an error. -/
def Exits (Q : α → τ → σ → Prop) (E : ε → τ → σ → Prop) : Except ε α × τ → σ → Prop
  | (.ok a, t), s => Q a t s
  | (.error e, t), s => E e t s

/-- **Weakest precondition of a command**: `Q` where it ends with a value, `E` where it ends with an
error, `P` before each of its operations. -/
def wpc (env : Env Op Resp σ) (P : Op → σ → Prop) (c : Cmd Op Resp τ ε α)
    (Q : α → τ → σ → Prop) (E : ε → τ → σ → Prop) (t : τ) (s : σ) : Prop :=
  wp env P (c.start t) (Exits Q E) s

section Rules

variable {env : Env Op Resp σ} {P P' : Op → σ → Prop} {t : τ} {s : σ}
  {Q Q' : α → τ → σ → Prop} {E E' : ε → τ → σ → Prop}

@[simp] theorem wpc_pure (a : α) : wpc env P (pure a : Cmd Op Resp τ ε α) Q E t s = Q a t s := rfl

@[simp] theorem wpc_throw (e : ε) : wpc env P (throw e : Cmd Op Resp τ ε α) Q E t s = E e t s := rfl

@[simp] theorem wpc_get (R : τ → τ → σ → Prop) :
    wpc env P (get : Cmd Op Resp τ ε τ) R E t s = R t t s := rfl

@[simp] theorem wpc_set (t' : τ) (R : PUnit → τ → σ → Prop) :
    wpc env P (set t' : Cmd Op Resp τ ε PUnit) R E t s = R ⟨⟩ t' s := rfl

@[simp] theorem wpc_modify (f : τ → τ) (R : PUnit → τ → σ → Prop) :
    wpc env P (modify f : Cmd Op Resp τ ε PUnit) R E t s = R ⟨⟩ (f t) s := rfl

@[simp] theorem wpc_perform (o : Op) (R : Resp o → τ → σ → Prop) :
    wpc env P (Cmd.perform o : Cmd Op Resp τ ε (Resp o)) R E t s =
      (P o s ∧ ∀ r s', env o s r s' → R r t s') := rfl

/-- The rule of composition. -/
@[simp] theorem wpc_bind (c : Cmd Op Resp τ ε β) (f : β → Cmd Op Resp τ ε α) :
    wpc env P (c >>= f) Q E t s =
      wpc env P c (fun b t' s' => wpc env P (f b) Q E t' s') E t s := by
  unfold wpc Cmd.start
  refine (propext (wp_bind (c t) _ _)).trans (congrFun (congrArg (wp env P (c t)) ?_) s)
  funext r s'
  obtain ⟨b | e, t'⟩ := r <;> rfl

@[simp] theorem wpc_ofExcept_ok (a : α) :
    wpc env P (MonadExcept.ofExcept (.ok a) : Cmd Op Resp τ ε α) Q E t s = Q a t s := rfl

@[simp] theorem wpc_ofExcept_error (e : ε) :
    wpc env P (MonadExcept.ofExcept (.error e) : Cmd Op Resp τ ε α) Q E t s = E e t s := rfl

/-- A result is taken apart by its two forms. -/
theorem wpc_ofExcept (r : Except ε α) :
    wpc env P (MonadExcept.ofExcept r : Cmd Op Resp τ ε α) Q E t s =
      ((∀ a, r = .ok a → Q a t s) ∧ ∀ e, r = .error e → E e t s) := by
  cases r <;> simp

/-- The rule of `orThrow`. -/
@[simp] theorem wpc_orThrow (c : Cmd Op Resp τ ε (Except ε α)) :
    wpc env P c.orThrow Q E t s =
      wpc env P c (fun r t' s' => (∀ a, r = .ok a → Q a t' s') ∧ ∀ e, r = .error e → E e t' s')
        E t s := by
  simp only [Cmd.orThrow, wpc_bind, wpc_ofExcept]

/-- The rule of conditionals. -/
theorem wpc_ite (p : Prop) [Decidable p] (c c' : Cmd Op Resp τ ε α) :
    wpc env P (if p then c else c') Q E t s =
      ((p → wpc env P c Q E t s) ∧ (¬p → wpc env P c' Q E t s)) := by
  by_cases hp : p <;> simp [hp]

@[simp] theorem wpc_mapError (f : ε → ε') (c : Cmd Op Resp τ ε α) (E : ε' → τ → σ → Prop) :
    wpc env P (c.mapError f) Q E t s = wpc env P c Q (fun e => E (f e)) t s := by
  refine (propext (wp_map (c t) _ _)).trans (congrFun (congrArg (wp env P (c t)) ?_) s)
  funext r s'
  obtain ⟨a | e, t'⟩ := r <;> rfl

@[simp] theorem wpc_attempt (c : Cmd Op Resp τ ε α) (R : Except ε α → τ → σ → Prop)
    (E : ε' → τ → σ → Prop) :
    wpc env P (c.attempt : Cmd Op Resp τ ε' _) R E t s =
      wpc env P c (fun a => R (.ok a)) (fun e => R (.error e)) t s := by
  refine (propext (wp_map (c t) _ _)).trans (congrFun (congrArg (wp env P (c t)) ?_) s)
  funext r s'
  obtain ⟨a | e, t'⟩ := r <;> rfl

@[simp] theorem wpc_focus (get : τ' → τ) (put : τ → τ' → τ') (c : Cmd Op Resp τ ε α) (u : τ')
    (Q : α → τ' → σ → Prop) (E : ε → τ' → σ → Prop) :
    wpc env P (c.focus get put) Q E u s =
      wpc env P c (fun a t' => Q a (put t' u)) (fun e t' => E e (put t' u)) (get u) s := by
  refine (propext (wp_map (c (get u)) _ _)).trans
    (congrFun (congrArg (wp env P (c (get u))) ?_) s)
  funext r s'
  obtain ⟨a | e, t'⟩ := r <;> rfl

/-- The rule of consequence. -/
theorem wpc_mono {c : Cmd Op Resp τ ε α} (h : wpc env P c Q E t s) (hP : ∀ o s, P o s → P' o s)
    (hQ : ∀ a t s, Q a t s → Q' a t s) (hE : ∀ e t s, E e t s → E' e t s) :
    wpc env P' c Q' E' t s := by
  refine wp_mono hP (fun r s' => ?_) h
  obtain ⟨a | e, t'⟩ := r
  · exact hE a t' s'
  · exact hQ e t' s'

/-- The rule of consequence for the two postconditions. -/
theorem wpc_imp {c : Cmd Op Resp τ ε α} (h : wpc env P c Q E t s)
    (hQ : ∀ a t s, Q a t s → Q' a t s) (hE : ∀ e t s, E e t s → E' e t s) :
    wpc env P c Q' E' t s :=
  wpc_mono h (fun _ _ h => h) hQ hE

/-- Two specifications of one command hold together. -/
theorem wpc_and {c : Cmd Op Resp τ ε α} (h : wpc env P c Q E t s) (h' : wpc env P' c Q' E' t s) :
    wpc env P c (fun a t s => Q a t s ∧ Q' a t s) (fun e t s => E e t s ∧ E' e t s) t s := by
  refine wp_mono (fun _ _ h => h.1) (fun r s' hr => ?_) (wp_and h h')
  obtain ⟨a | e, t'⟩ := r <;> exact hr

/-- What the operations do to the state since the beginning may be assumed throughout. -/
theorem wpc_frame {R : σ → σ → Prop} (htrans : ∀ s t u, R s t → R t u → R s u)
    (hop : ∀ o s r s', P o s → env o s r s' → R s s') {c : Cmd Op Resp τ ε α} {s₀ : σ}
    (hstart : R s₀ s) (h : wpc env P c Q E t s) :
    wpc env (fun o s => P o s ∧ R s₀ s) c (fun a t s => Q a t s ∧ R s₀ s)
      (fun e t s => E e t s ∧ R s₀ s) t s := by
  refine wp_imp (wp_frame htrans hop hstart h) fun r s' hr => ?_
  obtain ⟨a | e, t'⟩ := r <;> exact hr

/-- The rule of views. -/
theorem wpc_view {σ' : Type} {env' : Env Op Resp σ'} {view : σ → σ'}
    (hview : ∀ o s r s', env o s r s' → env' o (view s) r (view s')) {P : Op → σ' → Prop}
    {c : Cmd Op Resp τ ε α} {Q : α → τ → σ' → Prop} {E : ε → τ → σ' → Prop}
    (h : wpc env' P c Q E t (view s)) :
    wpc env (fun o s => P o (view s)) c (fun a t s => Q a t (view s)) (fun e t s => E e t (view s))
      t s := by
  refine wp_imp (wp_view hview h) fun r s' hr => ?_
  obtain ⟨a | e, t'⟩ := r <;> exact hr

/-- The rule of loops: `Inv done` holds after the elements `done`, and the body carries it over one
more element. -/
theorem wpc_forEach {body : β → Cmd Op Resp τ ε Unit} {E : ε → τ → σ → Prop}
    (Inv : List β → τ → σ → Prop) (bs : List β)
    (hbody : ∀ pre b post t s, bs = pre ++ b :: post → Inv pre t s →
      wpc env P (body b) (fun _ t' s' => Inv (pre ++ [b]) t' s') E t s)
    (h : Inv [] t s) : wpc env P (Cmd.forEach body bs) (fun _ => Inv bs) E t s := by
  suffices H : ∀ post pre t s, bs = pre ++ post → Inv pre t s →
      wpc env P (Cmd.forEach body post) (fun _ => Inv bs) E t s from H bs [] t s rfl h
  intro post
  induction post with
  | nil =>
    intro pre t s hbs hpre
    rw [Cmd.forEach_nil, wpc_pure, hbs, List.append_nil]
    exact hpre
  | cons b post ih =>
    intro pre t s hbs hpre
    rw [Cmd.forEach_cons, wpc_bind]
    refine wpc_imp (hbody pre b post t s hbs hpre) (fun _ t' s' h' => ?_) fun _ _ _ h => h
    exact ih (pre ++ [b]) t' s' (by rw [hbs, List.append_assoc, List.singleton_append]) h'

end Rules

/-! ### Keeping an invariant -/

/-- **A command keeps an invariant**, whatever it is answered; at an error exit `E` holds. -/
def Keeps (env : Env Op Resp σ) (I : τ → σ → Prop) (E : ε → τ → σ → Prop)
    (c : Cmd Op Resp τ ε α) : Prop :=
  ∀ t s, I t s → wpc env (fun _ _ => True) c (fun _ => I) E t s

section Keeps

variable {env : Env Op Resp σ} {I : τ → σ → Prop} {E : ε → τ → σ → Prop}

theorem Keeps.pure (a : α) : Keeps env I E (Pure.pure a : Cmd Op Resp τ ε α) :=
  fun _ _ h => h

theorem Keeps.bind {c : Cmd Op Resp τ ε β} {f : β → Cmd Op Resp τ ε α} (h : Keeps env I E c)
    (hf : ∀ b, Keeps env I E (f b)) : Keeps env I E (c >>= f) := by
  intro t s hs
  rw [wpc_bind]
  exact wpc_imp (h t s hs) (fun b t' s' hs' => hf b t' s' hs') fun _ _ _ h => h

theorem Keeps.forEach {body : β → Cmd Op Resp τ ε Unit} (h : ∀ b, Keeps env I E (body b))
    (bs : List β) : Keeps env I E (Cmd.forEach body bs) := by
  induction bs with
  | nil => exact Keeps.pure ()
  | cons b bs ih => exact (h b).bind fun _ => ih

/-- The local state may be read. -/
theorem Keeps.get_bind {f : τ → Cmd Op Resp τ ε α} (h : ∀ t, Keeps env I E (f t)) :
    Keeps env I E (get >>= f) := by
  intro t s hs
  rw [wpc_bind, wpc_get]
  exact h t t s hs

theorem Keeps.perform {o : Op} (h : ∀ t s r s', I t s → env o s r s' → I t s') :
    Keeps env I E (Cmd.perform o : Cmd Op Resp τ ε (Resp o)) :=
  fun t s hs => ⟨trivial, fun r s' he => h t s r s' hs he⟩

theorem Keeps.ofExcept (r : Except ε α) (h : ∀ e t s, I t s → E e t s) :
    Keeps env I E (MonadExcept.ofExcept r : Cmd Op Resp τ ε α) := by
  intro t s hs
  rw [wpc_ofExcept]
  exact ⟨fun _ _ => hs, fun e _ => h e t s hs⟩

theorem Keeps.orThrow {c : Cmd Op Resp τ ε (Except ε α)} (hc : Keeps env I E c)
    (h : ∀ e t s, I t s → E e t s) : Keeps env I E c.orThrow :=
  hc.bind fun r => Keeps.ofExcept r h

theorem Keeps.mapError {f : ε → ε'} {c : Cmd Op Resp τ ε α} {E : ε' → τ → σ → Prop}
    (h : Keeps env I (fun e => E (f e)) c) : Keeps env I E (c.mapError f) := by
  intro t s hs
  rw [wpc_mapError]
  exact h t s hs

theorem Keeps.ite {p : Prop} [Decidable p] {c c' : Cmd Op Resp τ ε α} (h : p → Keeps env I E c)
    (h' : ¬p → Keeps env I E c') : Keeps env I E (if p then c else c') := by
  split
  · exact h ‹_›
  · exact h' ‹_›

end Keeps

end Effect
