import Ingest4x.Effect.Command

/-! # Programs among others

Between two operations of a program others may change the state, as far as a relation lets them.

* **`among`** — the environment of a program in which they do so before every operation.
* **`wp_rely`**, **`wp_among_step`** — a specification among others is an invariant of the whole: it
  outlasts what the others do and what the program does.
* **`wpc_carry`** — an invariant of the state, carried along a specification. -/

namespace Effect

variable {Op : Type} {Resp : Op → Type} {τ ε α σ : Type}

/-- **The environment among others**: before an operation, they may change the state by `rely`. -/
def among (rely : σ → σ → Prop) (env : Env Op Resp σ) : Env Op Resp σ :=
  fun o s r s' => ∃ s₁, rely s s₁ ∧ env o s₁ r s'

variable {rely : σ → σ → Prop} {env : Env Op Resp σ} {P : Op → σ → Prop} {s s' : σ}

/-- **What the others do** leaves a specification whose assertions they respect. -/
theorem wp_rely (htrans : ∀ s t u, rely s t → rely t u → rely s u)
    (hP : ∀ o s s', P o s → rely s s' → P o s') {p : Prog Op Resp α} {Q : α → σ → Prop}
    (hQ : ∀ a s s', Q a s → rely s s' → Q a s') (h : wp (among rely env) P p Q s)
    (hrely : rely s s') : wp (among rely env) P p Q s' := by
  cases p with
  | pure a => exact hQ a s s' h hrely
  | op o k =>
    refine ⟨hP o s s' h.1 hrely, ?_⟩
    rintro r s'' ⟨s₁, hrely', he⟩
    exact h.2 r s'' ⟨s₁, htrans s s' s₁ hrely hrely', he⟩

/-- **What the program does** leaves the rest of its specification. -/
theorem wp_among_step (hrefl : ∀ s, rely s s) {c c' : Prog Op Resp α × σ} {Q : α → σ → Prop}
    (h : wp (among rely env) P c.1 Q c.2) (hs : Step env c c') :
    wp (among rely env) P c'.1 Q c'.2 := by
  cases hs with
  | op he => exact h.2 _ _ ⟨_, hrefl _, he⟩

/-- **An invariant of the state** is carried along a specification, where every operation keeps it. The
operation may use what the specification says before it and, by `K`, after it. -/
theorem wp_carry {J K : σ → Prop} (hP : ∀ o s, P o s → K s) {p : Prog Op Resp α}
    {Q : α → σ → Prop} (hQ : ∀ a s, Q a s → K s)
    (hop : ∀ o s r s', P o s → J s → env o s r s' → K s' → J s') (h : wp env P p Q s) (hJ : J s) :
    wp env (fun o s => P o s ∧ J s) p (fun a s => Q a s ∧ J s) s := by
  induction p generalizing s with
  | pure a => exact ⟨h, hJ⟩
  | op o k ih =>
    refine ⟨⟨h.1, hJ⟩, fun r s' he => ?_⟩
    have hrest := h.2 r s' he
    -- what follows says what holds after the operation
    have hK : K s' := by
      cases hk : k r with
      | pure a =>
        rw [hk] at hrest
        exact hQ a s' hrest
      | op o' k' =>
        rw [hk] at hrest
        exact hP o' s' hrest.1
    exact ih r hrest (hop o s r s' h.1 hJ he hK)

/-- Two specifications of one command hold together, with both their assertions. -/
theorem wpc_both {P' : Op → σ → Prop} {c : Cmd Op Resp τ ε α} {t : τ} {Q Q' : α → τ → σ → Prop}
    {E E' : ε → τ → σ → Prop} (h : wpc env P c Q E t s) (h' : wpc env P' c Q' E' t s) :
    wpc env (fun o s => P o s ∧ P' o s) c (fun a t s => Q a t s ∧ Q' a t s)
      (fun e t s => E e t s ∧ E' e t s) t s := by
  refine wp_imp (wp_and h h') ?_
  rintro ⟨a | e, t⟩ s hexit <;> exact hexit

theorem wpc_carry {J K : σ → Prop} (hP : ∀ o s, P o s → K s) {c : Cmd Op Resp τ ε α} {t : τ}
    {Q : α → τ → σ → Prop} {E : ε → τ → σ → Prop} (hQ : ∀ a t s, Q a t s → K s)
    (hE : ∀ e t s, E e t s → K s)
    (hop : ∀ o s r s', P o s → J s → env o s r s' → K s' → J s') (h : wpc env P c Q E t s)
    (hJ : J s) :
    wpc env (fun o s => P o s ∧ J s) c (fun a t s => Q a t s ∧ J s) (fun e t s => E e t s ∧ J s)
      t s := by
  refine wp_imp (wp_carry hP ?_ hop h hJ) ?_
  · rintro ⟨a | e, t⟩ s hexit
    · exact hE a t s hexit
    · exact hQ e t s hexit
  · rintro ⟨a | e, t⟩ s hexit <;> exact hexit

end Effect
