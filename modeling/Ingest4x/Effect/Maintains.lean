import Ingest4x.Effect.Command

/-! # Commands that maintain an invariant

An invariant of the outside world that a command keeps with every one of its operations, so that it
also holds where the command is cut off. What maintains one is built from operations that keep it.

* **`Maintains`** — the invariant holds before every operation and at both exits.
* **`Maintains.bind`**, **`Maintains.perform`** — a rule for each way a command is built.
* **`Maintains.of_reaches`** — whatever becomes of the command, the invariant holds. -/

namespace Effect

variable {Op : Type} {Resp : Op → Type} {τ ε ε' α β σ : Type}

/-- **A command maintains an invariant** of the outside world, whatever it is answered. -/
def Maintains (env : Env Op Resp σ) (I : σ → Prop) (c : Cmd Op Resp τ ε α) : Prop :=
  ∀ t s, I s → wpc env (fun _ => I) c (fun _ _ => I) (fun _ _ => I) t s

variable {env : Env Op Resp σ} {I : σ → Prop}

namespace Maintains

theorem pure (a : α) : Maintains env I (Pure.pure a : Cmd Op Resp τ ε α) :=
  fun _ _ hs => hs

theorem throw (e : ε) : Maintains env I (MonadExcept.throw e : Cmd Op Resp τ ε α) :=
  fun _ _ hs => hs

theorem ofExcept (r : Except ε α) :
    Maintains env I (MonadExcept.ofExcept r : Cmd Op Resp τ ε α) := by
  intro t s hs
  rw [wpc_ofExcept]
  exact ⟨fun _ _ => hs, fun _ _ => hs⟩

theorem bind {c : Cmd Op Resp τ ε β} {f : β → Cmd Op Resp τ ε α} (h : Maintains env I c)
    (hf : ∀ b, Maintains env I (f b)) : Maintains env I (c >>= f) := by
  intro t s hs
  rw [wpc_bind]
  exact wpc_imp (h t s hs) (fun b t' s' hs' => hf b t' s' hs') fun _ _ _ hs' => hs'

/-! ### The local state -/

theorem get : Maintains env I (MonadState.get : Cmd Op Resp τ ε τ) :=
  fun _ _ hs => hs

theorem set (t' : τ) : Maintains env I (MonadStateOf.set t' : Cmd Op Resp τ ε PUnit) :=
  fun _ _ hs => hs

theorem modifyLocal (f : τ → τ) : Maintains env I (modify f : Cmd Op Resp τ ε PUnit) :=
  fun _ _ hs => hs

/-! ### Operations and errors -/

/-- An operation maintains what it keeps under every answer. -/
theorem perform {o : Op} (h : ∀ s r s', I s → env o s r s' → I s') :
    Maintains env I (Cmd.perform o : Cmd Op Resp τ ε (Resp o)) :=
  fun _ s hs => ⟨hs, fun r s' he => h s r s' hs he⟩

theorem orThrow {c : Cmd Op Resp τ ε (Except ε α)} (h : Maintains env I c) :
    Maintains env I c.orThrow :=
  h.bind fun r => ofExcept r

theorem mapError {f : ε → ε'} {c : Cmd Op Resp τ ε α} (h : Maintains env I c) :
    Maintains env I (c.mapError f) := by
  intro t s hs
  rw [wpc_mapError]
  exact h t s hs

theorem attempt {c : Cmd Op Resp τ ε α} (h : Maintains env I c) :
    Maintains env I (c.attempt : Cmd Op Resp τ ε' _) := by
  intro t s hs
  rw [wpc_attempt]
  exact h t s hs

/-! ### Branches and loops -/

theorem ite {p : Prop} [Decidable p] {c c' : Cmd Op Resp τ ε α} (h : Maintains env I c)
    (h' : Maintains env I c') : Maintains env I (if p then c else c') := by
  intro t s hs
  rw [wpc_ite]
  exact ⟨fun _ => h t s hs, fun _ => h' t s hs⟩

theorem forEach {body : β → Cmd Op Resp τ ε Unit} (h : ∀ b, Maintains env I (body b))
    (bs : List β) : Maintains env I (Cmd.forEach body bs) := by
  induction bs with
  | nil => exact pure ()
  | cons b bs ih => exact (h b).bind fun _ => ih

/-! ### Adequacy -/

/-- **Whatever becomes of a command**, what it maintains holds. -/
theorem of_reaches {c : Cmd Op Resp τ ε α} (h : Maintains env I c) {t : τ} {s : σ} (hs : I s)
    {d : Prog Op Resp (Except ε α × τ) × σ} (hreach : Reaches env (c.start t, s) d) : I d.2 := by
  refine wp_invariant (P := fun _ => I) (fun _ _ h => h) (fun r s' hexit => ?_) (h t s hs) hreach
  obtain ⟨a | e, t'⟩ := r <;> exact hexit

end Maintains

end Effect
