import Ingest4x.Effect.Program
import Mathlib.Data.List.Basic

/-! # Programs side by side

Several programs run on one state, one operation of one of them at a time. Each has a key that says
which part of the state it works on; what it sees of the state is a *view*, and the programs of keys
that are apart do not change each other's views. A specification over the view of a program then holds
of it whatever the others do.

* **`Parts`** — the views of the keys and what the programs of a key may do.
* **`Task`**, **`PoolStep`** — the running programs, and a step of one of them.
* **`Parts.Meets`** — every task meets the specification of its key, with `Meets.step`. -/

namespace Effect

variable {κ Op σ V α : Type} {Resp : Op → Type}

/-- **The parts of a state**: the view of each key, and the operations that are its own. Own operations
of one key do not change the view of a key that is apart from it. -/
structure Parts (κ : Type) {Op : Type} {Resp : Op → Type} (env : Env Op Resp σ) (V : Type) where
  view : κ → σ → V
  own : κ → Op → Prop
  apart : κ → κ → Prop
  symm : ∀ k k', apart k k' → apart k' k
  frame : ∀ k k' o s r s', apart k k' → own k o → env o s r s' → view k' s' = view k' s

/-- **A running program** with its key. -/
structure Task (κ : Type) (Op : Type) (Resp : Op → Type) (α : Type) where
  key : κ
  program : Prog Op Resp α

/-- **One step of the pool**: one of the tasks performs one operation. -/
inductive PoolStep (env : Env Op Resp σ) :
    List (Task κ Op Resp α) × σ → List (Task κ Op Resp α) × σ → Prop
  | run {front back : List (Task κ Op Resp α)} {k : κ} {program program' : Prog Op Resp α} {s s' : σ}
      (h : Step env (program, s) (program', s')) :
      PoolStep env (front ++ ⟨k, program⟩ :: back, s) (front ++ ⟨k, program'⟩ :: back, s')

/-- The tasks keep their keys. -/
theorem PoolStep.keys {env : Env Op Resp σ} {tasks tasks' : List (Task κ Op Resp α)} {s s' : σ}
    (h : PoolStep env (tasks, s) (tasks', s')) : tasks'.map Task.key = tasks.map Task.key := by
  cases h with
  | run _ => simp

namespace Parts

variable {env : Env Op Resp σ} {parts : Parts κ env V} {P : κ → Op → V → Prop} {Q : κ → α → V → Prop}
  {tasks tasks' : List (Task κ Op Resp α)} {s s' : σ}

/-- What the operations do to a view. -/
def viewEnv (parts : Parts κ env V) (k : κ) : Env Op Resp V := fun o v r v' =>
  ∃ s s', env o s r s' ∧ parts.view k s = v ∧ parts.view k s' = v'

/-- **A task meets the specification of its key**, with its own operations only. -/
def Meets (parts : Parts κ env V) (P : κ → Op → V → Prop) (Q : κ → α → V → Prop)
    (task : Task κ Op Resp α) (s : σ) : Prop :=
  wp (parts.viewEnv task.key) (fun o v => parts.own task.key o ∧ P task.key o v) task.program
    (Q task.key) (parts.view task.key s)

/-- **All tasks meet their specifications**, and no two of them work on one part. -/
structure AllMeet (parts : Parts κ env V) (P : κ → Op → V → Prop) (Q : κ → α → V → Prop)
    (tasks : List (Task κ Op Resp α)) (s : σ) : Prop where
  apart : tasks.Pairwise fun task task' => parts.apart task.key task'.key
  meets : ∀ task ∈ tasks, parts.Meets P Q task s

/-- What a task sees of its own step. -/
theorem Meets.own_step {k : κ} {program program' : Prog Op Resp α}
    (h : parts.Meets P Q ⟨k, program⟩ s) (hstep : Step env (program, s) (program', s')) :
    parts.Meets P Q ⟨k, program'⟩ s' ∧
      ∃ o r, parts.own k o ∧ P k o (parts.view k s) ∧ env o s r s' := by
  cases hstep with
  | @op o next _ _ r henv =>
    obtain ⟨⟨hown, hP⟩, hrest⟩ := h
    exact ⟨hrest r _ ⟨s, s', henv, rfl, rfl⟩, o, r, hown, hP, henv⟩

/-- A task whose view stays as it is meets its specification still. -/
theorem Meets.congr {task : Task κ Op Resp α} (h : parts.Meets P Q task s)
    (hview : parts.view task.key s' = parts.view task.key s) : parts.Meets P Q task s' := by
  unfold Meets
  rw [hview]
  exact h

/-- **A step of the pool** is an operation of its own of one task, and all tasks meet their
specifications behind it. -/
theorem AllMeet.step (h : parts.AllMeet P Q tasks s) (hstep : PoolStep env (tasks, s) (tasks', s')) :
    parts.AllMeet P Q tasks' s' ∧ ∃ task ∈ tasks, ∃ o r, parts.own task.key o ∧
      P task.key o (parts.view task.key s) ∧ env o s r s' := by
  cases hstep with
  | @run front back k program program' _ _ hrun =>
    obtain ⟨hmeets, o, r, hown, hP, henv⟩ :=
      (h.meets ⟨k, program⟩ (by simp)).own_step hrun
    obtain ⟨hfront, hback, hcross⟩ := List.pairwise_append.mp h.apart
    obtain ⟨hhead, hback⟩ := List.pairwise_cons.mp hback
    refine ⟨⟨List.pairwise_append.mpr ⟨hfront, List.pairwise_cons.mpr ⟨hhead, hback⟩, ?_⟩, ?_⟩,
      ⟨k, program⟩, by simp, o, r, hown, hP, henv⟩
    · intro task htask task' htask'
      rcases List.mem_cons.mp htask' with rfl | htask'
      · exact hcross task htask ⟨k, program⟩ List.mem_cons_self
      · exact hcross task htask task' (List.mem_cons_of_mem _ htask')
    · intro task htask
      rcases List.mem_append.mp htask with htask | htask
      · have hapart := parts.symm _ _ (hcross task htask _ List.mem_cons_self)
        exact (h.meets task (List.mem_append_left _ htask)).congr
          (parts.frame k task.key o s r s' hapart hown henv)
      · rcases List.mem_cons.mp htask with rfl | htask
        · exact hmeets
        · exact (h.meets task (by simp [htask])).congr
            (parts.frame k task.key o s r s' (hhead task htask) hown henv)

/-- A task that is gone is no obstacle. -/
theorem AllMeet.sublist (h : parts.AllMeet P Q tasks s) (hsub : tasks'.Sublist tasks) :
    parts.AllMeet P Q tasks' s :=
  ⟨h.apart.sublist hsub, fun task htask => h.meets task (hsub.subset htask)⟩

/-- Another task may begin, apart from those that run. -/
theorem AllMeet.cons (h : parts.AllMeet P Q tasks s) {task : Task κ Op Resp α}
    (hmeets : parts.Meets P Q task s) (hapart : ∀ task' ∈ tasks, parts.apart task.key task'.key) :
    parts.AllMeet P Q (task :: tasks) s := by
  refine ⟨List.pairwise_cons.mpr ⟨hapart, h.apart⟩, ?_⟩
  rintro task' (_ | ⟨_, htask'⟩)
  · exact hmeets
  · exact h.meets task' htask'

/-- A task that has ended has its postcondition. -/
theorem AllMeet.ended (h : parts.AllMeet P Q tasks s) {k : κ} {a : α}
    (htask : ⟨k, .pure a⟩ ∈ tasks) : Q k a (parts.view k s) :=
  h.meets _ htask

end Parts

end Effect
