import Ingest4x.Effect.Program
import Mathlib.Logic.Function.Basic

/-! # An object store

Whole files under paths. An operation that fails may have done its work or nothing of it; a write that
fails may also have left a torn object, unless the store writes atomically. To fail is also what becomes
of the operation in which a process dies.

* **`Object`**, **`Objects`** — what is stored.
* **`StoreOp`**, **`storeEnv`** — the operations, and what each of them may do.
* **`storeAnswer`** — a store in which nothing fails. -/

namespace Storage

open Effect Function

/-- **An object**: a whole file, or what a write that was cut off has left. -/
inductive Object (F : Type)
  | whole (file : F)
  | torn

/-- The objects of a store by their paths. -/
abbrev Objects (F : Type) : Type := String → Option (Object F)

/-- Why an operation failed. -/
inductive ErrorKind
  | conditionNotMatch
  | other
  deriving DecidableEq

/-- The error of an operation. -/
structure StoreError where
  kind : ErrorKind
  message : String

/-- What a store can do. -/
structure Capability where
  rename : Bool
  writeWithIfNotExists : Bool

/-- **A kind of store**: what it can do, and whether it writes objects atomically. -/
structure Service where
  capability : Capability
  atomicWrites : Bool

/-- **The operations** on files of type `F`. -/
inductive StoreOp (F : Type)
  | createDir (path : String)
  | exists (path : String)
  | write (path : String) (file : F)
  | writeIfNotExists (path : String) (file : F)
  | rename (source target : String)
  | delete (path : String)

/-- The answers to the operations. -/
abbrev StoreResp {F : Type} : StoreOp F → Type
  | .exists _ => Except StoreError Bool
  | _ => Except StoreError Unit

variable {F : Type}

namespace Objects

/-- The store with another object under a path. -/
def put (objects : Objects F) (path : String) (object : Object F) : Objects F :=
  update objects path (some object)

/-- The store without the object of a path. -/
def erase (objects : Objects F) (path : String) : Objects F := update objects path none

/-- The store with an object under another path. -/
def move (objects : Objects F) (source target : String) : Objects F :=
  update (objects.erase source) target (objects source)

variable {objects : Objects F} {path path' : String} {object : Object F}

@[simp] theorem put_same : objects.put path object path = some object := update_self ..

@[simp] theorem put_ne (h : path' ≠ path) : objects.put path object path' = objects path' :=
  update_of_ne h ..

@[simp] theorem erase_same : objects.erase path path = none := update_self ..

@[simp] theorem erase_ne (h : path' ≠ path) : objects.erase path path' = objects path' :=
  update_of_ne h ..

@[simp] theorem move_target {source target : String} :
    objects.move source target target = objects source := update_self ..

@[simp] theorem move_source {source target : String} (h : source ≠ target) :
    objects.move source target source = none := by
  rw [move, update_of_ne h, erase_same]

@[simp] theorem move_ne {source target : String} (hsource : path ≠ source) (htarget : path ≠ target) :
    objects.move source target path = objects path := by
  rw [move, update_of_ne htarget, erase_ne hsource]

end Objects

/-! ### What the operations do -/

/-- **What a write may leave that does not succeed.** -/
def CutOff (service : Service) (path : String) (file : F) (s s' : Objects F) : Prop :=
  s' = s ∨ s' = s.put path (.whole file) ∨ (service.atomicWrites = false ∧ s' = s.put path .torn)

/-- **The store as an environment.** -/
def storeEnv (service : Service) : Env (StoreOp F) StoreResp (Objects F)
  | .createDir _, s, _, s' => s' = s
  | .exists path, s, r, s' => s' = s ∧ (r = .ok (s path).isSome ∨ ∃ e, r = .error e)
  | .write path file, s, r, s' =>
    (r = .ok () ∧ s' = s.put path (.whole file)) ∨ ((∃ e, r = .error e) ∧ CutOff service path file s s')
  | .writeIfNotExists path file, s, r, s' =>
    (s path = none ∧ ((r = .ok () ∧ s' = s.put path (.whole file)) ∨
      ((∃ e, r = .error e ∧ e.kind ≠ .conditionNotMatch) ∧ CutOff service path file s s'))) ∨
    (s path ≠ none ∧ (∃ e, r = .error e) ∧ s' = s)
  | .rename source target, s, r, s' =>
    (r = .ok () ∧ s source ≠ none ∧ s' = s.move source target) ∨
    ((∃ e, r = .error e) ∧ (s' = s ∨ (s source ≠ none ∧ s' = s.move source target)))
  | .delete path, s, r, s' =>
    (r = .ok () ∧ s' = s.erase path) ∨ ((∃ e, r = .error e) ∧ (s' = s ∨ s' = s.erase path))

/-- A store in which nothing fails that need not. -/
def storeAnswer : (o : StoreOp F) → Objects F → StoreResp o × Objects F
  | .createDir _, s => (.ok (), s)
  | .exists path, s => (.ok (s path).isSome, s)
  | .write path file, s => (.ok (), s.put path (.whole file))
  | .writeIfNotExists path file, s =>
    if (s path).isSome then (.error ⟨.conditionNotMatch, "the object exists"⟩, s)
    else (.ok (), s.put path (.whole file))
  | .rename source target, s =>
    if (s source).isSome then (.ok (), s.move source target)
    else (.error ⟨.other, "no such object"⟩, s)
  | .delete path, s => (.ok (), s.erase path)

theorem storeAnswer_storeEnv (service : Service) (o : StoreOp F) (s : Objects F) :
    storeEnv service o s (storeAnswer o s).1 (storeAnswer o s).2 := by
  cases o with
  | createDir path => rfl
  | «exists» path => exact ⟨rfl, Or.inl rfl⟩
  | write path file => exact Or.inl ⟨rfl, rfl⟩
  | writeIfNotExists path file =>
    by_cases hpath : s path = none
    · have hanswer : storeAnswer (.writeIfNotExists path file) s =
          (.ok (), s.put path (.whole file)) := by
        simp [storeAnswer, hpath]
      rw [hanswer]
      exact Or.inl ⟨hpath, Or.inl ⟨rfl, rfl⟩⟩
    · have hanswer : storeAnswer (.writeIfNotExists path file) s =
          (.error ⟨.conditionNotMatch, "the object exists"⟩, s) := by
        simp [storeAnswer, Option.isSome_iff_ne_none, hpath]
      rw [hanswer]
      exact Or.inr ⟨hpath, ⟨_, rfl⟩, rfl⟩
  | rename source target =>
    by_cases hsource : s source = none
    · have hanswer : storeAnswer (.rename source target) s =
          (.error ⟨.other, "no such object"⟩, s) := by
        simp [storeAnswer, hsource]
      rw [hanswer]
      exact Or.inr ⟨⟨_, rfl⟩, Or.inl rfl⟩
    · have hanswer : storeAnswer (.rename source target) s = (.ok (), s.move source target) := by
        simp [storeAnswer, Option.isSome_iff_ne_none, hsource]
      rw [hanswer]
      exact Or.inl ⟨rfl, hsource, rfl⟩
  | delete path => exact Or.inl ⟨rfl, rfl⟩

/-! ### What the operations touch -/

/-- The paths whose objects an operation may change. -/
def StoreOp.writes : StoreOp F → List String
  | .createDir _ => []
  | .exists _ => []
  | .write path _ => [path]
  | .writeIfNotExists path _ => [path]
  | .rename source target => [source, target]
  | .delete path => [path]

/-- **The other objects stay.** -/
theorem storeEnv_frame {service : Service} {o : StoreOp F} {s s' : Objects F} {r : StoreResp o}
    (h : storeEnv service o s r s') {path : String} (hpath : path ∉ o.writes) : s' path = s path := by
  cases o with
  | createDir _ => rw [show s' = s from h]
  | «exists» _ => rw [h.1]
  | write target file =>
    have hne : path ≠ target := by simpa [StoreOp.writes] using hpath
    rcases h with ⟨-, rfl⟩ | ⟨-, rfl | rfl | ⟨-, rfl⟩⟩ <;> simp [hne]
  | writeIfNotExists target file =>
    have hne : path ≠ target := by simpa [StoreOp.writes] using hpath
    rcases h with ⟨-, ⟨-, rfl⟩ | ⟨-, rfl | rfl | ⟨-, rfl⟩⟩⟩ | ⟨-, -, rfl⟩ <;> simp [hne]
  | rename source target =>
    have hne : path ≠ source ∧ path ≠ target := by simpa [StoreOp.writes] using hpath
    rcases h with ⟨-, -, rfl⟩ | ⟨-, rfl | ⟨-, rfl⟩⟩ <;> simp [hne.1, hne.2]
  | delete target =>
    have hne : path ≠ target := by simpa [StoreOp.writes] using hpath
    rcases h with ⟨-, rfl⟩ | ⟨-, rfl | rfl⟩ <;> simp [hne]

end Storage
