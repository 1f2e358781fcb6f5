import Ingest4x.Repositories.Bindings
import Ingest4x.Rhai.Constants
import Ingest4x.Sinks.Buildable

/-! # The routing of accepted scripts

A script is accepted for the sinks that are enabled at that time. Later operations enable and disable
sinks, so the constants of the script may come to mean something else.

* **`RoutingState`** — the database, and the scripts that were accepted so far.
* **`ConstantFree`** — the sinks that can be enabled in a state.
* **`routing_stable`** — if every sink that is enabled is such a one, accepted scripts keep their
  meaning. -/

namespace Ingest4x

open Result Sinks Rhai ProcessorRepository EventSinkRepository

section Runs

/-! ### States -/

/-- **A script that was accepted**, with the sinks that were enabled then. -/
structure AcceptedScript where
  entryModule : String
  modules : List ProcessorScriptModuleInput
  sinkTargets : List String
  deriving DecidableEq

/-- A script refers to a name in one of its modules. -/
def AcceptedScript.RefersTo (refersTo : String → String → Prop) (script : AcceptedScript)
    (name : String) : Prop :=
  ∃ module ∈ script.modules, refersTo module.source name

instance (refersTo : String → String → Prop) [∀ source name, Decidable (refersTo source name)]
    (script : AcceptedScript) (name : String) : Decidable (script.RefersTo refersTo name) :=
  inferInstanceAs (Decidable (∃ module ∈ script.modules, refersTo module.source name))

/-- What a name meant when the script was accepted. -/
def AcceptedScript.resolve (script : AcceptedScript) (name : String) : Option String :=
  (pushSinkTargetConstants script.sinkTargets).resolve name

/-- **The database, and the scripts that were accepted so far.** -/
structure RoutingState where
  db : Database
  accepted : List AcceptedScript

/-- What a name means in a script that is compiled now. -/
def RoutingState.resolve (st : RoutingState) (name : String) : Option String :=
  (pushSinkTargetConstants (enabledSinkIds st.db)).resolve name

/-- The database after the migrations, before any script was accepted. -/
def RoutingState.start : RoutingState := ⟨.migrated, []⟩

/-! ### Operations -/

/-- The script that an operation saves. -/
def AdminOp.savedScripts (db : Database) : AdminOp → List AcceptedScript
  | .processor (.createScript input) => [⟨input.entryModule, input.modules, enabledSinkIds db⟩]
  | .processor (.updateScript _ input) => [⟨input.entryModule, input.modules, enabledSinkIds db⟩]
  | _ => []

/-- **The sink that an operation creates enabled, or leaves enabled.** -/
def AdminOp.enabledSink (db : Database) : AdminOp → Option String
  | .eventSink (.createEventSink input) => if input.enabled then some input.sinkId else none
  | .eventSink (.updateEventSink id input) =>
    (db.eventSinks.get id).bind fun sink =>
      if input.enabled.getD sink.enabled then some sink.sinkId else none
  | _ => none

variable [Engine]

/-- The script is accepted for the sinks that are enabled now. -/
def RoutingState.Accepts (st : RoutingState) (script : AcceptedScript) : Prop :=
  validateScriptInput script.entryModule script.modules (enabledSinkIds st.db) = .ok ()

instance (st : RoutingState) (script : AcceptedScript) : Decidable (st.Accepts script) :=
  inferInstanceAs (Decidable (_ = _))

variable [SinkBackends] [SerdeText] [DurationCodec]

/-- The state after an operation, successful or not. -/
def RoutingState.after (st : RoutingState) (op : AdminOp) : RoutingState :=
  match op.run st.db with
  | .ok db => ⟨db, op.savedScripts st.db ++ st.accepted⟩
  | .error _ => st

/-! ### The sinks that are enabled -/

omit [Engine] [SinkBackends] [SerdeText] [DurationCodec] in
theorem mem_enabledSinkIds {db : Database} {s : String} : s ∈ enabledSinkIds db ↔
    ∃ id sink, db.eventSinks.get id = some sink ∧ sink.enabled = true ∧ sink.sinkId = s := by
  have horder : s ∈ enabledSinkIds db ↔
      s ∈ (db.eventSinks.all.filter fun e => e.2.enabled).map fun e => e.2.sinkId :=
    mem_orderBy fun _ _ _ _ heq => heq
  rw [horder, List.mem_map]
  constructor
  · rintro ⟨⟨id, sink⟩, hmem, rfl⟩
    obtain ⟨hall, henabled⟩ := List.mem_filter.mp hmem
    exact ⟨id, sink, RowTable.mem_all.mp hall, henabled, rfl⟩
  · rintro ⟨id, sink, hget, henabled, rfl⟩
    exact ⟨(id, sink), List.mem_filter.mpr ⟨RowTable.mem_all.mpr hget, henabled⟩, rfl⟩

omit [Engine] [SinkBackends] [SerdeText] [DurationCodec] in
theorem nodup_enabledSinkIds (db : Database) : (enabledSinkIds db).Nodup :=
  (pairwise_orderBy id _).imp fun hlt => ne_of_lt hlt

omit [Engine] [SinkBackends] [SerdeText] [DurationCodec] in
theorem enabledSinkIds_congr {db db' : Database} (h : db'.eventSinks = db.eventSinks) :
    enabledSinkIds db' = enabledSinkIds db := by
  rw [enabledSinkIds, enabledSinkIds, h]

omit [Engine] [SinkBackends] [SerdeText] [DurationCodec] in
/-- The sinks that are enabled after one was inserted. -/
theorem mem_enabledSinkIds_insert {db db' : Database} {row : EventSinkRow} {id : Nat}
    {sinks : RowTable EventSinkRow} (hinsert : db.eventSinks.insert? row = some (id, sinks))
    (hsinks : db'.eventSinks = sinks) (s : String) : s ∈ enabledSinkIds db' ↔
      s ∈ enabledSinkIds db ∨ row.enabled = true ∧ row.sinkId = s := by
  obtain ⟨rfl, -, -, hget⟩ := RowTable.insert?_eq_some hinsert
  simp only [mem_enabledSinkIds, hsinks, hget]
  constructor
  · rintro ⟨id, sink, hsink, henabled, rfl⟩
    split at hsink
    · cases hsink
      exact Or.inr ⟨henabled, rfl⟩
    · exact Or.inl ⟨id, sink, hsink, henabled, rfl⟩
  · rintro (⟨id, sink, hsink, henabled, rfl⟩ | ⟨henabled, rfl⟩)
    · refine ⟨id, sink, ?_, henabled, rfl⟩
      rw [if_neg (Nat.ne_of_lt (RowTable.lt_nextId hsink)), hsink]
    · exact ⟨_, row, if_pos rfl, henabled, rfl⟩

omit [Engine] [SinkBackends] [SerdeText] [DurationCodec] in
/-- The sinks that are enabled after one was updated. -/
theorem mem_enabledSinkIds_update {db db' : Database} {existing row : EventSinkRow} {id : Nat}
    {sinks : RowTable EventSinkRow} (hupdate : db.eventSinks.update? id row = some sinks)
    (hget : db.eventSinks.get id = some existing) (hsinkId : row.sinkId = existing.sinkId)
    (hsinks : db'.eventSinks = sinks) (s : String) : s ∈ enabledSinkIds db' ↔
      s ∈ enabledSinkIds db ∧ s ≠ row.sinkId ∨ row.enabled = true ∧ row.sinkId = s := by
  obtain ⟨-, -, hget'⟩ := RowTable.update?_eq_some hupdate
  simp only [mem_enabledSinkIds, hsinks, hget', hget, Option.map_some]
  constructor
  · rintro ⟨id', sink, hsink, henabled, rfl⟩
    split at hsink
    · cases hsink
      exact Or.inr ⟨henabled, rfl⟩
    · next hid =>
      refine Or.inl ⟨⟨id', sink, hsink, henabled, rfl⟩, fun heq => hid ?_⟩
      exact db.eventSinks.unique id' id sink existing hsink hget
        (by simp [UniqueIndexes.clash, heq, hsinkId])
  · rintro (⟨⟨id', sink, hsink, henabled, rfl⟩, hne⟩ | ⟨henabled, rfl⟩)
    · have hid : id' ≠ id := by
        rintro rfl
        rw [hget] at hsink
        cases hsink
        exact hne hsinkId.symm
      exact ⟨id', sink, by rw [if_neg hid, hsink], henabled, rfl⟩
    · exact ⟨id, row, if_pos rfl, henabled, rfl⟩

/-- **The sinks that are enabled after an operation**: at most one more; and no less, if the operation
enables one. -/
theorem enabledSinkIds_of_run {db db' : Database} {op : AdminOp} (h : op.run db = .ok db') :
    (∀ s ∈ enabledSinkIds db', s ∈ enabledSinkIds db ∨ op.enabledSink db = some s) ∧
      ∀ added, op.enabledSink db = some added →
        ∀ s, s ∈ enabledSinkIds db' ↔ s ∈ enabledSinkIds db ∨ s = added := by
  have hsame : db'.eventSinks = db.eventSinks → op.enabledSink db = none →
      (∀ s ∈ enabledSinkIds db', s ∈ enabledSinkIds db ∨ op.enabledSink db = some s) ∧
        ∀ added, op.enabledSink db = some added →
          ∀ s, s ∈ enabledSinkIds db' ↔ s ∈ enabledSinkIds db ∨ s = added := by
    intro heq hnone
    rw [enabledSinkIds_congr heq, hnone]
    refine ⟨fun s hs => Or.inl hs, ?_⟩
    rintro _ ⟨⟩
  cases op with
  | project op =>
    have hchange := ProjectOp.run_ok (mapError_eq_ok.mp h)
    refine hsame ?_ rfl
    cases hchange <;> rfl
  | processor op =>
    have hchange := ProcessorOp.run_ok (mapError_eq_ok.mp h)
    refine hsame ?_ rfl
    cases hchange with
    | bindDefaults hbind hget hstatus => split <;> rfl
    | _ => rfl
  | eventSink op =>
    have hrun := mapError_eq_ok.mp h
    cases op with
    | createEventSink input =>
      obtain ⟨a, hrun⟩ := map_snd_eq_ok.mp hrun
      simp only [EventSinkRepository.createEventSink, bind_eq_ok, okOr_eq_ok, pure_eq_ok] at hrun
      obtain ⟨_, _, target, _, targetType, _, destinationJson, _, ⟨id, sinks⟩, hinsert, hrun⟩ := hrun
      cases hrun
      have hmem : ∀ s, s ∈ enabledSinkIds (bumpEventSinksVersion { db with eventSinks := sinks }) ↔
          s ∈ enabledSinkIds db ∨ input.enabled = true ∧ input.sinkId = s :=
        mem_enabledSinkIds_insert hinsert rfl
      rw [AdminOp.enabledSink]
      cases henabled : input.enabled with
      | false => simp [hmem, henabled]
      | true => simp [hmem, henabled, eq_comm]
    | updateEventSink id input =>
      obtain ⟨a, hrun⟩ := map_snd_eq_ok.mp hrun
      simp only [EventSinkRepository.updateEventSink, bind_eq_ok, okOr_eq_ok, pure_eq_ok,
        EventSinkRepository.findEventSinkById] at hrun
      obtain ⟨existing, hget, target, _, targetType, _, destinationJson, _, sinks, hupdate, hrun⟩ :=
        hrun
      cases hrun
      have hmem : ∀ s, s ∈ enabledSinkIds (bumpEventSinksVersion { db with eventSinks := sinks }) ↔
          s ∈ enabledSinkIds db ∧ s ≠ existing.sinkId ∨
            input.enabled.getD existing.enabled = true ∧ existing.sinkId = s :=
        mem_enabledSinkIds_update hupdate hget rfl rfl
      rw [AdminOp.enabledSink, hget, Option.bind_some]
      refine ⟨fun s hs => ?_, fun added hadded s => ?_⟩
      · rcases (hmem s).mp hs with ⟨hold, -⟩ | ⟨henabled, rfl⟩
        · exact Or.inl hold
        · exact Or.inr (if_pos henabled)
      · split at hadded
        · next henabled =>
          cases hadded
          rw [hmem, and_iff_right henabled, eq_comm (a := existing.sinkId)]
          exact ⟨Or.imp_left And.left, fun h => (em (s = existing.sinkId)).elim Or.inr
            fun hne => Or.inl ⟨h.resolve_right hne, hne⟩⟩
        · cases hadded
    | deleteEventSink id =>
      obtain ⟨a, hrun⟩ := map_snd_eq_ok.mp hrun
      simp only [EventSinkRepository.deleteEventSink, bind_eq_ok, pure_eq_ok] at hrun
      obtain ⟨existing, _, hrun⟩ := hrun
      cases hrun
      refine ⟨fun s hs => Or.inl ?_, by rintro _ ⟨⟩⟩
      obtain ⟨id', sink, hget, henabled, rfl⟩ := mem_enabledSinkIds.mp hs
      exact mem_enabledSinkIds.mpr
        ⟨id', sink, (RowTable.get_deleteWhere.mp hget).1, henabled, rfl⟩
    | createDeliveryTarget input =>
      obtain ⟨a, hrun⟩ := map_snd_eq_ok.mp hrun
      simp only [EventSinkRepository.createDeliveryTarget, bind_eq_ok, pure_eq_ok] at hrun
      obtain ⟨_, _, _, _, _, _, hrun⟩ := hrun
      cases hrun
      exact hsame rfl rfl
    | updateDeliveryTarget id input =>
      obtain ⟨a, hrun⟩ := map_snd_eq_ok.mp hrun
      simp only [EventSinkRepository.updateDeliveryTarget, bind_eq_ok, pure_eq_ok] at hrun
      obtain ⟨_, _, _, _, _, _, _, _, _, _, hrun⟩ := hrun
      cases hrun
      exact hsame rfl rfl
    | deleteDeliveryTarget id =>
      obtain ⟨a, hrun⟩ := map_snd_eq_ok.mp hrun
      simp only [EventSinkRepository.deleteDeliveryTarget, bind_eq_ok, pure_eq_ok] at hrun
      obtain ⟨_, _, _, _, hrun⟩ := hrun
      cases hrun
      exact hsame rfl rfl

omit [SinkBackends] [SerdeText] [DurationCodec] in
/-- The modules pass the check again where there are more sinks. -/
theorem validateEmitTargets_mono {modules : List ProcessorScriptModuleInput}
    {sinkTargets sinkTargets' : List String} (hnodup : sinkTargets'.Nodup)
    (hdistinct : DistinctConstants sinkTargets') (hsub : sinkTargets ⊆ sinkTargets')
    (h : validateEmitTargets sinkTargets modules = .ok ()) :
    validateEmitTargets sinkTargets' modules = .ok () := by
  induction modules with
  | nil => rfl
  | cons module modules ih =>
    rw [validateEmitTargets] at h
    cases hlint : lintEmitTargets module.moduleName module.source sinkTargets with
    | error e =>
      rw [hlint] at h
      cases h
    | ok _ =>
      rw [hlint] at h
      rw [validateEmitTargets, lintEmitTargets_mono hnodup hdistinct hsub hlint]
      exact ih h

omit [SinkBackends] [SerdeText] [DurationCodec] in
/-- **A script is accepted again** where there are more sinks, and the names that it refers to mean the
same. -/
theorem validateScriptInput_mono {refersTo : String → String → Prop}
    (hengine : ResolvesByName refersTo) {entryModule : String}
    {modules : List ProcessorScriptModuleInput} {sinkTargets sinkTargets' : List String}
    (hnodup : sinkTargets'.Nodup) (hdistinct : DistinctConstants sinkTargets')
    (hsub : sinkTargets ⊆ sinkTargets')
    (hsame : ∀ module ∈ modules, SameMeaning refersTo module.source
      (pushSinkTargetConstants sinkTargets) (pushSinkTargetConstants sinkTargets'))
    (h : validateScriptInput entryModule modules sinkTargets = .ok ()) :
    validateScriptInput entryModule modules sinkTargets' = .ok () := by
  simp only [validateScriptInput, bind_eq_ok, okOr_eq_ok, mapError_eq_ok, pure_eq_ok] at h ⊢
  obtain ⟨_, hname, _, hnames, entry, hentry, _, hlint, state, hcompile, -⟩ := h
  have hresolver : ∀ module ∈ (modules.filter fun module => module.moduleName ≠ entryModule).map
      fun module => (module.moduleName, module.source), SameMeaning refersTo module.2
        (pushSinkTargetConstants sinkTargets) (pushSinkTargetConstants sinkTargets') := by
    intro module hmodule
    obtain ⟨input, hinput, rfl⟩ := List.mem_map.mp hmodule
    exact hsame input (List.mem_filter.mp hinput).1
  obtain ⟨state', hcompile'⟩ := compileScript_congr hengine
    (hsame entry (List.mem_of_find?_eq_some hentry)) hresolver hcompile
  exact ⟨_, hname, _, hnames, entry, hentry, _, validateEmitTargets_mono hnodup hdistinct hsub hlint,
    state', hcompile', trivial⟩

/-! ### Stable runs -/

/-- **A sink may be enabled**: its constant has more than the common start and is no other enabled
sink's; every accepted script that refers to the constant was accepted with this sink for it; and a
script that is accepted although the constant means nothing now does not refer to it. -/
structure ConstantFree (refersTo : String → String → Prop) (st : RoutingState) (added : String) :
    Prop where
  ne_sink : sinkTargetConstantName added ≠ "SINK"
  distinct : ∀ s ∈ enabledSinkIds st.db, sinkTargetConstantName s = sinkTargetConstantName added →
    s = added
  meaning : ∀ script ∈ st.accepted, script.RefersTo refersTo (sinkTargetConstantName added) →
    script.resolve (sinkTargetConstantName added) = some added
  defined : ∀ script ∈ st.accepted, st.Accepts script →
    script.RefersTo refersTo (sinkTargetConstantName added) → added ∈ enabledSinkIds st.db

/-- **The states of the runs** in which every sink that is enabled may be. -/
inductive RoutingReachable (refersTo : String → String → Prop) : RoutingState → Prop
  | start : RoutingReachable refersTo .start
  | step {st : RoutingState} (h : RoutingReachable refersTo st) (op : AdminOp)
      (hfree : ∀ added, op.enabledSink st.db = some added → ConstantFree refersTo st added) :
      RoutingReachable refersTo (st.after op)

/-- **The routing of a state is right**: enabled sinks have distinct constants, and what a name means
in an accepted script that refers to it is what it meant when the script was accepted, or nothing. -/
structure RoutingRight (refersTo : String → String → Prop) (st : RoutingState) : Prop where
  distinct : ∀ s ∈ enabledSinkIds st.db, ∀ s' ∈ enabledSinkIds st.db,
    sinkTargetConstantName s = sinkTargetConstantName s' → s = s'
  meaning : ∀ script ∈ st.accepted, ∀ name, script.RefersTo refersTo name →
    st.resolve name = script.resolve name ∨ st.resolve name = none

/-- **A step keeps the routing**: a name that means a sink means the same one after it, and a script
that is accepted is accepted after it. -/
structure RoutingKept (refersTo : String → String → Prop) (st st' : RoutingState) : Prop where
  meaning : ∀ script ∈ st.accepted, ∀ name, script.RefersTo refersTo name →
    ∀ target, st.resolve name = some target → st'.resolve name = some target
  accepts : ∀ script ∈ st.accepted, st.Accepts script → st'.Accepts script

/-- **The invariant of the runs.** -/
structure RoutingInvariant (refersTo : String → String → Prop) (st : RoutingState) : Prop where
  constants : DistinctConstants (enabledSinkIds st.db)
  meaning : ∀ script ∈ st.accepted, ∀ name, script.RefersTo refersTo name →
    st.resolve name = script.resolve name ∨ st.resolve name = none

/-- The constants stay distinct in a step. -/
theorem distinctConstants_of_run {refersTo : String → String → Prop} {st : RoutingState} {op : AdminOp}
    {db : Database} (h : DistinctConstants (enabledSinkIds st.db)) (hrun : op.run st.db = .ok db)
    (hfree : ∀ added, op.enabledSink st.db = some added → ConstantFree refersTo st added) :
    DistinctConstants (enabledSinkIds db) := by
  obtain ⟨hmem, -⟩ := enabledSinkIds_of_run hrun
  cases hadded : op.enabledSink st.db with
  | none =>
    rw [hadded] at hmem
    have hold : ∀ s ∈ enabledSinkIds db, s ∈ enabledSinkIds st.db := fun s hs =>
      (hmem s hs).resolve_right nofun
    exact ⟨fun s hs => h.ne_sink s (hold s hs), fun s hs s' hs' =>
      h.injective s (hold s hs) s' (hold s' hs')⟩
  | some added =>
    rw [hadded] at hmem
    obtain ⟨hsink, hdistinct, -, -⟩ := hfree added hadded
    exact h.insert hsink hdistinct fun s hs =>
      (hmem s hs).imp_right fun heq => (Option.some.inj heq).symm

/-- What a name means in a state with fewer sinks, or one more. -/
theorem RoutingState.resolve_of_run {st : RoutingState} {op : AdminOp} {db : Database}
    {accepted : List AcceptedScript} (h : DistinctConstants (enabledSinkIds st.db))
    (h' : DistinctConstants (enabledSinkIds db)) (hrun : op.run st.db = .ok db) {name s : String}
    (hs : RoutingState.resolve ⟨db, accepted⟩ name = some s) :
    st.resolve name = some s ∨ op.enabledSink st.db = some s ∧ sinkTargetConstantName s = name := by
  obtain ⟨hmem, hname⟩ := (Scope.resolve_eq_some h').mp hs
  refine ((enabledSinkIds_of_run hrun).1 s hmem).imp (fun hold => ?_) fun hadded => ⟨hadded, hname⟩
  exact (Scope.resolve_eq_some h).mpr ⟨hold, hname⟩

/-- **Every step of such a run keeps the invariant.** -/
theorem RoutingInvariant.after {refersTo : String → String → Prop} {st : RoutingState}
    (h : RoutingInvariant refersTo st) {op : AdminOp}
    (hfree : ∀ added, op.enabledSink st.db = some added → ConstantFree refersTo st added) :
    RoutingInvariant refersTo (st.after op) := by
  rw [RoutingState.after]
  cases hrun : op.run st.db with
  | error e => exact h
  | ok db =>
    have hconstants := distinctConstants_of_run h.constants hrun hfree
    refine ⟨hconstants, fun script hscript name hname => ?_⟩
    rcases List.mem_append.mp hscript with hsaved | hold
    · -- A script that is saved now was accepted for the sinks that are enabled before and after.
      have hsame : enabledSinkIds db = script.sinkTargets := by
        have hscripts : db.eventSinks = st.db.eventSinks ∧
            script.sinkTargets = enabledSinkIds st.db := by
          cases op with
          | project op => cases hsaved
          | eventSink op => cases hsaved
          | processor op =>
            have hchange := ProcessorOp.run_ok (mapError_eq_ok.mp hrun)
            refine ⟨?_, ?_⟩
            · cases hchange with
              | bindDefaults hbind hget hstatus => split <;> rfl
              | _ => rfl
            · cases op with
              | createScript input => rw [List.mem_singleton.mp hsaved]
              | updateScript id input => rw [List.mem_singleton.mp hsaved]
              | _ => cases hsaved
        rw [enabledSinkIds_congr hscripts.1, hscripts.2]
      refine Or.inl ?_
      rw [RoutingState.resolve, AcceptedScript.resolve, hsame]
    · cases hnow : RoutingState.resolve ⟨db, op.savedScripts st.db ++ st.accepted⟩ name with
      | none => exact Or.inr rfl
      | some s =>
        refine Or.inl ?_
        rcases RoutingState.resolve_of_run h.constants hconstants hrun hnow with hbefore | ⟨hadded, hc⟩
        · have hmeant := h.meaning script hold name hname
          rw [hbefore] at hmeant
          exact hmeant.resolve_right nofun
        · rw [← hc] at hname ⊢
          exact ((hfree s hadded).meaning script hold hname).symm

/-- The invariant holds in every state of such a run. -/
theorem RoutingReachable.invariant {refersTo : String → String → Prop} {st : RoutingState}
    (h : RoutingReachable refersTo st) : RoutingInvariant refersTo st := by
  induction h with
  | start => exact ⟨.nil, nofun⟩
  | step _ op hfree ih => exact ih.after hfree

/-- **A step that enables a sink which may be enabled keeps the routing.** -/
theorem RoutingInvariant.kept {refersTo : String → String → Prop} (hengine : ResolvesByName refersTo)
    {st : RoutingState} (h : RoutingInvariant refersTo st) {op : AdminOp} {added : String}
    (hadded : op.enabledSink st.db = some added) (hfree : ConstantFree refersTo st added) :
    RoutingKept refersTo st (st.after op) := by
  rw [RoutingState.after]
  cases hrun : op.run st.db with
  | error e => exact ⟨fun _ _ _ _ _ hs => hs, fun _ _ hs => hs⟩
  | ok db =>
    have hmem := (enabledSinkIds_of_run hrun).2 added hadded
    have hconstants : DistinctConstants (enabledSinkIds db) :=
      h.constants.insert hfree.ne_sink hfree.distinct fun s hs => (hmem s).mp hs
    refine ⟨fun script _ name _ target htarget => ?_, fun script hscript haccepts => ?_⟩
    · obtain ⟨hold, hname⟩ := (Scope.resolve_eq_some h.constants).mp htarget
      exact (Scope.resolve_eq_some hconstants).mpr ⟨(hmem target).mpr (Or.inl hold), hname⟩
    · refine validateScriptInput_mono hengine (nodup_enabledSinkIds db) hconstants
        (fun s hs => (hmem s).mpr (Or.inl hs)) (fun module hmodule name hname => ?_) haccepts
      by_cases hnew : name = sinkTargetConstantName added
      · -- The sink was enabled before, so that no constant means anything else.
        have hthere := hfree.defined script hscript haccepts ⟨module, hmodule, hnew ▸ hname⟩
        refine Option.ext fun s => ?_
        rw [Scope.resolve_eq_some hconstants, Scope.resolve_eq_some h.constants, hmem,
          or_iff_left_of_imp]
        rintro rfl
        exact hthere
      · exact Scope.resolve_of_added h.constants hconstants hmem hnew

/-- **Accepted scripts keep their routing** in every run in which every sink that is enabled may be: in
every state the routing is right, and the next step keeps it. -/
theorem routing_stable {refersTo : String → String → Prop} (hengine : ResolvesByName refersTo)
    {st : RoutingState} (h : RoutingReachable refersTo st) : RoutingRight refersTo st ∧
      ∀ op added, AdminOp.enabledSink st.db op = some added → ConstantFree refersTo st added →
        RoutingKept refersTo st (st.after op) :=
  ⟨⟨h.invariant.constants.injective, h.invariant.meaning⟩,
    fun _ _ hadded hfree => h.invariant.kept hengine hadded hfree⟩

end Runs

/-! ### Two sinks with one constant -/

/-- A script engine that compiles everything, and finds a call of `emit` in one script. -/
@[reducible] def routingEngine : Engine where
  Module := Unit
  Ast := String
  emitCalls source := if source = "emit" then .ok [⟨.variable_ "SINK_A_B", "1:1"⟩] else .ok []
  compileWithScope _ source := .ok source
  evalAstAsNew _ _ _ := .ok ()
  compileIntoSelfContained _ _ source := .ok source
  callProcess _ _ _ _ _ := .ok []

/-- The state after an operation. -/
def routingAfter (st : RoutingState) (op : AdminOp) : RoutingState :=
  @RoutingState.after routingEngine acceptingBackends typeNameText secondsCodec st op

/-- An enabled sink is created on the first target. -/
def createSinkOp (sinkId : String) : AdminOp :=
  .eventSink (.createEventSink ⟨sinkId, sinkId, 1, .object [], .latest, true⟩)

/-- The script that emits to `SINK_A_B`. -/
def emittingScript : AcceptedScript := ⟨"main", [⟨"main", "emit"⟩], ["a-b"]⟩

/-- The target of the sinks is created. -/
def createOutOp : AdminOp :=
  .eventSink (.createDeliveryTarget ⟨"out", "Out", "stdout", .object [], true⟩)

/-- The script is saved. -/
def saveScriptOp : AdminOp :=
  .processor (.createScript ⟨"route", "Route", "main", .active, [⟨"main", "emit"⟩]⟩)

/-- A target, a sink on it, and a script that emits to the sink. -/
def routingSample : RoutingState :=
  routingAfter (routingAfter (routingAfter .start createOutOp) (createSinkOp "a-b")) saveScriptOp

/-- **A second sink takes the constant over**: its id is another one, and what the accepted script
emitted to the first sink goes to the second one. The script is not accepted any more. -/
theorem routing_taken_over : routingSample.accepted = [emittingScript] ∧
    enabledSinkIds (routingAfter routingSample (createSinkOp "a_b")).db = ["a-b", "a_b"] ∧
    sinkTargetConstantName "a-b" = sinkTargetConstantName "a_b" ∧
    routingSample.resolve "SINK_A_B" = some "a-b" ∧
    (routingAfter routingSample (createSinkOp "a_b")).resolve "SINK_A_B" = some "a_b" ∧
    @RoutingState.Accepts routingEngine routingSample emittingScript ∧
    ¬@RoutingState.Accepts routingEngine (routingAfter routingSample (createSinkOp "a_b"))
      emittingScript := by
  refine ⟨?_, ?_, ?_, ?_, ?_, ?_, ?_⟩ <;> decide +kernel

/-- What the one script refers to. -/
abbrev emitRefersTo (source name : String) : Prop := source = "emit" ∧ name = "SINK_A_B"

/-- The routing of the script is right, and a third sink with another constant keeps it. -/
theorem routing_stable_sample : RoutingRight emitRefersTo routingSample ∧
    @RoutingKept routingEngine emitRefersTo routingSample
      (routingAfter routingSample (createSinkOp "c")) := by
  have hengine : @ResolvesByName routingEngine emitRefersTo :=
    @ResolvesByName.mk routingEngine emitRefersTo (fun _ _ => ⟨_, (), rfl, rfl⟩)
      fun _ _ _ => ⟨_, rfl⟩
  have hfirst : @ConstantFree routingEngine emitRefersTo (routingAfter .start createOutOp) "a-b" :=
    @ConstantFree.mk routingEngine emitRefersTo _ "a-b" (by decide +kernel) (by decide +kernel)
      (by decide +kernel) (by decide +kernel)
  have hthird : @ConstantFree routingEngine emitRefersTo routingSample "c" :=
    @ConstantFree.mk routingEngine emitRefersTo _ "c" (by decide +kernel) (by decide +kernel)
      (by decide +kernel) (by decide +kernel)
  have hstep := @RoutingReachable.step routingEngine acceptingBackends typeNameText secondsCodec
    emitRefersTo
  have hstart := @RoutingReachable.start routingEngine acceptingBackends typeNameText secondsCodec
    emitRefersTo
  have hreach : @RoutingReachable routingEngine acceptingBackends typeNameText secondsCodec
      emitRefersTo routingSample := by
    refine hstep (hstep (hstep hstart createOutOp nofun) (createSinkOp "a-b") ?_) saveScriptOp nofun
    rintro added ⟨⟩
    exact hfirst
  obtain ⟨hright, hkept⟩ := @routing_stable routingEngine acceptingBackends typeNameText secondsCodec
    emitRefersTo hengine routingSample hreach
  exact ⟨hright, hkept (createSinkOp "c") "c" rfl hthird⟩

end Ingest4x
