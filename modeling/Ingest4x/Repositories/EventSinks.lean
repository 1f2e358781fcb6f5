import Ingest4x.Effect.Result
import Ingest4x.Repositories.Schema
import Ingest4x.Sinks.Router

/-! # Event sinks

The operations of `EventSinkRepository` on delivery targets and event sinks, each one transaction, and
the list of sinks that the router is built from.

* **`EventSinkOp`** — an operation with its input; **`SinksChange`** — what one that succeeds does.
* **`SinksWellFormed`** — the configurations that are stored for enabled and disabled sinks alike can
  be read, and every sink has its target; every operation keeps it. -/

namespace Ingest4x

open Result Sinks

/-- `EventSinkRepositoryError`. -/
inductive EventSinkRepositoryError
  | deliveryTargetNotFound (id : Nat)
  | eventSinkNotFound (id : Nat)
  | deliveryTargetInUse (id : Nat)
  | duplicateDeliveryTarget (targetId : String)
  | duplicateEventSink (sinkId : String)
  | invalidConfig (message : String)
  | database
  deriving DecidableEq

/-- `CreateDeliveryTargetInput`. -/
structure CreateDeliveryTargetInput where
  targetId : String
  name : String
  targetType : String
  configJson : Value
  enabled : Bool

/-- `UpdateDeliveryTargetInput`. -/
structure UpdateDeliveryTargetInput where
  name : Option String
  configJson : Option Value
  enabled : Option Bool

/-- `CreateEventSinkInput`. -/
structure CreateEventSinkInput where
  sinkId : String
  name : String
  deliveryTargetId : Nat
  destinationJson : Value
  autoOffsetReset : AutoOffsetReset
  enabled : Bool

/-- `UpdateEventSinkInput`. -/
structure UpdateEventSinkInput where
  name : Option String
  deliveryTargetId : Option Nat
  destinationJson : Option Value
  autoOffsetReset : Option AutoOffsetReset
  enabled : Option Bool

/-- `EventSink`, less its times. -/
structure EventSink where
  id : Nat
  sinkId : String
  name : String
  deliveryTargetId : Nat
  destinationJson : Value
  autoOffsetReset : AutoOffsetReset
  enabled : Bool
  deriving DecidableEq

/-- A character that a sink id may have. -/
def isSinkIdChar (c : Char) : Bool :=
  Text.isAsciiAlphanumeric c || c == '_' || c == '-' || c == '.'

/-- **`validate_event_sink_id`.** -/
def validateEventSinkId (sinkId : String) : Except EventSinkRepositoryError Unit :=
  if sinkId ≠ "" ∧ sinkId.toList.all isSinkIdChar = true then .ok ()
  else .error (.invalidConfig "sink_id must match [A-Za-z0-9_.-]+")

namespace EventSinkRepository

variable [SinkBackends]

/-- `DeliveryTargetType::parse`. -/
def parseTargetType (value : String) : Except EventSinkRepositoryError String :=
  if (providerFor value).isSome then .ok value
  else .error (.invalidConfig ("unknown delivery target type \x60" ++ value ++ "\x60"))

/-- `DeliveryTarget::try_from`. -/
def toDeliveryTarget (id : Nat) (row : DeliveryTargetRow) :
    Except EventSinkRepositoryError DeliveryTarget := do
  let targetType ← parseTargetType row.targetType
  return ⟨id, row.targetId, row.name, targetType, row.configJson, row.enabled⟩

/-- `EventSink::try_from`. -/
def toEventSink (id : Nat) (row : EventSinkRow) : EventSink :=
  ⟨id, row.sinkId, row.name, row.deliveryTargetId, row.destinationJson, row.autoOffsetReset,
    row.enabled⟩

/-- `find_delivery_target_by_id`. -/
def findDeliveryTargetById (db : Database) (id : Nat) :
    Except EventSinkRepositoryError DeliveryTargetRow :=
  okOr (db.deliveryTargets.get id) (.deliveryTargetNotFound id)

/-- `find_event_sink_by_id`. -/
def findEventSinkById (db : Database) (id : Nat) : Except EventSinkRepositoryError EventSinkRow :=
  okOr (db.eventSinks.get id) (.eventSinkNotFound id)

/-- `bump_event_sinks_version`. -/
def bumpEventSinksVersion (db : Database) : Database :=
  { db with eventSinksVersion := nextVersion db.eventSinksVersion }

/-- `list_delivery_targets`. -/
def listDeliveryTargets (db : Database) : List (Nat × DeliveryTargetRow) := db.deliveryTargets.all

/-- `list_event_sinks`. -/
def listEventSinks (db : Database) : List EventSink :=
  db.eventSinks.all.map fun e => toEventSink e.1 e.2

variable [SerdeText]

/-- `create_delivery_target`. -/
def createDeliveryTarget (db : Database) (input : CreateDeliveryTargetInput) :
    Except EventSinkRepositoryError (DeliveryTarget × Database) := do
  let configJson ← (normalizeDeliveryTargetConfig input.targetType input.configJson).mapError
    .invalidConfig
  let row : DeliveryTargetRow := ⟨input.targetId, input.name, input.targetType, configJson,
    input.enabled⟩
  let (id, deliveryTargets) ← okOr (db.deliveryTargets.insert? row)
    (.duplicateDeliveryTarget input.targetId)
  let target ← toDeliveryTarget id row
  return (target, bumpEventSinksVersion { db with deliveryTargets := deliveryTargets })

/-- The configuration after an update of a target of a type. -/
def updatedConfigJson (targetType : String) (existing : Value) :
    Option Value → Except EventSinkRepositoryError Value
  | some configJson => (normalizeDeliveryTargetConfig targetType configJson).mapError .invalidConfig
  | none => .ok existing

/-- `update_delivery_target`. -/
def updateDeliveryTarget (db : Database) (id : Nat) (input : UpdateDeliveryTargetInput) :
    Except EventSinkRepositoryError (DeliveryTarget × Database) := do
  let existing ← findDeliveryTargetById db id
  let targetType ← parseTargetType existing.targetType
  let configJson ← updatedConfigJson targetType existing.configJson input.configJson
  let row : DeliveryTargetRow := ⟨existing.targetId, input.name.getD existing.name,
    existing.targetType, configJson, input.enabled.getD existing.enabled⟩
  let deliveryTargets ← okOr (db.deliveryTargets.update? id row) .database
  let target ← toDeliveryTarget id row
  return (target, bumpEventSinksVersion { db with deliveryTargets := deliveryTargets })

/-- `delete_delivery_target`. -/
def deleteDeliveryTarget (db : Database) (id : Nat) :
    Except EventSinkRepositoryError (Unit × Database) := do
  let _ ← findDeliveryTargetById db id
  ensure (db.eventSinks.find? (fun sink => sink.deliveryTargetId = id) = none)
    (.deliveryTargetInUse id)
  return ((), bumpEventSinksVersion { db with deliveryTargets := db.deliveryTargets.delete id })

variable [DurationCodec]

/-- `create_event_sink`. -/
def createEventSink (db : Database) (input : CreateEventSinkInput) :
    Except EventSinkRepositoryError (EventSink × Database) := do
  validateEventSinkId input.sinkId
  let target ← findDeliveryTargetById db input.deliveryTargetId
  let targetType ← parseTargetType target.targetType
  let destinationJson ← (normalizeEventSinkConfig targetType input.destinationJson).mapError
    .invalidConfig
  let row : EventSinkRow := ⟨input.sinkId, input.name, input.deliveryTargetId, destinationJson,
    input.autoOffsetReset, input.enabled⟩
  let (id, eventSinks) ← okOr (db.eventSinks.insert? row) (.duplicateEventSink input.sinkId)
  return (toEventSink id row, bumpEventSinksVersion { db with eventSinks := eventSinks })

/-- `update_event_sink`. The destination is checked against the target again, also where neither is
changed. -/
def updateEventSink (db : Database) (id : Nat) (input : UpdateEventSinkInput) :
    Except EventSinkRepositoryError (EventSink × Database) := do
  let existing ← findEventSinkById db id
  let deliveryTargetId := input.deliveryTargetId.getD existing.deliveryTargetId
  let target ← findDeliveryTargetById db deliveryTargetId
  let targetType ← parseTargetType target.targetType
  let destinationJson ← (normalizeEventSinkConfig targetType
    (input.destinationJson.getD existing.destinationJson)).mapError .invalidConfig
  let row : EventSinkRow := ⟨existing.sinkId, input.name.getD existing.name, deliveryTargetId,
    destinationJson, input.autoOffsetReset.getD existing.autoOffsetReset,
    input.enabled.getD existing.enabled⟩
  let eventSinks ← okOr (db.eventSinks.update? id row) .database
  return (toEventSink id row, bumpEventSinksVersion { db with eventSinks := eventSinks })

/-- `delete_event_sink`. -/
def deleteEventSink (db : Database) (id : Nat) :
    Except EventSinkRepositoryError (Unit × Database) := do
  let _ ← findEventSinkById db id
  return ((), bumpEventSinksVersion { db with eventSinks := db.eventSinks.delete id })

/-- The sinks of `list_enabled_runtime_sinks`: one query for the sinks, then one for each target. A
sink whose target is disabled or gone is passed over. -/
def runtimeSinks (db : Database) :
    List (Nat × EventSinkRow) → Except EventSinkRepositoryError (List RuntimeEventSink)
  | [] => .ok []
  | (id, row) :: sinks =>
    match (db.deliveryTargets.get row.deliveryTargetId).filter (·.enabled) with
    | none => runtimeSinks db sinks
    | some targetRow => do
      let sink := toEventSink id row
      let target ← toDeliveryTarget row.deliveryTargetId targetRow
      let rest ← runtimeSinks db sinks
      return ⟨sink.sinkId, sink.name, sink.destinationJson, sink.autoOffsetReset, target⟩ :: rest

/-- `list_enabled_runtime_sinks`. -/
def listEnabledRuntimeSinks (db : Database) :
    Except EventSinkRepositoryError (List RuntimeEventSink) :=
  runtimeSinks db (db.eventSinks.all.filter fun e => e.2.enabled)

end EventSinkRepository

/-! ### Operations -/

/-- An operation with its input. -/
inductive EventSinkOp
  | createDeliveryTarget (input : CreateDeliveryTargetInput)
  | updateDeliveryTarget (id : Nat) (input : UpdateDeliveryTargetInput)
  | deleteDeliveryTarget (id : Nat)
  | createEventSink (input : CreateEventSinkInput)
  | updateEventSink (id : Nat) (input : UpdateEventSinkInput)
  | deleteEventSink (id : Nat)

variable [SinkBackends] [SerdeText] [DurationCodec]

open EventSinkRepository

/-- What an operation makes of the database. -/
def EventSinkOp.run (db : Database) : EventSinkOp → Except EventSinkRepositoryError Database
  | .createDeliveryTarget input => (EventSinkRepository.createDeliveryTarget db input).map Prod.snd
  | .updateDeliveryTarget id input =>
    (EventSinkRepository.updateDeliveryTarget db id input).map Prod.snd
  | .deleteDeliveryTarget id => (EventSinkRepository.deleteDeliveryTarget db id).map Prod.snd
  | .createEventSink input => (EventSinkRepository.createEventSink db input).map Prod.snd
  | .updateEventSink id input => (EventSinkRepository.updateEventSink db id input).map Prod.snd
  | .deleteEventSink id => (EventSinkRepository.deleteEventSink db id).map Prod.snd

/-- A stored target configuration can be read by the provider of its type. -/
def TargetReadable (row : DeliveryTargetRow) : Prop :=
  ∃ provider, providerFor row.targetType = some provider ∧
    TargetNormal provider.target row.configJson

/-- A stored destination can be read by the provider of its target's type. -/
def DestinationReadable (target : DeliveryTargetRow) (row : EventSinkRow) : Prop :=
  ∃ provider, providerFor target.targetType = some provider ∧
    DestinationNormal provider.destination row.destinationJson

/-- **What an operation that succeeds does**: one row is inserted, updated or deleted, and the version
is bumped. -/
inductive SinksChange (db : Database) : Database → Prop
  | createTarget {row : DeliveryTargetRow} {id : Nat} {targets : RowTable DeliveryTargetRow}
      (hinsert : db.deliveryTargets.insert? row = some (id, targets)) (hreadable : TargetReadable row) :
      SinksChange db (bumpEventSinksVersion { db with deliveryTargets := targets })
  | updateTarget {id : Nat} {existing row : DeliveryTargetRow} {targets : RowTable DeliveryTargetRow}
      (hupdate : db.deliveryTargets.update? id row = some targets)
      (hget : db.deliveryTargets.get id = some existing) (htargetId : row.targetId = existing.targetId)
      (htype : row.targetType = existing.targetType)
      (hreadable : TargetReadable existing → TargetReadable row) :
      SinksChange db (bumpEventSinksVersion { db with deliveryTargets := targets })
  | deleteTarget {id : Nat} {existing : DeliveryTargetRow}
      (hget : db.deliveryTargets.get id = some existing)
      (hunused : ∀ sinkId sink, db.eventSinks.get sinkId = some sink → sink.deliveryTargetId ≠ id) :
      SinksChange db (bumpEventSinksVersion { db with deliveryTargets := db.deliveryTargets.delete id })
  | createSink {row : EventSinkRow} {target : DeliveryTargetRow} {id : Nat}
      {sinks : RowTable EventSinkRow} (hinsert : db.eventSinks.insert? row = some (id, sinks))
      (hid : validateEventSinkId row.sinkId = .ok ())
      (htarget : db.deliveryTargets.get row.deliveryTargetId = some target)
      (hreadable : DestinationReadable target row) :
      SinksChange db (bumpEventSinksVersion { db with eventSinks := sinks })
  | updateSink {id : Nat} {existing row : EventSinkRow} {target : DeliveryTargetRow}
      {sinks : RowTable EventSinkRow} (hupdate : db.eventSinks.update? id row = some sinks)
      (hget : db.eventSinks.get id = some existing) (hsinkId : row.sinkId = existing.sinkId)
      (htarget : db.deliveryTargets.get row.deliveryTargetId = some target)
      (hreadable : DestinationReadable target row) :
      SinksChange db (bumpEventSinksVersion { db with eventSinks := sinks })
  | deleteSink {id : Nat} {existing : EventSinkRow} (hget : db.eventSinks.get id = some existing) :
      SinksChange db (bumpEventSinksVersion { db with eventSinks := db.eventSinks.delete id })

omit [SerdeText] [DurationCodec] in
theorem parseTargetType_eq_ok {value targetType : String}
    (h : parseTargetType value = .ok targetType) :
    targetType = value ∧ ∃ provider, providerFor value = some provider := by
  rw [parseTargetType] at h
  split at h
  · next hsome =>
    cases h
    exact ⟨rfl, Option.isSome_iff_exists.mp hsome⟩
  · cases h

omit [DurationCodec] in
/-- A target configuration that was normalized is readable. -/
theorem targetReadable_of_normalize {row : DeliveryTargetRow} {configJson : Value}
    (h : normalizeDeliveryTargetConfig row.targetType configJson = .ok row.configJson) :
    TargetReadable row := by
  rw [normalizeDeliveryTargetConfig] at h
  cases hprovider : providerFor row.targetType with
  | none =>
    rw [hprovider] at h
    cases h
  | some provider =>
    simp only [hprovider] at h
    exact ⟨provider, hprovider, SinkConfig.normalize_targetNormal h⟩

/-- A destination that was normalized is readable. -/
theorem destinationReadable_of_normalize {target : DeliveryTargetRow} {row : EventSinkRow}
    {configJson : Value}
    (h : normalizeEventSinkConfig target.targetType configJson = .ok row.destinationJson) :
    DestinationReadable target row := by
  rw [normalizeEventSinkConfig] at h
  cases hprovider : providerFor target.targetType with
  | none =>
    rw [hprovider] at h
    cases h
  | some provider =>
    simp only [hprovider] at h
    exact ⟨provider, hprovider, Provider.normalizeEventSinkConfig_normal h⟩

/-- **The changes of an operation.** -/
theorem EventSinkOp.run_ok {db db' : Database} {op : EventSinkOp} (h : op.run db = .ok db') :
    SinksChange db db' := by
  cases op with
  | createDeliveryTarget input =>
    obtain ⟨a, h⟩ := map_snd_eq_ok.mp h
    simp only [EventSinkRepository.createDeliveryTarget, bind_eq_ok, mapError_eq_ok, okOr_eq_ok,
      pure_eq_ok] at h
    obtain ⟨configJson, hnormalize, ⟨id, targets⟩, hinsert, _, _, h⟩ := h
    cases h
    exact .createTarget hinsert (targetReadable_of_normalize hnormalize)
  | updateDeliveryTarget id input =>
    obtain ⟨a, h⟩ := map_snd_eq_ok.mp h
    simp only [EventSinkRepository.updateDeliveryTarget, bind_eq_ok, okOr_eq_ok, pure_eq_ok,
      findDeliveryTargetById] at h
    obtain ⟨existing, hget, targetType, htype, configJson, hconfig, targets, hupdate, _, _, h⟩ := h
    obtain ⟨rfl, -⟩ := parseTargetType_eq_ok htype
    cases h
    refine .updateTarget hupdate hget rfl rfl ?_
    intro hreadable
    cases hinput : input.configJson with
    | none =>
      rw [hinput, updatedConfigJson] at hconfig
      cases hconfig
      exact hreadable
    | some inputJson =>
      rw [hinput, updatedConfigJson, mapError_eq_ok] at hconfig
      exact targetReadable_of_normalize hconfig
  | deleteDeliveryTarget id =>
    obtain ⟨a, h⟩ := map_snd_eq_ok.mp h
    simp only [EventSinkRepository.deleteDeliveryTarget, bind_eq_ok, okOr_eq_ok, pure_eq_ok,
      ensure_eq_ok, findDeliveryTargetById] at h
    obtain ⟨existing, hget, _, hunused, h⟩ := h
    cases h
    refine .deleteTarget hget fun sinkId sink hsink heq => ?_
    simpa [heq] using RowTable.find?_eq_none.mp hunused sinkId sink hsink
  | createEventSink input =>
    obtain ⟨a, h⟩ := map_snd_eq_ok.mp h
    simp only [EventSinkRepository.createEventSink, bind_eq_ok, mapError_eq_ok, okOr_eq_ok,
      pure_eq_ok, findDeliveryTargetById] at h
    obtain ⟨_, hid, target, htarget, targetType, htype, destinationJson, hnormalize, ⟨id, sinks⟩,
      hinsert, h⟩ := h
    obtain ⟨rfl, -⟩ := parseTargetType_eq_ok htype
    cases h
    exact .createSink hinsert hid htarget (destinationReadable_of_normalize hnormalize)
  | updateEventSink id input =>
    obtain ⟨a, h⟩ := map_snd_eq_ok.mp h
    simp only [EventSinkRepository.updateEventSink, bind_eq_ok, mapError_eq_ok, okOr_eq_ok,
      pure_eq_ok, findDeliveryTargetById, findEventSinkById] at h
    obtain ⟨existing, hget, target, htarget, targetType, htype, destinationJson, hnormalize, sinks,
      hupdate, h⟩ := h
    obtain ⟨rfl, -⟩ := parseTargetType_eq_ok htype
    cases h
    exact .updateSink hupdate hget rfl htarget (destinationReadable_of_normalize hnormalize)
  | deleteEventSink id =>
    obtain ⟨a, h⟩ := map_snd_eq_ok.mp h
    simp only [EventSinkRepository.deleteEventSink, bind_eq_ok, okOr_eq_ok, pure_eq_ok,
      findEventSinkById] at h
    obtain ⟨existing, hget, h⟩ := h
    cases h
    exact .deleteSink hget

/-! ### The invariant -/

/-- **The configurations of the sinks are well formed**: the stored configurations can be read, every
sink has its target, and its id was checked. -/
structure SinksWellFormed (db : Database) : Prop where
  targets : ∀ id row, db.deliveryTargets.get id = some row → TargetReadable row
  sinks : ∀ id row, db.eventSinks.get id = some row →
    ∃ target, db.deliveryTargets.get row.deliveryTargetId = some target ∧
      DestinationReadable target row
  sinkIds : ∀ id row, db.eventSinks.get id = some row → validateEventSinkId row.sinkId = .ok ()

/-- The database after the migrations has no sinks. -/
theorem SinksWellFormed.migrated : SinksWellFormed Database.migrated := ⟨nofun, nofun, nofun⟩

/-- A destination stays readable where the type of its target does. -/
theorem DestinationReadable.congr {target target' : DeliveryTargetRow} {row : EventSinkRow}
    (h : DestinationReadable target row) (htype : target'.targetType = target.targetType) :
    DestinationReadable target' row := by
  obtain ⟨provider, hprovider, hnormal⟩ := h
  exact ⟨provider, htype ▸ hprovider, hnormal⟩

/-- **Every operation keeps the configurations well formed.** -/
theorem SinksChange.wellFormed {db db' : Database} (hchange : SinksChange db db')
    (h : SinksWellFormed db) : SinksWellFormed db' := by
  obtain ⟨htargets, hsinks, hids⟩ := h
  cases hchange with
  | createTarget hinsert hreadable =>
    obtain ⟨rfl, -, -, hget'⟩ := RowTable.insert?_eq_some hinsert
    refine ⟨fun id row hrow => ?_, fun id row hrow => ?_, hids⟩
    · simp only [bumpEventSinksVersion, hget'] at hrow
      split at hrow
      · cases hrow
        exact hreadable
      · exact htargets id row hrow
    · obtain ⟨target, htarget, hdestination⟩ := hsinks id row hrow
      refine ⟨target, ?_, hdestination⟩
      simp only [bumpEventSinksVersion, hget', if_neg (Nat.ne_of_lt (RowTable.lt_nextId htarget)),
        htarget]
  | updateTarget hupdate hget htargetId htype hreadable =>
    obtain ⟨-, -, hget'⟩ := RowTable.update?_eq_some hupdate
    refine ⟨fun id row hrow => ?_, fun id row hrow => ?_, hids⟩
    · simp only [bumpEventSinksVersion, hget', hget, Option.map_some] at hrow
      split at hrow
      · cases hrow
        exact hreadable (htargets _ _ hget)
      · exact htargets id row hrow
    · obtain ⟨target, htarget, hdestination⟩ := hsinks id row hrow
      simp only [bumpEventSinksVersion, hget', hget, Option.map_some]
      split
      · next heq =>
        rw [heq, hget] at htarget
        cases htarget
        exact ⟨_, rfl, hdestination.congr htype⟩
      · exact ⟨target, htarget, hdestination⟩
  | deleteTarget hget hunused =>
    refine ⟨fun id row hrow => ?_, fun id row hrow => ?_, hids⟩
    · simp only [bumpEventSinksVersion, RowTable.get_delete] at hrow
      split at hrow
      · cases hrow
      · exact htargets id row hrow
    · obtain ⟨target, htarget, hdestination⟩ := hsinks id row hrow
      refine ⟨target, ?_, hdestination⟩
      simp only [bumpEventSinksVersion, RowTable.get_delete, if_neg (hunused id row hrow), htarget]
  | createSink hinsert hid htarget hreadable =>
    obtain ⟨rfl, -, -, hget'⟩ := RowTable.insert?_eq_some hinsert
    refine ⟨htargets, fun id row hrow => ?_, fun id row hrow => ?_⟩
    all_goals
      simp only [bumpEventSinksVersion, hget'] at hrow
      split at hrow
    · cases hrow
      exact ⟨_, htarget, hreadable⟩
    · exact hsinks id row hrow
    · cases hrow
      exact hid
    · exact hids id row hrow
  | updateSink hupdate hget hsinkId htarget hreadable =>
    obtain ⟨-, -, hget'⟩ := RowTable.update?_eq_some hupdate
    refine ⟨htargets, fun id row hrow => ?_, fun id row hrow => ?_⟩
    all_goals
      simp only [bumpEventSinksVersion, hget', hget, Option.map_some] at hrow
      split at hrow
    · cases hrow
      exact ⟨_, htarget, hreadable⟩
    · exact hsinks id row hrow
    · cases hrow
      rw [hsinkId]
      exact hids _ _ hget
    · exact hids id row hrow
  | deleteSink hget =>
    refine ⟨htargets, fun id row hrow => ?_, fun id row hrow => ?_⟩
    all_goals
      simp only [bumpEventSinksVersion, RowTable.get_delete] at hrow
      split at hrow
    · cases hrow
    · exact hsinks id row hrow
    · cases hrow
    · exact hids id row hrow

end Ingest4x
