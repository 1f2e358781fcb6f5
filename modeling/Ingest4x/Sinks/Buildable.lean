import Ingest4x.Repositories.EventSinks

/-! # Building the router from the database

Whether the router can be built from the sinks of a database that the repository's operations made.
The configurations of enabled sinks can always be read again. A Parquet target, however, is accepted
with any scheme, and the constructor knows four of them: one such target fails the router of all
sinks.

* **`SinksReachable`** — the databases after any operations.
* **`loadRouter_isOk_iff`** — when the router is built. -/

namespace Ingest4x

open Result Sinks EventSinkRepository

section Runs

variable [SinkBackends] [SerdeText] [DurationCodec]

/-- **The databases that the repository makes** of the migrated one. -/
inductive SinksReachable : Database → Prop
  | migrated : SinksReachable Database.migrated
  | step {db db' : Database} {op : EventSinkOp} (h : SinksReachable db) (hrun : op.run db = .ok db') :
      SinksReachable db'

theorem SinksReachable.wellFormed {db : Database} (h : SinksReachable db) : SinksWellFormed db := by
  induction h with
  | migrated => exact SinksWellFormed.migrated
  | step _ hrun ih => exact (EventSinkOp.run_ok hrun).wellFormed ih

/-- Why a router could not be loaded. -/
inductive LoadError
  | repository (error : EventSinkRepositoryError)
  | build (message : String)
  deriving DecidableEq

/-- **The router of a database**: `list_enabled_runtime_sinks` and `from_runtime_sinks`. -/
def loadRouter (db : Database) : Except LoadError EventRouter := do
  let sinks ← (listEnabledRuntimeSinks db).mapError .repository
  (EventRouter.fromRuntimeSinks sinks).mapError .build

/-- A sink and its target are enabled. -/
def EnabledSink (db : Database) (row : EventSinkRow) (target : DeliveryTargetRow) : Prop :=
  (∃ id, db.eventSinks.get id = some row) ∧ row.enabled = true ∧
    db.deliveryTargets.get row.deliveryTargetId = some target ∧ target.enabled = true

/-- **The enabled Parquet targets in use have a scheme with a constructor.** -/
def SchemesSupported (db : Database) : Prop :=
  ∀ row target, EnabledSink db row target → target.targetType = "parquet" →
    Parquet.SupportedScheme target.configJson

omit [SerdeText] [DurationCodec] in
theorem toDeliveryTarget_eq_ok {id : Nat} {row : DeliveryTargetRow} {provider : Provider}
    (hprovider : providerFor row.targetType = some provider) : toDeliveryTarget id row =
      .ok ⟨id, row.targetId, row.name, row.targetType, row.configJson, row.enabled⟩ := by
  rw [toDeliveryTarget, parseTargetType, hprovider]
  rfl

/-- **The listing succeeds**, and every sink in it can be read; which of them can be built is a matter
of their targets' schemes. -/
theorem runtimeSinks_isOk (hbackends : BackendsSucceed) {db : Database} (hdb : SinksWellFormed db)
    {rows : List (Nat × EventSinkRow)} (hrows : ∀ e ∈ rows, db.eventSinks.get e.1 = some e.2) :
    ∃ sinks, runtimeSinks db rows = .ok sinks ∧
      ((∀ sink ∈ sinks, ∃ entry, buildEntry sink = .ok entry) ↔
        ∀ e ∈ rows, ∀ target, db.deliveryTargets.get e.2.deliveryTargetId = some target →
          target.enabled = true → target.targetType = "parquet" →
            Parquet.SupportedScheme target.configJson) := by
  induction rows with
  | nil => exact ⟨[], rfl, by simp⟩
  | cons e rows ih =>
    obtain ⟨id, row⟩ := e
    obtain ⟨sinks, hlist, hiff⟩ := ih fun e he => hrows e (List.mem_cons_of_mem _ he)
    have hrow := hrows (id, row) List.mem_cons_self
    obtain ⟨target, htarget, provider, hprovider, hnormal⟩ := hdb.sinks id row hrow
    obtain ⟨provider', hprovider', htargetNormal⟩ := hdb.targets _ _ htarget
    rw [hprovider] at hprovider'
    cases hprovider'
    rw [runtimeSinks, htarget]
    by_cases henabled : target.enabled = true
    · rw [Option.filter_some, if_pos henabled]
      simp only [toDeliveryTarget_eq_ok hprovider, hlist]
      refine ⟨_, rfl, ?_⟩
      rw [List.forall_mem_cons, List.forall_mem_cons, hiff]
      refine and_congr_left fun _ => ?_
      rw [buildEntry_isOk hbackends hprovider htargetNormal hnormal]
      simp [htarget, henabled]
    · rw [Option.filter_some, if_neg henabled]
      refine ⟨sinks, hlist, ?_⟩
      rw [List.forall_mem_cons, hiff]
      refine (and_iff_right ?_).symm
      intro target' htarget' henabled'
      rw [htarget] at htarget'
      cases htarget'
      exact absurd henabled' henabled

/-- **When the router is built**: in every database that the repository makes, exactly when every
enabled Parquet target that an enabled sink uses has one of the supported schemes. -/
theorem loadRouter_isOk_iff (hbackends : BackendsSucceed) {db : Database} (h : SinksReachable db) :
    (∃ router, loadRouter db = .ok router) ↔ SchemesSupported db := by
  have hmem : ∀ e : Nat × EventSinkRow, e ∈ db.eventSinks.all.filter (fun e => e.2.enabled) ↔
      db.eventSinks.get e.1 = some e.2 ∧ e.2.enabled = true := by
    intro e
    rw [List.mem_filter, ← RowTable.mem_all]
  obtain ⟨sinks, hlist, hiff⟩ := runtimeSinks_isOk hbackends h.wellFormed
    fun e he => ((hmem e).mp he).1
  have hload : (∃ router, loadRouter db = .ok router) ↔
      ∀ sink ∈ sinks, ∃ entry, buildEntry sink = .ok entry := by
    have hadd : (∃ router, EventRouter.empty.addSinks sinks = .ok router) ↔
        ∀ sink ∈ sinks, ∃ entry, buildEntry sink = .ok entry := EventRouter.addSinks_isOk
    rw [← hadd]
    refine exists_congr fun router => ?_
    simp only [loadRouter, bind_eq_ok, mapError_eq_ok, listEnabledRuntimeSinks, hlist,
      Except.ok.injEq, exists_eq_left', EventRouter.fromRuntimeSinks]
  rw [hload, hiff, SchemesSupported]
  constructor
  · rintro hall row target ⟨⟨id, hrow⟩, henabled, htarget, htargetEnabled⟩ htype
    exact hall (id, row) ((hmem (id, row)).mpr ⟨hrow, henabled⟩) target htarget htargetEnabled htype
  · intro hall e he target htarget htargetEnabled htype
    obtain ⟨hrow, henabled⟩ := (hmem e).mp he
    exact hall e.2 target ⟨⟨e.1, hrow⟩, henabled, htarget, htargetEnabled⟩ htype

/-- Operations one after another. -/
def EventSinkOp.runAll (db : Database) : List EventSinkOp → Except EventSinkRepositoryError Database
  | [] => .ok db
  | op :: ops => (op.run db).bind fun db' => runAll db' ops

theorem SinksReachable.runAll {db db' : Database} {ops : List EventSinkOp} (h : SinksReachable db)
    (hrun : EventSinkOp.runAll db ops = .ok db') : SinksReachable db' := by
  induction ops generalizing db with
  | nil =>
    cases hrun
    exact h
  | cons op ops ih =>
    obtain ⟨db₁, hop, hops⟩ := bind_eq_ok.mp hrun
    exact ih (h.step hop) hops

end Runs

/-! ### A run -/

/-- Client libraries that accept everything. -/
@[reducible] def acceptingBackends : SinkBackends := ⟨fun _ => .ok (), fun _ _ => .ok ()⟩

/-- An error text that names the type. -/
@[reducible] def typeNameText : SerdeText := ⟨fun typeName _ => typeName⟩

/-- Durations that are written in seconds, as `"60s"`. -/
@[reducible] def secondsCodec : DurationCodec where
  parseDuration s := if s = "60s" then .ok 60000000000 else .error "invalid duration"

/-- A Parquet target with a scheme, and an enabled sink on it. -/
def parquetOps (scheme : String) : List EventSinkOp :=
  [.createDeliveryTarget {
      targetId := "lake", name := "Lake", targetType := "parquet", enabled := true
      configJson := .object [
        ("options", .object [("root", .string "data")]), ("scheme", .string scheme)] },
    .createEventSink {
      sinkId := "raw", name := "Raw", deliveryTargetId := 1, autoOffsetReset := .latest
      enabled := true, destinationJson := .object [("path_prefix", .string "events")] }]

/-- The database of a run, and whether its router is built. -/
theorem parquetOps_run (scheme : String) (built : Bool)
    (h : ((@EventSinkOp.runAll acceptingBackends typeNameText secondsCodec .migrated
      (parquetOps scheme)).toOption.map fun db =>
        (@loadRouter acceptingBackends typeNameText secondsCodec db).toOption.isSome) = some built) :
    ∃ db, @SinksReachable acceptingBackends typeNameText secondsCodec db ∧
      (@loadRouter acceptingBackends typeNameText secondsCodec db).toOption.isSome = built := by
  obtain ⟨db, hdb, hbuilt⟩ := Option.map_eq_some_iff.mp h
  cases hrun : @EventSinkOp.runAll acceptingBackends typeNameText secondsCodec .migrated
      (parquetOps scheme) with
  | error e =>
    rw [hrun] at hdb
    cases hdb
  | ok db' =>
    rw [hrun] at hdb
    cases hdb
    exact ⟨db, @SinksReachable.runAll acceptingBackends typeNameText secondsCodec _ _ _
      (@SinksReachable.migrated acceptingBackends typeNameText secondsCodec) hrun, hbuilt⟩

/-- **A scheme without a constructor is accepted**, and then no router is built. -/
theorem loadRouter_fails : ¬∀ db, @SinksReachable acceptingBackends typeNameText secondsCodec db →
    ∃ router, @loadRouter acceptingBackends typeNameText secondsCodec db = .ok router := by
  intro hall
  obtain ⟨db, hreachable, hbuilt⟩ := parquetOps_run "gcs" false (by decide +kernel)
  obtain ⟨router, hrouter⟩ := hall db hreachable
  rw [hrouter] at hbuilt
  cases hbuilt

/-- With the scheme of a file system the router is built. -/
theorem loadRouter_isOk_iff_sample : ∃ db,
    @SinksReachable acceptingBackends typeNameText secondsCodec db ∧ SchemesSupported db := by
  obtain ⟨db, hreachable, hbuilt⟩ := parquetOps_run "fs" true (by decide +kernel)
  refine ⟨db, hreachable, ?_⟩
  refine (@loadRouter_isOk_iff acceptingBackends typeNameText secondsCodec
    (@BackendsSucceed.mk acceptingBackends (fun _ => rfl) fun _ _ => rfl) db hreachable).mp ?_
  cases hrouter : @loadRouter acceptingBackends typeNameText secondsCodec db with
  | error e =>
    rw [hrouter] at hbuilt
    cases hbuilt
  | ok router => exact ⟨router, rfl⟩

end Ingest4x
