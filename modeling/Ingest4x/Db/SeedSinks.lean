import Ingest4x.Db.Seed
import Mathlib.Logic.Function.Basic

/-! # The seeded sinks

When the steps of the seed that make delivery targets and sinks succeed. Seen from the seed, a database
is the types of its targets and the set of its sinks: every step succeeds or fails by these, and
changes them in one place.

* **`targetType`, `hasSink`** — what the seed sees.
* **`SinksAccepted`** — the databases that the steps accept; **`seedSinks_isOk_iff`**.
* **`SinksSeeded`** — the databases that the steps do not change. -/

namespace Ingest4x.Seed

open Result Sinks

section View

/-- **The type of a delivery target**, by its id. -/
def targetType (db : Database) (targetId : String) : Option String :=
  (findTarget db targetId).map fun target => target.2.targetType

/-- **A sink is there**, by its id. -/
def hasSink (db : Database) (sinkId : String) : Bool := (findSink db sinkId).isSome

/-- The tables that operations on sinks leave alone. -/
structure OnlySinks (db db' : Database) : Prop where
  projects : db'.projects = db.projects
  processorScripts : db'.processorScripts = db.processorScripts
  processorScriptModules : db'.processorScriptModules = db.processorScriptModules
  projectProcessors : db'.projectProcessors = db.projectProcessors

theorem OnlySinks.refl (db : Database) : OnlySinks db db := ⟨rfl, rfl, rfl, rfl⟩

theorem OnlySinks.trans {db₀ db₁ db₂ : Database} (h₁ : OnlySinks db₀ db₁) (h₂ : OnlySinks db₁ db₂) :
    OnlySinks db₀ db₂ :=
  ⟨h₂.1.trans h₁.1, h₂.2.trans h₁.2, h₂.3.trans h₁.3, h₂.4.trans h₁.4⟩

/-- A target is seen by its row, as target ids are unique. -/
theorem findTarget_eq_some {db : Database} {targetId : String} {id : Nat} {row : DeliveryTargetRow} :
    findTarget db targetId = some (id, row) ↔
      db.deliveryTargets.get id = some row ∧ row.targetId = targetId := by
  constructor
  · intro h
    obtain ⟨hget, hp⟩ := RowTable.find?_eq_some h
    exact ⟨hget, of_decide_eq_true hp⟩
  · rintro ⟨hget, hid⟩
    cases hfind : findTarget db targetId with
    | none =>
      have hnot := RowTable.find?_eq_none.mp hfind id row hget
      simp [hid] at hnot
    | some found =>
      obtain ⟨id', row'⟩ := found
      obtain ⟨hget', hp⟩ := RowTable.find?_eq_some hfind
      have heq := db.deliveryTargets.unique id' id row' row hget' hget
        (by simp [UniqueIndexes.clash, hid, of_decide_eq_true hp])
      rw [heq, hget] at hget'
      exact congrArg some (Prod.ext heq (Option.some.inj hget').symm)

theorem targetType_eq_some {db : Database} {targetId type : String} :
    targetType db targetId = some type ↔ ∃ id row, db.deliveryTargets.get id = some row ∧
      row.targetId = targetId ∧ row.targetType = type := by
  rw [targetType, Option.map_eq_some_iff]
  constructor
  · rintro ⟨⟨id, row⟩, hfind, rfl⟩
    obtain ⟨hget, hid⟩ := findTarget_eq_some.mp hfind
    exact ⟨id, row, hget, hid, rfl⟩
  · rintro ⟨id, row, hget, hid, rfl⟩
    exact ⟨(id, row), findTarget_eq_some.mpr ⟨hget, hid⟩, rfl⟩

theorem hasSink_eq_true {db : Database} {sinkId : String} :
    hasSink db sinkId = true ↔ ∃ id row, db.eventSinks.get id = some row ∧ row.sinkId = sinkId := by
  rw [hasSink, findSink, Option.isSome_iff_ne_none, ne_eq, RowTable.find?_eq_none]
  simp only [not_forall, decide_eq_false_iff_not, not_not, exists_prop]

/-- **A new target is seen** at its id. -/
theorem targetType_insert {db db' : Database} {row : DeliveryTargetRow} {id : Nat}
    {targets : RowTable DeliveryTargetRow}
    (hinsert : db.deliveryTargets.insert? row = some (id, targets))
    (hdb' : db'.deliveryTargets = targets) :
    targetType db' = Function.update (targetType db) row.targetId (some row.targetType) := by
  subst hdb'
  obtain ⟨rfl, hclash, -, hget⟩ := RowTable.insert?_eq_some hinsert
  funext targetId
  refine Option.ext fun type => ?_
  rw [targetType_eq_some, Function.update_apply]
  constructor
  · rintro ⟨id, row', hrow', rfl, rfl⟩
    rw [hget] at hrow'
    split at hrow'
    · cases hrow'
      rw [if_pos rfl]
    · have hne : row.targetId ≠ row'.targetId := by
        simpa [UniqueIndexes.clash] using RowTable.clashes_eq_false.mp hclash id row' hrow'
      rw [if_neg hne.symm, targetType_eq_some]
      exact ⟨id, row', hrow', rfl, rfl⟩
  · intro h
    split at h
    · next htargetId =>
      cases h
      exact ⟨_, row, (hget _).trans (if_pos rfl), htargetId.symm, rfl⟩
    · obtain ⟨id, row', hrow', hid, htype⟩ := targetType_eq_some.mp h
      refine ⟨id, row', ?_, hid, htype⟩
      rw [hget, if_neg (Nat.ne_of_lt (RowTable.lt_nextId hrow')), hrow']

/-- **A new sink is seen** at its id. -/
theorem hasSink_insert {db db' : Database} {row : EventSinkRow} {id : Nat}
    {sinks : RowTable EventSinkRow} (hinsert : db.eventSinks.insert? row = some (id, sinks))
    (hdb' : db'.eventSinks = sinks) :
    hasSink db' = Function.update (hasSink db) row.sinkId true := by
  subst hdb'
  obtain ⟨rfl, -, -, hget⟩ := RowTable.insert?_eq_some hinsert
  funext sinkId
  rw [Bool.eq_iff_iff, hasSink_eq_true, Function.update_apply]
  constructor
  · rintro ⟨id, row', hrow', rfl⟩
    rw [hget] at hrow'
    split at hrow'
    · cases hrow'
      rw [if_pos rfl]
    · split
      · rfl
      · exact hasSink_eq_true.mpr ⟨id, row', hrow', rfl⟩
  · intro h
    split at h
    · next hsinkId => exact ⟨_, row, (hget _).trans (if_pos rfl), hsinkId.symm⟩
    · obtain ⟨id, row', hrow', hid⟩ := hasSink_eq_true.mp h
      refine ⟨id, row', ?_, hid⟩
      rw [hget, if_neg (Nat.ne_of_lt (RowTable.lt_nextId hrow')), hrow']

end View

/-! ### What the providers accept -/

section Accepted

variable [SinkBackends] [SerdeText] [DurationCodec]

omit [SinkBackends] [DurationCodec] in
/-- A configuration is normalized exactly when it is accepted. -/
theorem normalize_isOk {α : Type} {c : SinkConfig α} {configJson : Value} :
    (∃ stored, c.normalize configJson = .ok stored) ↔
      ∃ config, c.parse configJson = .ok config := by
  rw [SinkConfig.normalize]
  cases c.parse configJson with
  | error message => exact ⟨by rintro ⟨_, ⟨⟩⟩, by rintro ⟨_, ⟨⟩⟩⟩
  | ok config => exact ⟨fun _ => ⟨config, rfl⟩, fun _ => ⟨_, rfl⟩⟩

omit [SinkBackends] in
/-- **A destination is normalized** exactly when its batch settings and the rest of it are accepted. -/
theorem normalizeEventSinkConfig_isOk {provider : Provider} {configJson sinkConfigJson : Value}
    {batchConfig : Option EventSinkBatchConfig}
    (hsplit : splitEventSinkBatchConfig configJson = .ok (sinkConfigJson, batchConfig)) :
    (∃ stored, provider.normalizeEventSinkConfig configJson = .ok stored) ↔
      ∃ config, provider.destination.parse sinkConfigJson = .ok config := by
  rw [← normalize_isOk, Provider.normalizeEventSinkConfig]
  simp only [hsplit]
  cases hnormalize : provider.destination.normalize sinkConfigJson with
  | error message => simp
  | ok normalized =>
    refine ⟨fun _ => ⟨normalized, rfl⟩, fun _ => ?_⟩
    obtain ⟨config, rfl, -⟩ := SinkConfig.normalize_ok hnormalize
    obtain ⟨table, hencode, -⟩ := provider.destination.encode_object config
    simp only [hencode]
    cases batchConfig with
    | none => exact ⟨_, rfl⟩
    | some batch => exact ⟨_, rfl⟩

omit [SinkBackends] [DurationCodec] in
theorem parse_of_decode_none {α : Type} {c : SinkConfig α} {configJson : Value}
    (h : c.codec.decode configJson = none) : ¬∃ config, c.parse configJson = .ok config := by
  rintro ⟨config, hparse⟩
  rw [SinkConfig.parse_ok, h] at hparse
  exact absurd hparse.2.1 (by simp)

/-- The types whose sinks have no required field. -/
def acceptsEmpty : List String := ["stdout", "blackhole"]

/-- **The empty destination** is accepted for targets of two types. -/
theorem normalizeEventSinkConfig_empty {provider : Provider} (h : provider ∈ providers) :
    (∃ stored, provider.normalizeEventSinkConfig (.object []) = .ok stored) ↔
      provider.targetType ∈ acceptsEmpty := by
  have hsplit : splitEventSinkBatchConfig (.object []) = .ok (.object [], none) := rfl
  rw [normalizeEventSinkConfig_isOk hsplit]
  simp only [providers, List.mem_cons, List.not_mem_nil, or_false] at h
  rcases h with rfl | rfl | rfl | rfl
  · exact iff_of_true ⟨⟨.ok, 0⟩, SinkConfig.parse_ok.mpr ⟨rfl, by decide +kernel, rfl⟩⟩
      (show "blackhole" ∈ acceptsEmpty by decide)
  · exact iff_of_false (parse_of_decode_none
      (show Kafka.DestinationConfig.sinkConfig.codec.decode (.object []) = none by decide +kernel))
      (show "kafka" ∉ acceptsEmpty by decide)
  · exact iff_of_false (parse_of_decode_none
      (show Parquet.DestinationConfig.sinkConfig.codec.decode (.object []) = none by decide +kernel))
      (show "parquet" ∉ acceptsEmpty by decide)
  · exact iff_of_true ⟨⟨⟩, SinkConfig.parse_ok.mpr ⟨rfl, by decide +kernel, rfl⟩⟩
      (show "stdout" ∈ acceptsEmpty by decide)

/-- The seeded Parquet destination without its batch settings. -/
def pathPrefixOnly : Value := .object [("path_prefix", .string "events")]

omit [SinkBackends] in
/-- The batch settings of the seeded Parquet destination are accepted. -/
theorem split_parquetDestination {duration : Nat}
    (hduration : DurationCodec.parseDuration "60s" = .ok duration) :
    splitEventSinkBatchConfig parquetDestination =
      .ok (pathPrefixOnly, some ⟨some 1000, some 67108864, some "60s"⟩) := by
  have hdecode : batchCodec.decode (.object [
      ("max_bytes", .number (.posInt 67108864)),
      ("max_events", .number (.posInt 1000)),
      ("timeout", .string "60s")]) = some ⟨some 1000, some 67108864, some "60s"⟩ := by
    decide +kernel
  have hremove : Value.removeField [
      ("batch", .object [
        ("max_bytes", .number (.posInt 67108864)),
        ("max_events", .number (.posInt 1000)),
        ("timeout", .string "60s")]),
      ("path_prefix", .string "events")] "batch" =
      (some (.object [
        ("max_bytes", .number (.posInt 67108864)),
        ("max_events", .number (.posInt 1000)),
        ("timeout", .string "60s")]), [("path_prefix", .string "events")]) := by
    decide +kernel
  have hvalidate : validateBatch ⟨some 1000, some 67108864, some "60s"⟩ = .ok () := by
    simp [validateBatch, checks, hduration]
  rw [parquetDestination, splitEventSinkBatchConfig, hremove]
  simp only [parseBatch, hdecode, hvalidate]
  rfl

/-- **The seeded Parquet destination** is accepted for Parquet targets only. -/
theorem normalizeEventSinkConfig_parquet {duration : Nat}
    (hduration : DurationCodec.parseDuration "60s" = .ok duration) {provider : Provider}
    (h : provider ∈ providers) :
    (∃ stored, provider.normalizeEventSinkConfig parquetDestination = .ok stored) ↔
      provider.targetType = "parquet" := by
  rw [normalizeEventSinkConfig_isOk (split_parquetDestination hduration)]
  simp only [providers, List.mem_cons, List.not_mem_nil, or_false] at h
  rcases h with rfl | rfl | rfl | rfl
  · exact iff_of_false (parse_of_decode_none
      (show Blackhole.DestinationConfig.sinkConfig.codec.decode pathPrefixOnly = none by
        decide +kernel)) (show "blackhole" ≠ "parquet" by decide)
  · exact iff_of_false (parse_of_decode_none
      (show Kafka.DestinationConfig.sinkConfig.codec.decode pathPrefixOnly = none by
        decide +kernel)) (show "kafka" ≠ "parquet" by decide)
  · refine iff_of_true ⟨⟨"events", [], true⟩, SinkConfig.parse_ok.mpr ⟨rfl, ?_, ?_⟩⟩ rfl
    · show Parquet.DestinationConfig.sinkConfig.codec.decode pathPrefixOnly =
        some ⟨"events", [], true⟩
      decide +kernel
    · show Parquet.DestinationConfig.validate ⟨"events", [], true⟩ = .ok ()
      decide +kernel
  · exact iff_of_false (parse_of_decode_none
      (show EmptyConfig.sinkConfig.codec.decode pathPrefixOnly = none by
        decide +kernel)) (show "stdout" ≠ "parquet" by decide)

omit [DurationCodec] in
/-- **The configurations of the seeded targets** are accepted. -/
theorem normalizeDeliveryTargetConfig_seeded {input : CreateDeliveryTargetInput}
    (h : input ∈ [localKafka, localParquet, defaultStdout, loadtestBlackhole]) :
    (providerFor input.targetType).isSome = true ∧
      ∃ stored, normalizeDeliveryTargetConfig input.targetType input.configJson = .ok stored := by
  simp only [List.mem_cons, List.not_mem_nil, or_false] at h
  rcases h with rfl | rfl | rfl | rfl
  · refine ⟨rfl, normalize_isOk.mpr ⟨⟨"127.0.0.1:9092", "3000", "0", "100", "300", "100"⟩,
      SinkConfig.parse_ok.mpr ⟨rfl, ?_, ?_⟩⟩⟩
    · show Kafka.TargetConfig.sinkConfig.codec.decode localKafka.configJson =
        some ⟨"127.0.0.1:9092", "3000", "0", "100", "300", "100"⟩
      decide +kernel
    · show Kafka.TargetConfig.validate ⟨"127.0.0.1:9092", "3000", "0", "100", "300", "100"⟩ = .ok ()
      decide +kernel
  · refine ⟨rfl, normalize_isOk.mpr ⟨⟨"fs", .ofPairs [("root", "data")]⟩,
      SinkConfig.parse_ok.mpr ⟨rfl, ?_, ?_⟩⟩⟩
    · show Parquet.TargetConfig.sinkConfig.codec.decode localParquet.configJson =
        some ⟨"fs", .ofPairs [("root", "data")]⟩
      decide +kernel
    · show Parquet.TargetConfig.validate ⟨"fs", .ofPairs [("root", "data")]⟩ = .ok ()
      decide +kernel
  · exact ⟨rfl, normalize_isOk.mpr ⟨⟨⟩, SinkConfig.parse_ok.mpr ⟨rfl, by decide +kernel, rfl⟩⟩⟩
  · exact ⟨rfl, normalize_isOk.mpr ⟨⟨⟩, SinkConfig.parse_ok.mpr ⟨rfl, by decide +kernel, rfl⟩⟩⟩

end Accepted

/-! ### The steps -/

section Steps

variable [SinkBackends] [SerdeText]

/-- **What the seed sees after a target was made sure of.** -/
structure TargetEnsured (input : CreateDeliveryTargetInput) (db db' : Database) (id : Nat) : Prop where
  target : ∃ row, db'.deliveryTargets.get id = some row ∧ row.targetId = input.targetId
  targetTypes : targetType db' = Function.update (targetType db) input.targetId
    (some ((targetType db input.targetId).getD input.targetType))
  sinks : hasSink db' = hasSink db
  frame : OnlySinks db db'

/-- **A seeded target** is found or made, always. -/
theorem findOrCreateTarget_spec {input : CreateDeliveryTargetInput}
    (hinput : input ∈ [localKafka, localParquet, defaultStdout, loadtestBlackhole])
    (db : Database) : ∃ id db', findOrCreateTarget db input = .ok (id, db') ∧
      TargetEnsured input db db' id := by
  rw [findOrCreateTarget]
  cases hfind : findTarget db input.targetId with
  | some found =>
    obtain ⟨id, row⟩ := found
    obtain ⟨hget, hid⟩ := findTarget_eq_some.mp hfind
    refine ⟨id, db, rfl, ⟨row, hget, hid⟩, ?_, rfl, .refl db⟩
    have htype : targetType db input.targetId = some row.targetType := by rw [targetType, hfind]; rfl
    rw [htype, Option.getD_some, ← htype, Function.update_eq_self]
  | none =>
    obtain ⟨hprovider, stored, hnormalize⟩ := normalizeDeliveryTargetConfig_seeded hinput
    have htype : targetType db input.targetId = none := by rw [targetType, hfind]; rfl
    have hclash : db.deliveryTargets.clashes
        ⟨input.targetId, input.name, input.targetType, stored, input.enabled⟩ = false := by
      refine RowTable.clashes_eq_false.mpr fun id row hrow => ?_
      have hne : row.targetId ≠ input.targetId := by
        simpa using RowTable.find?_eq_none.mp hfind id row hrow
      simpa [UniqueIndexes.clash] using hne.symm
    obtain ⟨⟨id, targets⟩, hinsert⟩ := Option.isSome_iff_exists.mp (RowTable.isSome_insert?.mpr hclash)
    obtain ⟨-, -, -, hget⟩ := RowTable.insert?_eq_some hinsert
    have hcreate : EventSinkRepository.createDeliveryTarget db input =
        .ok (⟨id, input.targetId, input.name, input.targetType, stored, input.enabled⟩,
          EventSinkRepository.bumpEventSinksVersion { db with deliveryTargets := targets }) := by
      simp only [EventSinkRepository.createDeliveryTarget, bind_eq_ok, mapError_eq_ok, okOr_eq_ok,
        pure_eq_ok]
      refine ⟨stored, hnormalize, (id, targets), hinsert, _, ?_, rfl⟩
      rw [EventSinkRepository.toDeliveryTarget, EventSinkRepository.parseTargetType, if_pos hprovider]
      rfl
    rw [hcreate]
    refine ⟨id, _, rfl, ⟨_, (hget id).trans (if_pos rfl), rfl⟩, ?_, rfl, ⟨rfl, rfl, rfl, rfl⟩⟩
    rw [htype, Option.getD_none]
    exact targetType_insert hinsert rfl

variable [DurationCodec]

/-- **What the seed sees after a sink was made sure of.** -/
structure SinkEnsured (sinkId : String) (db db' : Database) : Prop where
  targetTypes : targetType db' = targetType db
  targets : db'.deliveryTargets = db.deliveryTargets
  sinks : hasSink db' = Function.update (hasSink db) sinkId true
  frame : OnlySinks db db'

/-- **A sink that is missing is made** exactly when its destination is accepted for its target. -/
theorem createEventSink_isOk {db : Database} {input : CreateEventSinkInput}
    (hid : validateEventSinkId input.sinkId = .ok ()) {target : DeliveryTargetRow}
    (htarget : db.deliveryTargets.get input.deliveryTargetId = some target) {provider : Provider}
    (hprovider : providerFor target.targetType = some provider)
    (hmissing : hasSink db input.sinkId = false) :
    (∃ created, EventSinkRepository.createEventSink db input = .ok created) ↔
      ∃ stored, provider.normalizeEventSinkConfig input.destinationJson = .ok stored := by
  have hclash : ∀ stored, db.eventSinks.clashes ⟨input.sinkId, input.name, input.deliveryTargetId,
      stored, input.autoOffsetReset, input.enabled⟩ = false := by
    intro stored
    refine RowTable.clashes_eq_false.mpr fun id row hrow => ?_
    have hne : row.sinkId ≠ input.sinkId := fun heq =>
      Bool.false_ne_true (hmissing.symm.trans (hasSink_eq_true.mpr ⟨id, row, hrow, heq⟩))
    simpa [UniqueIndexes.clash] using hne.symm
  have htype : EventSinkRepository.parseTargetType target.targetType = .ok target.targetType := by
    rw [EventSinkRepository.parseTargetType, hprovider]
    rfl
  have hnormalize : ∀ stored, normalizeEventSinkConfig target.targetType input.destinationJson =
      .ok stored ↔ provider.normalizeEventSinkConfig input.destinationJson = .ok stored := by
    intro stored
    rw [normalizeEventSinkConfig, hprovider]
  simp only [EventSinkRepository.createEventSink, bind_eq_ok, mapError_eq_ok, okOr_eq_ok, pure_eq_ok,
    EventSinkRepository.findDeliveryTargetById]
  constructor
  · rintro ⟨created, _, -, target', htarget', _, htype', stored, hstored, -⟩
    rw [htarget] at htarget'
    cases htarget'
    rw [htype] at htype'
    cases htype'
    exact ⟨stored, (hnormalize stored).mp hstored⟩
  · rintro ⟨stored, hstored⟩
    obtain ⟨⟨id, sinks⟩, hinsert⟩ :=
      Option.isSome_iff_exists.mp (RowTable.isSome_insert?.mpr (hclash stored))
    exact ⟨_, (), hid, target, htarget, _, htype, stored, (hnormalize stored).mpr hstored, (id, sinks),
      hinsert, rfl⟩

/-- A sink that was made is seen. -/
theorem createEventSink_ensured {db db' : Database} {input : CreateEventSinkInput} {sink : EventSink}
    (h : EventSinkRepository.createEventSink db input = .ok (sink, db')) :
    SinkEnsured input.sinkId db db' := by
  simp only [EventSinkRepository.createEventSink, bind_eq_ok, mapError_eq_ok, okOr_eq_ok,
    pure_eq_ok] at h
  obtain ⟨_, _, _, _, _, _, _, _, ⟨id, sinks⟩, hinsert, h⟩ := h
  cases h
  exact ⟨rfl, rfl, hasSink_insert hinsert rfl, ⟨rfl, rfl, rfl, rfl⟩⟩

/-- **A sink is found or made** exactly when it is there or its destination is accepted. -/
theorem ensureSink_spec {db : Database} {input : CreateEventSinkInput}
    (hid : validateEventSinkId input.sinkId = .ok ()) {target : DeliveryTargetRow}
    (htarget : db.deliveryTargets.get input.deliveryTargetId = some target) {provider : Provider}
    (hprovider : providerFor target.targetType = some provider) :
    ((∃ db', ensureSink db input = .ok db') ↔ hasSink db input.sinkId = true ∨
      ∃ stored, provider.normalizeEventSinkConfig input.destinationJson = .ok stored) ∧
    ∀ db', ensureSink db input = .ok db' → SinkEnsured input.sinkId db db' := by
  rw [ensureSink]
  cases hfind : findSink db input.sinkId with
  | some found =>
    have hthere : hasSink db input.sinkId = true := by rw [hasSink, hfind]; rfl
    refine ⟨iff_of_true ⟨db, rfl⟩ (Or.inl hthere), fun db' h => ?_⟩
    cases h
    exact ⟨rfl, rfl, by rw [← hthere, Function.update_eq_self], .refl db⟩
  | none =>
    have hmissing : hasSink db input.sinkId = false := by rw [hasSink, hfind]; rfl
    constructor
    · rw [hmissing, ← createEventSink_isOk hid htarget hprovider hmissing]
      cases EventSinkRepository.createEventSink db input with
      | error e => simp [mapError_error, Except.map]
      | ok created => simp [mapError_ok, Except.map]
    · intro db' h
      obtain ⟨sink, h⟩ := map_snd_eq_ok.mp h
      exact createEventSink_ensured (mapError_eq_ok.mp h)

/-! ### What the steps do together -/

omit [SerdeText] [DurationCodec] in
/-- Every target has a type that is registered. -/
def TypesKnown (db : Database) : Prop :=
  ∀ targetId type, targetType db targetId = some type → ∃ provider, providerFor type = some provider

/-- **What steps make sure of**: targets and sinks with the given ids, and nothing else. -/
structure Ensured (targetIds sinkIds : List String) (db db' : Database) : Prop where
  targetTypes : ∀ targetId ∉ targetIds, targetType db' targetId = targetType db targetId
  keeps : ∀ targetId type, targetType db targetId = some type → targetType db' targetId = some type
  sinks : ∀ sinkId, hasSink db' sinkId = true ↔ sinkId ∈ sinkIds ∨ hasSink db sinkId = true
  known : TypesKnown db → TypesKnown db'
  frame : OnlySinks db db'

omit [SerdeText] [DurationCodec] in
theorem Ensured.refl (db : Database) : Ensured [] [] db db :=
  ⟨fun _ _ => rfl, fun _ _ h => h, fun _ => by simp, id, .refl db⟩

omit [SerdeText] [DurationCodec] in
theorem Ensured.trans {targetIds targetIds' sinkIds sinkIds' : List String} {db₀ db₁ db₂ : Database}
    (h₁ : Ensured targetIds sinkIds db₀ db₁) (h₂ : Ensured targetIds' sinkIds' db₁ db₂) :
    Ensured (targetIds ++ targetIds') (sinkIds ++ sinkIds') db₀ db₂ where
  targetTypes targetId h := by
    rw [List.mem_append, not_or] at h
    rw [h₂.targetTypes targetId h.2, h₁.targetTypes targetId h.1]
  keeps targetId type h := h₂.keeps _ _ (h₁.keeps _ _ h)
  sinks sinkId := by
    rw [h₂.sinks, h₁.sinks, List.mem_append]
    tauto
  known h := h₂.known (h₁.known h)
  frame := h₁.frame.trans h₂.frame

omit [SerdeText] [DurationCodec] in
/-- More ids can be named where their sinks are there. -/
theorem Ensured.weaken {targetIds targetIds' sinkIds sinkIds' : List String} {db db' : Database}
    (h : Ensured targetIds sinkIds db db') (htargets : targetIds ⊆ targetIds')
    (hsinks : sinkIds ⊆ sinkIds') (hthere : ∀ sinkId ∈ sinkIds', hasSink db' sinkId = true) :
    Ensured targetIds' sinkIds' db db' where
  targetTypes targetId hnot := h.targetTypes targetId fun hin => hnot (htargets hin)
  keeps := h.keeps
  sinks sinkId := by
    constructor
    · intro hsink
      exact ((h.sinks sinkId).mp hsink).imp (fun hin => hsinks hin) id
    · rintro (hin | hsink)
      · exact hthere sinkId hin
      · exact (h.sinks sinkId).mpr (Or.inr hsink)
  known := h.known
  frame := h.frame

omit [SerdeText] [DurationCodec] in
theorem TargetEnsured.ensured {input : CreateDeliveryTargetInput} {db db' : Database} {id : Nat}
    (h : TargetEnsured input db db' id)
    (hknown : ∃ provider, providerFor input.targetType = some provider) :
    Ensured [input.targetId] [] db db' where
  targetTypes targetId hne := by
    rw [h.targetTypes, Function.update_of_ne (by simpa using hne)]
  keeps targetId type htype := by
    rw [h.targetTypes, Function.update_apply]
    split
    · next heq => rw [← heq, htype, Option.getD_some]
    · exact htype
  sinks sinkId := by simp [h.sinks]
  known hdb targetId type htype := by
    rw [h.targetTypes, Function.update_apply] at htype
    split at htype
    · cases htype
      cases hold : targetType db input.targetId with
      | none => exact hknown
      | some old => exact hdb _ _ hold
    · exact hdb targetId type htype
  frame := h.frame

omit [SerdeText] [DurationCodec] in
theorem SinkEnsured.ensured {sinkId : String} {db db' : Database} (h : SinkEnsured sinkId db db') :
    Ensured [] [sinkId] db db' where
  targetTypes targetId _ := by rw [h.targetTypes]
  keeps targetId type htype := by rw [h.targetTypes, htype]
  sinks sinkId' := by
    rw [h.sinks, Function.update_apply, List.mem_singleton]
    split <;> simp_all
  known hdb := by
    rw [TypesKnown, h.targetTypes]
    exact hdb
  frame := h.frame

/-- **Missing sinks are made** exactly when the type of the target accepts an empty destination. -/
theorem createSinks_spec {db : Database} {targetId : Nat} {target : DeliveryTargetRow}
    (htarget : db.deliveryTargets.get targetId = some target) {provider : Provider}
    (hprovider : providerFor target.targetType = some provider) {sinkIds : List String}
    (hids : ∀ sinkId ∈ sinkIds, validateEventSinkId sinkId = .ok ())
    (hmissing : ∀ sinkId ∈ sinkIds, hasSink db sinkId = false) (hnodup : sinkIds.Nodup) :
    ((∃ db', createSinks db targetId sinkIds = .ok db') ↔
      sinkIds = [] ∨ target.targetType ∈ acceptsEmpty) ∧
    ∀ db', createSinks db targetId sinkIds = .ok db' → Ensured [] sinkIds db db' := by
  induction sinkIds generalizing db with
  | nil =>
    refine ⟨iff_of_true ⟨db, rfl⟩ (Or.inl rfl), fun db' h => ?_⟩
    cases h
    exact .refl db
  | cons sinkId sinkIds ih =>
    obtain ⟨hid, hids⟩ := List.forall_mem_cons.mp hids
    obtain ⟨hmissing₀, hmissing⟩ := List.forall_mem_cons.mp hmissing
    obtain ⟨hnew, hnodup⟩ := List.nodup_cons.mp hnodup
    obtain ⟨hmem, htype⟩ := providerFor_eq_some hprovider
    have hcreate : (∃ created, EventSinkRepository.createEventSink db
        (sinkInput sinkId sinkId targetId (.object [])) = .ok created) ↔
        target.targetType ∈ acceptsEmpty := by
      rw [createEventSink_isOk hid htarget hprovider hmissing₀, ← htype]
      exact normalizeEventSinkConfig_empty hmem
    rw [createSinks]
    cases hrun : EventSinkRepository.createEventSink db
        (sinkInput sinkId sinkId targetId (.object [])) with
    | error e =>
      rw [hrun] at hcreate
      have hnot : target.targetType ∉ acceptsEmpty := by
        intro hin
        obtain ⟨created, h⟩ := hcreate.mpr hin
        cases h
      refine ⟨iff_of_false ?_ (by simpa using hnot), ?_⟩
      · rintro ⟨db', ⟨⟩⟩
      · intro db' h
        cases h
    | ok created =>
      obtain ⟨sink, db₁⟩ := created
      have haccepts := hcreate.mp ⟨_, hrun⟩
      have hensured : SinkEnsured sinkId db db₁ := createEventSink_ensured hrun
      have hmissing₁ : ∀ sinkId' ∈ sinkIds, hasSink db₁ sinkId' = false := by
        intro sinkId' hmem'
        have hne : sinkId' ≠ sinkId := fun heq => hnew (heq ▸ hmem')
        rw [hensured.sinks, Function.update_of_ne hne, hmissing sinkId' hmem']
      obtain ⟨hiff, hrest⟩ := ih (hensured.targets ▸ htarget) hids hmissing₁ hnodup
      refine ⟨iff_of_true (hiff.mpr (Or.inr haccepts)) (Or.inr haccepts), fun db' h => ?_⟩
      exact hensured.ensured.trans (hrest db' h)

omit [SerdeText] [DurationCodec] in
/-- A target that was made sure of has a registered type. -/
theorem TargetEnsured.provider {input : CreateDeliveryTargetInput} {db db' : Database} {id : Nat}
    (h : TargetEnsured input db db' id) (hknown : TypesKnown db') :
    ∃ row provider, db'.deliveryTargets.get id = some row ∧
      targetType db' input.targetId = some row.targetType ∧
      providerFor row.targetType = some provider := by
  obtain ⟨row, hget, hid⟩ := h.target
  have htype := targetType_eq_some.mpr ⟨id, row, hget, hid, rfl⟩
  obtain ⟨provider, hprovider⟩ := hknown _ _ htype
  exact ⟨row, provider, hget, htype, hprovider⟩

omit [SinkBackends] [SerdeText] [DurationCodec] in
/-- A type that accepts something is the one of the target, or the one it gets. -/
theorem TargetEnsured.accepts {input : CreateDeliveryTargetInput} {db db' : Database} {id : Nat}
    (h : TargetEnsured input db db' id) {types : List String} (hinput : input.targetType ∈ types)
    {type : String} (htype : targetType db' input.targetId = some type) :
    type ∈ types ↔ ∀ old, targetType db input.targetId = some old → old ∈ types := by
  rw [h.targetTypes, Function.update_self] at htype
  cases htype
  cases targetType db input.targetId with
  | none => simpa using hinput
  | some old => simp

end Steps

end Ingest4x.Seed
