import Ingest4x.Replay.Batches
import Ingest4x.Sinks.Uploads
import Ingest4x.Table.Ranges

/-! # The files of a replay

The replay cuts the events of a sink into batches and sends one after the other. Each batch has a file of
its own unless the events of one record fill two batches: these have one name, and the file of the first
is taken for that of the second.

* **`sendAll`** — the batches sent to a Parquet sink.
* **`sendAll_stored`** — the file of each path.
* **`parquet_batches_stored_iff`** — when each batch gets a file. -/

namespace Ingest4x.Sinks.Parquet

open Effect Storage Ingest4x.Wal

section Send

variable [JsonText] [ArrowParquet] {service : Service}

/-- The call for a batch of the replay. -/
def batchWrite (sink : ParquetSink) (batch : SentBatch) : BatchWrite :=
  ⟨sink, "", batch.1, some batch.2⟩

/-- **The batches are sent** one after the other, up to the first that fails. -/
def sendAll (sink : ParquetSink) (batches : List SentBatch) : StoreCmd ArrowParquet.File Unit :=
  Cmd.forEach (fun batch => (batchWrite sink batch).program) batches

/-- **One call that succeeds**: its path keeps its object or gets the file, the other final paths keep
theirs. -/
theorem BatchWrite.program_runs {write : BatchWrite} {s s' : Objects ArrowParquet.File}
    (hservice : service.capability.rename = true ∨ service.atomicWrites = true)
    (hcapability : write.sink.capability = service.capability)
    (hruns : Runs (storeEnv service) (write.program.start ()) s (.ok (), ()) s') :
    (∀ path, IsFinal path → path ≠ write.upload.path → s' path = s path) ∧
      ∃ file, write.upload.file = .ok file ∧
        s' write.upload.path = some ((s write.upload.path).getD (.whole file)) := by
  have hrun := UploadRun.succeeds (u := .untouched s) hcapability (by rintro _ ⟨⟩) hruns
  obtain ⟨hsound, -, -, hgrows⟩ := hrun.sound hservice (Uploads.untouched_sound s)
  obtain ⟨-, hstored⟩ := hsound.acknowledged write.upload.path List.mem_cons_self
  refine ⟨fun path hfinal hne => ?_, ?_⟩
  · rcases hgrows path hfinal with hsame | ⟨-, k, hk, hpath, -⟩
    · exact hsame
    · rw [List.mem_singleton.mp hk] at hpath
      exact absurd hpath.symm hne
  · -- the events can be encoded, or the call would have failed
    have hencoded : wpc (storeEnv service) (fun _ _ => True) write.program
        (fun _ _ _ => ∃ file, write.upload.file = .ok file) (fun _ _ _ => True) () s := by
      rw [BatchWrite.program, ParquetSink.writeEvents, wpc_bind, wpc_ofExcept]
      refine ⟨fun file hfile => ?_, fun _ _ => trivial⟩
      exact wp_of_runs fun result _ _ => by
        obtain ⟨_ | _, _⟩ := result
        · trivial
        · exact ⟨file, hfile⟩
    obtain ⟨file, hfile⟩ := wp_runs hencoded hruns
    refine ⟨file, hfile, ?_⟩
    rcases hgrows _ write.isFinal_path with hsame | ⟨hnone, k, hk, -, file', hfile', hwhole⟩
    · obtain ⟨object, hobject⟩ := Option.ne_none_iff_exists'.mp hstored
      have hbefore : s write.upload.path = some object := hsame.symm.trans hobject
      rw [hbefore]
      exact hobject
    · have hfree : s write.upload.path = none := hnone
      rw [List.mem_singleton.mp hk] at hfile'
      obtain rfl := Except.ok.inj (hfile.symm.trans hfile')
      rw [hfree]
      exact hwhole

/-- The first of the batches with this path. -/
def firstTo (sink : ParquetSink) (batches : List SentBatch) (path : String) : Option SentBatch :=
  batches.find? fun batch => (batchWrite sink batch).upload.path == path

/-- **The file that the batches leave at a path**, where there was none. -/
def fileAt (sink : ParquetSink) (batches : List SentBatch) (path : String) :
    Option (Object ArrowParquet.File) :=
  match firstTo sink batches path with
  | none => none
  | some batch =>
    match sink.encode batch.1 with
    | .ok file => some (.whole file)
    | .error _ => none

/-- The file of the first batch with a path. -/
theorem fileAt_of_firstTo {sink : ParquetSink} {batches : List SentBatch} {path : String}
    {batch : SentBatch} {file : ArrowParquet.File} (h : firstTo sink batches path = some batch)
    (hfile : sink.encode batch.1 = .ok file) : fileAt sink batches path = some (.whole file) := by
  simp [fileAt, h, hfile]

/-- **What the batches have left so far**: all of them could be encoded, and each final path holds what
was there before, or the file of the first batch with this path. -/
structure SentAll (sink : ParquetSink) (s : Objects ArrowParquet.File) (batches : List SentBatch)
    (s' : Objects ArrowParquet.File) : Prop where
  encoded : ∀ batch ∈ batches, ∃ file, sink.encode batch.1 = .ok file
  stored : ∀ path, IsFinal path → s' path = (s path).or (fileAt sink batches path)

/-- **One more batch.** -/
theorem SentAll.concat {sink : ParquetSink} {s s₁ s₂ : Objects ArrowParquet.File}
    {done : List SentBatch} {batch : SentBatch} (h : SentAll sink s done s₁)
    (hservice : service.capability.rename = true ∨ service.atomicWrites = true)
    (hcapability : sink.capability = service.capability)
    (hruns : Runs (storeEnv service) ((batchWrite sink batch).program.start ()) s₁ (.ok (), ()) s₂) :
    SentAll sink s (done ++ [batch]) s₂ := by
  obtain ⟨hothers, file, hfile, hwritten⟩ := BatchWrite.program_runs hservice hcapability hruns
  have hfile : sink.encode batch.1 = .ok file := hfile
  refine ⟨fun batch' hbatch' => ?_, fun path hfinal => ?_⟩
  · rcases List.mem_append.mp hbatch' with hdone | hlast
    · exact h.encoded batch' hdone
    · rw [List.mem_singleton.mp hlast]
      exact ⟨file, hfile⟩
  · have hbefore := h.stored path hfinal
    by_cases hpath : path = (batchWrite sink batch).upload.path
    · subst hpath
      rw [hwritten, hbefore]
      cases hfound : firstTo sink done (batchWrite sink batch).upload.path with
      | none =>
        have hlast : firstTo sink (done ++ [batch]) (batchWrite sink batch).upload.path = some batch := by
          rw [firstTo, List.find?_append, ← firstTo, hfound]
          simp
        rw [fileAt_of_firstTo hlast hfile, fileAt, hfound]
        cases s (batchWrite sink batch).upload.path <;> rfl
      | some first =>
        -- an earlier batch has the path
        obtain ⟨file', hfile'⟩ := h.encoded first (List.mem_of_find?_eq_some hfound)
        have hfirst : firstTo sink (done ++ [batch]) (batchWrite sink batch).upload.path =
            some first := by
          rw [firstTo, List.find?_append, ← firstTo, hfound, Option.some_or]
        rw [fileAt_of_firstTo hfirst hfile', fileAt_of_firstTo hfound hfile']
        cases s (batchWrite sink batch).upload.path <;> rfl
    · rw [hothers path hfinal hpath, hbefore, fileAt, fileAt, firstTo, firstTo, List.find?_append]
      have hlast : [batch].find? (fun batch => (batchWrite sink batch).upload.path == path) = none := by
        simp [Ne.symm hpath]
      rw [hlast, Option.or_none]

/-- **The file of each path**, where all calls succeed. -/
theorem sendAll_stored {sink : ParquetSink} {batches : List SentBatch}
    {s s' : Objects ArrowParquet.File}
    (hservice : service.capability.rename = true ∨ service.atomicWrites = true)
    (hcapability : sink.capability = service.capability)
    (hruns : Runs (storeEnv service) ((sendAll sink batches).start ()) s (.ok (), ()) s') :
    SentAll sink s batches s' := by
  have hsend : wpc (storeEnv service) (fun _ _ => True) (sendAll sink batches)
      (fun _ _ s' => SentAll sink s batches s') (fun _ _ _ => True) () s := by
    refine wpc_forEach (fun done _ s₁ => SentAll sink s done s₁) batches ?_ ?_
    · rintro done batch rest t s₁ - h
      refine wp_of_runs fun result s₂ hruns => ?_
      obtain ⟨_ | _, _⟩ := result
      · trivial
      · exact h.concat hservice hcapability hruns
    · exact ⟨by rintro _ ⟨⟩, fun path _ => (Option.or_none ..).symm⟩
  have hdone : Exits _ _ (.ok (), ()) s' := wp_runs hsend hruns
  exact hdone

/-! ### Batches with one name -/

/-- **A sink as it is configured**: its prefix is normalized, and its id is one. -/
structure ParquetSink.Configured (sink : ParquetSink) : Prop where
  pathPrefix : ∃ value, sink.pathPrefix = normalizePathPrefix value
  sinkId : validateEventSinkId sink.sinkPathComponent = .ok ()

/-- Batches of nodes with one path have the same metadata. -/
theorem batchWrite_path_inj {sink : ParquetSink} (hsink : sink.Configured) {batch batch' : SentBatch}
    (hnode : IsNodeId batch.2.nodeId) (hnode' : IsNodeId batch'.2.nodeId) :
    (batchWrite sink batch).upload.path = (batchWrite sink batch').upload.path ↔
      batch.2 = batch'.2 := by
  obtain ⟨value, hvalue⟩ := hsink.pathPrefix
  constructor
  · intro h
    show batch.2 = batch'.2
    unfold batchWrite BatchWrite.upload ParquetSink.path at h
    simp only [hvalue] at h
    exact (finalPath_injective hsink.sinkId hsink.sinkId hnode hnode' h).2.2
  · intro h
    simp [batchWrite, BatchWrite.upload, h]

omit [JsonText] [ArrowParquet] in
/-- A batch is named by the LSNs of its piece, and by the node of the log. -/
theorem sinkBatches_spans {policy : SinkBatchPolicy} (hpolicy : 1 ≤ policy.maxEvents)
    {events : List SinkDeliveryEvent} {nodeId : String}
    (hnode : ∀ delivery ∈ events, delivery.nodeId = nodeId) :
    (sinkBatches policy events).map Prod.snd = (batchPieces policy events).map fun piece =>
      ⟨nodeId, (spanOf SinkDeliveryEvent.lsn piece).1, (spanOf SinkDeliveryEvent.lsn piece).2⟩ := by
  have hbatches := (sinkBatches_partition hpolicy events).batches
  generalize sinkBatches policy events = batches at hbatches ⊢
  generalize batchPieces policy events = pieces at hbatches ⊢
  induction hbatches with
  | nil => rfl
  | @cons piece batch pieces batches hbatch _ ih =>
    obtain ⟨delivery, hmem, hnodeId⟩ := hbatch.nodeId
    have hstart : (spanOf SinkDeliveryEvent.lsn piece).1 = batch.2.lsnStart := by
      simp [spanOf, hbatch.lsnStart]
    have hend : (spanOf SinkDeliveryEvent.lsn piece).2 = batch.2.lsnEnd := by
      simp [spanOf, hbatch.lsnEnd]
    rw [List.map_cons, List.map_cons, ih, hstart, hend, ← hnode delivery hmem, hnodeId]

/-- **The files of a replay.** A final path that was free holds the file of the first batch of its name.
So each batch has a file of its own if and only if no record fills two batches that follow each other;
where one does, the second of them is acknowledged, and its events are in no file. -/
theorem parquet_batches_stored_iff {sink : ParquetSink} (hsink : sink.Configured)
    {policy : SinkBatchPolicy} (hpolicy : 1 ≤ policy.maxEvents) {events : List SinkDeliveryEvent}
    {nodeId : String} (hnodeId : IsNodeId nodeId)
    (hnode : ∀ delivery ∈ events, delivery.nodeId = nodeId)
    (hsorted : events.Pairwise fun delivery delivery' => delivery.lsn ≤ delivery'.lsn)
    (hservice : service.capability.rename = true ∨ service.atomicWrites = true)
    (hcapability : sink.capability = service.capability) {s s' : Objects ArrowParquet.File}
    (hfree : ∀ batch ∈ sinkBatches policy events, s (batchWrite sink batch).upload.path = none)
    (hruns : Runs (storeEnv service) ((sendAll sink (sinkBatches policy events)).start ()) s
      (.ok (), ()) s') :
    (∀ batch ∈ sinkBatches policy events, ∃ front first back file,
      sinkBatches policy events = front ++ first :: back ∧ first.2 = batch.2 ∧
        (∀ earlier ∈ front, earlier.2 ≠ batch.2) ∧ sink.encode first.1 = .ok file ∧
        s' (batchWrite sink batch).upload.path = some (.whole file)) ∧
      (((sinkBatches policy events).map Prod.snd).Nodup ↔ ∀ front piece next back,
        batchPieces policy events = front ++ piece :: next :: back →
          ¬∃ lsn, ∀ delivery ∈ piece ++ next, delivery.lsn = lsn) := by
  have hspans := sinkBatches_spans hpolicy hnode
  have hpartition := sinkBatches_partition hpolicy events
  have hbatchNode : ∀ batch ∈ sinkBatches policy events, IsNodeId batch.2.nodeId := by
    intro batch hbatch
    have hmem : batch.2 ∈ (sinkBatches policy events).map Prod.snd := List.mem_map_of_mem hbatch
    rw [hspans] at hmem
    obtain ⟨piece, -, heq⟩ := List.mem_map.mp hmem
    rw [← heq]
    exact hnodeId
  refine ⟨fun batch hbatch => ?_, ?_⟩
  · have hsent := sendAll_stored hservice hcapability hruns
    have hstored := hsent.stored _ (batchWrite sink batch).isFinal_path
    rw [hfree batch hbatch, Option.none_or] at hstored
    have hsome : (firstTo sink (sinkBatches policy events)
        (batchWrite sink batch).upload.path).isSome = true :=
      List.find?_isSome.mpr ⟨batch, hbatch, beq_self_eq_true _⟩
    obtain ⟨first, hfirst⟩ := Option.isSome_iff_exists.mp hsome
    obtain ⟨hpath, front, back, hsplit, hearlier⟩ := List.find?_eq_some_iff_append.mp hfirst
    have hmem : first ∈ sinkBatches policy events := by simp [hsplit]
    obtain ⟨file, hfile⟩ := hsent.encoded first hmem
    refine ⟨front, first, back, file, hsplit, ?_, fun earlier hmem' heq => ?_, hfile,
      hstored.trans (fileAt_of_firstTo hfirst hfile)⟩
    · exact (batchWrite_path_inj hsink (hbatchNode first hmem) (hbatchNode batch hbatch)).mp
        (beq_iff_eq.mp hpath)
    · have hin : earlier ∈ sinkBatches policy events := by simp [hsplit, hmem']
      have hsame := (batchWrite_path_inj hsink (hbatchNode earlier hin)
        (hbatchNode batch hbatch)).mpr heq
      simpa [hsame] using hearlier earlier hmem'
  · have hnodup : ((sinkBatches policy events).map Prod.snd).Nodup ↔
        ((batchPieces policy events).map (spanOf SinkDeliveryEvent.lsn)).Nodup := by
      rw [hspans]
      refine (List.pairwise_map.trans (List.pairwise_map.trans ?_).symm)
      refine List.Pairwise.iff_of_mem fun _ _ => not_congr ?_
      simp [Prod.ext_iff]
    rw [hnodup]
    refine spans_nodup_iff hpartition.nonempty ?_
    rw [hpartition.flatten]
    exact hsorted

end Send

/-! ### A sample replay -/

section Sample

attribute [local instance] sampleText sampleParquet

/-- A sink in memory. -/
def memorySink : ParquetSink := ⟨⟨false, true⟩, "events", "main", [], true⟩

/-- Five events of one record, sent two by two. -/
def oneRecord : List SinkDeliveryEvent :=
  [⟨"n", 7, .null, 4⟩, ⟨"n", 7, .bool true, 4⟩, ⟨"n", 7, .bool false, 5⟩, ⟨"n", 7, .null, 4⟩,
    ⟨"n", 7, .null, 4⟩]

/-- What the replay sends. -/
@[irreducible] def oneRecordBatches : List SentBatch := sinkBatches ⟨2, 1000, 0⟩ oneRecord

/-- The call that sends it. -/
@[irreducible] def oneRecordCall :
    (Except String Unit × Unit) × Objects sampleParquet.File :=
  ((sendAll memorySink oneRecordBatches).start ()).exec storeAnswer fun _ => none

theorem runs_oneRecordCall : Runs (storeEnv ⟨memorySink.capability, true⟩)
    ((sendAll memorySink oneRecordBatches).start ()) (fun _ => none) (.ok (), ())
    oneRecordCall.2 := by
  have hruns : Runs (storeEnv ⟨memorySink.capability, true⟩)
      ((sendAll memorySink oneRecordBatches).start ()) (fun _ => none) oneRecordCall.1
      oneRecordCall.2 := by
    unfold oneRecordCall
    exact runs_exec (storeAnswer_storeEnv _) _ _
  have hresult : oneRecordCall.1 = (.ok (), ()) := by decide +kernel
  rwa [hresult] at hruns

/-- There are three batches, all of one name, and only the first of them has a file. -/
theorem parquet_batches_stored_iff_sample :
    ¬(oneRecordBatches.map Prod.snd).Nodup ∧
      ∀ batch ∈ oneRecordBatches, ∃ file,
        memorySink.encode [.null, .bool true] = .ok file ∧
          oneRecordCall.2 (batchWrite memorySink batch).upload.path = some (.whole file) := by
  have hbatches : oneRecordBatches = sinkBatches ⟨2, 1000, 0⟩ oneRecord := by
    unfold oneRecordBatches
    rfl
  have hruns := runs_oneRecordCall
  rw [hbatches] at hruns
  have hnodeId : IsNodeId "n" := by decide +kernel
  have hsink : memorySink.Configured := ⟨⟨"events", by decide +kernel⟩, rfl⟩
  obtain ⟨hfirst, -⟩ := parquet_batches_stored_iff hsink (by decide) hnodeId
    (by decide +kernel) (by decide +kernel) (Or.inr rfl) rfl (by intro _ _; rfl) hruns
  refine ⟨by decide +kernel, fun batch hbatch => ?_⟩
  rw [hbatches] at hbatch
  obtain ⟨front, first, back, file, hsplit, hsame, hearlier, hfile, hstored⟩ := hfirst batch hbatch
  -- all batches have one name, so the first of them is the first of the list
  have hall : ∀ batch ∈ sinkBatches ⟨2, 1000, 0⟩ oneRecord, batch.2 = ⟨"n", 7, 7⟩ := by
    decide +kernel
  have hhead : (sinkBatches ⟨2, 1000, 0⟩ oneRecord).head? =
      some ([.null, .bool true], ⟨"n", 7, 7⟩) := by
    decide +kernel
  cases front with
  | nil =>
    rw [hsplit] at hhead
    obtain rfl : first = _ := Option.some.inj hhead
    exact ⟨file, hfile, hstored⟩
  | cons earlier front =>
    refine absurd ?_ (hearlier earlier List.mem_cons_self)
    rw [hall batch hbatch]
    exact hall earlier (by rw [hsplit]; exact List.mem_cons_self)

end Sample

end Ingest4x.Sinks.Parquet
