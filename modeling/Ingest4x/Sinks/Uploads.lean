import Ingest4x.Sinks.ParquetSink
import Mathlib.Logic.Relation

/-! # Uploads over the life of a store

Sinks of many nodes write to one store, side by side. A batch may be sent any number of times; a call
may fail, and the process may die in any of its operations. No two calls work on one path at a time.

* **`Uploads`**, **`UploadStep`** — the store with the calls that run.
* **`uploads_whole`** — what a final path holds.
* **`uploads_stable`** — what it holds for ever.
* **`uploads_acknowledged`** — what an acknowledged batch has left. -/

namespace Ingest4x.Sinks.Parquet

open Effect Storage Ingest4x.Wal

/-! ### Final paths -/

/-- **A final path**: not the one next to another. -/
def IsFinal (path : String) : Prop := ∀ path', path ≠ tempPath path'

/-- A text that ends in another character is a final path. -/
theorem isFinal_of_getLast? {path : String} {c : Char} (h : path.toList.getLast? = some c)
    (hne : c ≠ 'p') : IsFinal path := by
  rintro path' rfl
  apply hne
  have hlast : (tempPath path').toList.getLast? = some 'p' := by
    simp [tempPath, List.getLast?_append]
  exact Option.some.inj (h.symm.trans hlast)

/-- What a file name ends in. -/
theorem getLast?_parquetFileName (uuid : String) (metadata : Option EventSinkBatchMetadata) :
    (parquetFileName uuid metadata).toList.getLast? = some 't' := by
  cases metadata with
  | none => simp [parquetFileName, List.getLast?_append]
  | some metadata =>
    rw [toList_parquetFileName, List.getLast?_append]
    rfl

/-- A trimmed text ends in the same character, if that is not trimmed. -/
theorem getLast?_trimMatches {s : String} {c d : Char} (h : s.toList.getLast? = some d)
    (hne : d ≠ c) : (Text.trimMatches c s).toList.getLast? = some d := by
  obtain ⟨front, hfront⟩ := List.getLast?_eq_some_iff.mp h
  have hdrop : ∃ rest, s.toList.dropWhile (· = c) = rest ++ [d] := by
    rw [hfront]
    clear h hfront
    induction front with
    | nil => exact ⟨[], by simp [hne]⟩
    | cons e front ih =>
      by_cases he : e = c
      · obtain ⟨rest, hrest⟩ := ih
        exact ⟨rest, by simp [he, hrest]⟩
      · exact ⟨e :: front, by simp [he]⟩
  obtain ⟨rest, hrest⟩ := hdrop
  rw [Text.trimMatches, String.toList_ofList, hrest]
  simp [hne]

/-- A path ends as its file name does. -/
theorem getLast?_joinPath {start fileName : String} {d : Char}
    (h : fileName.toList.getLast? = some d) (hne : d ≠ '/') :
    (joinPath start fileName).toList.getLast? = some d := by
  unfold joinPath
  split_ifs
  · exact h
  · rw [String.toList_append, List.getLast?_append, getLast?_trimMatches h hne, Option.some_or]

/-- **Batches are written to final paths.** -/
theorem ParquetSink.isFinal_path (sink : ParquetSink) (uuid : String)
    (metadata : Option EventSinkBatchMetadata) : IsFinal (sink.path uuid metadata) :=
  isFinal_of_getLast? (getLast?_joinPath (getLast?_parquetFileName uuid metadata) (by decide))
    (by decide)

/-- Uploads to two final paths are apart. -/
theorem apart_of_isFinal {F : Type} {service : Service} {k k' : Upload F} (hne : k.path ≠ k'.path)
    (hfinal : IsFinal k.path) (hfinal' : IsFinal k'.path) :
    (uploadParts F service).apart k k' :=
  ⟨hne, hfinal _, (hfinal' _).symm⟩

/-! ### Two moments of a final path -/

section Grows

variable {F : Type}

/-- **A final path between two moments**: it keeps its object, or gets the file of an upload. -/
def Grows (begun : List (Upload F)) (objects objects' : Objects F)
    (path : String) : Prop :=
  objects' path = objects path ∨ (objects path = none ∧
    ∃ k ∈ begun, k.path = path ∧ ∃ file, k.file = .ok file ∧ objects' path = some (.whole file))

theorem Grows.trans {begun begun' : List (Upload F)}
    {objects objects' objects'' : Objects F} {path : String}
    (h : Grows begun objects objects' path) (h' : Grows begun' objects' objects'' path)
    (hbegun : begun ⊆ begun') : Grows begun' objects objects'' path := by
  rcases h' with heq | ⟨hnone, hstored⟩
  · rcases h with h | ⟨hnone, k, hk, hpath, file, hfile, hstored⟩
    · exact Or.inl (heq.trans h)
    · exact Or.inr ⟨hnone, k, hbegun hk, hpath, file, hfile, heq.trans hstored⟩
  · rcases h with h | ⟨-, k, hk, hpath, file, hfile, hstored'⟩
    · exact Or.inr ⟨h ▸ hnone, hstored⟩
    · rw [hnone] at hstored'
      cases hstored'

end Grows

/-! ### The store with its calls -/

section Uploads

variable [JsonText] [ArrowParquet]

/-- **A batch that is sent to a sink**, with the UUID that is drawn for it. -/
structure BatchWrite where
  sink : ParquetSink
  uuid : String
  events : List Value
  metadata : Option EventSinkBatchMetadata

namespace BatchWrite

/-- The call. -/
def program (write : BatchWrite) : StoreCmd ArrowParquet.File Unit :=
  write.sink.writeEvents write.uuid write.events write.metadata

/-- **What the call works on.** -/
def upload (write : BatchWrite) : Upload ArrowParquet.File :=
  ⟨write.sink.path write.uuid write.metadata, write.sink.encode write.events⟩

theorem isFinal_path (write : BatchWrite) : IsFinal write.upload.path :=
  write.sink.isFinal_path write.uuid write.metadata

end BatchWrite

/-- A running call. -/
abbrev RunningUpload : Type :=
  Task (Upload ArrowParquet.File) (StoreOp ArrowParquet.File) StoreResp (Except String Unit × Unit)

/-- **The store, the running calls**, all batches that were sent, and the paths whose batch was
acknowledged. -/
structure Uploads where
  objects : Objects ArrowParquet.File
  running : List RunningUpload
  begun : List BatchWrite
  acknowledged : List String

/-- **One step**: a call begins, performs an operation, ends, or is cut off with its process. -/
inductive UploadStep (service : Service) (u : Uploads) : Uploads → Prop
  | begins (write : BatchWrite) (hcapability : write.sink.capability = service.capability)
      (hother : ∀ task ∈ u.running, task.key.path ≠ write.upload.path) :
      UploadStep service u { u with
        running := ⟨write.upload, write.program.start ()⟩ :: u.running
        begun := write :: u.begun }
  | runs {running : List RunningUpload} {objects : Objects ArrowParquet.File}
      (hstep : PoolStep (storeEnv service) (u.running, u.objects) (running, objects)) :
      UploadStep service u { u with running := running, objects := objects }
  | acknowledges {front back : List RunningUpload} {k : Upload ArrowParquet.File}
      (hend : u.running = front ++ ⟨k, .pure (.ok (), ())⟩ :: back) :
      UploadStep service u { u with
        running := front ++ back
        acknowledged := k.path :: u.acknowledged }
  | stops {running : List RunningUpload} (hstop : running.Sublist u.running) :
      UploadStep service u { u with running := running }

/-- **A history of a store.** -/
def UploadRun (service : Service) : Uploads → Uploads → Prop :=
  Relation.ReflTransGen (UploadStep service)

/-- A store that no sink has written to yet; what others have put there does not matter. -/
def Uploads.untouched (objects : Objects ArrowParquet.File) : Uploads := ⟨objects, [], [], []⟩

/-! ### The invariant -/

variable {service : Service} {u u' : Uploads}

/-- Where a call ends with success, there is a file. -/
abbrev Stored (_ : Upload ArrowParquet.File) :
    Except String Unit × Unit → Slot ArrowParquet.File → Prop :=
  Exits (fun _ _ v => v.final ≠ none) fun _ _ _ => True

/-- **A call begins safely.** -/
theorem BatchWrite.meets {write : BatchWrite} (hcapability : write.sink.capability = service.capability)
    (hservice : service.capability.rename = true ∨ service.atomicWrites = true)
    (objects : Objects ArrowParquet.File) :
    (uploadParts ArrowParquet.File service).Meets (Safe service) Stored
      ⟨write.upload, write.program.start ()⟩ objects := by
  show write.upload.wpc service write.program (fun _ v => v.final ≠ none) _
  rw [BatchWrite.program, ParquetSink.writeEvents, Upload.wpc, wpc_bind, wpc_ofExcept]
  refine ⟨fun file hencode => ?_, fun _ _ => trivial⟩
  rw [hcapability]
  exact Upload.wpc_writeFile (k := write.upload) hencode hservice

/-- **The invariant**: the running calls are safe and apart, and every acknowledged path has an object. -/
structure Uploads.Sound (service : Service) (u : Uploads) : Prop where
  allMeet : (uploadParts ArrowParquet.File service).AllMeet (Safe service) Stored u.running u.objects
  running : ∀ task ∈ u.running, task.key ∈ u.begun.map BatchWrite.upload
  acknowledged : ∀ path ∈ u.acknowledged,
    (∃ write ∈ u.begun, write.upload.path = path) ∧ u.objects path ≠ none

theorem Uploads.untouched_sound (objects : Objects ArrowParquet.File) :
    (Uploads.untouched objects).Sound service :=
  ⟨⟨List.Pairwise.nil, by rintro _ ⟨⟩⟩, by rintro _ ⟨⟩, by rintro _ ⟨⟩⟩

/-- The batches of a store. -/
abbrev Uploads.batches (u : Uploads) : List (Upload ArrowParquet.File) :=
  u.begun.map BatchWrite.upload

/-- **The step of the running calls.** -/
theorem Uploads.Sound.runs (h : u.Sound service) {running : List RunningUpload}
    {objects : Objects ArrowParquet.File}
    (hstep : PoolStep (storeEnv service) (u.running, u.objects) (running, objects)) :
    Sound service { u with running := running, objects := objects } ∧
      ∀ path, IsFinal path → Grows u.batches u.objects objects path := by
  obtain ⟨hmeets, task, htask, o, r, hown, hsafe, henv⟩ := h.allMeet.step hstep
  have hgrows : ∀ path, IsFinal path → Grows u.batches u.objects objects path := by
    intro path hfinal
    by_cases hpath : path = task.key.path
    · subst hpath
      rcases hsafe.final_step henv with hsame | ⟨hnone, file, hfile, hstored⟩
      · exact Or.inl hsame
      · exact Or.inr ⟨hnone, task.key, h.running task htask, rfl, file, hfile, hstored⟩
    · refine Or.inl (storeEnv_frame henv fun hmem => ?_)
      rcases hown path hmem with hown | hown
      · exact hpath hown
      · exact hfinal _ hown
  refine ⟨⟨hmeets, ?_, fun path hpath => ?_⟩, hgrows⟩
  · intro task' htask'
    have hkey : task'.key ∈ u.running.map Task.key := hstep.keys ▸ List.mem_map_of_mem htask'
    obtain ⟨task, htask, hsame⟩ := List.mem_map.mp hkey
    exact hsame ▸ h.running task htask
  · obtain ⟨⟨write, hwrite, rfl⟩, hstored⟩ := h.acknowledged path hpath
    refine ⟨⟨write, hwrite, rfl⟩, ?_⟩
    rcases hgrows _ write.isFinal_path with hsame | ⟨hnone, -⟩
    · exact fun hnone => hstored (hsame ▸ hnone)
    · exact absurd hnone hstored

/-- **The step lemma**: the invariant stays, and so do the objects of final paths. -/
theorem UploadStep.sound (hservice : service.capability.rename = true ∨ service.atomicWrites = true)
    (h : u.Sound service) (hstep : UploadStep service u u') :
    u'.Sound service ∧ u.begun ⊆ u'.begun ∧ u.acknowledged ⊆ u'.acknowledged ∧
      ∀ path, IsFinal path → Grows u'.batches u.objects u'.objects path := by
  cases hstep with
  | begins write hcapability hother =>
    refine ⟨⟨h.allMeet.cons (BatchWrite.meets hcapability hservice u.objects) ?_, ?_, ?_⟩,
      List.subset_cons_self _ _, List.Subset.refl _, fun _ _ => Or.inl rfl⟩
    · intro task htask
      obtain ⟨write', -, hkey⟩ := List.mem_map.mp (h.running task htask)
      exact apart_of_isFinal (hother task htask).symm write.isFinal_path
        (hkey ▸ write'.isFinal_path)
    · rintro task (_ | ⟨_, htask⟩)
      · exact List.mem_cons_self
      · exact List.mem_cons_of_mem _ (h.running task htask)
    · intro path hpath
      obtain ⟨⟨write', hwrite', hsame⟩, hstored⟩ := h.acknowledged path hpath
      exact ⟨⟨write', List.mem_cons_of_mem _ hwrite', hsame⟩, hstored⟩
  | runs hpool =>
    obtain ⟨hsound, hgrows⟩ := h.runs hpool
    exact ⟨hsound, List.Subset.refl _, List.Subset.refl _, hgrows⟩
  | @acknowledges front back k hend =>
    have hmem : (⟨k, .pure (.ok (), ())⟩ : RunningUpload) ∈ u.running := by simp [hend]
    have hsub : (front ++ back).Sublist u.running := by
      rw [hend]
      exact (List.sublist_cons_self _ back).append_left front
    refine ⟨⟨h.allMeet.sublist hsub, fun task htask => h.running task (hsub.subset htask), ?_⟩,
      List.Subset.refl _, List.subset_cons_self _ _, fun _ _ => Or.inl rfl⟩
    intro path hpath
    rcases List.mem_cons.mp hpath with rfl | hpath
    · obtain ⟨write, hwrite, hkey⟩ := List.mem_map.mp (h.running _ hmem)
      exact ⟨⟨write, hwrite, by rw [hkey]⟩, h.allMeet.ended hmem⟩
    · exact h.acknowledged path hpath
  | stops hstop =>
    exact ⟨⟨h.allMeet.sublist hstop, fun task htask => h.running task (hstop.subset htask),
      h.acknowledged⟩, List.Subset.refl _, List.Subset.refl _, fun _ _ => Or.inl rfl⟩

/-- **The run lemma.** -/
theorem UploadRun.sound (hservice : service.capability.rename = true ∨ service.atomicWrites = true)
    (h : u.Sound service) (hrun : UploadRun service u u') :
    u'.Sound service ∧ u.begun ⊆ u'.begun ∧ u.acknowledged ⊆ u'.acknowledged ∧
      ∀ path, IsFinal path → Grows u'.batches u.objects u'.objects path := by
  induction hrun with
  | refl => exact ⟨h, List.Subset.refl _, List.Subset.refl _, fun _ _ => Or.inl rfl⟩
  | tail _ hstep ih =>
    obtain ⟨hsound, hbegun, hacknowledged, hgrows⟩ := ih
    obtain ⟨hsound', hbegun', hacknowledged', hgrows'⟩ := hstep.sound hservice hsound
    exact ⟨hsound', List.Subset.trans hbegun hbegun', List.Subset.trans hacknowledged hacknowledged',
      fun path hfinal =>
      (hgrows path hfinal).trans (hgrows' path hfinal) (List.map_subset _ hbegun')⟩

/-! ### What a store guarantees -/

/-- **A final path holds a whole file or nothing**: what was there before all sinks, or the file of the
events of a batch that was sent to it. -/
theorem uploads_whole (hservice : service.capability.rename = true ∨ service.atomicWrites = true)
    {objects : Objects ArrowParquet.File} (hrun : UploadRun service (.untouched objects) u)
    {path : String} (hfinal : IsFinal path) {object : Object ArrowParquet.File}
    (hobject : u.objects path = some object) :
    objects path = some object ∨ (objects path = none ∧ ∃ write ∈ u.begun,
      write.sink.path write.uuid write.metadata = path ∧
        ∃ file, write.sink.encode write.events = .ok file ∧ object = .whole file) := by
  obtain ⟨-, -, -, hgrows⟩ := hrun.sound hservice (Uploads.untouched_sound objects)
  rcases hgrows path hfinal with hsame | ⟨hnone, k, hk, hpath, file, hfile, hstored⟩
  · exact Or.inl (hsame.symm.trans hobject)
  · obtain ⟨write, hwrite, rfl⟩ := List.mem_map.mp hk
    exact Or.inr ⟨hnone, write, hwrite, hpath, file, hfile,
      Option.some.inj (hobject.symm.trans hstored)⟩

/-- **An acknowledged batch has a file, for ever**: its path holds an object, which no later call, failure
or crash changes; where no one else had put it there, it is the file of a batch that was sent to it. -/
theorem uploads_acknowledged
    (hservice : service.capability.rename = true ∨ service.atomicWrites = true)
    {objects : Objects ArrowParquet.File} (hrun : UploadRun service (.untouched objects) u)
    {path : String} (hacknowledged : path ∈ u.acknowledged) :
    ∃ object, u.objects path = some object ∧
      (∀ u', UploadRun service u u' → u'.objects path = some object) ∧
      (objects path = none → ∃ write ∈ u.begun,
        write.sink.path write.uuid write.metadata = path ∧
          ∃ file, write.sink.encode write.events = .ok file ∧ object = .whole file) := by
  obtain ⟨hsound, -, -, hgrows⟩ := hrun.sound hservice (Uploads.untouched_sound objects)
  obtain ⟨⟨write, hwrite, rfl⟩, hstored⟩ := hsound.acknowledged path hacknowledged
  obtain ⟨object, hobject⟩ := Option.ne_none_iff_exists'.mp hstored
  refine ⟨object, hobject, fun u' hlater => ?_, fun hfree => ?_⟩
  · obtain ⟨-, -, -, hlater⟩ := UploadRun.sound hservice hsound hlater
    rcases hlater _ write.isFinal_path with hsame | ⟨hnone, -⟩
    · exact hsame.trans hobject
    · exact absurd hnone hstored
  · rcases hgrows _ write.isFinal_path with hsame | ⟨-, k, hk, hpath, file, hfile, hwhole⟩
    · exact absurd (hsame.trans hfree) hstored
    · obtain ⟨write', hwrite', rfl⟩ := List.mem_map.mp hk
      exact ⟨write', hwrite', hpath, file, hfile, Option.some.inj (hobject.symm.trans hwhole)⟩

/-! ### Calls that run to their end -/

/-- The operations of one call, beside others that wait. -/
theorem UploadRun.of_reaches {k : Upload ArrowParquet.File}
    {program : Prog (StoreOp ArrowParquet.File) StoreResp (Except String Unit × Unit)}
    {c : Prog (StoreOp ArrowParquet.File) StoreResp (Except String Unit × Unit) ×
      Objects ArrowParquet.File}
    (hreach : Reaches (storeEnv service) (program, u.objects) c) :
    UploadRun service { u with running := ⟨k, program⟩ :: u.running }
      { u with objects := c.2, running := ⟨k, c.1⟩ :: u.running } := by
  induction hreach with
  | refl => exact Relation.ReflTransGen.refl
  | @tail c c' _ hstep ih =>
    have hpool : PoolStep (storeEnv service) ([] ++ ⟨k, c.1⟩ :: u.running, c.2)
        ([] ++ ⟨k, c'.1⟩ :: u.running, c'.2) := .run hstep
    have hnext : UploadStep service { u with objects := c.2, running := ⟨k, c.1⟩ :: u.running }
        { u with objects := c'.2, running := ⟨k, c'.1⟩ :: u.running } := .runs hpool
    exact ih.tail hnext

/-- **A call that is cut off** at some moment. -/
theorem UploadRun.cut_off {write : BatchWrite}
    {c : Prog (StoreOp ArrowParquet.File) StoreResp (Except String Unit × Unit) ×
      Objects ArrowParquet.File}
    (hcapability : write.sink.capability = service.capability)
    (hother : ∀ task ∈ u.running, task.key.path ≠ write.upload.path)
    (hreach : Reaches (storeEnv service) (write.program.start (), u.objects) c) :
    UploadRun service u { u with objects := c.2, begun := write :: u.begun } := by
  have hrun := UploadRun.of_reaches (k := write.upload)
    (u := { u with begun := write :: u.begun }) hreach
  have hstop : UploadStep service
      { u with objects := c.2, running := ⟨write.upload, c.1⟩ :: u.running, begun := write :: u.begun }
      { u with objects := c.2, begun := write :: u.begun } :=
    .stops (List.sublist_cons_self _ _)
  exact (Relation.ReflTransGen.head (.begins write hcapability hother) hrun).tail hstop

/-- **A call that succeeds.** -/
theorem UploadRun.succeeds {write : BatchWrite} {objects : Objects ArrowParquet.File}
    (hcapability : write.sink.capability = service.capability)
    (hother : ∀ task ∈ u.running, task.key.path ≠ write.upload.path)
    (hruns : Runs (storeEnv service) (write.program.start ()) u.objects (.ok (), ()) objects) :
    UploadRun service u { u with
      objects := objects
      begun := write :: u.begun
      acknowledged := write.upload.path :: u.acknowledged } := by
  have hrun := UploadRun.of_reaches (k := write.upload)
    (u := { u with begun := write :: u.begun }) hruns
  have hend : UploadStep service
      { u with
        objects := objects
        running := [] ++ ⟨write.upload, .pure (.ok (), ())⟩ :: u.running
        begun := write :: u.begun } _ := .acknowledges rfl
  exact (Relation.ReflTransGen.head (.begins write hcapability hother) hrun).tail hend

/-- **A batch can be written again**, after whatever failed before: a call on its path can succeed, and
then the path is acknowledged. -/
theorem uploads_retry {write : BatchWrite} {file : ArrowParquet.File}
    (hencode : write.sink.encode write.events = .ok file)
    (hcapability : write.sink.capability = service.capability)
    (hother : ∀ task ∈ u.running, task.key.path ≠ write.upload.path) :
    ∃ u', UploadRun service u u' ∧ write.upload.path ∈ u'.acknowledged := by
  have hsucceeds : Succeeds write.program (fun _ _ => True) u.objects := by
    rw [BatchWrite.program, ParquetSink.writeEvents, Succeeds, wpc_bind, wpc_ofExcept]
    refine ⟨fun _ _ => writeFile_succeeds _ _ _ _, fun _ herror => ?_⟩
    rw [hencode] at herror
    cases herror
  have hruns := runs_exec (storeAnswer_storeEnv service) (write.program.start ()) u.objects
  rw [hsucceeds.exec] at hruns
  exact ⟨_, UploadRun.succeeds hcapability hother hruns, List.mem_cons_self⟩

end Uploads

/-! ### A sample store -/

section Sample

attribute [local instance] sampleText sampleParquet

/-- A store that can rename and does not write atomically. -/
def fsService : Service := ⟨⟨true, false⟩, false⟩

/-- A batch of two events. -/
def sampleWrite : BatchWrite :=
  ⟨⟨fsService.capability, "events", "main", [], true⟩, "", [.null, .bool true], some ⟨"n", 1, 2⟩⟩

/-- Every write fails, and leaves a torn object. -/
def tearingAnswer {F : Type} : (o : StoreOp F) → Objects F → StoreResp o × Objects F
  | .write path _, s => (.error ⟨.other, "disk full"⟩, s.put path .torn)
  | o, s => storeAnswer o s

theorem tearingAnswer_fs {F : Type} (o : StoreOp F) (s : Objects F) :
    storeEnv fsService o s (tearingAnswer o s).1 (tearingAnswer o s).2 := by
  cases o with
  | write path file => exact Or.inr ⟨⟨_, rfl⟩, Or.inr (Or.inr ⟨rfl, rfl⟩)⟩
  | createDir path => exact storeAnswer_storeEnv fsService (.createDir path) s
  | «exists» path => exact storeAnswer_storeEnv fsService (.exists path) s
  | writeIfNotExists path file =>
    exact storeAnswer_storeEnv fsService (.writeIfNotExists path file) s
  | rename source target => exact storeAnswer_storeEnv fsService (.rename source target) s
  | delete path => exact storeAnswer_storeEnv fsService (.delete path) s

/-- After a call whose write fails. -/
@[irreducible] def tornObjects : Objects sampleParquet.File :=
  ((sampleWrite.program.start ()).exec tearingAnswer fun _ => none).2

/-- After another call. -/
@[irreducible] def writtenObjects : Objects sampleParquet.File :=
  ((sampleWrite.program.start ()).exec storeAnswer tornObjects).2

/-- The batch is sent twice, the first time without success. -/
theorem sampleRun_uploads : UploadRun fsService (.untouched fun _ => none)
    ⟨writtenObjects, [], [sampleWrite, sampleWrite], [sampleWrite.upload.path]⟩ := by
  obtain ⟨result, hfailed⟩ : ∃ result, Runs (storeEnv fsService) (sampleWrite.program.start ())
      (fun _ => none) result tornObjects := by
    unfold tornObjects
    exact ⟨_, runs_exec tearingAnswer_fs _ _⟩
  have hwritten : Runs (storeEnv fsService) (sampleWrite.program.start ()) tornObjects
      (.ok (), ()) writtenObjects := by
    have hruns := runs_exec (storeAnswer_storeEnv fsService) (sampleWrite.program.start ())
      tornObjects
    have hresult : ((sampleWrite.program.start ()).exec storeAnswer tornObjects).1 =
        (.ok (), ()) := by
      decide +kernel
    unfold writtenObjects
    rwa [hresult] at hruns
  exact (UploadRun.cut_off (u := .untouched _) rfl (by rintro _ ⟨⟩) hfailed).trans
    (UploadRun.succeeds rfl (by rintro _ ⟨⟩) hwritten)

/-- The final path holds the file of the batch. -/
theorem uploads_whole_sample :
    ∃ object, writtenObjects sampleWrite.upload.path = some object ∧
      ∃ file, sampleWrite.sink.encode sampleWrite.events = .ok file ∧ object = .whole file := by
  obtain ⟨object, hobject⟩ := Option.isSome_iff_exists.mp
    (show (writtenObjects sampleWrite.upload.path).isSome = true by decide +kernel)
  rcases uploads_whole (Or.inl rfl) sampleRun_uploads sampleWrite.isFinal_path hobject with
    hbefore | ⟨-, write, hwrite, -, file, hfile, hwhole⟩
  · cases hbefore
  · have hsame : write = sampleWrite := by simpa using hwrite
    exact ⟨object, hobject, file, hsame ▸ hfile, hwhole⟩

/-- The acknowledged batch has its file for ever. -/
theorem uploads_acknowledged_sample :
    ∃ object, writtenObjects sampleWrite.upload.path = some object ∧
      ∀ u', UploadRun fsService
          ⟨writtenObjects, [], [sampleWrite, sampleWrite], [sampleWrite.upload.path]⟩ u' →
        u'.objects sampleWrite.upload.path = some object := by
  obtain ⟨object, hobject, hstays, -⟩ :=
    uploads_acknowledged (Or.inl rfl) sampleRun_uploads List.mem_cons_self
  exact ⟨object, hobject, hstays⟩

end Sample

end Ingest4x.Sinks.Parquet
