import Ingest4x.Repositories.EventSinks
import Ingest4x.Sinks.Parquet
import Ingest4x.Text
import Ingest4x.Wal.NodeId
import Ingest4x.Wal.System

/-! # The names of Parquet files

A batch is written under a name that its node and its LSNs determine, in a directory of its sink. So a
batch that is sent again meets its own file, and no other batch of any node or sink does.

* **`parquetFileName`**, **`finalPath`** — the names.
* **`parquetFileName_injective`** — a name stands for one batch.
* **`finalPath_injective`** — a path stands for one batch of one sink. -/

namespace Ingest4x.Sinks.Parquet

open Ingest4x.Wal

/-! ### Splitting at the last separator -/

/-- **The last separator splits a list in one way.** -/
theorem append_cons_last {α : Type} {c : α} {front front' back back' : List α}
    (h : front ++ c :: back = front' ++ c :: back') (hback : c ∉ back) (hback' : c ∉ back') :
    front = front' ∧ back = back' := by
  rcases List.append_eq_append_iff.mp h with ⟨rest, rfl, hrest⟩ | ⟨rest, rfl, hrest⟩
  · cases rest with
    | nil => exact ⟨by simp, (List.cons.inj hrest).2⟩
    | cons d rest =>
      obtain ⟨rfl, rfl⟩ := List.cons.inj hrest
      simp at hback
  · cases rest with
    | nil => exact ⟨by simp, (List.cons.inj hrest).2.symm⟩
    | cons d rest =>
      obtain ⟨rfl, rfl⟩ := List.cons.inj hrest
      simp at hback'

/-! ### File names -/

/-- **`parquet_file_name`**, where `uuid` is the answer of `Uuid::new_v4`. -/
def parquetFileName (uuid : String) : Option EventSinkBatchMetadata → String
  | some metadata =>
    "node-" ++ metadata.nodeId ++ "-lsn-" ++ Text.zeroPad 16 metadata.lsnStart ++ "-" ++
      Text.zeroPad 16 metadata.lsnEnd ++ ".parquet"
  | none => uuid ++ ".parquet"

/-- The part of a name before the last LSN. -/
theorem toList_parquetFileName (uuid : String) (metadata : EventSinkBatchMetadata) :
    (parquetFileName uuid (some metadata)).toList =
      ((("node-" ++ metadata.nodeId ++ "-lsn").toList ++
          '-' :: (Text.zeroPad 16 metadata.lsnStart).toList) ++
        '-' :: (Text.zeroPad 16 metadata.lsnEnd).toList) ++ ".parquet".toList := by
  simp [parquetFileName]

/-- A number has no separator. -/
theorem dash_notMem_zeroPad (n : Nat) : '-' ∉ (Text.zeroPad 16 n).toList := by
  intro h
  have hdigit := Text.isDigit_of_mem_zeroPad h
  revert hdigit
  decide

/-- **A file name stands for one batch**, whatever characters the node id has. -/
theorem parquetFileName_injective (uuid uuid' : String) {metadata metadata' : EventSinkBatchMetadata}
    (h : parquetFileName uuid (some metadata) = parquetFileName uuid' (some metadata')) :
    metadata = metadata' := by
  have hlist := congrArg String.toList h
  rw [toList_parquetFileName, toList_parquetFileName] at hlist
  -- the LSNs are what stands behind the last two separators
  obtain ⟨hfront, hend⟩ := append_cons_last (List.append_cancel_right hlist)
    (dash_notMem_zeroPad _) (dash_notMem_zeroPad _)
  obtain ⟨hnode, hstart⟩ := append_cons_last hfront (dash_notMem_zeroPad _) (dash_notMem_zeroPad _)
  have hlsnEnd := Text.zeroPad_injective 16 (String.toList_inj.mp hend)
  have hlsnStart := Text.zeroPad_injective 16 (String.toList_inj.mp hstart)
  have hnodeId : metadata.nodeId = metadata'.nodeId := by
    simpa [String.toList_inj] using hnode
  cases metadata
  cases metadata'
  simp_all

/-! ### Paths -/

/-- `join_path`. -/
def joinPath (start fileName : String) : String :=
  if start = "" then fileName
  else Text.trimMatches '/' start ++ "/" ++ Text.trimMatches '/' fileName

/-- `normalize_path_prefix`. -/
def normalizePathPrefix (value : String) : String := Text.trimMatches '/' value

/-- **The path of a file**, as `write_events` builds it. -/
def finalPath (pathPrefix sinkPathComponent fileName : String) : String :=
  joinPath (joinPath pathPrefix sinkPathComponent) fileName

/-- The path next to it that the file is written to first. -/
def tempPath (path : String) : String := path ++ ".tmp"

/-- A text without slashes has none at its ends. -/
theorem trimmedOf_of_notMem {s : String} (h : '/' ∉ s.toList) : Text.TrimmedOf '/' s := by
  refine ⟨?_, ?_⟩
  · rintro d hd rfl
    exact h (List.mem_of_mem_head? hd)
  · rintro d hd rfl
    exact h (List.mem_of_mem_getLast? hd)

/-- A sink id is one component of a path. -/
theorem slash_notMem_sinkId {sinkId : String} (h : validateEventSinkId sinkId = .ok ()) :
    sinkId.toList ≠ [] ∧ '/' ∉ sinkId.toList := by
  unfold validateEventSinkId at h
  split_ifs at h with hvalid
  refine ⟨by simpa using hvalid.1, fun hmem => ?_⟩
  have hchar := List.all_eq_true.mp hvalid.2 _ hmem
  revert hchar
  decide

/-- A file name is one component of a path. -/
theorem slash_notMem_parquetFileName (uuid : String) {metadata : EventSinkBatchMetadata}
    (h : IsNodeId metadata.nodeId) :
    '/' ∉ (parquetFileName uuid (some metadata)).toList := by
  have hnode : '/' ∉ metadata.nodeId.toList := by
    intro hmem
    have hchar := List.all_eq_true.mp (validateNodeId_eq_ok.mp h.2) _ hmem
    revert hchar
    decide
  have hnumber : ∀ n, '/' ∉ (Text.zeroPad 16 n).toList := by
    intro n hmem
    have hdigit := Text.isDigit_of_mem_zeroPad hmem
    revert hdigit
    decide
  simp [parquetFileName, hnode, hnumber]

/-- The directory of a sink. -/
theorem toList_joinPath_sink (value : String) {sinkId : String} (h : '/' ∉ sinkId.toList) :
    (joinPath (normalizePathPrefix value) sinkId).toList =
      if normalizePathPrefix value = "" then sinkId.toList
      else (normalizePathPrefix value).toList ++ '/' :: sinkId.toList := by
  unfold joinPath
  split_ifs with hempty
  · rfl
  · rw [normalizePathPrefix, Text.trimMatches_trimMatches,
      Text.trimMatches_eq_self (trimmedOf_of_notMem h)]
    simp

/-- The directory of a sink is not empty and needs no trimming. -/
theorem trimmedOf_joinPath_sink (value : String) {sinkId : String} (hne : sinkId.toList ≠ [])
    (h : '/' ∉ sinkId.toList) :
    joinPath (normalizePathPrefix value) sinkId ≠ "" ∧
      Text.TrimmedOf '/' (joinPath (normalizePathPrefix value) sinkId) := by
  have hlist := toList_joinPath_sink value h
  have hstart := Text.trimmedOf_trimMatches '/' value
  split_ifs at hlist with hempty
  · rw [String.toList_inj.mp hlist]
    exact ⟨by simpa using hne, trimmedOf_of_notMem h⟩
  · refine ⟨?_, ?_, ?_⟩
    · intro hnil
      rw [hnil] at hlist
      simp at hlist
    · intro d hd
      rw [hlist, List.head?_append] at hd
      refine hstart.head d ?_
      cases hhead : (normalizePathPrefix value).toList.head? with
      | none =>
        rw [List.head?_eq_none_iff] at hhead
        exact absurd (String.toList_eq_nil_iff.mp hhead) hempty
      | some d' =>
        rw [hhead, Option.some_or] at hd
        obtain rfl : d' = d := Option.some.inj hd
        exact hhead
    · intro d hd
      rw [hlist, List.getLast?_append, List.getLast?_cons] at hd
      have hsink : sinkId.toList.getLast? = some (sinkId.toList.getLast hne) :=
        List.getLast?_eq_some_getLast hne
      simp only [hsink, Option.getD_some, Option.some_or, Option.mem_def, Option.some.injEq] at hd
      exact (trimmedOf_of_notMem h).last d (hd ▸ hsink)

/-- **A path has three parts**: the prefix, the sink and the file. -/
theorem toList_finalPath {value sinkId fileName : String} (hsink : validateEventSinkId sinkId = .ok ())
    (hfile : '/' ∉ fileName.toList) :
    (finalPath (normalizePathPrefix value) sinkId fileName).toList =
      (joinPath (normalizePathPrefix value) sinkId).toList ++ '/' :: fileName.toList := by
  obtain ⟨hne, hslash⟩ := slash_notMem_sinkId hsink
  obtain ⟨hdir, htrimmed⟩ := trimmedOf_joinPath_sink value hne hslash
  rw [finalPath, joinPath, if_neg hdir, Text.trimMatches_eq_self htrimmed,
    Text.trimMatches_eq_self (trimmedOf_of_notMem hfile)]
  simp

/-- **A path stands for one batch of one sink**, below the prefixes that sinks are configured with. -/
theorem finalPath_injective {value value' sinkId sinkId' uuid uuid' : String}
    {metadata metadata' : EventSinkBatchMetadata} (hsink : validateEventSinkId sinkId = .ok ())
    (hsink' : validateEventSinkId sinkId' = .ok ()) (hnode : IsNodeId metadata.nodeId)
    (hnode' : IsNodeId metadata'.nodeId)
    (h : finalPath (normalizePathPrefix value) sinkId (parquetFileName uuid (some metadata)) =
      finalPath (normalizePathPrefix value') sinkId' (parquetFileName uuid' (some metadata'))) :
    normalizePathPrefix value = normalizePathPrefix value' ∧ sinkId = sinkId' ∧
      metadata = metadata' := by
  have hlist := congrArg String.toList h
  have hname := slash_notMem_parquetFileName uuid hnode
  have hname' := slash_notMem_parquetFileName uuid' hnode'
  rw [toList_finalPath hsink hname, toList_finalPath hsink' hname'] at hlist
  obtain ⟨hdir, hfile⟩ := append_cons_last hlist hname hname'
  have hmetadata := parquetFileName_injective uuid uuid' (String.toList_inj.mp hfile)
  obtain ⟨-, hslash⟩ := slash_notMem_sinkId hsink
  obtain ⟨-, hslash'⟩ := slash_notMem_sinkId hsink'
  rw [toList_joinPath_sink value hslash, toList_joinPath_sink value' hslash'] at hdir
  -- a directory has a slash just where there is a prefix
  split_ifs at hdir with hempty hempty' hempty'
  · exact ⟨hempty.trans hempty'.symm, String.toList_inj.mp hdir, hmetadata⟩
  · exact absurd (by rw [hdir]; simp) hslash
  · exact absurd (by rw [← hdir]; simp) hslash'
  · obtain ⟨hstart, hsinkId⟩ := append_cons_last hdir hslash hslash'
    exact ⟨String.toList_inj.mp hstart, String.toList_inj.mp hsinkId, hmetadata⟩

/-- Two nodes whose names end in what looks like LSNs do not share a file. -/
theorem finalPath_injective_sample :
    finalPath (normalizePathPrefix "/events/") "s3.main" (parquetFileName "" (some ⟨"a-lsn-1", 2, 3⟩)) =
        "events/s3.main/node-a-lsn-1-lsn-0000000000000002-0000000000000003.parquet" ∧
      ∀ metadata : EventSinkBatchMetadata, IsNodeId metadata.nodeId →
        finalPath (normalizePathPrefix "/events/") "s3.main"
            (parquetFileName "" (some ⟨"a-lsn-1", 2, 3⟩)) =
          finalPath (normalizePathPrefix "/events/") "s3.main" (parquetFileName "" (some metadata)) →
        metadata = ⟨"a-lsn-1", 2, 3⟩ :=
  ⟨by decide +kernel, fun _ hnode h =>
    (finalPath_injective rfl rfl (by decide +kernel) hnode h).2.2.symm⟩

end Ingest4x.Sinks.Parquet
